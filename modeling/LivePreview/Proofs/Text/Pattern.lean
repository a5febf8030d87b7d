import LivePreview.Text.Matching

/-!
Characters in texts that match a pattern: those that no matching text holds, and those of which
every matching text holds one. Two patterns of which one avoids what the other requires describe
no text together.
-/

namespace LivePreview.Text

namespace Pattern

def avoids (cs : List Char) : Pattern → Bool
  | .nothing => true
  | .empty => true
  | .symbol s => cs.all fun c => !s.accepts c
  | .seq p q => p.avoids cs && q.avoids cs
  | .either p q => p.avoids cs && q.avoids cs
  | .many p => p.avoids cs

def requires (cs : List Char) : Pattern → Bool
  | .nothing => true
  | .empty => false
  | .symbol (.char c) => cs.contains c
  | .symbol _ => false
  | .seq p q => p.requires cs || q.requires cs
  | .either p q => p.requires cs && q.requires cs
  | .many _ => false

variable {p q : Pattern} {cs u : List Char}

theorem not_mem_of_avoids (h : Matches p u) (hp : p.avoids cs) : ∀ c ∈ u, c ∉ cs := by
  induction h with
  | empty => simp
  | @symbol s c hs =>
    intro d hd hmem
    obtain rfl := List.mem_singleton.1 hd
    have hnot := List.all_eq_true.1 hp d hmem
    simp [hs] at hnot
  | seq _ _ ihu ihv =>
    obtain ⟨hfirst, hsecond⟩ := Bool.and_eq_true_iff.1 hp
    intro c hc
    rcases List.mem_append.1 hc with hc | hc
    · exact ihu hfirst c hc
    · exact ihv hsecond c hc
  | left _ ih => exact ih (Bool.and_eq_true_iff.1 hp).1
  | right _ ih => exact ih (Bool.and_eq_true_iff.1 hp).2
  | none => simp
  | more _ _ ihu ihv =>
    intro c hc
    rcases List.mem_append.1 hc with hc | hc
    · exact ihu hp c hc
    · exact ihv hp c hc

theorem exists_mem_of_requires (h : Matches p u) (hp : p.requires cs) : ∃ c ∈ u, c ∈ cs := by
  induction h with
  | empty => cases hp
  | @symbol s c hs =>
    cases s with
    | char d =>
      have hcd : c = d := by simpa [Symbol.accepts] using hs
      have hmem : d ∈ cs := by simpa [requires] using hp
      exact ⟨c, by simp, hcd ▸ hmem⟩
    | blank => cases hp
    | nameChar => cases hp
    | nameStart => cases hp
    | noneOf ds => cases hp
  | seq _ _ ihu ihv =>
    rcases Bool.or_eq_true_iff.1 hp with hp | hp
    · obtain ⟨c, hc, hmem⟩ := ihu hp
      exact ⟨c, by simp [hc], hmem⟩
    · obtain ⟨c, hc, hmem⟩ := ihv hp
      exact ⟨c, by simp [hc], hmem⟩
  | left _ ih => exact ih (Bool.and_eq_true_iff.1 hp).1
  | right _ ih => exact ih (Bool.and_eq_true_iff.1 hp).2
  | none => cases hp
  | more => cases hp

theorem not_accepts_of_requires (hp : p.avoids cs) (hq : q.requires cs) (h : p.accepts u) :
    q.accepts u = false := by
  cases hu : q.accepts u with
  | false => rfl
  | true =>
    obtain ⟨c, hc, hmem⟩ := exists_mem_of_requires (accepts_iff.1 hu) hq
    exact absurd hmem (not_mem_of_avoids (accepts_iff.1 h) hp c hc)

theorem all_of_matches_many {s : Symbol} (h : Matches (.many (.symbol s)) u) :
    ∀ c ∈ u, s.accepts c := by
  generalize hp : Pattern.many (.symbol s) = p at h
  induction h with
  | none => simp
  | more hu _ _ ih =>
    cases hp
    obtain ⟨d, hd, rfl⟩ := matches_symbol_iff.1 hu
    intro c hc
    rcases List.mem_append.1 hc with hc | hc
    · exact List.mem_singleton.1 hc ▸ hd
    · exact ih rfl c hc
  | _ => cases hp

theorem matches_char (c : Char) : Matches (char c) [c] :=
  .symbol (beq_self_eq_true c)

theorem matches_many_of_all {s : Symbol} (h : ∀ c ∈ u, s.accepts c) :
    Matches (.many (.symbol s)) u := by
  induction u with
  | nil => exact .none
  | cons c u ih =>
    have hrest := ih fun d hd => h d (List.mem_cons_of_mem c hd)
    exact .more (.symbol (h c List.mem_cons_self)) hrest

theorem matches_some_of_all {s : Symbol} (hne : u ≠ []) (h : ∀ c ∈ u, s.accepts c) :
    Matches (some (.symbol s)) u := by
  obtain ⟨c, v, rfl⟩ := List.exists_cons_of_ne_nil hne
  have hrest := matches_many_of_all fun d hd => h d (List.mem_cons_of_mem c hd)
  exact .seq (.symbol (h c List.mem_cons_self)) hrest

theorem matches_all_append {ps qs : List Pattern} (h : Matches (all (ps ++ qs)) u) :
    ∃ v w, u = v ++ w ∧ Matches (all ps) v ∧ Matches (all qs) w := by
  induction ps generalizing u with
  | nil => exact ⟨[], u, rfl, .empty, h⟩
  | cons p ps ih =>
    obtain ⟨x, y, rfl, hx, hy⟩ := matches_seq_iff.1 h
    obtain ⟨v, w, rfl, hv, hw⟩ := ih hy
    exact ⟨x ++ v, w, (List.append_assoc x v w).symm, .seq hx hv, hw⟩

theorem matches_word_iff {s : String} : Matches (word s) u ↔ u = s.toList := by
  unfold word
  generalize s.toList = letters
  induction letters generalizing u with
  | nil =>
    constructor
    · intro h
      cases h
      rfl
    · rintro rfl
      exact .empty
  | cons c letters ih =>
    have hcons : all ((c :: letters).map char) = .seq (char c) (all (letters.map char)) := rfl
    rw [hcons, matches_seq_iff]
    constructor
    · rintro ⟨v, w, rfl, hv, hw⟩
      obtain ⟨d, hd, rfl⟩ := matches_symbol_iff.1 hv
      rw [ih.1 hw, eq_of_beq hd]
      rfl
    · rintro rfl
      exact ⟨[c], letters, rfl, .symbol (by simp [Symbol.accepts]), ih.2 rfl⟩

end Pattern

def blankCodes : List Nat :=
  [0x09, 0x0A, 0x0B, 0x0C, 0x0D, 0x20, 0x85, 0xA0, 0x1680, 0x2000, 0x2001, 0x2002, 0x2003, 0x2004,
    0x2005, 0x2006, 0x2007, 0x2008, 0x2009, 0x200A, 0x2028, 0x2029, 0x202F, 0x205F, 0x3000]

theorem mem_blankCodes {c : Char} (h : isBlank c) : c.toNat ∈ blankCodes := by
  simp only [isBlank, Bool.or_eq_true, Bool.and_eq_true, decide_eq_true_eq, beq_iff_eq] at h
  simp only [blankCodes, List.mem_cons, List.not_mem_nil, or_false]
  omega

theorem not_isNameChar_of_isBlank {c : Char} (h : isBlank c) : isNameChar c = false := by
  have hall : ∀ n ∈ blankCodes, isNameChar (Char.ofNat n) = false := by decide +kernel
  have hcode := hall c.toNat (mem_blankCodes h)
  rwa [Char.ofNat_toNat] at hcode

end LivePreview.Text
