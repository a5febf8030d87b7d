import LivePreview.Text.Pattern

/-!
Reading a text against a pattern decides whether the pattern describes the text: a text that starts
with `c` matches a pattern exactly when its rest matches one of the patterns after `c`.
-/

namespace LivePreview.Text.Pattern

theorem matches_symbol_iff {s : Symbol} {cs : List Char} :
    Matches (.symbol s) cs ↔ ∃ c, s.accepts c ∧ cs = [c] := by
  constructor
  · rintro ⟨⟩
    exact ⟨_, by assumption, rfl⟩
  · rintro ⟨c, h, rfl⟩
    exact .symbol h

theorem matches_seq_iff {p q : Pattern} {cs : List Char} :
    Matches (.seq p q) cs ↔ ∃ u v, cs = u ++ v ∧ Matches p u ∧ Matches q v := by
  constructor
  · rintro ⟨⟩
    exact ⟨_, _, rfl, by assumption, by assumption⟩
  · rintro ⟨u, v, rfl, hu, hv⟩
    exact .seq hu hv

theorem matches_either_iff {p q : Pattern} {cs : List Char} :
    Matches (.either p q) cs ↔ Matches p cs ∨ Matches q cs := by
  constructor
  · rintro (_ | _ | _ | h | h)
    · exact .inl h
    · exact .inr h
  · rintro (h | h)
    · exact .left h
    · exact .right h

theorem matches_many_cons_iff {p : Pattern} {c : Char} {cs : List Char} :
    Matches (.many p) (c :: cs) ↔
      ∃ u v, cs = u ++ v ∧ Matches p (c :: u) ∧ Matches (.many p) v := by
  constructor
  · intro h
    generalize hq : Pattern.many p = q at h
    generalize hw : c :: cs = w at h
    induction h with
    | none => cases hw
    | @more p' u v hu hv _ ih =>
        cases hq
        match u with
        | [] => exact ih rfl hw
        | d :: u =>
            cases hw
            exact ⟨u, v, rfl, hu, hv⟩
    | _ => cases hq
  · rintro ⟨u, v, rfl, hu, hv⟩
    exact .more hu hv

theorem nullable_iff {p : Pattern} : p.nullable ↔ Matches p [] := by
  induction p with
  | nothing => exact ⟨nofun, nofun⟩
  | empty => exact ⟨fun _ => .empty, fun _ => rfl⟩
  | symbol s => simp [nullable, matches_symbol_iff]
  | seq p q ihp ihq =>
      simp only [nullable, Bool.and_eq_true, ihp, ihq, matches_seq_iff]
      constructor
      · exact fun h => ⟨[], [], rfl, h.1, h.2⟩
      · rintro ⟨u, v, huv, hu, hv⟩
        obtain ⟨rfl, rfl⟩ := List.append_eq_nil_iff.1 huv.symm
        exact ⟨hu, hv⟩
  | either p q ihp ihq => simp [nullable, matches_either_iff, ihp, ihq]
  | many p => exact ⟨fun _ => .none, fun _ => rfl⟩

theorem exists_mem_after_iff {p : Pattern} {c : Char} {cs : List Char} :
    (∃ q ∈ p.after c, Matches q cs) ↔ Matches p (c :: cs) := by
  induction p generalizing cs with
  | nothing => exact ⟨nofun, nofun⟩
  | empty => exact ⟨nofun, nofun⟩
  | symbol s =>
      rw [matches_symbol_iff, after]
      split
      · rename_i h
        constructor
        · simp only [List.mem_singleton, exists_eq_left]
          rintro ⟨⟩
          exact ⟨c, h, rfl⟩
        · rintro ⟨d, _, hd⟩
          cases hd
          exact ⟨.empty, by simp, .empty⟩
      · rename_i h
        constructor
        · nofun
        · rintro ⟨d, hs, hd⟩
          cases hd
          exact absurd hs h
  | seq p q ihp ihq =>
      have rests : (∃ r ∈ (p.after c).map (·.seq q), Matches r cs) ↔
          ∃ u v, cs = u ++ v ∧ Matches p (c :: u) ∧ Matches q v := by
        constructor
        · rintro ⟨_, hmem, h⟩
          obtain ⟨r, hr, rfl⟩ := List.mem_map.1 hmem
          obtain ⟨u, v, rfl, hu, hv⟩ := matches_seq_iff.1 h
          exact ⟨u, v, rfl, ihp.1 ⟨r, hr, hu⟩, hv⟩
        · rintro ⟨u, v, rfl, hu, hv⟩
          obtain ⟨r, hr, hu⟩ := ihp.2 hu
          exact ⟨r.seq q, List.mem_map.2 ⟨r, hr, rfl⟩, .seq hu hv⟩
      rw [matches_seq_iff, after]
      constructor
      · intro h
        split at h
        · rename_i empty
          obtain ⟨r, hr, h⟩ := h
          rcases List.mem_append.1 hr with hr | hr
          · obtain ⟨u, v, rfl, hu, hv⟩ := rests.1 ⟨r, hr, h⟩
            exact ⟨c :: u, v, rfl, hu, hv⟩
          · exact ⟨[], c :: cs, rfl, nullable_iff.1 empty, ihq.1 ⟨r, hr, h⟩⟩
        · obtain ⟨u, v, rfl, hu, hv⟩ := rests.1 h
          exact ⟨c :: u, v, rfl, hu, hv⟩
      · rintro ⟨u, v, huv, hu, hv⟩
        match u, huv with
        | [], huv =>
            cases huv
            obtain ⟨r, hr, h⟩ := ihq.2 hv
            rw [if_pos (nullable_iff.2 hu)]
            exact ⟨r, List.mem_append_right _ hr, h⟩
        | d :: u, huv =>
            cases huv
            obtain ⟨r, hr, h⟩ := rests.2 ⟨u, v, rfl, hu, hv⟩
            refine ⟨r, ?_, h⟩
            split
            · exact List.mem_append_left _ hr
            · exact hr
  | either p q ihp ihq =>
      rw [matches_either_iff, ← ihp, ← ihq, after]
      simp only [List.mem_append, or_and_right, exists_or]
  | many p ih =>
      rw [matches_many_cons_iff, after]
      constructor
      · rintro ⟨_, hmem, h⟩
        obtain ⟨r, hr, rfl⟩ := List.mem_map.1 hmem
        obtain ⟨u, v, rfl, hu, hv⟩ := matches_seq_iff.1 h
        exact ⟨u, v, rfl, ih.1 ⟨r, hr, hu⟩, hv⟩
      · rintro ⟨u, v, rfl, hu, hv⟩
        obtain ⟨r, hr, hu⟩ := ih.2 hu
        exact ⟨r.seq (.many p), List.mem_map.2 ⟨r, hr, rfl⟩, .seq hu hv⟩

theorem exists_mem_step_iff {ps : List Pattern} {c : Char} {cs : List Char} :
    (∃ q ∈ step ps c, Matches q cs) ↔ ∃ p ∈ ps, Matches p (c :: cs) := by
  simp only [step, List.mem_eraseDups, List.mem_flatMap]
  constructor
  · rintro ⟨q, ⟨p, hp, hq⟩, h⟩
    exact ⟨p, hp, exists_mem_after_iff.1 ⟨q, hq, h⟩⟩
  · rintro ⟨p, hp, h⟩
    obtain ⟨q, hq, h⟩ := exists_mem_after_iff.2 h
    exact ⟨q, ⟨p, hp, hq⟩, h⟩

theorem any_nullable_foldl_step_iff {ps : List Pattern} {cs : List Char} :
    (cs.foldl step ps).any nullable ↔ ∃ p ∈ ps, Matches p cs := by
  induction cs generalizing ps with
  | nil => simp [nullable_iff]
  | cons c cs ih => rw [List.foldl_cons, ih, exists_mem_step_iff]

theorem accepts_iff {p : Pattern} {cs : List Char} : p.accepts cs ↔ Matches p cs := by
  rw [accepts, any_nullable_foldl_step_iff]
  simp

instance {p : Pattern} {cs : List Char} : Decidable (Matches p cs) :=
  decidable_of_iff _ accepts_iff

end LivePreview.Text.Pattern
