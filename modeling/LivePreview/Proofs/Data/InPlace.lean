import Mathlib.Data.List.Basic
import LivePreview.Data.Placeholder

/-!
Placeholders filled in place. A scan keeps the whole text and the byte up to which it is settled;
each round looks for the next placeholder behind that byte and puts the value in its stead, and less
is left to be read.
-/

namespace LivePreview.Placeholder

def byteSize : List Char → Nat
  | [] => 0
  | c :: cs => c.utf8Size + byteSize cs

def cutAt? (byte : Nat) : List Char → Option (List Char × List Char)
  | [] => if byte = 0 then some ([], []) else none
  | c :: cs =>
      if byte = 0 then some ([], c :: cs)
      else if c.utf8Size ≤ byte then
        (cutAt? (byte - c.utf8Size) cs).map fun cut => (c :: cut.1, cut.2)
      else none

def sliceTo? (byte : Nat) (text : List Char) : Option (List Char) :=
  (cutAt? byte text).map (·.1)

def sliceFrom? (byte : Nat) (text : List Char) : Option (List Char) :=
  (cutAt? byte text).map (·.2)

def slice? (first last : Nat) (text : List Char) : Option (List Char) :=
  (sliceTo? last text).bind (sliceFrom? first)

section Slices

variable {text u v w : List Char} {byte : Nat}

theorem byteSize_append : byteSize (u ++ v) = byteSize u + byteSize v := by
  induction u with
  | nil => exact (Nat.zero_add _).symm
  | cons c u ih => rw [List.cons_append, byteSize, ih, byteSize, Nat.add_assoc]

theorem cutAt?_append (u v : List Char) : cutAt? (byteSize u) (u ++ v) = some (u, v) := by
  induction u with
  | nil => cases v <;> rfl
  | cons c u ih =>
    have hsize : byteSize (c :: u) = c.utf8Size + byteSize u := rfl
    have hpos := c.utf8Size_pos
    rw [List.cons_append, cutAt?, if_neg (by omega), if_pos (by omega), hsize,
      Nat.add_sub_cancel_left, ih]
    rfl

theorem sliceTo?_eq (htext : text = u ++ v) (hbyte : byte = byteSize u) :
    sliceTo? byte text = some u := by
  rw [sliceTo?, htext, hbyte, cutAt?_append]
  rfl

theorem sliceFrom?_eq (htext : text = u ++ v) (hbyte : byte = byteSize u) :
    sliceFrom? byte text = some v := by
  rw [sliceFrom?, htext, hbyte, cutAt?_append]
  rfl

theorem slice?_eq {first last : Nat} (htext : text = u ++ v ++ w) (hfirst : first = byteSize u)
    (hlast : last = byteSize (u ++ v)) : slice? first last text = some v := by
  rw [slice?, sliceTo?_eq htext hlast]
  exact sliceFrom?_eq rfl hfirst

theorem eq_append_of_cutAt? (h : cutAt? byte text = some (u, v)) :
    text = u ++ v ∧ byteSize u = byte := by
  induction text generalizing byte u with
  | nil =>
    rw [cutAt?] at h
    split at h
    case isTrue hbyte =>
      obtain ⟨rfl, rfl⟩ := Prod.mk.inj (Option.some.inj h)
      exact ⟨rfl, hbyte.symm⟩
    case isFalse => cases h
  | cons c text ih =>
    rw [cutAt?] at h
    split at h
    case isTrue hbyte =>
      obtain ⟨rfl, rfl⟩ := Prod.mk.inj (Option.some.inj h)
      exact ⟨rfl, hbyte.symm⟩
    case isFalse =>
      split at h
      case isTrue hle =>
        obtain ⟨⟨u', v'⟩, hcut, heq⟩ := Option.map_eq_some_iff.1 h
        obtain ⟨rfl, rfl⟩ := Prod.mk.inj heq
        obtain ⟨rfl, hsize⟩ := ih hcut
        exact ⟨rfl, by rw [byteSize, hsize, Nat.add_sub_cancel' hle]⟩
      case isFalse => cases h

theorem eq_append_of_sliceTo? (h : sliceTo? byte text = some u) :
    ∃ v, text = u ++ v ∧ byteSize u = byte := by
  obtain ⟨⟨_, v⟩, hcut, rfl⟩ := Option.map_eq_some_iff.1 h
  exact ⟨v, eq_append_of_cutAt? hcut⟩

theorem eq_append_of_sliceFrom? (h : sliceFrom? byte text = some v) :
    ∃ u, text = u ++ v ∧ byteSize u = byte := by
  obtain ⟨⟨u, _⟩, hcut, rfl⟩ := Option.map_eq_some_iff.1 h
  exact ⟨u, eq_append_of_cutAt? hcut⟩

end Slices

def find? (word : List Char) : List Char → Option Nat
  | [] => if word.isEmpty then some 0 else none
  | c :: cs =>
      if word.isPrefixOf (c :: cs) then some 0 else (find? word cs).map (c.utf8Size + ·)

structure Scan where
  text : List Char
  settled : Nat
  deriving DecidableEq, Repr

inductive Round where
  | finished
  | replaced (next : Scan)
  deriving DecidableEq, Repr

namespace Scan

def round (env : Environment) (scan : Scan) : Option Round := do
  let ahead ← sliceFrom? scan.settled scan.text
  match find? opening ahead with
  | none => return .finished
  | some offset =>
      let start := scan.settled + offset
      let placeholder ← sliceFrom? start scan.text
      match find? [closing] placeholder with
      | none => return .finished
      | some length =>
          let name ← slice? (start + byteSize opening) (start + length) scan.text
          let before ← sliceTo? start scan.text
          let after ← sliceFrom? (start + length + 1) scan.text
          let value := (env.value (.ofList name)).toList
          return .replaced ⟨before ++ value ++ after, start + byteSize value⟩

def unread (scan : Scan) : Nat :=
  byteSize scan.text - scan.settled

theorem unread_lt_of_round {env : Environment} {scan next : Scan}
    (h : scan.round env = some (.replaced next)) : next.unread < scan.unread := by
  simp only [round, Option.bind_eq_bind, Option.bind_eq_some_iff] at h
  obtain ⟨ahead, -, h⟩ := h
  split at h
  case h_1 => cases h
  case h_2 offset _ =>
    simp only [Option.bind_eq_some_iff] at h
    obtain ⟨placeholder, -, h⟩ := h
    split at h
    case h_1 => cases h
    case h_2 length _ =>
      simp only [Option.bind_eq_some_iff] at h
      obtain ⟨name, -, before, hbefore, after, hafter, hnext⟩ := h
      obtain rfl := Round.replaced.inj (Option.some.inj hnext)
      obtain ⟨-, -, hstart⟩ := eq_append_of_sliceTo? hbefore
      obtain ⟨passed, htext, hpassed⟩ := eq_append_of_sliceFrom? hafter
      have hsize : byteSize scan.text = byteSize passed + byteSize after := by
        rw [htext, byteSize_append]
      simp only [unread, byteSize_append]
      omega

def run (env : Environment) (scan : Scan) : Option (List Char) :=
  match _hround : scan.round env with
  | none => none
  | some .finished => some scan.text
  | some (.replaced next) => next.run env
termination_by scan.unread
decreasing_by exact unread_lt_of_round ‹_›

section Running

variable {env : Environment} {scan next : Scan}

theorem run_of_finished (h : scan.round env = some .finished) : scan.run env = some scan.text := by
  rw [run]
  split <;> simp_all

theorem run_of_replaced (h : scan.round env = some (.replaced next)) :
    scan.run env = next.run env := by
  rw [run]
  split <;> simp_all

end Running

end Scan

def fillInPlace? (env : Environment) (text : String) : Option String :=
  (Scan.run env ⟨text.toList, 0⟩).map .ofList

def FirstBehind (word before text : List Char) : Prop :=
  (∃ after, text = before ++ (word ++ after)) ∧
    ∀ u v, text = u ++ (word ++ v) → before.length ≤ u.length

namespace FirstBehind

variable {word before after text : List Char} {c : Char}

theorem not_begins (h : FirstBehind word (c :: before) text) : ¬ word <+: text := by
  rintro ⟨v, rfl⟩
  have hle := h.2 [] v rfl
  simp at hle

theorem tail (h : FirstBehind word (c :: before) (c :: text)) : FirstBehind word before text := by
  obtain ⟨⟨after, hafter⟩, hfirst⟩ := h
  refine ⟨⟨after, (List.cons.inj hafter).2⟩, ?_⟩
  rintro u v rfl
  have hle := hfirst (c :: u) v rfl
  simpa using hle

theorem unique {other : List Char} (h : FirstBehind word before text)
    (hother : FirstBehind word other text) : before = other := by
  obtain ⟨⟨after, hafter⟩, hfirst⟩ := h
  obtain ⟨⟨after', hafter'⟩, hfirst'⟩ := hother
  have hle := hfirst other after' hafter'
  have hge := hfirst' before after hafter
  exact (List.append_inj (hafter.symm.trans hafter') (Nat.le_antisymm hle hge)).1

theorem isInfix (h : FirstBehind word before text) : word <:+: text := by
  obtain ⟨⟨after, rfl⟩, -⟩ := h
  exact ⟨before, after, List.append_assoc before word after⟩

theorem cancel {other after' : List Char} (h : FirstBehind word before text)
    (hother : FirstBehind word other text) (hafter : text = before ++ (word ++ after))
    (hafter' : text = other ++ (word ++ after')) : before = other ∧ after = after' := by
  obtain rfl := h.unique hother
  exact ⟨rfl, List.append_cancel_left (List.append_cancel_left (hafter.symm.trans hafter'))⟩

end FirstBehind

theorem exists_firstBehind {word text : List Char} (h : word <:+: text) :
    ∃ before, FirstBehind word before text := by
  induction text with
  | nil =>
    obtain rfl := List.infix_nil.1 h
    exact ⟨[], ⟨[], rfl⟩, by simp⟩
  | cons c text ih =>
    by_cases hhead : word <+: c :: text
    · obtain ⟨after, hafter⟩ := hhead
      exact ⟨[], ⟨after, hafter.symm⟩, by simp⟩
    · have hrest := (List.infix_cons_iff.1 h).resolve_left hhead
      obtain ⟨before, ⟨after, rfl⟩, hfirst⟩ := ih hrest
      refine ⟨c :: before, ⟨after, rfl⟩, fun u v heq => ?_⟩
      cases u with
      | nil => exact absurd ⟨v, heq.symm⟩ hhead
      | cons d u =>
        have hle := hfirst u v (List.cons.inj heq).2
        simpa using hle

theorem firstBehind_singleton {c : Char} {before after : List Char} (h : c ∉ before) :
    FirstBehind [c] before (before ++ c :: after) := by
  refine ⟨⟨after, rfl⟩, fun u v heq => ?_⟩
  rcases List.append_eq_append_iff.1 heq with ⟨w, hu, -⟩ | ⟨w, rfl, hw⟩
  · simp [hu]
  · cases w with
    | nil => simp
    | cons d w =>
      obtain ⟨rfl, -⟩ := List.cons.inj hw
      simp at h

/-- A piece of a text: one that is copied, or one that names the variable to put there. -/
inductive Part where
  | copied (text : List Char)
  | named (name : String)
  deriving DecidableEq, Repr

def Part.fill (env : Environment) : Part → List Char
  | .copied text => text
  | .named name => (env.value name).toList

inductive Reads : List Char → List Part → Prop where
  | plain {text : List Char} : ¬ opening <:+: text → Reads text [.copied text]
  | unclosed {text before body : List Char} :
      text = before ++ (opening ++ body) → FirstBehind opening before text → closing ∉ body →
      Reads text [.copied text]
  | closed {text before name rest : List Char} {parts : List Part} :
      text = before ++ (opening ++ (name ++ closing :: rest)) → FirstBehind opening before text →
      closing ∉ name → Reads rest parts →
      Reads text (.copied before :: .named (.ofList name) :: parts)

section Readings

variable {before text : List Char} {parts : List Part}

theorem exists_reads (text : List Char) : ∃ parts, Reads text parts := by
  induction hlength : text.length using Nat.strongRecOn generalizing text with
  | ind n ih =>
    by_cases hopening : opening <:+: text
    · obtain ⟨before, hfirst⟩ := exists_firstBehind hopening
      obtain ⟨body, hbody⟩ := hfirst.1
      by_cases hclosing : closing ∈ body
      · obtain ⟨name, rest, rfl, hname⟩ := List.eq_append_cons_of_mem hclosing
        have hshorter : rest.length < n := by
          rw [← hlength, hbody]
          simp only [List.length_append, List.length_cons]
          omega
        obtain ⟨parts, hparts⟩ := ih _ hshorter rest rfl
        exact ⟨_, .closed hbody hfirst hname hparts⟩
      · exact ⟨_, .unclosed hbody hfirst hclosing⟩
    · exact ⟨_, .plain hopening⟩

theorem cancel_closing {name other rest rest' : List Char} (hname : closing ∉ name)
    (hother : closing ∉ other) (h : name ++ closing :: rest = other ++ closing :: rest') :
    name = other ∧ rest = rest' := by
  have hfirst : FirstBehind [closing] name (name ++ closing :: rest) := firstBehind_singleton hname
  have hfirst' : FirstBehind [closing] other (name ++ closing :: rest) := by
    rw [h]
    exact firstBehind_singleton hother
  exact hfirst.cancel hfirst' rfl h

theorem Reads.unique {other : List Part} (h : Reads text parts) (hother : Reads text other) :
    parts = other := by
  induction h generalizing other with
  | plain hnone =>
    cases hother with
    | plain => rfl
    | unclosed => rfl
    | closed _ hfirst => exact absurd hfirst.isInfix hnone
  | unclosed hsplit hfirst hopen =>
    cases hother with
    | plain => rfl
    | unclosed => rfl
    | closed hsplit' hfirst' =>
      obtain ⟨-, rfl⟩ := hfirst.cancel hfirst' hsplit hsplit'
      simp at hopen
  | closed hsplit hfirst hname _ ih =>
    cases hother with
    | plain hnone => exact absurd hfirst.isInfix hnone
    | unclosed hsplit' hfirst' hopen =>
      obtain ⟨-, rfl⟩ := hfirst.cancel hfirst' hsplit hsplit'
      simp at hopen
    | closed hsplit' hfirst' hname' hparts =>
      obtain ⟨rfl, hbody⟩ := hfirst.cancel hfirst' hsplit hsplit'
      obtain ⟨rfl, rfl⟩ := cancel_closing hname hname' hbody
      rw [ih hparts]

end Readings

section Expanding

variable {env : Environment} {before body name rest text : List Char} {c : Char}
  {parts : List Part}

theorem expand_cons (h : ¬ opening <+: c :: text) :
    expand env (c :: text) = c :: expand env text := by
  rw [expand, if_neg (by simpa using h)]

theorem expand_opening (env : Environment) (body : List Char) :
    expand env (opening ++ body) =
      if closing ∈ body then
        (env.value (Placeholder.name body)).toList ++ expand env (afterName body)
      else opening ++ body := by
  have hopening : opening ++ body = '$' :: (opening.tail ++ body) := rfl
  have hbegin : opening.isPrefixOf ('$' :: (opening.tail ++ body)) = true := by
    simp [← hopening]
  have hbody : (opening.tail ++ body).drop (opening.length - 1) = body := rfl
  rw [hopening, expand, if_pos hbegin, hbody]
  simp

theorem expand_of_not_occurs (h : ¬ opening <:+: text) : expand env text = text := by
  induction text with
  | nil => rw [expand]
  | cons c text ih =>
    obtain ⟨hhead, hrest⟩ := not_or.1 (mt List.infix_cons_iff.2 h)
    rw [expand_cons hhead, ih hrest]

theorem FirstBehind.expand_append (h : FirstBehind opening before (before ++ rest)) :
    expand env (before ++ rest) = before ++ expand env rest := by
  induction before with
  | nil => rfl
  | cons c before ih =>
    have hhead : ¬ opening <+: c :: (before ++ rest) := h.not_begins
    rw [List.cons_append, expand_cons hhead, ih h.tail, List.cons_append]

theorem name_append (h : closing ∉ name) :
    Placeholder.name (name ++ closing :: rest) = .ofList name := by
  rw [Placeholder.name, List.takeWhile_append_of_pos fun c hc => by
    simpa using ne_of_mem_of_not_mem hc h]
  simp

theorem afterName_append (h : closing ∉ name) : afterName (name ++ closing :: rest) = rest := by
  rw [afterName, List.dropWhile_append_of_pos fun c hc => by
    simpa using ne_of_mem_of_not_mem hc h]
  simp

theorem expand_of_reads (env : Environment) (h : Reads text parts) :
    expand env text = parts.flatMap (Part.fill env) := by
  induction h with
  | plain hnone => simp [expand_of_not_occurs hnone, Part.fill]
  | unclosed hsplit hfirst hopen =>
    subst hsplit
    rw [hfirst.expand_append, expand_opening, if_neg hopen]
    simp [Part.fill]
  | closed hsplit hfirst hname _ ih =>
    subst hsplit
    rw [hfirst.expand_append, expand_opening, if_pos (by simp), name_append hname,
      afterName_append hname, ih]
    simp [Part.fill]

end Expanding

section Finding

variable {text word : List Char}

theorem find?_of_not_occurs (h : ¬ word <:+: text) : find? word text = none := by
  induction text with
  | nil =>
    have hne : word ≠ [] := fun heq => h (heq ▸ List.nil_infix)
    simp [find?, hne]
  | cons c text ih =>
    obtain ⟨hhead, hrest⟩ := not_or.1 (mt List.infix_cons_iff.2 h)
    simp [find?, hhead, ih hrest]

theorem FirstBehind.find?_eq {before : List Char} (h : FirstBehind word before text) :
    find? word text = some (byteSize before) := by
  induction before generalizing text with
  | nil =>
    obtain ⟨⟨after, rfl⟩, -⟩ := h
    have hbegin : word <+: word ++ after := List.prefix_append word after
    cases hword : word ++ after with
    | nil =>
      rw [hword, List.prefix_nil] at hbegin
      simp [find?, hbegin, byteSize]
    | cons c cs =>
      rw [hword] at hbegin
      simp [find?, hbegin, byteSize]
  | cons c before ih =>
    obtain ⟨after, rfl⟩ := h.1
    have hhead : ¬ word <+: c :: (before ++ (word ++ after)) := h.not_begins
    have hrest : find? word (before ++ (word ++ after)) = some (byteSize before) := ih h.tail
    simp [find?, hhead, hrest, byteSize]

end Finding

section Scanning

variable {env : Environment} {before body name rest text done : List Char} {parts : List Part}

theorem closing_notMem_opening : closing ∉ opening := by
  decide

theorem find?_closing_of_unclosed (h : closing ∉ body) :
    find? [closing] (opening ++ body) = none := by
  refine find?_of_not_occurs fun hoccurs => ?_
  rcases List.mem_append.1 (hoccurs.subset (List.mem_singleton_self closing)) with hmem | hmem
  · exact closing_notMem_opening hmem
  · exact h hmem

theorem find?_closing_of_closed (h : closing ∉ name) :
    find? [closing] (opening ++ (name ++ closing :: rest)) = some (byteSize (opening ++ name)) := by
  have hnone : closing ∉ opening ++ name := by
    rw [List.mem_append, not_or]
    exact ⟨closing_notMem_opening, h⟩
  rw [← List.append_assoc]
  exact (firstBehind_singleton hnone).find?_eq

namespace Scan

theorem round_plain (h : ¬ opening <:+: text) :
    round env ⟨done ++ text, byteSize done⟩ = some .finished := by
  have hahead : sliceFrom? (byteSize done) (done ++ text) = some text := sliceFrom?_eq rfl rfl
  simp only [round, hahead, find?_of_not_occurs h, Option.bind_eq_bind, Option.bind_some]
  rfl

theorem round_unclosed (h : FirstBehind opening before (before ++ (opening ++ body)))
    (hopen : closing ∉ body) :
    round env ⟨done ++ (before ++ (opening ++ body)), byteSize done⟩ = some .finished := by
  have hahead : sliceFrom? (byteSize done) (done ++ (before ++ (opening ++ body))) =
      some (before ++ (opening ++ body)) := sliceFrom?_eq rfl rfl
  have hplaceholder : sliceFrom? (byteSize done + byteSize before)
      (done ++ (before ++ (opening ++ body))) = some (opening ++ body) :=
    sliceFrom?_eq (List.append_assoc done before _).symm byteSize_append.symm
  simp only [round, hahead, h.find?_eq, hplaceholder, find?_closing_of_unclosed hopen,
    Option.bind_eq_bind, Option.bind_some]
  rfl

theorem round_closed
    (h : FirstBehind opening before (before ++ (opening ++ (name ++ closing :: rest))))
    (hname : closing ∉ name) :
    round env ⟨done ++ (before ++ (opening ++ (name ++ closing :: rest))), byteSize done⟩ =
      some (.replaced ⟨done ++ before ++ (env.value (.ofList name)).toList ++ rest,
        byteSize (done ++ before ++ (env.value (.ofList name)).toList)⟩) := by
  generalize htext : done ++ (before ++ (opening ++ (name ++ closing :: rest))) = text
  have hahead : sliceFrom? (byteSize done) text =
      some (before ++ (opening ++ (name ++ closing :: rest))) := sliceFrom?_eq htext.symm rfl
  have hplaceholder : sliceFrom? (byteSize done + byteSize before) text =
      some (opening ++ (name ++ closing :: rest)) :=
    sliceFrom?_eq (by simp [← htext]) byteSize_append.symm
  have hslice : slice? (byteSize done + byteSize before + byteSize opening)
      (byteSize done + byteSize before + byteSize (opening ++ name)) text = some name :=
    slice?_eq (u := done ++ before ++ opening) (w := closing :: rest) (by simp [← htext])
      (by simp only [byteSize_append]) (by simp only [byteSize_append]; omega)
  have hbefore : sliceTo? (byteSize done + byteSize before) text = some (done ++ before) :=
    sliceTo?_eq (v := opening ++ (name ++ closing :: rest)) (by simp [← htext])
      byteSize_append.symm
  have hafter : sliceFrom? (byteSize done + byteSize before + byteSize (opening ++ name) + 1) text =
      some rest :=
    sliceFrom?_eq (u := done ++ before ++ (opening ++ name) ++ [closing]) (by simp [← htext])
      (by simp only [byteSize_append]; rfl)
  simp only [round, hahead, h.find?_eq, hplaceholder, find?_closing_of_closed hname, hslice,
    hbefore, hafter, Option.bind_eq_bind, Option.bind_some]
  simp only [byteSize_append]
  rfl

theorem run_of_reads (env : Environment) (h : Reads text parts) (done : List Char) :
    run env ⟨done ++ text, byteSize done⟩ = some (done ++ parts.flatMap (Part.fill env)) := by
  induction h generalizing done with
  | plain hnone =>
    rw [run_of_finished (round_plain hnone)]
    simp [Part.fill]
  | unclosed hsplit hfirst hopen =>
    subst hsplit
    rw [run_of_finished (round_unclosed hfirst hopen)]
    simp [Part.fill]
  | closed hsplit hfirst hname _ ih =>
    subst hsplit
    rw [run_of_replaced (round_closed hfirst hname)]
    -- What the round leaves unread is the rest of the original text, whatever value it put in.
    refine (ih _).trans ?_
    simp [Part.fill]

end Scan

end Scanning

/-- Filling in place ends with a text and never cuts inside a character or behind the end. A text is
read into parts in exactly one way, before any value is known, and what is left in place is the parts
filled one by one: a value put in is not read, and a variable that is no part does not count. -/
theorem filled_in_one_pass (text : String) :
    (∀ env, fillInPlace? env text = some (resolvePlaceholders env text)) ∧
    ∃ parts, (∀ other, Reads text.toList other ↔ other = parts) ∧
      (∀ env, (resolvePlaceholders env text).toList = parts.flatMap (Part.fill env)) ∧
      ∀ env env' : Environment, (∀ name, .named name ∈ parts → env.value name = env'.value name) →
        resolvePlaceholders env text = resolvePlaceholders env' text := by
  obtain ⟨parts, hparts⟩ := exists_reads text.toList
  have hresolved (env : Environment) :
      (resolvePlaceholders env text).toList = parts.flatMap (Part.fill env) := by
    rw [resolvePlaceholders, String.toList_ofList]
    exact expand_of_reads env hparts
  refine ⟨fun env => ?_, parts, fun other => ?_, hresolved, fun env env' hsame => ?_⟩
  · have hrun : Scan.run env ⟨text.toList, 0⟩ = some (parts.flatMap (Part.fill env)) :=
      Scan.run_of_reads env hparts []
    rw [fillInPlace?, hrun, ← hresolved, Option.map_some, String.ofList_toList]
  · constructor
    · exact fun h => h.unique hparts
    · rintro rfl
      exact hparts
  · rw [← String.toList_inj, hresolved, hresolved]
    refine List.flatMap_congr fun part hpart => ?_
    cases part with
    | copied text => rfl
    | named name => exact congrArg String.toList (hsame name hpart)

end LivePreview.Placeholder
