import LivePreview.Proofs.Json.Reading

namespace LivePreview.Json

mutual

def depth : Json → Nat
  | .arr items => itemsDepth items + 1
  | .obj fields => fieldsDepth fields + 1
  | _ => 0

def itemsDepth : List Json → Nat
  | [] => 0
  | item :: items => max item.depth (itemsDepth items)

def fieldsDepth : List (String × Json) → Nat
  | [] => 0
  | (_, value) :: fields => max value.depth (fieldsDepth fields)

end

variable {cs rest : List Char} {value : Json} {limit n : Nat}

theorem itemsDepth_le_iff {items : List Json} :
    itemsDepth items ≤ n ↔ ∀ item ∈ items, item.depth ≤ n := by
  induction items with
  | nil => simp [itemsDepth]
  | cons item items ih => rw [itemsDepth, Nat.max_le, ih, List.forall_mem_cons]

theorem fieldsDepth_le_iff {fields : List (String × Json)} :
    fieldsDepth fields ≤ n ↔ ∀ field ∈ fields, field.2.depth ≤ n := by
  induction fields with
  | nil => simp [fieldsDepth]
  | cons field fields ih => rw [fieldsDepth, Nat.max_le, ih, List.forall_mem_cons]

section Numbers

variable {negative : Bool} {significand : Nat} {exponent : Int}

theorem depth_intOrFloat (negative : Bool) (significand : Nat) :
    (intOrFloat negative significand).depth = 0 := by
  unfold intOrFloat
  dsimp only
  split
  · rfl
  · split <;> rfl

theorem depth_of_readScaled (h : readScaled negative significand exponent cs = .ok (value, rest)) :
    value.depth = 0 := by
  unfold readScaled at h
  split at h
  · cases h
    rfl
  · cases h

theorem depth_of_readExponent
    (h : readExponent negative significand exponent cs = .ok (value, rest)) : value.depth = 0 := by
  unfold readExponent at h
  dsimp only at h
  split at h
  · cases h
  · split at h
    · split at h
      · exact depth_of_readScaled h
      · split at h
        · cases h
        · cases h
          rfl
    · cases h

theorem depth_of_readFloatEnd
    (h : readFloatEnd negative significand exponent cs = .ok (value, rest)) : value.depth = 0 := by
  unfold readFloatEnd at h
  split at h
  · exact depth_of_readExponent h
  · exact depth_of_readExponent h
  · exact depth_of_readScaled h

theorem depth_of_readFraction
    (h : readFraction negative significand exponent cs = .ok (value, rest)) : value.depth = 0 := by
  unfold readFraction at h
  split at h
  · cases h
  · split at h
    · exact depth_of_readFloatEnd h
    · cases h

theorem depth_of_readNumber (h : readNumber negative cs = .ok (value, rest)) : value.depth = 0 := by
  unfold readNumber at h
  split at h
  · cases h
  · dsimp only at h
    split at h
    · split at h
      · cases h
      · split at h
        · exact depth_of_readFraction h
        · exact depth_of_readFloatEnd h
        · exact depth_of_readFloatEnd h
        · split at h
          · cases h
            exact depth_intOrFloat _ _
          · exact depth_of_readScaled h
    · cases h

end Numbers

theorem bind_eq_ok_iff {α β : Type} {x : Except Fault α} {f : α → Except Fault β} {b : β} :
    (x >>= f) = .ok b ↔ ∃ a, x = .ok a ∧ f a = .ok b := by
  cases x with
  | error e => exact ⟨fun h => (by cases h), fun h => (by obtain ⟨_, h, -⟩ := h; cases h)⟩
  | ok a => simp [ok_bind]

section Lists

variable {α : Type} {item field : Reader α} {xs : List α} {fuel : Nat}

def ReadBy (item : Reader α) (xs : List α) : Prop :=
  ∀ x ∈ xs, ∃ cs rest, item cs = .ok (x, rest)

theorem ReadBy.cons {x : α} (hx : item cs = .ok (x, rest)) (hxs : ReadBy item xs) :
    ReadBy item (x :: xs) :=
  List.forall_mem_cons.2 ⟨⟨cs, rest, hx⟩, hxs⟩

theorem readBy_nil : ReadBy item [] := by
  simp [ReadBy]

theorem readBy_of_both (more : Reader (List α))
    (hmore : ∀ {cs xs rest}, more cs = .ok (xs, rest) → ReadBy item xs)
    (h : (item cs >>= fun read => more read.2 >>= fun tail => .ok (read.1 :: tail.1, tail.2)) =
      .ok (xs, rest)) : ReadBy item xs := by
  obtain ⟨⟨x, behind⟩, hx, h⟩ := bind_eq_ok_iff.1 h
  obtain ⟨⟨tail, last⟩, htail, h⟩ := bind_eq_ok_iff.1 h
  cases h
  exact (hmore htail).cons hx

theorem readBy_of_readMore (h : readMore item fuel cs = .ok (xs, rest)) : ReadBy item xs := by
  induction fuel generalizing cs xs rest with
  | zero => cases h
  | succ fuel ih =>
    rw [readMore] at h
    split at h
    · cases h
    · cases h
      exact readBy_nil
    · split at h
      · cases h
      · cases h
      · exact readBy_of_both (readMore item fuel) ih h
    · cases h

theorem readBy_of_readList (h : readList item cs = .ok (xs, rest)) : ReadBy item xs := by
  rw [readList] at h
  split at h
  · cases h
  · cases h
    exact readBy_nil
  · exact readBy_of_both (fun rest => readMore item rest.length rest) readBy_of_readMore h

theorem readBy_of_readMoreFields (h : readMoreFields field fuel cs = .ok (xs, rest)) :
    ReadBy field xs := by
  induction fuel generalizing cs xs rest with
  | zero => cases h
  | succ fuel ih =>
    rw [readMoreFields] at h
    split at h
    · cases h
    · cases h
      exact readBy_nil
    · split at h
      · cases h
      · exact readBy_of_both (readMoreFields field fuel) ih h
      · cases h
      · cases h
    · cases h

theorem readBy_of_readFields (h : readFields field cs = .ok (xs, rest)) : ReadBy field xs := by
  rw [readFields] at h
  split at h
  · cases h
  · cases h
    exact readBy_nil
  · exact readBy_of_both (fun rest => readMoreFields field rest.length rest)
      readBy_of_readMoreFields h
  · cases h

end Lists

theorem mem_insertField {name : String} {fields : List (String × Json)} {field : String × Json}
    (h : field ∈ insertField name value fields) : field = (name, value) ∨ field ∈ fields := by
  induction fields with
  | nil => simpa [insertField] using h
  | cons first fields ih =>
    rw [insertField] at h
    split at h
    · exact List.mem_cons.1 h
    · split at h
      · exact (List.mem_cons.1 h).imp_right (List.mem_cons_of_mem first)
      · rcases List.mem_cons.1 h with rfl | h
        · exact .inr List.mem_cons_self
        · exact (ih h).imp_right (List.mem_cons_of_mem first)

theorem depth_ofFields_le {fields : List (String × Json)}
    (h : ∀ field ∈ fields, field.2.depth ≤ n) :
    (ofFields fields).depth ≤ n + 1 := by
  have hfold : ∀ sorted : List (String × Json), (∀ field ∈ sorted, field.2.depth ≤ n) →
      ∀ field ∈ fields.foldl (fun sorted field => insertField field.1 field.2 sorted) sorted,
        field.2.depth ≤ n := by
    induction fields with
    | nil => exact fun sorted hsorted => hsorted
    | cons first fields ih =>
      intro sorted hsorted
      obtain ⟨hfirst, hfields⟩ := List.forall_mem_cons.1 h
      refine ih hfields _ fun field hfield => ?_
      rcases mem_insertField hfield with rfl | hmem
      · exact hfirst
      · exact hsorted field hmem
  rw [ofFields, depth]
  exact Nat.succ_le_succ (fieldsDepth_le_iff.2 (hfold [] (by simp)))

theorem exists_of_readField {α : Type} {reader : Reader α} {field : String × α}
    (h : readField reader cs = .ok (field, rest)) :
    ∃ cs rest, reader cs = .ok (field.2, rest) := by
  obtain ⟨⟨name, colon⟩, -, h⟩ := bind_eq_ok_iff.1 h
  obtain ⟨⟨⟨⟩, after⟩, -, h⟩ := bind_eq_ok_iff.1 h
  obtain ⟨⟨x, _⟩, hx, h⟩ := bind_eq_ok_iff.1 h
  cases h
  exact ⟨after, _, hx⟩

theorem depth_le_of_readValue (h : readValue limit cs = .ok (value, rest)) :
    value.depth ≤ limit := by
  induction limit using Nat.strongRecOn generalizing cs value rest with
  | ind limit ih =>
    unfold readValue at h
    split at h
    · cases h
    · obtain ⟨_, -, h⟩ := bind_eq_ok_iff.1 h
      cases h
      exact Nat.zero_le limit
    · obtain ⟨_, -, h⟩ := bind_eq_ok_iff.1 h
      cases h
      exact Nat.zero_le limit
    · obtain ⟨_, -, h⟩ := bind_eq_ok_iff.1 h
      cases h
      exact Nat.zero_le limit
    · rw [depth_of_readNumber h]
      exact Nat.zero_le limit
    · obtain ⟨_, -, h⟩ := bind_eq_ok_iff.1 h
      cases h
      exact Nat.zero_le limit
    · split at h
      · cases h
      · rename_i inner
        obtain ⟨⟨items, after⟩, hitems, h⟩ := bind_eq_ok_iff.1 h
        cases h
        refine Nat.succ_le_succ (itemsDepth_le_iff.2 fun item hmem => ?_)
        obtain ⟨cs, rest, hitem⟩ := readBy_of_readList hitems item hmem
        exact ih inner (Nat.lt_succ_self inner) hitem
    · split at h
      · cases h
      · rename_i inner
        obtain ⟨⟨fields, after⟩, hfields, h⟩ := bind_eq_ok_iff.1 h
        cases h
        refine depth_ofFields_le fun field hmem => ?_
        obtain ⟨cs, rest, hfield⟩ := readBy_of_readFields hfields field hmem
        obtain ⟨cs, rest, hvalue⟩ := exists_of_readField hfield
        exact ih inner (Nat.lt_succ_self inner) hvalue
    · split at h
      · rw [depth_of_readNumber h]
        exact Nat.zero_le limit
      · cases h

end LivePreview.Json
