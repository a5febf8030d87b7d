import Mathlib.Data.List.Basic

/-!
A writing is legible when a text, whatever comes behind it, begins with the writings of two things
only if the things are related, and with as much of each.
-/

namespace LivePreview.Text

def Legible {α : Type} (write : α → List Char) (R : α → α → Prop) : Prop :=
  ∀ ⦃x y : α⦄ ⦃u v : List Char⦄, write x ++ u = write y ++ v → R x y ∧ u = v

namespace Legible

variable {α β ε : Type} {write : α → List Char} {rest : β → List Char} {R : α → α → Prop}
  {S T : β → β → Prop}

theorem text (t : List Char) : Legible (fun _ : β => t) fun _ _ => True :=
  fun _ _ _ _ h => ⟨trivial, List.append_cancel_left h⟩

theorem of_leftInverse {read : List Char → α} (hread : ∀ x u, read (write x ++ u) = x) :
    Legible write Eq := by
  intro x y u v h
  obtain rfl : x = y := by rw [← hread x u, h, hread]
  exact ⟨rfl, List.append_cancel_left h⟩

theorem of_reader (read : List Char → Except ε (α × List Char))
    (hread : ∀ x u, read (write x ++ u) = .ok (x, u)) : Legible write Eq := by
  intro x y u v h
  have hsame := hread x u
  rw [h, hread] at hsame
  obtain ⟨rfl, rfl⟩ := Prod.mk.inj (Except.ok.inj hsame)
  exact ⟨rfl, rfl⟩

theorem imp (h : Legible rest S) (himp : ∀ x y, S x y → T x y) : Legible rest T :=
  fun _ _ _ _ heq => (h heq).imp_left (himp _ _)

theorem of (f : β → α) (h : Legible write R) :
    Legible (fun b => write (f b)) fun b c => R (f b) (f c) :=
  fun _ _ _ _ heq => h heq

theorem eq_of_eq (h : Legible write R) {x y : α} (heq : write x = write y) : R x y :=
  (h (u := []) (v := []) (by rw [heq])).1

theorem append {write' : β → List Char} (h : Legible write' S) (hrest : Legible rest T) :
    Legible (fun b => write' b ++ rest b) fun b c => S b c ∧ T b c := by
  intro b c u v heq
  rw [List.append_assoc, List.append_assoc] at heq
  obtain ⟨hS, heq⟩ := h heq
  obtain ⟨hT, heq⟩ := hrest heq
  exact ⟨⟨hS, hT⟩, heq⟩

theorem text_append (t : List Char) (h : Legible rest S) : Legible (fun b => t ++ rest b) S :=
  ((text t).append h).imp fun _ _ hboth => hboth.2

theorem append_text (t : List Char) (h : Legible rest S) : Legible (fun b => rest b ++ t) S :=
  (h.append (text t)).imp fun _ _ hboth => hboth.1

theorem flatMap_cancel (h : Legible write Eq) (xs ys : List α) {u v : List Char}
    (hu : ∀ x w, write x ++ w ≠ u) (hv : ∀ x w, write x ++ w ≠ v)
    (heq : xs.flatMap write ++ u = ys.flatMap write ++ v) : xs = ys ∧ u = v := by
  induction xs generalizing ys with
  | nil =>
    cases ys with
    | nil => exact ⟨rfl, heq⟩
    | cons y ys =>
      rw [List.flatMap_cons, List.append_assoc] at heq
      exact absurd heq.symm (hu y _)
  | cons x xs ih =>
    cases ys with
    | nil =>
      rw [List.flatMap_cons, List.append_assoc] at heq
      exact absurd heq (hv x _)
    | cons y ys =>
      rw [List.flatMap_cons, List.flatMap_cons, List.append_assoc, List.append_assoc] at heq
      obtain ⟨rfl, hbehind⟩ := h heq
      obtain ⟨rfl, huv⟩ := ih ys hbehind
      exact ⟨rfl, huv⟩

theorem flatMap_append (items : β → List α) (h : Legible write Eq) (hrest : Legible rest S)
    (hends : ∀ x b u v, write x ++ u ≠ rest b ++ v) :
    Legible (fun b => (items b).flatMap write ++ rest b)
      fun b c => items b = items c ∧ S b c := by
  intro b c u v heq
  rw [List.append_assoc, List.append_assoc] at heq
  obtain ⟨hitems, heq⟩ := h.flatMap_cancel (items b) (items c)
    (fun x w => hends x b w u) (fun x w => hends x c w v) heq
  obtain ⟨hS, heq⟩ := hrest heq
  exact ⟨⟨hitems, hS⟩, heq⟩

theorem flatMap_until {q : Char} (items : β → List α) (h : Legible write Eq)
    (hbegins : ∀ x, ∃ c cs, write x = c :: cs ∧ c ≠ q) (hrest : Legible rest S) :
    Legible (fun b => (items b).flatMap write ++ q :: rest b)
      fun b c => items b = items c ∧ S b c := by
  refine h.flatMap_append items (hrest.text_append [q]) ?_
  intro x b u v heq
  obtain ⟨c, cs, hcs, hne⟩ := hbegins x
  rw [hcs] at heq
  exact hne (List.cons.inj heq).1

theorem word_until {q : Char} (word : β → List Char) (hq : ∀ b, q ∉ word b)
    (hrest : Legible rest S) :
    Legible (fun b => word b ++ q :: rest b) fun b c => word b = word c ∧ S b c := by
  have htake : ∀ b w, (word b ++ q :: w).takeWhile (· != q) = word b := by
    intro b w
    rw [List.takeWhile_append_of_pos fun c hc => by simpa using ne_of_mem_of_not_mem hc (hq b)]
    simp
  intro b c u v heq
  rw [List.append_assoc, List.append_assoc, List.cons_append, List.cons_append] at heq
  have hword : word b = word c := by rw [← htake b (rest b ++ u), heq, htake]
  rw [hword] at heq
  obtain ⟨hS, huv⟩ := hrest (List.cons.inj (List.append_cancel_left heq)).2
  exact ⟨⟨hword, hS⟩, huv⟩

end Legible

end LivePreview.Text
