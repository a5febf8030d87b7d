import LivePreview.Proofs.Document.Inputs
import LivePreview.Proofs.Document.ReadBack
import LivePreview.Proofs.Text.Lines

namespace LivePreview.Document

open LivePreview.Text (isNameChar lines lines_append_newline)
open LivePreview.Json (takeWhile_dropWhile_append readAll readLiteral readValue maxDepth)

def readAssignment : Json.Reader (String × Json) := fun cs => do
  let (_, named) ← readLiteral "window.".toList cs
  let (_, assigned) ← readLiteral " = ".toList (named.dropWhile isNameChar)
  let (value, rest) ← readValue maxDepth assigned
  let (_, rest) ← readLiteral ";\n".toList rest
  .ok ((.ofList (named.takeWhile isNameChar), value), rest)

def readAssignments (script : List Char) : Except Json.Fault (List (String × Json)) :=
  (lines script).mapM (readAll readAssignment)

variable {rest : List Char} {c : Char}

theorem readLiteral_append (word : List Char) :
    readLiteral word (word ++ rest) = .ok ((), rest) := by
  induction word with
  | nil => rw [List.nil_append, readLiteral]
  | cons w word ih => rw [List.cons_append, readLiteral, if_pos rfl, ih]

theorem readAssignment_constantAssignment (constant : Source.ConstantName × String) :
    readAll readAssignment (constantAssignment constant).toList =
      .ok (constant.1.text, .str constant.2) := by
  have hname : ∀ c ∈ constant.1.text.toList, isNameChar c := by
    cases constant.1 <;> exact List.all_eq_true.1 (by decide)
  have hassigned : readValue maxDepth (embed (.str constant.2) ++ ";\n".toList) =
      .ok (.str constant.2, ";\n".toList) := readValue_str constant.2
  have hend : readLiteral ";\n".toList ";\n".toList = .ok ((), []) :=
    (congrArg (readLiteral _) (List.append_nil _).symm).trans (readLiteral_append _)
  have hgap : ∀ c, (" = ".toList ++ (embed (.str constant.2) ++ ";\n".toList)).head? = some c →
      isNameChar c = false := by
    have hblank : " = ".toList = ' ' :: "= ".toList := toList_ofList_cons _ _
    intro c hc
    rw [hblank] at hc
    obtain rfl := Option.some.inj hc
    decide
  obtain ⟨htake, hdrop⟩ := takeWhile_dropWhile_append hname hgap
  have hread : readAssignment (constantAssignment constant).toList =
      .ok ((constant.1.text, .str constant.2), []) := by
    rw [toList_constantAssignment]
    simp only [readAssignment, readLiteral_append, Json.ok_bind, htake, hdrop, hassigned, hend,
      String.ofList_toList]
  rw [readAll, hread, Json.ok_bind]
  rfl

theorem newline_not_mem_embeddedChar (c : Char) : '\n' ∉ embeddedChar c := by
  have hcodes : ∀ n < 64, '\n' ∉ codeEscape n := by decide
  rcases embeddedChar_cases c with ⟨x, hx, hread⟩ | ⟨hsmall, hx⟩ | ⟨hx, -, -, hcontrol⟩
  · have hne : x ≠ '\n' := by
      rintro rfl
      cases hread []
    simp [hx, Ne.symm hne]
  · have hcode := hcodes c.toNat hsmall
    simp [hx, hcode]
  · rw [hx, List.mem_singleton]
    rintro rfl
    exact hcontrol (by decide)

theorem newline_not_mem_embed_str (s : String) : '\n' ∉ embed (.str s) := by
  have hbody : '\n' ∉ s.toList.flatMap embeddedChar := by
    intro hmem
    obtain ⟨c, -, hc⟩ := List.mem_flatMap.1 hmem
    exact newline_not_mem_embeddedChar c hc
  simp [embed_str, hbody]

theorem lines_flatMap {α : Type} {f : α → List Char}
    (hf : ∀ x, ∃ body, f x = body ++ ['\n'] ∧ '\n' ∉ body) (xs : List α) :
    lines (xs.flatMap f) = xs.map f := by
  induction xs with
  | nil => rfl
  | cons x xs ih =>
    obtain ⟨body, hbody, hline⟩ := hf x
    rw [List.flatMap_cons, hbody, List.append_assoc, List.singleton_append,
      lines_append_newline hline, ih, List.map_cons, hbody]

theorem lines_constantsScript (constants : Source.Constants) :
    lines (constantsScript constants).toList =
      constants.toList.map fun constant => (constantAssignment constant).toList := by
  rw [toList_constantsScript]
  refine lines_flatMap (fun constant => ?_) _
  have hend : ";\n".toList = [';'] ++ ['\n'] := String.toList_ofList
  refine ⟨"window.".toList ++ (constant.1.text.toList ++ (" = ".toList ++
    (embed (.str constant.2) ++ [';']))), ?_, ?_⟩
  · rw [toList_constantAssignment, hend]
    simp only [List.append_assoc]
  · have hname : '\n' ∉ constant.1.text.toList := by
      cases constant.1 <;> decide
    have hvalue := newline_not_mem_embed_str constant.2
    simp only [List.mem_append, not_or]
    exact ⟨by decide, hname, by decide, hvalue, by decide⟩

theorem readAssignments_constantsScript (constants : Source.Constants) :
    readAssignments (constantsScript constants).toList =
      .ok (constants.toList.map fun constant => (constant.1.text, .str constant.2)) := by
  have hread : (readAll readAssignment ∘ fun constant => (constantAssignment constant).toList) =
      fun constant => pure (constant.1.text, .str constant.2) :=
    funext readAssignment_constantAssignment
  rw [readAssignments, lines_constantsScript, List.mapM_map, hread]
  exact List.mapM_pure

end LivePreview.Document
