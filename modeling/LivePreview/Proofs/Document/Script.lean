import LivePreview.Document.ConsoleScript
import LivePreview.Document.DataScript
import LivePreview.Document.MountScript
import LivePreview.Proofs.Document.Mark

/-!
The scripts that every page carries hold no markup: a `<` in them is a comparison.
-/

namespace LivePreview.Document

inductive CalmLines : List String → Prop where
  | nil : CalmLines []
  | cons {line : List Char} {lines : List String} :
      isCalm line → CalmLines lines → CalmLines (String.ofList line :: lines)

theorem CalmLines.isCalm_intercalate {lines : List String} (h : CalmLines lines) :
    isCalm ("\n".intercalate lines).toList := by
  induction h with
  | nil => rfl
  | @cons line lines hline hlines ih =>
    cases lines with
    | nil => simpa using hline
    | cons next rest =>
      rw [String.intercalate_cons_cons, String.toList_append, String.toList_append,
        String.toList_ofList]
      have hbreak : isCalm "\n".toList := by decide
      exact isCalm_append (isCalm_append hline hbreak) ih

theorem CalmLines.isCalm_join {lines : List String} (h : CalmLines lines) :
    isCalm (String.join lines).toList := by
  induction h with
  | nil => rfl
  | cons hline hlines ih =>
    rw [String.join_cons, String.toList_append, String.toList_ofList]
    exact isCalm_append hline ih

set_option maxRecDepth 10000 in
theorem calmLines_console : CalmLines consoleScriptLines := by
  unfold consoleScriptLines
  repeat' first
    | exact .nil
    | refine .cons (by rfl) ?_

set_option maxRecDepth 10000 in
theorem calmLines_data : CalmLines dataScriptLines := by
  unfold dataScriptLines
  repeat' first
    | exact .nil
    | refine .cons (by rfl) ?_

set_option maxRecDepth 10000 in
theorem calmLines_mount : CalmLines mountScriptLines := by
  unfold mountScriptLines
  repeat' first
    | exact .nil
    | refine .cons (by rfl) ?_

theorem isCalm_consoleScript : isCalm consoleScript.toList :=
  calmLines_console.isCalm_intercalate

theorem isCalm_dataScript : isCalm dataScript.toList :=
  calmLines_data.isCalm_intercalate

theorem isCalm_mountScript : isCalm mountScript.toList :=
  calmLines_mount.isCalm_intercalate

end LivePreview.Document
