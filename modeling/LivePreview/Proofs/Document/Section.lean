import LivePreview.Proofs.Document.Page
import LivePreview.Proofs.Document.Script
import LivePreview.Proofs.Source.Hazard

namespace LivePreview.Document

inductive Mark where
  | comment
  | scriptEnd
  | programStart
  deriving DecidableEq, Repr

namespace Mark

def word : Mark → List Char
  | .comment => ['<', '!', '-', '-']
  | .scriptEnd => ['<', '/', 's', 'c', 'r', 'i', 'p', 't']
  | .programStart => ['<', 's', 'c', 'r', 'i', 'p', 't', ' ', 't', 'y', 'p', 'e']

theorem isMark (mark : Mark) : IsMark mark.word := by
  cases mark with
  | comment => exact ⟨⟨'!', _, rfl, by decide⟩, by decide⟩
  | scriptEnd => exact ⟨⟨'/', _, rfl, by decide⟩, by decide⟩
  | programStart => exact ⟨⟨'s', _, rfl, by decide⟩, by decide⟩

theorem word_ne_nil (mark : Mark) : mark.word ≠ [] := by
  cases mark <;> exact List.cons_ne_nil _ _

def inEndTag : Mark → Nat
  | .scriptEnd => 1
  | _ => 0

end Mark

structure Counts (mark : Mark) (pieces : List Piece) (n : Nat) : Prop where
  quiet : Quiet mark.word pieces
  written_eq : written mark.word pieces = n

namespace Counts

variable {mark : Mark} {pieces : List Piece} {n : Nat}

theorem nil : Counts mark [] 0 :=
  ⟨quiet_nil, rfl⟩

theorem value {text : String} (htext : isCalm text.toList) (h : Counts mark pieces n) :
    Counts mark (.value text :: pieces) n := by
  have hquiet : (Piece.value text).Quiet mark.word :=
    ⟨mark.isMark.isSealed_of_isCalm htext, mark.isMark.occurrences_of_isCalm htext⟩
  exact ⟨quiet_cons.2 ⟨hquiet, h.quiet⟩, h.written_eq⟩

theorem markup {text : List Char} {k : Nat} (hsealed : isSealed mark.word text)
    (hk : occurrences mark.word text = k) (h : Counts mark pieces n) :
    Counts mark (.markup (String.ofList text) :: pieces) (k + n) := by
  have hquiet : (Piece.markup (String.ofList text)).Quiet mark.word := by
    simpa [Piece.Quiet] using hsealed
  refine ⟨quiet_cons.2 ⟨hquiet, h.quiet⟩, ?_⟩
  simp [written, hk, h.written_eq]

theorem plain {text : List Char}
    (htext : ∀ mark : Mark, isSealed mark.word text ∧ occurrences mark.word text = 0)
    (h : Counts mark pieces n) : Counts mark (.markup (String.ofList text) :: pieces) n := by
  simpa using h.markup (htext mark).1 (htext mark).2

theorem ending {text : List Char}
    (htext : ∀ mark : Mark, isSealed mark.word text ∧ occurrences mark.word text = mark.inEndTag)
    (h : Counts mark pieces n) :
    Counts mark (.markup (String.ofList text) :: pieces) (mark.inEndTag + n) :=
  h.markup (htext mark).1 (htext mark).2

theorem append {before after : List Piece} {k : Nat} (hbefore : Counts mark before k)
    (hafter : Counts mark after n) : Counts mark (before ++ after) (k + n) := by
  refine ⟨quiet_append.2 ⟨hbefore.quiet, hafter.quiet⟩, ?_⟩
  rw [written_append, hbefore.written_eq, hafter.written_eq]

theorem flatMap {α : Type} {f : α → List Piece} {k : Nat} (hf : ∀ x, Counts mark (f x) k)
    (xs : List α) : Counts mark (xs.flatMap f) (xs.length * k) := by
  induction xs with
  | nil => simpa using nil
  | cons x xs ih =>
    have hcount : (x :: xs).length * k = k + xs.length * k := by
      rw [List.length_cons, Nat.succ_mul, Nat.add_comm]
    rw [List.flatMap_cons, hcount]
    exact (hf x).append ih

end Counts

variable {mark : Mark}

def scriptPieces (body : String) : List Piece :=
  [.markup "<script>\n", .value (body ++ "\n"), .markup "</script>\n"]

theorem isCalm_append_toList {first second : String} (hfirst : isCalm first.toList)
    (hsecond : isCalm second.toList) : isCalm (first ++ second).toList := by
  rw [String.toList_append]
  exact isCalm_append hfirst hsecond

theorem joined_scriptPieces (body : String) :
    joined (scriptPieces body) = inlineScript body := by
  have hend : "\n" ++ "</script>\n" = "\n</script>\n" := String.ofList_append.symm
  simp only [scriptPieces, joined, List.foldl_cons, List.foldl_nil, Piece.content, inlineScript,
    String.append_assoc, hend]

theorem counts_scriptPieces {body : String} (h : isCalm body.toList) :
    Counts mark (scriptPieces body) mark.inEndTag := by
  have hbreak : isCalm "\n".toList := by decide
  have hbody : isCalm (body ++ "\n").toList := isCalm_append_toList h hbreak
  refine .plain (fun mark => ?_) (.value hbody (.ending (fun mark => ?_) .nil))
  · cases mark <;> exact ⟨rfl, rfl⟩
  · cases mark <;> exact ⟨rfl, rfl⟩

theorem isCalm_resetStyle : isCalm resetStyle.toList := by
  refine CalmLines.isCalm_join ?_
  repeat' first
    | exact .nil
    | refine .cons (by rfl) ?_

theorem isCalm_flatMap {f : Char → List Char} (hf : ∀ c, '<' ∉ f c) (cs : List Char) :
    isCalm (cs.flatMap f) := by
  refine isCalm_of_not_mem fun h => ?_
  obtain ⟨c, -, hc⟩ := List.mem_flatMap.1 h
  exact hf c hc

theorem not_mem_escapeTextChar (c : Char) : '<' ∉ escapeTextChar c := by
  unfold escapeTextChar
  split
  · decide
  · split
    · decide
    · rename_i hc
      split
      · decide
      · exact fun h => hc (List.mem_singleton.1 h).symm

theorem not_mem_escapeAttributeChar (c : Char) : '<' ∉ escapeAttributeChar c := by
  unfold escapeAttributeChar
  split
  · decide
  · exact not_mem_escapeTextChar c

theorem not_mem_escapeScriptChar (c : Char) : '<' ∉ escapeScriptChar c := by
  unfold escapeScriptChar
  split
  · decide
  · rename_i hc
    exact fun h => hc (List.mem_singleton.1 h).symm

theorem isCalm_escapeText (s : String) : isCalm (escapeText s).toList := by
  rw [escapeText, String.toList_ofList]
  exact isCalm_flatMap not_mem_escapeTextChar _

theorem isCalm_escapeAttribute (s : String) : isCalm (escapeAttribute s).toList := by
  rw [escapeAttribute, String.toList_ofList]
  exact isCalm_flatMap not_mem_escapeAttributeChar _

theorem isCalm_embeddedJson (value : Json) : isCalm (embeddedJson value).toList := by
  rw [embeddedJson, String.toList_ofList]
  exact isCalm_flatMap not_mem_escapeScriptChar _

def environmentPieces (options : Options) : List Piece :=
  [.markup "<!DOCTYPE html>\n<html lang=\"en\">\n<head>\n",
    .markup "<meta charset=\"utf-8\" />\n",
    .markup "<meta name=\"viewport\" content=\"width=device-width, initial-scale=1\" />\n",
    .markup "<base href=\"", .value (escapeAttribute options.baseUrl), .markup "\" />\n",
    .markup "<title>", .value (escapeText options.title), .markup "</title>\n",
    .markup "<style>", .value resetStyle, .markup "</style>\n"]

theorem joined_environmentPieces (options : Options) :
    joined (environmentPieces options) = environment options := by
  simp only [environmentPieces, joined, List.foldl_cons, List.foldl_nil, Piece.content]
  rfl

theorem counts_environmentPieces (options : Options) :
    Counts mark (environmentPieces options) 0 := by
  have hbase : isCalm (escapeAttribute options.baseUrl).toList := isCalm_escapeAttribute _
  have htitle : isCalm (escapeText options.title).toList := isCalm_escapeText _
  refine .plain ?_ (.plain ?_ (.plain ?_ (.plain ?_ (.value hbase (.plain ?_ (.plain ?_
    (.value htitle (.plain ?_ (.plain ?_ (.value isCalm_resetStyle (.plain ?_ .nil)))))))))))
  all_goals
    intro mark
    cases mark <;> exact ⟨rfl, rfl⟩

def includePieces (ending src : String) : List Piece :=
  [.markup "<script src=\"", .value (escapeAttribute src), .markup ending]

def requiredEnding : String :=
  "\" crossorigin=\"anonymous\"></script>\n"

def optionalEnding : String :=
  "\" crossorigin=\"anonymous\" data-optional=\"true\"></script>\n"

def libraryPieces (libraries : Libraries) : List Piece :=
  libraries.required.flatMap (includePieces requiredEnding)
    ++ libraries.optional.flatMap (includePieces optionalEnding)

theorem spell_flatMap {α : Type} {f : α → List Piece} {g : α → String}
    (h : ∀ x, joined (f x) = g x) (xs : List α) :
    spell (xs.flatMap f) = (String.join (xs.map g)).toList := by
  induction xs with
  | nil => rfl
  | cons x xs ih =>
    rw [List.flatMap_cons, spell_append, spell_eq_toList_joined, h, ih, List.map_cons,
      String.join_cons, String.toList_append]

theorem joined_includePieces (ending src : String) :
    joined (includePieces ending src) = "<script src=\"" ++ escapeAttribute src ++ ending :=
  rfl

theorem spell_libraryPieces (libraries : Libraries) :
    spell (libraryPieces libraries) = (libraryIncludes libraries).toList := by
  have hrequired : ∀ src, joined (includePieces requiredEnding src) = requiredLibrary src :=
    joined_includePieces requiredEnding
  have hoptional : ∀ src, joined (includePieces optionalEnding src) = optionalLibrary src :=
    joined_includePieces optionalEnding
  rw [libraryPieces, spell_append, spell_flatMap hrequired, spell_flatMap hoptional,
    libraryIncludes, String.toList_append]

theorem counts_includePieces {ending : List Char}
    (hending : ∀ mark : Mark,
      isSealed mark.word ending ∧ occurrences mark.word ending = mark.inEndTag) (src : String) :
    Counts mark (includePieces (String.ofList ending) src) mark.inEndTag := by
  have hsrc : isCalm (escapeAttribute src).toList := isCalm_escapeAttribute src
  refine .plain (fun mark => ?_) (.value hsrc (.ending hending .nil))
  cases mark <;> exact ⟨rfl, rfl⟩

theorem counts_requiredPieces (src : String) :
    Counts mark (includePieces requiredEnding src) mark.inEndTag := by
  refine counts_includePieces (fun mark => ?_) src
  cases mark <;> exact ⟨rfl, rfl⟩

theorem counts_optionalPieces (src : String) :
    Counts mark (includePieces optionalEnding src) mark.inEndTag := by
  refine counts_includePieces (fun mark => ?_) src
  cases mark <;> exact ⟨rfl, rfl⟩

theorem counts_libraryPieces (libraries : Libraries) :
    Counts mark (libraryPieces libraries)
      (libraries.required.length * mark.inEndTag + libraries.optional.length * mark.inEndTag) :=
  (Counts.flatMap counts_requiredPieces _).append (Counts.flatMap counts_optionalPieces _)

theorem isCalm_settingsScript (api : DataApi) : isCalm (settingsScript api).toList := by
  have hassign : isCalm "window.__LANTERN_CONFIG__ = ".toList := by decide
  have hend : isCalm ";\n".toList := by decide
  have hsettings : isCalm (embeddedJson (guestSettings api)).toList := isCalm_embeddedJson _
  have hstart := isCalm_append_toList (isCalm_append_toList hassign hsettings) hend
  exact isCalm_append_toList hstart isCalm_dataScript

theorem isCalm_constantAssignment (constant : Source.ConstantName × String) :
    isCalm (constantAssignment constant).toList := by
  have hwindow : isCalm "window.".toList := by decide
  have hname : isCalm constant.1.text.toList := by
    cases constant.1 <;> decide
  have hassign : isCalm " = ".toList := by decide
  have hend : isCalm ";\n".toList := by decide
  have hvalue : isCalm (embeddedJson (.str constant.2)).toList := isCalm_embeddedJson _
  have hstart := isCalm_append_toList (isCalm_append_toList hwindow hname) hassign
  exact isCalm_append_toList (isCalm_append_toList hstart hvalue) hend

theorem isCalm_constantsScript (constants : Source.Constants) :
    isCalm (constantsScript constants).toList := by
  rw [constantsScript, String.toList_join]
  refine isCalm_flatten fun text htext => ?_
  obtain ⟨_, hmem, rfl⟩ := List.mem_map.1 htext
  obtain ⟨constant, -, rfl⟩ := List.mem_map.1 hmem
  exact isCalm_constantAssignment constant

end LivePreview.Document
