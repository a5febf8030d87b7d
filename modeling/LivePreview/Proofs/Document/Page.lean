import LivePreview.Document.Basic
import LivePreview.Proofs.Document.Mark

/-!
A page in pieces: the markup of the page, and the values put into it. Where values are quiet about
a word, every occurrence of the word is one that the markup spells.
-/

namespace LivePreview.Document

inductive Piece where
  | markup (text : String)
  | value (text : String)
  deriving DecidableEq, Repr

def Piece.content : Piece → String
  | .markup text => text
  | .value text => text

def Piece.text (piece : Piece) : List Char :=
  piece.content.toList

def spell (pieces : List Piece) : List Char :=
  pieces.flatMap Piece.text

def written (word : List Char) : List Piece → Nat
  | [] => 0
  | .markup text :: pieces => occurrences word text.toList + written word pieces
  | .value _ :: pieces => written word pieces

/-- No occurrence of the word crosses the end of the piece, and a value has none. -/
def Piece.Quiet (word : List Char) : Piece → Prop
  | .markup text => isSealed word text.toList
  | .value text => isSealed word text.toList ∧ occurrences word text.toList = 0

def Quiet (word : List Char) (pieces : List Piece) : Prop :=
  ∀ piece ∈ pieces, piece.Quiet word

variable {word : List Char} {piece : Piece} {pieces before after : List Piece}

theorem spell_nil : spell [] = [] :=
  rfl

theorem spell_cons : spell (piece :: pieces) = piece.text ++ spell pieces :=
  rfl

theorem spell_append : spell (before ++ after) = spell before ++ spell after :=
  List.flatMap_append

def joined : List Piece → String
  | [] => ""
  | piece :: pieces => pieces.foldl (fun text piece => text ++ piece.content) piece.content

theorem toList_foldl_append (text : String) (pieces : List Piece) :
    (pieces.foldl (fun text piece => text ++ piece.content) text).toList
      = text.toList ++ spell pieces := by
  induction pieces generalizing text with
  | nil => simp [spell]
  | cons piece pieces ih =>
    rw [List.foldl_cons, ih, String.toList_append, List.append_assoc, spell_cons, Piece.text]

theorem spell_eq_toList_joined (pieces : List Piece) : spell pieces = (joined pieces).toList := by
  cases pieces with
  | nil => rfl
  | cons piece pieces => exact (toList_foldl_append piece.content pieces).symm

theorem written_append :
    written word (before ++ after) = written word before + written word after := by
  induction before with
  | nil => simp [written]
  | cons piece before ih =>
    cases piece with
    | markup text => simp [written, ih, Nat.add_assoc]
    | value text => simpa [written] using ih

theorem quiet_nil : Quiet word [] := by
  simp [Quiet]

theorem quiet_cons : Quiet word (piece :: pieces) ↔ piece.Quiet word ∧ Quiet word pieces := by
  simp [Quiet]

theorem quiet_append :
    Quiet word (before ++ after) ↔ Quiet word before ∧ Quiet word after := by
  simp [Quiet, or_imp, forall_and]

theorem Piece.Quiet.isSealed (h : piece.Quiet word) : isSealed word piece.text := by
  cases piece with
  | markup text => exact h
  | value text => exact h.1

theorem Quiet.isSealed_spell (h : Quiet word pieces) : isSealed word (spell pieces) := by
  induction pieces with
  | nil => rfl
  | cons piece pieces ih =>
    obtain ⟨hpiece, hpieces⟩ := quiet_cons.1 h
    exact isSealed_append hpiece.isSealed (ih hpieces)

theorem Quiet.occurrences_spell (h : Quiet word pieces) :
    occurrences word (spell pieces) = written word pieces := by
  induction pieces with
  | nil => rfl
  | cons piece pieces ih =>
    obtain ⟨hpiece, hpieces⟩ := quiet_cons.1 h
    rw [spell_cons, occurrences_append hpiece.isSealed, ih hpieces]
    cases piece with
    | markup text => rfl
    | value text =>
      have hnone : occurrences word text.toList = 0 := hpiece.2
      simp [Piece.text, Piece.content, written, hnone]

theorem Quiet.occurrence_in_markup (h : Quiet word pieces) {u v : List Char} (hword : word ≠ [])
    (heq : spell pieces = u ++ v) (hv : startsAnyCase word v) :
    ∃ before text after left right, pieces = before ++ .markup text :: after ∧
      text.toList = left ++ right ∧ u = spell before ++ left ∧ startsAnyCase word right := by
  induction pieces generalizing u with
  | nil =>
    obtain ⟨-, rfl⟩ := List.append_eq_nil_iff.1 heq.symm
    obtain ⟨w, ws, rfl⟩ := List.exists_cons_of_ne_nil hword
    cases hv
  | cons piece pieces ih =>
    obtain ⟨hpiece, hpieces⟩ := quiet_cons.1 h
    have later : ∀ w, u = piece.text ++ w → spell pieces = w ++ v →
        ∃ before text after left right, piece :: pieces = before ++ .markup text :: after ∧
          text.toList = left ++ right ∧ u = spell before ++ left ∧ startsAnyCase word right := by
      intro w hu hw
      obtain ⟨before, text, after, left, right, rfl, htext, rfl, hright⟩ := ih hpieces hw
      refine ⟨piece :: before, text, after, left, right, rfl, htext, ?_, hright⟩
      rw [hu, spell_cons, List.append_assoc]
    rw [spell_cons] at heq
    rcases List.append_eq_append_iff.1 heq with ⟨w, hu, hw⟩ | ⟨w, hpieceText, hw⟩
    · exact later w hu hw
    · cases w with
      | nil => exact later [] (by simpa using hpieceText.symm) (by simpa using hw.symm)
      | cons c cs =>
        have hsealed : isSealed word (u ++ c :: cs) := hpieceText ▸ hpiece.isSealed
        rw [hw, startsAnyCase_append (decides_of_isSealed hsealed)] at hv
        cases piece with
        | markup text => exact ⟨[], text, pieces, u, c :: cs, rfl, hpieceText, rfl, hv⟩
        | value text =>
          have hpos : 0 < occurrences word (u ++ c :: cs) := occurrences_pos hv
          have hnone : occurrences word text.toList = 0 := hpiece.2
          rw [show text.toList = u ++ c :: cs from hpieceText] at hnone
          omega

end LivePreview.Document
