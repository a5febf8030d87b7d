import LivePreview.Document.Escape
import LivePreview.Json.Reader
import LivePreview.Proofs.Json.NumberText
import LivePreview.Proofs.Text.Legible

namespace LivePreview.Document

open LivePreview.Json (escapeChar hexDigit hexValue readHex readEscape readString writeFields quote)
open LivePreview.Text (Legible)
open LivePreview.Decimal (Numeric isNumberChar)

def embed (value : Json) : List Char :=
  value.write.flatMap escapeScriptChar

theorem toList_embeddedJson (value : Json) : (embeddedJson value).toList = embed value :=
  String.toList_ofList

def embeddedChar (c : Char) : List Char :=
  (escapeChar c).flatMap escapeScriptChar

def codeEscape (n : Nat) : List Char :=
  ['0', '0', hexDigit (n / 16), hexDigit n]

section Reading

variable {c : Char} {n : Nat} {cs u : List Char}

theorem readString_cons (hquote : c ≠ '"') (hescape : c ≠ '\\') (hcontrol : ¬ c.toNat < 0x20) :
    readString (c :: cs) = (readString cs).map fun read => (c :: read.1, read.2) := by
  rw [readString]
  · simp only [hcontrol, if_false]
    cases readString cs <;> rfl
  · exact hquote
  · exact hescape

theorem readString_escape (h : readEscape cs = .ok (c, n)) :
    readString ('\\' :: cs) =
      (readString (cs.drop n)).map fun read => (c :: read.1, read.2) := by
  rw [readString, h]
  change (readString (cs.drop n) >>= fun read => .ok (c :: read.1, read.2)) = _
  cases readString (cs.drop n) <;> rfl

theorem readEscape_code (hn : n < 64) :
    readEscape ('u' :: (codeEscape n ++ u)) = .ok (.ofNat n, 5) := by
  have hcode : ∀ n < 64, ¬ (String.ofList (codeEscape n)).utf8ByteSize < 4 ∧
      hexValue (codeEscape n) = some n := by decide
  obtain ⟨hsize, hvalue⟩ := hcode n hn
  have htake : (codeEscape n ++ u).take 4 = codeEscape n := rfl
  have hread : readHex (codeEscape n ++ u) = .ok n := by
    rw [readHex, htake, if_neg hsize, hvalue]
  have hlow : Json.isLowSurrogate n = false := by simp [Json.isLowSurrogate]; omega
  have hhigh : Json.isHighSurrogate n = false := by simp [Json.isHighSurrogate]; omega
  simp [readEscape, hread, hlow, hhigh, bind, Except.bind]

theorem embeddedChar_cases (c : Char) :
    (∃ x, embeddedChar c = ['\\', x] ∧ ∀ u, readEscape (x :: u) = .ok (c, 1)) ∨
      (c.toNat < 64 ∧ embeddedChar c = '\\' :: 'u' :: codeEscape c.toNat) ∨
      (embeddedChar c = [c] ∧ c ≠ '"' ∧ c ≠ '\\' ∧ ¬ c.toNat < 0x20) := by
  have hcontrols : ∀ n < 0x20, ('\\' :: 'u' :: codeEscape n).flatMap escapeScriptChar =
      '\\' :: 'u' :: codeEscape n := by decide
  by_cases hquote : c = '"'
  · subst hquote
    exact .inl ⟨'"', by decide, fun _ => rfl⟩
  by_cases hescape : c = '\\'
  · subst hescape
    exact .inl ⟨'\\', by decide, fun _ => rfl⟩
  by_cases hb : c = '\x08'
  · subst hb
    exact .inl ⟨'b', by decide, fun _ => rfl⟩
  by_cases hf : c = '\x0c'
  · subst hf
    exact .inl ⟨'f', by decide, fun _ => rfl⟩
  by_cases hn : c = '\n'
  · subst hn
    exact .inl ⟨'n', by decide, fun _ => rfl⟩
  by_cases hr : c = '\r'
  · subst hr
    exact .inl ⟨'r', by decide, fun _ => rfl⟩
  by_cases ht : c = '\t'
  · subst ht
    exact .inl ⟨'t', by decide, fun _ => rfl⟩
  have hlong : escapeChar c =
      if c.toNat < 0x20 then '\\' :: 'u' :: codeEscape c.toNat else [c] := by
    rw [escapeChar, if_neg hquote, if_neg hescape, if_neg hb, if_neg hf, if_neg hn, if_neg hr,
      if_neg ht]
    rfl
  by_cases hcontrol : c.toNat < 0x20
  · refine .inr (.inl ⟨by omega, ?_⟩)
    rw [embeddedChar, hlong, if_pos hcontrol]
    exact hcontrols c.toNat hcontrol
  rw [if_neg hcontrol] at hlong
  by_cases hless : c = '<'
  · subst hless
    exact .inr (.inl ⟨by decide, by decide⟩)
  · refine .inr (.inr ⟨?_, hquote, hescape, hcontrol⟩)
    rw [embeddedChar, hlong, List.flatMap_singleton, escapeScriptChar, if_neg hless]

theorem readString_embeddedChar (c : Char) (u : List Char) :
    readString (embeddedChar c ++ u) = (readString u).map fun read => (c :: read.1, read.2) := by
  rcases embeddedChar_cases c with ⟨x, hx, hread⟩ | ⟨hsmall, hx⟩ | ⟨hx, hquote, hescape, hcontrol⟩
  · rw [hx]
    exact readString_escape (hread u)
  · have hread := readEscape_code (u := u) hsmall
    rw [Char.ofNat_toNat] at hread
    rw [hx]
    exact readString_escape hread
  · rw [hx]
    exact readString_cons hquote hescape hcontrol

theorem readString_embedded (s u : List Char) :
    readString (s.flatMap embeddedChar ++ '"' :: u) = .ok (s, u) := by
  induction s with
  | nil => rw [List.flatMap_nil, List.nil_append, readString]
  | cons c s ih =>
    rw [List.flatMap_cons, List.append_assoc, readString_embeddedChar, ih]
    rfl

end Reading

variable {α : Type}

theorem embed_str (s : String) :
    embed (.str s) = '"' :: (s.toList.flatMap embeddedChar ++ ['"']) := by
  rw [embed, Json.write, quote, List.cons_append, List.flatMap_cons, List.flatMap_append,
    List.flatMap_assoc]
  rfl

theorem legible_str : Legible (fun s : String => embed (.str s)) Eq := by
  have hbody : Legible (fun s : List Char => s.flatMap embeddedChar ++ ['"']) Eq := by
    refine .of_reader readString fun s u => ?_
    rw [List.append_assoc]
    exact readString_embedded s u
  simp only [embed_str]
  refine ((hbody.of String.toList).text_append ['"']).imp ?_
  intro s t h
  exact String.toList_inj.1 h

/-- A value whose text ends before the comma or brace that follows it in an object. -/
def EndsItself (value : α → Json) : Prop :=
  ∀ q ∈ [',', '\x7d'], Legible (fun x => embed (value x) ++ [q])
    fun x y => embed (value x) = embed (value y)

theorem endsItself_of_legible {β : Type} {value : β → Json}
    (h : Legible (fun b => embed (value b)) Eq) (f : α → β) : EndsItself fun x => value (f x) := by
  intro q _
  refine ((h.of f).append_text [q]).imp ?_
  intro x y hsame
  exact congrArg (fun b => embed (value b)) hsame

theorem endsItself_const (value : Json) : EndsItself fun _ : α => value :=
  fun q _ => ((Legible.text _).append_text [q]).imp fun _ _ _ => rfl

theorem embed_null_append_ne (s : String) (u v : List Char) :
    embed .null ++ u ≠ embed (.str s) ++ v := by
  rw [embed_str]
  exact fun h => absurd (List.cons.inj h).1 (by decide)

theorem legible_option : Legible (fun text : Option String => embed (.ofOption text)) Eq := by
  intro x y u v h
  cases x with
  | none =>
    cases y with
    | none => exact ⟨rfl, List.append_cancel_left h⟩
    | some t => exact absurd h (embed_null_append_ne t u v)
  | some s =>
    cases y with
    | none => exact absurd h.symm (embed_null_append_ne s v u)
    | some t => exact (legible_str h).imp_left (congrArg some)

def Plain (cs : List Char) : Prop :=
  ∀ q ∈ ['<', ',', '\x7d'], q ∉ cs

theorem plain_of_numeric {cs : List Char} (h : Numeric cs) : Plain cs := by
  have hall : ['<', ',', '\x7d'].all fun q => !isNumberChar q := by decide
  intro q hq hmem
  have hnot := List.all_eq_true.1 hall q hq
  rw [h q hmem] at hnot
  cases hnot

theorem plain_float (x : Float) : Plain (Json.float x).write := by
  rw [Json.write, Json.writeFloat]
  split
  · exact plain_of_numeric (Json.numberLayout.numeric_writeFloat x)
  · simp [Plain]

theorem write_word (n : UInt64) : (Json.ofUInt64 n).write = Decimal.digitsOf n.toNat := by
  have hpos : 0 ≤ (JsonInt.ofUInt64 n).val := Int.natCast_nonneg _
  rw [Json.ofUInt64, Json.write, Json.writeInt, if_pos hpos]
  rfl

theorem plain_word (n : UInt64) : Plain (Json.ofUInt64 n).write := by
  rw [write_word]
  exact plain_of_numeric (Decimal.numeric_digitsOf _)

theorem embed_of_plain {value : Json} (h : Plain value.write) : embed value = value.write := by
  have hkept : ∀ c ∈ value.write, escapeScriptChar c = [c] := by
    intro c hc
    rw [escapeScriptChar, if_neg]
    rintro rfl
    exact h '<' (by simp) hc
  rw [embed, List.flatMap_congr hkept, List.flatMap_singleton']

theorem endsItself_of_plain {value : α → Json} (h : ∀ x, Plain (value x).write) :
    EndsItself value := by
  intro q hq
  have hembed : ∀ x, embed (value x) = (value x).write := fun x => embed_of_plain (h x)
  simp only [hembed]
  have hfree : ∀ x, q ∉ (value x).write := fun x => h x q (List.mem_cons_of_mem _ hq)
  exact ((Legible.text []).word_until _ hfree).imp fun _ _ hboth => hboth.1

theorem embed_float_inj {x y : Float} (h : embed (.float x) = embed (.float y)) :
    Json.writeFloat x = Json.writeFloat y := by
  rw [embed_of_plain (plain_float x), embed_of_plain (plain_float y)] at h
  exact h

theorem embed_word_inj {m n : UInt64} (h : embed (.ofUInt64 m) = embed (.ofUInt64 n)) : m = n := by
  rw [embed_of_plain (plain_word m), embed_of_plain (plain_word n), write_word, write_word] at h
  exact UInt64.toNat_inj.1 (Decimal.digitsOf_inj h)

theorem legible_field {value : α → Json} {more : α → List Char} {S : α → α → Prop} {q : Char}
    (name : String) (h : EndsItself value) (hq : q ∈ [',', '\x7d'])
    (hmore : Legible (fun x => (more x).flatMap escapeScriptChar) S) :
    Legible
      (fun x => (quote name ++ ':' :: (value x).write ++ q :: more x).flatMap escapeScriptChar)
      fun x y => embed (value x) = embed (value y) ∧ S x y := by
  have hstop : escapeScriptChar q = [q] := by
    simp only [List.mem_cons, List.not_mem_nil, or_false] at hq
    rcases hq with rfl | rfl <;> rfl
  have hsplit : ∀ x,
      (quote name ++ ':' :: (value x).write ++ q :: more x).flatMap escapeScriptChar =
        (quote name ++ [':']).flatMap escapeScriptChar ++
          ((embed (value x) ++ [q]) ++ (more x).flatMap escapeScriptChar) := by
    intro x
    simp [embed, hstop]
  simp only [hsplit]
  exact ((h q hq).append hmore).text_append _

theorem legible_fields (fields : List (String × (α → Json)))
    (h : ∀ field ∈ fields, EndsItself field.2) :
    Legible
      (fun x =>
        (writeFields (fields.map fun field => (field.1, field.2 x))).flatMap escapeScriptChar)
      fun x y => ∀ field ∈ fields, embed (field.2 x) = embed (field.2 y) := by
  induction fields with
  | nil => exact (Legible.text _).imp fun _ _ _ => nofun
  | cons field fields ih =>
    obtain ⟨hfield, hfields⟩ := List.forall_mem_cons.1 h
    cases fields with
    | nil =>
      have hend :
          Legible (fun _ : α => ([] : List Char).flatMap escapeScriptChar) fun _ _ => True :=
        .text []
      refine (legible_field field.1 hfield (by simp) hend).imp ?_
      intro x y hsame
      exact List.forall_mem_singleton.2 hsame.1
    | cons next fields =>
      refine (legible_field field.1 hfield (by simp) (ih hfields)).imp ?_
      intro x y hsame
      exact List.forall_mem_cons.2 hsame

theorem legible_object (fields : List (String × (α → Json)))
    (h : ∀ field ∈ fields, EndsItself field.2) :
    Legible (fun x => embed (.obj (fields.map fun field => (field.1, field.2 x))))
      fun x y => ∀ field ∈ fields, embed (field.2 x) = embed (field.2 y) :=
  (legible_fields fields h).text_append ['\x7b']

end LivePreview.Document
