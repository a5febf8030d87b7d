import LivePreview.Proofs.Document.Embedding
import LivePreview.Proofs.Document.Section
import LivePreview.Proofs.Json.Nesting

namespace LivePreview

open LivePreview.Json (quote readString readColon readField readValue readAll)
open LivePreview.Json (EndsNumber BeginsItem ReadsBack closedBy)

/-- A value that reading and writing keep as it is: it holds no floating-point number, and its objects
list their fields in order, as every object does. -/
inductive Json.Exact : Json → Prop where
  | null : Exact .null
  | bool (b : Bool) : Exact (.bool b)
  | int (n : JsonInt) : Exact (.int n)
  | str (s : String) : Exact (.str s)
  | arr {items : List Json} : (∀ item ∈ items, Exact item) → Exact (.arr items)
  | obj {fields : List (String × Json)} :
      fields.Pairwise (·.1 < ·.1) → (∀ field ∈ fields, Exact field.2) → Exact (.obj fields)

namespace Document

variable {value : Json} {rest : List Char} {limit : Nat}

section Texts

theorem embed_arr_cons (item : Json) (items : List Json) :
    embed (.arr (item :: items)) ++ rest =
      '[' :: (embed item ++ closedBy ']' embed items rest) := by
  have hitems : (Json.writeItems (item :: items)).flatMap escapeScriptChar ++ rest =
      embed item ++ closedBy ']' embed items rest := by
    induction items generalizing item with
    | nil => simp [Json.writeItems, embed, closedBy, escapeScriptChar]
    | cons next items ih =>
      rw [Json.writeItems, List.flatMap_append, List.append_assoc, List.flatMap_cons,
        Json.closedBy_cons, List.append_assoc, ih next]
      · rfl
      · simp
  rw [← hitems]
  rfl

def fieldBody (field : String × Json) : List Char :=
  field.1.toList.flatMap embeddedChar ++ '"' :: ':' :: embed field.2

theorem embed_obj_cons (field : String × Json) (fields : List (String × Json)) :
    embed (.obj (field :: fields)) ++ rest =
      '\x7b' :: '"' ::
        (fieldBody field ++ closedBy '\x7d' (fun next => '"' :: fieldBody next) fields rest) := by
  have hfield (field : String × Json) (tail : List Char) :
      (quote field.1 ++ ':' :: field.2.write).flatMap escapeScriptChar ++ tail =
        '"' :: (fieldBody field ++ tail) := by
    have hquote : (quote field.1).flatMap escapeScriptChar = embed (.str field.1) := rfl
    rw [List.flatMap_append, hquote, embed_str, List.flatMap_cons]
    simp [fieldBody, embed, escapeScriptChar]
  have hfields : (Json.writeFields (field :: fields)).flatMap escapeScriptChar ++ rest =
      '"' :: (fieldBody field ++
        closedBy '\x7d' (fun next => '"' :: fieldBody next) fields rest) := by
    induction fields generalizing field with
    | nil =>
      rw [Json.writeFields, List.flatMap_append, List.append_assoc, hfield]
      rfl
    | cons next fields ih =>
      rw [Json.writeFields, List.flatMap_append, List.append_assoc, hfield, List.flatMap_cons,
        Json.closedBy_cons, List.append_assoc, ih next]
      · rfl
      · simp
  rw [← hfields]
  rfl

theorem embed_int (n : JsonInt) : embed (.int n) = Json.writeInt n.val := by
  refine embed_of_plain (plain_of_numeric ?_)
  rw [Json.write, Json.writeInt]
  split
  · exact Decimal.numeric_digitsOf _
  · exact Decimal.numeric_cons.2 ⟨by decide, Decimal.numeric_digitsOf _⟩

theorem beginsItem_embed (h : value.Exact) : BeginsItem (embed value) := by
  cases h with
  | null => exact ⟨'n', _, rfl, by decide, by decide⟩
  | bool b => cases b <;> exact ⟨_, _, rfl, by decide, by decide⟩
  | int n =>
    rw [embed_int, Json.writeInt]
    split
    · obtain ⟨c, ds, hcons, hc⟩ := Json.exists_digitsOf_cons n.val.toNat
      refine ⟨c, ds, hcons, Json.isSpace_of_isDigit hc, ?_⟩
      rintro rfl
      exact absurd hc (by decide)
    · exact ⟨'-', _, rfl, by decide, by decide⟩
  | str s => exact ⟨'"', _, embed_str s, by decide, by decide⟩
  | arr hitems => exact ⟨'[', _, rfl, by decide, by decide⟩
  | obj hsorted hfields => exact ⟨'\x7b', _, rfl, by decide, by decide⟩

end Texts

theorem readValue_null : readValue limit (embed .null ++ rest) = .ok (.null, rest) := by
  have htext : embed .null ++ rest = 'n' :: 'u' :: 'l' :: 'l' :: rest := rfl
  rw [htext, readValue]
  rfl

theorem readValue_bool (b : Bool) :
    readValue limit (embed (.bool b) ++ rest) = .ok (.bool b, rest) := by
  cases b with
  | true =>
    have htext : embed (.bool true) ++ rest = 't' :: 'r' :: 'u' :: 'e' :: rest := rfl
    rw [htext, readValue]
    rfl
  | false =>
    have htext : embed (.bool false) ++ rest = 'f' :: 'a' :: 'l' :: 's' :: 'e' :: rest := rfl
    rw [htext, readValue]
    rfl

theorem readValue_str (s : String) :
    readValue limit (embed (.str s) ++ rest) = .ok (.str s, rest) := by
  have htext : embed (.str s) ++ rest = '"' :: (s.toList.flatMap embeddedChar ++ '"' :: rest) := by
    simp [embed_str]
  have hstring : readString (s.toList.flatMap embeddedChar ++ '"' :: rest) = .ok (s.toList, rest) :=
    readString_embedded s.toList rest
  rw [htext, readValue, Json.skipSpace_cons (by decide)]
  simp only [hstring, Json.ok_bind, String.ofList_toList]

theorem readValue_int (n : JsonInt) (hrest : EndsNumber rest) :
    readValue limit (embed (.int n) ++ rest) = .ok (.int n, rest) := by
  obtain ⟨hpositive, hnegative⟩ := Json.toNat_le_maxSignificand n
  rw [embed_int, Json.writeInt]
  split
  · rename_i hn
    have hread := Json.readNumber_digitsOf false hpositive hrest
    rw [Json.intOrFloat_toNat hn] at hread
    obtain ⟨c, ds, hcons, hc⟩ := Json.exists_digitsOf_cons n.val.toNat
    rw [hcons] at hread ⊢
    exact (Json.readValue_digit hc).trans hread
  · rename_i hn
    have hread := Json.readNumber_digitsOf true hnegative hrest
    rw [Json.intOrFloat_toNat_neg (Int.not_le.1 hn)] at hread
    rw [List.cons_append, readValue, Json.skipSpace_cons (by decide)]
    exact hread

theorem readsBack_field {field : String × Json}
    (h : ReadsBack (readValue limit) embed field.2) :
    ReadsBack (readField (readValue limit)) fieldBody field := by
  intro rest hrest
  have hname : readString (fieldBody field ++ rest) =
      .ok (field.1.toList, ':' :: (embed field.2 ++ rest)) := by
    rw [fieldBody, List.append_assoc]
    exact readString_embedded _ _
  have hcolon : readColon (':' :: (embed field.2 ++ rest)) = .ok ((), embed field.2 ++ rest) := rfl
  simp only [readField, hname, Json.ok_bind, hcolon, h rest hrest, String.ofList_toList]

theorem readValue_arr {items : List Json}
    (hread : ∀ item ∈ items, ReadsBack (readValue limit) embed item)
    (hbegins : ∀ item ∈ items, BeginsItem (embed item)) :
    readValue (limit + 1) (embed (.arr items) ++ rest) = .ok (.arr items, rest) := by
  cases items with
  | nil =>
    have htext : embed (.arr []) ++ rest = '[' :: ']' :: rest := rfl
    rw [htext, readValue]
    rfl
  | cons item items =>
    rw [embed_arr_cons, readValue, Json.skipSpace_cons (by decide)]
    simp only [Json.readList_closedBy item hread hbegins, Json.ok_bind]

theorem readValue_obj {fields : List (String × Json)} (hsorted : fields.Pairwise (·.1 < ·.1))
    (hread : ∀ field ∈ fields, ReadsBack (readValue limit) embed field.2) :
    readValue (limit + 1) (embed (.obj fields) ++ rest) = .ok (.obj fields, rest) := by
  cases fields with
  | nil =>
    have htext : embed (.obj []) ++ rest = '\x7b' :: '\x7d' :: rest := rfl
    rw [htext, readValue]
    rfl
  | cons field fields =>
    have hfields : ∀ other ∈ field :: fields,
        ReadsBack (readField (readValue limit)) fieldBody other :=
      fun other hmem => readsBack_field (hread other hmem)
    rw [embed_obj_cons, readValue, Json.skipSpace_cons (by decide)]
    simp only [Json.readFields_closedBy field hfields, Json.ok_bind,
      Json.ofFields_of_pairwise hsorted]

theorem readsBack_embed (h : value.Exact) (hdepth : value.depth ≤ limit) :
    ReadsBack (readValue limit) embed value := by
  -- The limit is one lower inside each bracket.
  induction h generalizing limit with
  | null => exact fun rest _ => readValue_null
  | bool b => exact fun rest _ => readValue_bool b
  | int n => exact fun rest hrest => readValue_int n hrest
  | str s => exact fun rest _ => readValue_str s
  | @arr items hitems ih =>
    obtain ⟨inner, rfl⟩ := Nat.exists_eq_add_one_of_ne_zero (Nat.ne_zero_of_lt hdepth)
    have hread : ∀ item ∈ items, ReadsBack (readValue inner) embed item := fun item hmem =>
      ih item hmem (Json.itemsDepth_le_iff.1 (Nat.le_of_succ_le_succ hdepth) item hmem)
    exact fun rest _ => readValue_arr hread fun item hmem => beginsItem_embed (hitems item hmem)
  | @obj fields hsorted hfields ih =>
    obtain ⟨inner, rfl⟩ := Nat.exists_eq_add_one_of_ne_zero (Nat.ne_zero_of_lt hdepth)
    have hread : ∀ field ∈ fields, ReadsBack (readValue inner) embed field.2 := fun field hmem =>
      ih field hmem (Json.fieldsDepth_le_iff.1 (Nat.le_of_succ_le_succ hdepth) field hmem)
    exact fun rest _ => readValue_obj hsorted hread

theorem readAll_embed_iff (h : value.Exact) :
    readAll (readValue limit) (embed value) = .ok value ↔ value.depth ≤ limit := by
  constructor
  · intro hread
    obtain ⟨⟨read, rest⟩, hvalue, hend⟩ := Json.bind_eq_ok_iff.1 hread
    dsimp only at hend
    split at hend
    · obtain rfl := Except.ok.inj hend
      exact Json.depth_le_of_readValue hvalue
    · cases hend
  · intro hdepth
    have hread := readsBack_embed h hdepth [] Json.endsNumber_nil
    rw [List.append_nil] at hread
    rw [readAll, hread, Json.ok_bind]
    rfl

theorem not_mem_embed (value : Json) : '<' ∉ embed value := by
  intro hmem
  obtain ⟨c, -, hc⟩ := List.mem_flatMap.1 hmem
  exact not_mem_escapeScriptChar c hc

end Document

end LivePreview
