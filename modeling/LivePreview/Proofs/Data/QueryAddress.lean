import LivePreview.Data.Query
import LivePreview.Proofs.Text.Lines
import LivePreview.Proofs.Text.Percent

namespace LivePreview.Query

open Text.Percent (encode decode? isCode isCode_of_mem_encode decode?_encode)

def pathOf (target : List Char) : List Char :=
  target.takeWhile (· != '?')

def partsOf (target : List Char) : List (List Char) :=
  ((target.dropWhile (· != '?')).drop 1).splitOn '&'

def valueOf? (label : String) (part : List Char) : Option String :=
  if label.toList.isPrefixOf part then decode? (.ofList (part.drop label.toList.length)) else none

/-- A filter stands in the address as it is, so it makes as many parts as it has pieces. -/
def filterPieces (query : Query) : List (List Char) :=
  match query.filter with
  | none => []
  | some filter => if filter.isEmpty then [] else filter.toList.splitOn '&'

section Cutting

variable {path rest : List Char} {parts : List (List Char)} {label text : String} {c : Char}

theorem not_mem_encode (text : String) (h : isCode c = false) : c ∉ (encode text).toList :=
  fun hmem => by simp [isCode_of_mem_encode hmem] at h

theorem not_mem_natText (n : Nat) (h : c.isDigit = false) : c ∉ (toString n).toList := by
  rw [Nat.toString_eq_ofList_toDigits, String.toList_ofList]
  intro hmem
  have hdigit : c.isDigit := Nat.isDigit_of_mem_toDigits (by decide) (by decide) hmem
  simp [hdigit] at h

theorem valueOf?_encode (label text : String) :
    valueOf? label (label ++ encode text).toList = some text := by
  rw [valueOf?, String.toList_append, if_pos (by simp), List.drop_left, String.ofList_toList,
    decode?_encode]

theorem pathOf_append (h : '?' ∉ path) : pathOf (path ++ '?' :: rest) = path := by
  rw [pathOf, List.takeWhile_append_of_pos fun c hc => by simpa using ne_of_mem_of_not_mem hc h]
  simp

theorem partsOf_append (h : '?' ∉ path) : partsOf (path ++ '?' :: rest) = rest.splitOn '&' := by
  rw [partsOf, List.dropWhile_append_of_pos fun c hc => by simpa using ne_of_mem_of_not_mem hc h]
  simp

theorem splitOn_intercalate_parts (h : parts ≠ []) :
    (['&'].intercalate parts).splitOn '&' = parts.flatMap (List.splitOn '&') := by
  induction parts with
  | nil => exact absurd rfl h
  | cons part parts ih =>
    cases parts with
    | nil => simp
    | cons next parts =>
      rw [List.intercalate_cons_cons, List.append_assoc, List.singleton_append,
        List.splitOn_append_cons_self, ih (List.cons_ne_nil _ _)]
      rfl

theorem splitOn_labelled (hlabel : '&' ∉ label.toList) (htext : '&' ∉ text.toList) :
    (label ++ text).toList.splitOn '&' = [(label ++ text).toList] := by
  refine List.splitOn_eq_singleton ?_
  rw [String.toList_append, List.mem_append]
  exact not_or.2 ⟨hlabel, htext⟩

theorem splitOn_encoded (hlabel : '&' ∉ label.toList) (text : String) :
    (label ++ encode text).toList.splitOn '&' = [(label ++ encode text).toList] :=
  splitOn_labelled hlabel (not_mem_encode text rfl)

theorem splitOn_optional {α : Type} (given : Option α) {write : α → String}
    (h : ∀ a, (write a).toList.splitOn '&' = [(write a).toList]) :
    ((given.map write).toList.map String.toList).flatMap (List.splitOn '&') =
      (given.map fun a => (write a).toList).toList := by
  cases given with
  | none => rfl
  | some a => exact (List.flatMap_singleton _ _).trans (h a)

end Cutting

theorem splitOn_filter (query : Query) :
    ((query.filter.filter fun filter => !filter.isEmpty).toList.map String.toList).flatMap
      (List.splitOn '&') = query.filterPieces := by
  rw [filterPieces]
  cases query.filter with
  | none => rfl
  | some filter =>
    by_cases hempty : filter.isEmpty
    · rw [Option.filter_some_neg (by simp [hempty])]
      exact (if_pos hempty).symm
    · rw [Option.filter_some_pos (by simp [hempty])]
      exact (List.flatMap_singleton _ _).trans (if_neg hempty).symm

theorem splitOn_parameters (query : Query) :
    (query.parameters.map String.toList).flatMap (List.splitOn '&') =
      ("select=" ++ encode (query.select.getD "*")).toList ::
        (query.filterPieces ++
          (query.order.map fun order => ("order=" ++ encode order).toList).toList ++
          (query.limit.map fun limit => ("limit=" ++ toString limit.toNat).toList).toList) := by
  have hselect : '&' ∉ "select=".toList := by simp
  have horder : '&' ∉ "order=".toList := by simp
  have hlimit : '&' ∉ "limit=".toList := by simp
  rw [parameters, List.map_append, List.map_append, List.map_append, List.flatMap_append,
    List.flatMap_append, List.flatMap_append, List.map_singleton, List.flatMap_singleton,
    splitOn_encoded hselect, splitOn_filter, splitOn_optional query.order (splitOn_encoded horder),
    splitOn_optional query.limit fun _ => splitOn_labelled hlimit (not_mem_natText _ rfl),
    List.append_assoc, List.append_assoc, List.singleton_append, List.append_assoc]

theorem splitOn_rowId (table id : String) :
    ((ofRowId table id).parameters.map String.toList).flatMap (List.splitOn '&') =
      ["select=%2A".toList, ("id=eq." ++ encode id).toList, "limit=1".toList] := by
  have hstar : "select=" ++ encode "*" = "select=%2A" := by decide
  have hlabel : '&' ∉ "id=eq.".toList := by simp
  have hnonempty : ¬ ("id=eq." ++ encode id).isEmpty := by simp
  have hpieces : (ofRowId table id).filterPieces = [("id=eq." ++ encode id).toList] := by
    rw [← splitOn_encoded hlabel, filterPieces]
    exact if_neg hnonempty
  rw [splitOn_parameters, hpieces, ← hstar]
  rfl

theorem toList_url (query : Query) (base : String) :
    (query.url base).toList = base.toList.rdropWhile (· == '/') ++ "/rest/".toList ++
      ((encode query.table).toList ++ '?' ::
        ['&'].intercalate (query.parameters.map String.toList)) := by
  simp [url, trimSlashes, Text.dropEndWhile_eq_rdropWhile, String.toList_intercalate]

theorem trimSlashes_append_slashes (base : String) (n : Nat) :
    trimSlashes (base ++ .ofList (List.replicate n '/')) = trimSlashes base := by
  have hslashes : ∀ c ∈ List.replicate n '/', (c == '/') = true := fun c hc => by
    simp [List.eq_of_mem_replicate hc]
  rw [trimSlashes, trimSlashes, String.toList_append, String.toList_ofList,
    Text.dropEndWhile_append_of_all hslashes]

theorem exists_target (query : Query) : ∃ target,
    (∀ base, (query.url base).toList =
      base.toList.rdropWhile (· == '/') ++ "/rest/".toList ++ target) ∧
    decode? (.ofList (pathOf target)) = some query.table ∧
    partsOf target = (query.parameters.map String.toList).flatMap (List.splitOn '&') := by
  have htable : '?' ∉ (encode query.table).toList := not_mem_encode query.table rfl
  refine ⟨_, query.toList_url, ?_, ?_⟩
  · rw [pathOf_append htable, String.ofList_toList, decode?_encode]
  · rw [partsOf_append htable, splitOn_intercalate_parts (by simp [parameters])]

/-- Behind the base, less its trailing slashes, and `/rest/`, the address of a query is cut into a path
that decodes to the table and into parts that hold what the fields give, in their order and nothing
else. A part with a label gives back the text behind it, so the address of a look-up by `id` has three
parts whatever the `id` is. -/
theorem url_reads_back :
    (∀ label text, valueOf? label (label ++ encode text).toList = some text) ∧
    (∀ query : Query, ∃ target,
      (∀ base, (query.url base).toList =
        base.toList.rdropWhile (· == '/') ++ "/rest/".toList ++ target) ∧
      decode? (.ofList (pathOf target)) = some query.table ∧
      partsOf target =
        ("select=" ++ encode (query.select.getD "*")).toList ::
          (query.filterPieces ++
            (query.order.map fun order => ("order=" ++ encode order).toList).toList ++
            (query.limit.map fun limit => ("limit=" ++ toString limit.toNat).toList).toList)) ∧
    (∀ table id, ∃ target,
      (∀ base, ((ofRowId table id).url base).toList =
        base.toList.rdropWhile (· == '/') ++ "/rest/".toList ++ target) ∧
      decode? (.ofList (pathOf target)) = some table ∧
      partsOf target = ["select=%2A".toList, ("id=eq." ++ encode id).toList, "limit=1".toList]) ∧
    ∀ (query : Query) base n,
      query.url (base ++ .ofList (List.replicate n '/')) = query.url base := by
  refine ⟨valueOf?_encode, fun query => ?_, fun table id => ?_, fun query base n => ?_⟩
  · rw [← splitOn_parameters]
    exact query.exists_target
  · rw [← splitOn_rowId table id]
    exact (ofRowId table id).exists_target
  · rw [url, url, trimSlashes_append_slashes]

example : (ofRowId "vendors" "café&x=1").url "http://x//" =
    "http://x/rest/vendors?select=%2A&id=eq.caf%C3%A9%26x%3D1&limit=1" := by decide

end LivePreview.Query
