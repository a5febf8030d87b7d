import Mathlib.Data.Option.Basic
import LivePreview.Source.Constants
import LivePreview.Proofs.Source.RootDeclaration

namespace LivePreview.Source

open LivePreview.Text

inductive LiteralDeclaration (name : ConstantName) (value : List Char) : List Char → Prop where
  | intro {keyword : String} {gap front back : List Char} {quote : Char} :
      keyword ∈ constantKeywords → gap ≠ [] → (∀ c ∈ gap, isBlank c) → (∀ c ∈ front, isBlank c) →
      (∀ c ∈ back, isBlank c) → quote = '"' ∨ quote = '\'' →
      (∀ c ∈ value, c ≠ quote ∧ c ≠ '\\' ∧ c ≠ '\n') →
      LiteralDeclaration name value (keyword.toList ++ gap ++ name.text.toList ++ front ++ ['='] ++
        back ++ [quote] ++ value ++ [quote])

def DeclaredBehind (name : ConstantName) (value before text : List Char) : Prop :=
  ∃ declaration rest, text = before ++ declaration ++ rest ∧ EndsOutsideWord before ∧
    LiteralDeclaration name value declaration

variable {name : ConstantName} {value before cs rest : List Char}

theorem dropBlanks_eq_cons_iff {c : Char} (hc : isBlank c = false) :
    dropBlanks cs = c :: rest ↔ ∃ gap, cs = gap ++ c :: rest ∧ ∀ d ∈ gap, isBlank d := by
  constructor
  · intro h
    refine ⟨cs.takeWhile isBlank, ?_, fun _ => isBlank_of_mem_takeWhile⟩
    rw [← h, takeWhile_append_dropBlanks]
  · rintro ⟨gap, rfl, hgap⟩
    rw [dropBlanks_append_of_all hgap]
    simp [dropBlanks, hc]

theorem takeWhile_eq_before_iff {p : Char → Bool} {q : Char} (hq : p q = false) :
    (cs.dropWhile p).head? = some q ∧ cs.takeWhile p = value ↔
      ∃ rest, cs = value ++ q :: rest ∧ ∀ c ∈ value, p c := by
  constructor
  · rintro ⟨hhead, rfl⟩
    obtain ⟨rest, hrest⟩ := List.head?_eq_some_iff.1 hhead
    refine ⟨rest, ?_, fun c hc => List.all_eq_true.1 List.all_takeWhile c hc⟩
    rw [← hrest, List.takeWhile_append_dropWhile]
  · rintro ⟨rest, rfl, hvalue⟩
    rw [List.dropWhile_append_of_pos hvalue, List.takeWhile_append_of_pos hvalue]
    simp [hq]

theorem literal?_eq_some_iff : literal? cs = some value ↔ ∃ quote rest,
    cs = quote :: (value ++ quote :: rest) ∧ (quote = '"' ∨ quote = '\'') ∧
      ∀ c ∈ value, c ≠ quote ∧ c ≠ '\\' ∧ c ≠ '\n' := by
  cases cs with
  | nil => simp [literal?]
  | cons q cs =>
    let plain : Char → Bool := fun c => c != q && c != '\\' && c != '\n'
    have hplain (c : Char) : plain c = true ↔ c ≠ q ∧ c ≠ '\\' ∧ c ≠ '\n' := by
      simp [plain, and_assoc]
    have hcut : (cs.dropWhile plain).head? = some q ∧ cs.takeWhile plain = value ↔
        ∃ rest, cs = value ++ q :: rest ∧ ∀ c ∈ value, plain c :=
      takeWhile_eq_before_iff (by simp [plain])
    have hliteral : literal? (q :: cs) = some value ↔ (q = '"' ∨ q = '\'') ∧
        (cs.dropWhile plain).head? = some q ∧ cs.takeWhile plain = value := by
      simp only [literal?, Bool.or_eq_true, beq_iff_eq, Option.ite_none_right_eq_some,
        Option.some.injEq, plain]
    rw [hliteral, hcut]
    simp only [hplain]
    constructor
    · rintro ⟨hq, rest, rfl, hvalue⟩
      exact ⟨q, rest, rfl, hq, hvalue⟩
    · rintro ⟨quote, rest, heq, hquote, hvalue⟩
      obtain ⟨rfl, rfl⟩ := List.cons.inj heq
      exact ⟨hquote, rest, rfl, hvalue⟩

theorem exists_constantName_cons (name : ConstantName) :
    ∃ c cs, name.text.toList = c :: cs ∧ isBlank c = false := by
  cases name with
  | location => exact ⟨'L', "OCATION_ID".toList, by simp [ConstantName.text], by decide⟩
  | vendor => exact ⟨'V', "ENDOR_ID".toList, by simp [ConstantName.text], by decide⟩

def declaredBy? (name : ConstantName) (cs : List Char) (keyword : String) :
    Option (List Char) := do
  let rest ← keyword.toList.isPrefixOf? cs
  guard (startsBlank rest)
  let rest ← name.text.toList.isPrefixOf? (dropBlanks rest)
  match dropBlanks rest with
  | '=' :: value => literal? (dropBlanks value)
  | _ => none

theorem declaredBy?_eq_some_iff {keyword : String} :
    declaredBy? name cs keyword = some value ↔ ∃ gap front back quote rest,
      cs = keyword.toList ++ (gap ++ (name.text.toList ++ (front ++ '=' :: (back ++ quote ::
        (value ++ quote :: rest))))) ∧ gap ≠ [] ∧ (∀ c ∈ gap, isBlank c) ∧
      (∀ c ∈ front, isBlank c) ∧ (∀ c ∈ back, isBlank c) ∧ (quote = '"' ∨ quote = '\'') ∧
      ∀ c ∈ value, c ≠ quote ∧ c ≠ '\\' ∧ c ≠ '\n' := by
  obtain ⟨c, word, hname, hc⟩ := exists_constantName_cons name
  simp only [declaredBy?, Option.bind_eq_bind, Option.bind_eq_some_iff, Option.guard_eq_some']
  constructor
  · rintro ⟨gapped, hkeyword, -, hgap, named, hnamed, h⟩
    split at h
    · rename_i assigned hassigned
      obtain ⟨front, rfl, hfront⟩ := (dropBlanks_eq_cons_iff (by decide)).1 hassigned
      obtain ⟨quote, rest, hquoted, hquote, hvalue⟩ := literal?_eq_some_iff.1 h
      have hback := takeWhile_append_dropBlanks assigned
      rw [hquoted] at hback
      refine ⟨gapped.takeWhile isBlank, front, assigned.takeWhile isBlank, quote, rest, ?_,
        takeWhile_ne_nil hgap, fun _ => isBlank_of_mem_takeWhile, hfront,
        fun _ => isBlank_of_mem_takeWhile, hquote, hvalue⟩
      rw [hback, List.append_eq_of_isPrefixOf?_eq_some hnamed, takeWhile_append_dropBlanks,
        List.append_eq_of_isPrefixOf?_eq_some hkeyword]
    · cases h
  · rintro ⟨gap, front, back, quote, rest, rfl, hne, hgap, hfront, hback, hquote, hvalue⟩
    have hquoteBlank : isBlank quote = false := by
      rcases hquote with rfl | rfl <;> decide
    have hnamed : dropBlanks (name.text.toList ++ (front ++ '=' :: (back ++ quote ::
        (value ++ quote :: rest)))) = name.text.toList ++ (front ++ '=' :: (back ++ quote ::
        (value ++ quote :: rest))) := by
      rw [hname, List.cons_append]
      exact (dropBlanks_eq_cons_iff hc).2 ⟨[], rfl, by simp⟩
    have hassigned : dropBlanks (front ++ '=' :: (back ++ quote :: (value ++ quote :: rest))) =
        '=' :: (back ++ quote :: (value ++ quote :: rest)) :=
      (dropBlanks_eq_cons_iff (by decide)).2 ⟨front, rfl, hfront⟩
    have hquoted : dropBlanks (back ++ quote :: (value ++ quote :: rest)) =
        quote :: (value ++ quote :: rest) :=
      (dropBlanks_eq_cons_iff hquoteBlank).2 ⟨back, rfl, hback⟩
    refine ⟨_, List.isPrefixOf?_eq_some_iff_append_eq.2 rfl, (), startsBlank_append hne hgap,
      front ++ '=' :: (back ++ quote :: (value ++ quote :: rest)), ?_, ?_⟩
    · rw [dropBlanks_append_of_all hgap, hnamed]
      exact List.isPrefixOf?_eq_some_iff_append_eq.2 rfl
    · rw [hassigned]
      simp only [hquoted]
      exact literal?_eq_some_iff.2 ⟨quote, rest, rfl, hquote, hvalue⟩

theorem keyword_unique {keyword other : String} (h : keyword ∈ constantKeywords)
    (hother : other ∈ constantKeywords) (hstart : keyword.toList <+: cs)
    (hstart' : other.toList <+: cs) : keyword = other := by
  simp only [constantKeywords, List.mem_cons, List.not_mem_nil, or_false] at h hother
  obtain ⟨u, rfl⟩ := hstart
  obtain ⟨v, hv⟩ := hstart'
  rcases h with rfl | rfl | rfl <;> rcases hother with rfl | rfl | rfl
  all_goals first
    | rfl
    | exact absurd (List.cons.inj hv).1 (by decide)

theorem declaredLiteral?_eq_some_iff : declaredLiteral? name cs = some value ↔
    ∃ keyword ∈ constantKeywords, declaredBy? name cs keyword = some value := by
  constructor
  · exact List.exists_of_findSome?_eq_some
  · rintro ⟨keyword, hmem, h⟩
    have hstart {keyword : String} {value : List Char}
        (h : declaredBy? name cs keyword = some value) : keyword.toList <+: cs := by
      obtain ⟨_, _, _, _, _, rfl, -⟩ := declaredBy?_eq_some_iff.1 h
      exact List.prefix_append _ _
    cases hfound : declaredLiteral? name cs with
    | none =>
      have hnone := List.findSome?_eq_none_iff.1 hfound keyword hmem
      exact absurd (h.symm.trans hnone) (by simp)
    | some other =>
      obtain ⟨keyword', hmem', h'⟩ := List.exists_of_findSome?_eq_some hfound
      obtain rfl := keyword_unique hmem hmem' (hstart h) (hstart h')
      exact h'.symm.trans h

theorem declaredLiteral?_eq_some_iff_starts : declaredLiteral? name cs = some value ↔
    ∃ declaration rest, cs = declaration ++ rest ∧ LiteralDeclaration name value declaration := by
  simp only [declaredLiteral?_eq_some_iff, declaredBy?_eq_some_iff]
  constructor
  · rintro ⟨keyword, hmem, gap, front, back, quote, rest, rfl, hne, hgap, hfront, hback, hquote,
      hvalue⟩
    exact ⟨_, rest, by simp, .intro hmem hne hgap hfront hback hquote hvalue⟩
  · rintro ⟨_, rest, rfl, hmem, hne, hgap, hfront, hback, hquote, hvalue⟩
    exact ⟨_, hmem, _, _, _, _, rest, by simp, hne, hgap, hfront, hback, hquote, hvalue⟩

def Outside (inWord : Bool) (before : List Char) : Prop :=
  (before = [] → inWord = false) ∧ EndsOutsideWord before

theorem outside_nil {inWord : Bool} : Outside inWord [] ↔ inWord = false := by
  simp [Outside, EndsOutsideWord]

theorem outside_cons {inWord : Bool} {c : Char} :
    Outside inWord (c :: before) ↔ Outside (isWord c) before := by
  cases before with
  | nil => simp [Outside, EndsOutsideWord]
  | cons d before => simp [Outside, EndsOutsideWord]

theorem outside_false : Outside false before ↔ EndsOutsideWord before := by
  simp [Outside]

theorem declaredLiteral?_of_firstLiteral?_eq_none {inWord : Bool}
    (h : firstLiteral? name inWord (before ++ rest) = none) (hbefore : Outside inWord before) :
    declaredLiteral? name rest = none := by
  induction before generalizing inWord with
  | nil =>
    obtain rfl := outside_nil.1 hbefore
    cases rest with
    | nil => rfl
    | cons c cs =>
      rw [List.nil_append, firstLiteral?] at h
      split at h
      · cases h
      · rename_i hnone
        simpa using hnone
  | cons c before ih =>
    rw [List.cons_append, firstLiteral?] at h
    split at h
    · cases h
    · exact ih h (outside_cons.1 hbefore)

theorem exists_of_firstLiteral?_eq_some {inWord : Bool}
    (h : firstLiteral? name inWord cs = some value) :
    ∃ before rest, cs = before ++ rest ∧ Outside inWord before ∧
      declaredLiteral? name rest = some value ∧
      ∀ other rest', cs = other ++ rest' → Outside inWord other →
        declaredLiteral? name rest' ≠ none → before.length ≤ other.length := by
  induction cs generalizing inWord with
  | nil => cases h
  | cons c cs ih =>
    rw [firstLiteral?] at h
    split at h
    · rename_i found hfound
      obtain rfl := Option.some.inj h
      obtain ⟨hword, hfound⟩ : inWord = false ∧ declaredLiteral? name (c :: cs) = some found := by
        simpa using hfound
      exact ⟨[], c :: cs, rfl, outside_nil.2 hword, hfound, by simp⟩
    · rename_i hnone
      obtain ⟨before, rest, rfl, hbefore, hvalue, hfirst⟩ := ih h
      refine ⟨c :: before, rest, rfl, outside_cons.2 hbefore, hvalue, ?_⟩
      intro other rest' hsplit hother hdeclared
      cases other with
      | nil =>
        obtain rfl := outside_nil.1 hother
        obtain rfl := hsplit
        simp [hdeclared] at hnone
      | cons d other =>
        obtain ⟨rfl, hrest⟩ := List.cons.inj hsplit
        have hle := hfirst other rest' hrest (outside_cons.1 hother) hdeclared
        simpa using hle

theorem declaredBehind_iff : DeclaredBehind name value before cs ↔
    ∃ rest, cs = before ++ rest ∧ Outside false before ∧
      declaredLiteral? name rest = some value := by
  simp only [DeclaredBehind, outside_false, declaredLiteral?_eq_some_iff_starts]
  constructor
  · rintro ⟨declaration, rest, rfl, hbefore, hdeclaration⟩
    exact ⟨declaration ++ rest, by simp, hbefore, declaration, rest, rfl, hdeclaration⟩
  · rintro ⟨_, rfl, hbefore, declaration, rest, rfl, hdeclaration⟩
    exact ⟨declaration, rest, by simp, hbefore, hdeclaration⟩

theorem firstLiteral?_eq_none_iff : firstLiteral? name false cs = none ↔
    ¬ ∃ before value, DeclaredBehind name value before cs := by
  constructor
  · rintro h ⟨before, value, hdeclared⟩
    obtain ⟨rest, rfl, hbefore, hvalue⟩ := declaredBehind_iff.1 hdeclared
    rw [declaredLiteral?_of_firstLiteral?_eq_none h hbefore] at hvalue
    cases hvalue
  · intro h
    cases hfound : firstLiteral? name false cs with
    | none => rfl
    | some value =>
      obtain ⟨before, rest, hsplit, hbefore, hvalue, -⟩ := exists_of_firstLiteral?_eq_some hfound
      exact absurd ⟨before, value, declaredBehind_iff.2 ⟨rest, hsplit, hbefore, hvalue⟩⟩ h

def FirstDeclared (name : ConstantName) (value text : List Char) : Prop :=
  ∃ before, DeclaredBehind name value before text ∧
    ∀ other value', DeclaredBehind name value' other text → before.length ≤ other.length

theorem DeclaredBehind.unique {other : List Char} (h : DeclaredBehind name value before cs)
    (hother : DeclaredBehind name other before cs) : value = other := by
  obtain ⟨rest, rfl, -, hvalue⟩ := declaredBehind_iff.1 h
  obtain ⟨rest', hsplit, -, hvalue'⟩ := declaredBehind_iff.1 hother
  obtain rfl := List.append_cancel_left hsplit
  exact Option.some.inj (hvalue.symm.trans hvalue')

theorem FirstDeclared.unique {other : List Char} (h : FirstDeclared name value cs)
    (hother : FirstDeclared name other cs) : value = other := by
  obtain ⟨before, hdeclared, hfirst⟩ := h
  obtain ⟨before', hdeclared', hfirst'⟩ := hother
  have hlength := Nat.le_antisymm (hfirst _ _ hdeclared') (hfirst' _ _ hdeclared)
  obtain ⟨rest, hsplit, -⟩ := declaredBehind_iff.1 hdeclared
  obtain ⟨rest', hsplit', -⟩ := declaredBehind_iff.1 hdeclared'
  obtain ⟨rfl, -⟩ := List.append_inj (hsplit.symm.trans hsplit') hlength
  exact hdeclared.unique hdeclared'

theorem firstLiteral?_eq_some_iff :
    firstLiteral? name false cs = some value ↔ FirstDeclared name value cs := by
  have hfirst {value : List Char} (h : firstLiteral? name false cs = some value) :
      FirstDeclared name value cs := by
    obtain ⟨before, rest, hsplit, hbefore, hvalue, hleast⟩ := exists_of_firstLiteral?_eq_some h
    refine ⟨before, declaredBehind_iff.2 ⟨rest, hsplit, hbefore, hvalue⟩, ?_⟩
    intro other value' hother
    obtain ⟨rest', hsplit', houtside, hvalue'⟩ := declaredBehind_iff.1 hother
    exact hleast other rest' hsplit' houtside (by simp [hvalue'])
  refine ⟨hfirst, fun h => ?_⟩
  cases hfound : firstLiteral? name false cs with
  | none =>
    obtain ⟨before, hdeclared, -⟩ := h
    exact absurd ⟨before, value, hdeclared⟩ (firstLiteral?_eq_none_iff.1 hfound)
  | some other => rw [(hfirst hfound).unique h]

namespace Constants

theorem get?_insertIfNew (constants : Constants) (name other : ConstantName) (value : String) :
    (constants.insertIfNew name value).1.get? other =
      if other = name then some ((constants.get? name).getD value) else constants.get? other := by
  unfold insertIfNew
  split
  · rename_i stored hstored
    split
    · rename_i heq
      rw [heq, hstored]
      rfl
    · rfl
  · rename_i hnone
    rw [hnone]
    cases name <;> cases other <;> rfl

theorem get?_ofSource (source : String) (name : ConstantName) :
    (ofSource source).get? name = constantIn? source name := by
  simp only [ofSource, ConstantName.all, List.foldl_cons, List.foldl_nil]
  cases hlocation : constantIn? source .location <;> cases hvendor : constantIn? source .vendor <;>
    cases name <;> simp only [get?_insertIfNew, hlocation, hvendor] <;> rfl

theorem mem_toList_iff {constants : Constants} {name : ConstantName} {value : String} :
    (name, value) ∈ constants.toList ↔ constants.get? name = some value := by
  have hmem : name ∈ ConstantName.all := by
    cases name <;> decide
  simp only [toList, List.mem_filterMap, Option.map_eq_some_iff, Prod.mk.injEq]
  constructor
  · rintro ⟨_, -, _, hget, rfl, rfl⟩
    exact hget
  · intro h
    exact ⟨name, hmem, value, h, rfl, rfl⟩

theorem pairwise_names (constants : Constants) :
    (constants.toList.map (·.1.text)).Pairwise (· < ·) := by
  have hnames : "LOCATION_ID" < "VENDOR_ID" := by simp only [String.reduceLT]
  obtain ⟨location, vendor⟩ := constants
  cases location with
  | none =>
    cases vendor with
    | none => exact List.Pairwise.nil
    | some value => exact List.pairwise_singleton _ _
  | some value =>
    cases vendor with
    | none => exact List.pairwise_singleton _ _
    | some other => exact List.pairwise_pair.2 hnames

end Constants

/-- A constant has a value exactly when the program has a literal declaration of its name, and then the
value is the one that stands furthest to the left. The constants are listed in ascending order of their
names, so each is listed once, and nothing else is listed. -/
theorem constants_are_first_declared (source : String) :
    (∀ name value, (Constants.ofSource source).get? name = some value ↔
      FirstDeclared name value.toList source.toList) ∧
    (∀ name, (Constants.ofSource source).get? name = none ↔
      ¬ ∃ before value, DeclaredBehind name value before source.toList) ∧
    (∀ text value, (text, value) ∈ (Constants.ofSource source).toList.map (Prod.map (·.text) id) ↔
      ∃ name : ConstantName, name.text = text ∧ FirstDeclared name value.toList source.toList) ∧
    ((Constants.ofSource source).toList.map (·.1.text)).Pairwise (· < ·) := by
  have hget (name : ConstantName) (value : String) :
      (Constants.ofSource source).get? name = some value ↔
        FirstDeclared name value.toList source.toList := by
    rw [Constants.get?_ofSource, constantIn?, Option.map_eq_some_iff, ← firstLiteral?_eq_some_iff]
    constructor
    · rintro ⟨found, hfound, rfl⟩
      rwa [String.toList_ofList]
    · intro h
      exact ⟨_, h, String.ofList_toList⟩
  refine ⟨hget, fun name => ?_, fun text value => ?_, Constants.pairwise_names _⟩
  · rw [Constants.get?_ofSource, constantIn?, Option.map_eq_none_iff, firstLiteral?_eq_none_iff]
  · simp only [List.mem_map, Prod.exists, Constants.mem_toList_iff, hget, Prod.map_apply, id,
      Prod.mk.injEq]
    constructor
    · rintro ⟨name, _, hfirst, rfl, rfl⟩
      exact ⟨name, rfl, hfirst⟩
    · rintro ⟨name, rfl, hfirst⟩
      exact ⟨name, value, hfirst, rfl, rfl⟩

end LivePreview.Source
