import LivePreview.Proofs.Source.ConstantDeclaration
import LivePreview.Proofs.Source.DefaultName
import LivePreview.Proofs.Source.Strip
import LivePreview.Proofs.Text.LineEnding

namespace LivePreview.Source

open LivePreview.Text

variable {cs value mark rest : List Char} {name : RootName} {free : Option RootName}

section Words

theorem endsNoLine_of_isWord {word : List Char} (h : word.all isWord) : EndsNoLine word := by
  constructor
  · intro hmem
    exact absurd (List.all_eq_true.1 h '\n' hmem) (by decide)
  · intro hmem
    exact absurd (List.all_eq_true.1 h '\r' hmem) (by decide)

theorem endsNoLine_of_all {words : List String} (h : words.all fun word => word.toList.all isWord) :
    ∀ word ∈ words, EndsNoLine word.toList :=
  fun word hmem => endsNoLine_of_isWord (List.all_eq_true.1 h word hmem)

theorem endsNoLine_rootName (name : RootName) : EndsNoLine name.text.toList := by
  cases name <;> exact endsNoLine_of_isWord (by decide)

theorem afterWord_withReturns {word : String} (h : EndsNoLine word.toList) :
    afterWord word (withReturns cs) = (afterWord word cs).map withReturns := by
  rw [afterWord, afterWord, isPrefixOf?_withReturns h]
  cases word.toList.isPrefixOf? cs with
  | none => rfl
  | some rest =>
    simp only [Option.map_some, startsBlank_withReturns, dropBlanks_withReturns]
    split <;> rfl

theorem startsKeyword_withReturns {word : String} (h : EndsNoLine word.toList) :
    startsKeyword word (withReturns cs) = startsKeyword word cs := by
  rw [startsKeyword, startsKeyword, isPrefixOf?_withReturns h]
  cases word.toList.isPrefixOf? cs with
  | none => rfl
  | some rest => exact endsWord_withReturns

theorem getD_afterWord_withReturns {word : String} (h : EndsNoLine word.toList) :
    (afterWord word (withReturns cs)).getD (withReturns cs) =
      withReturns ((afterWord word cs).getD cs) := by
  rw [afterWord_withReturns h]
  cases afterWord word cs <;> rfl

theorem isNamedDeclaration_withReturns :
    isNamedDeclaration (withReturns value) = isNamedDeclaration value := by
  have hasync : EndsNoLine "async".toList := endsNoLine_of_isWord (by decide)
  have hfunction : EndsNoLine "function".toList := endsNoLine_of_isWord (by decide)
  have hclass : EndsNoLine "class".toList := endsNoLine_of_isWord (by decide)
  rw [isNamedDeclaration, isNamedDeclaration, getD_afterWord_withReturns hasync,
    startsKeyword_withReturns hfunction, startsKeyword_withReturns hclass]

end Words

section Functions

theorem anonymousFunction_eq (value : List Char) :
    anonymousFunction value =
      ("function".toList.isPrefixOf? ((afterWord "async" value).getD value)).bind fun rest =>
        anonymousTail (value.take (value.length - ((afterWord "async" value).getD value).length))
          (dropBlanks rest) := by
  dsimp only [anonymousFunction]
  cases "function".toList.isPrefixOf? ((afterWord "async" value).getD value) <;> rfl

theorem anonymousTail_eq_none (hopen : cs.head? ≠ some '(') (hstar : cs.head? ≠ some '*') :
    anonymousTail mark cs = none := by
  unfold anonymousTail
  split <;> simp_all

theorem anonymousTail_star (mark cs : List Char) : anonymousTail mark ('*' :: cs) =
    if (dropBlanks cs).head? = some '(' then some (mark ++ "function*".toList, dropBlanks cs)
    else none := by
  rw [anonymousTail]
  split
  · rename_i tail htail
    rw [htail]
    rfl
  · rename_i hnot
    rw [if_neg]
    intro hhead
    obtain ⟨tail, htail⟩ := List.head?_eq_some_iff.1 hhead
    exact hnot tail htail

theorem anonymousTail_withReturns :
    anonymousTail (withReturns mark) (withReturns cs) =
      (anonymousTail mark cs).map (Prod.map withReturns withReturns) := by
  have hfunction : withReturns "function".toList = "function".toList :=
    withReturns_of_not_mem (by decide)
  have hgenerator : withReturns "function*".toList = "function*".toList :=
    withReturns_of_not_mem (by decide)
  have hopen {u : List Char} : (withReturns u).head? = some '(' ↔ u.head? = some '(' :=
    head?_withReturns (by decide) (by decide)
  have hstar : (withReturns cs).head? = some '*' ↔ cs.head? = some '*' :=
    head?_withReturns (by decide) (by decide)
  by_cases h : cs.head? = some '('
  · obtain ⟨tail, rfl⟩ := List.head?_eq_some_iff.1 h
    rw [withReturns_cons (by decide)]
    simp only [anonymousTail, Option.map_some, Prod.map, withReturns_append, hfunction]
    rw [withReturns_cons (by decide)]
  · by_cases h' : cs.head? = some '*'
    · obtain ⟨more, rfl⟩ := List.head?_eq_some_iff.1 h'
      rw [withReturns_cons (by decide), anonymousTail_star, anonymousTail_star,
        dropBlanks_withReturns]
      simp only [hopen]
      split
      · simp only [Option.map_some, Prod.map, withReturns_append, hgenerator]
      · rfl
    · rw [anonymousTail_eq_none h h', anonymousTail_eq_none (mt hopen.1 h) (mt hstar.1 h')]
      rfl

theorem anonymousFunction_withReturns :
    anonymousFunction (withReturns value) =
      (anonymousFunction value).map (Prod.map withReturns withReturns) := by
  have hasync : EndsNoLine "async".toList := endsNoLine_of_isWord (by decide)
  have hfunction : EndsNoLine "function".toList := endsNoLine_of_isWord (by decide)
  rw [anonymousFunction_eq, anonymousFunction_eq, getD_afterWord_withReturns hasync,
    isPrefixOf?_withReturns hfunction]
  generalize hbody : (afterWord "async" value).getD value = body
  obtain ⟨mark, rfl⟩ : ∃ mark, value = mark ++ body := by
    cases hword : afterWord "async" value with
    | none => exact ⟨[], by simp [← hbody, hword]⟩
    | some after =>
      obtain ⟨gap, hsplit, -, -⟩ := afterWord_eq_some hword
      rw [hword, Option.getD_some] at hbody
      exact ⟨_, hbody ▸ hsplit⟩
  have htake (u v : List Char) : (u ++ v).take ((u ++ v).length - v.length) = u := by
    simp
  rw [withReturns_append, htake, htake]
  cases "function".toList.isPrefixOf? body with
  | none => rfl
  | some rest =>
    rw [Option.map_some, Option.bind_some, Option.bind_some, dropBlanks_withReturns]
    exact anonymousTail_withReturns

end Functions

section Classes

def opensClass (rest : List Char) : Bool :=
  (dropBlanks rest).head? == some '\x7b' ||
    startsBlank rest && startsKeyword "extends" (dropBlanks rest)

theorem anonymousClass_eq (value : List Char) :
    anonymousClass value = ("class".toList.isPrefixOf? value).filter opensClass := by
  unfold anonymousClass
  cases "class".toList.isPrefixOf? value with
  | none => rfl
  | some rest =>
    dsimp only
    rw [Option.filter_some]
    split
    · rename_i hbrace
      have hopens : opensClass rest := by simp [opensClass, hbrace]
      rw [if_pos hopens]
    · rename_i hbrace
      have hhead : (dropBlanks rest).head? ≠ some '\x7b' := by
        intro hhead
        obtain ⟨tail, htail⟩ := List.head?_eq_some_iff.1 hhead
        exact hbrace tail htail
      have hopens : opensClass rest =
          (startsBlank rest && startsKeyword "extends" (dropBlanks rest)) := by
        rw [opensClass, beq_eq_false_iff_ne.2 hhead, Bool.false_or]
      rw [hopens]
      unfold startsKeyword
      split <;> simp

theorem opensClass_withReturns : opensClass (withReturns rest) = opensClass rest := by
  have hextends : EndsNoLine "extends".toList := endsNoLine_of_isWord (by decide)
  have hbrace : ((withReturns (dropBlanks rest)).head? == some '\x7b') =
      ((dropBlanks rest).head? == some '\x7b') := by
    rw [Bool.eq_iff_iff, beq_iff_eq, beq_iff_eq]
    exact head?_withReturns (by decide) (by decide)
  rw [opensClass, opensClass, dropBlanks_withReturns, hbrace, startsBlank_withReturns,
    startsKeyword_withReturns hextends]

theorem anonymousClass_withReturns :
    anonymousClass (withReturns value) = (anonymousClass value).map withReturns := by
  have hclass : EndsNoLine "class".toList := endsNoLine_of_isWord (by decide)
  rw [anonymousClass_eq, anonymousClass_eq, isPrefixOf?_withReturns hclass]
  cases "class".toList.isPrefixOf? value with
  | none => rfl
  | some rest =>
    rw [Option.map_some, Option.filter, opensClass_withReturns, Option.filter]
    split <;> rfl

end Classes

section Exports

theorem declareAs_withReturns :
    declareAs name (withReturns value) = withReturns (declareAs name value) := by
  have hname : '\n' ∉ name.text.toList := (endsNoLine_rootName name).1
  have hnamed : '\n' ∉ ' ' :: name.text.toList := by simp [hname]
  have hclass : '\n' ∉ "class ".toList ++ name.text.toList := by simp [hname]
  have hvariable : '\n' ∉ "var ".toList ++ name.text.toList ++ " = ".toList := by simp [hname]
  rw [declareAs, declareAs, anonymousFunction_withReturns]
  cases anonymousFunction value with
  | some parts =>
    simp only [Option.map_some, Prod.map, withReturns_append, withReturns_of_not_mem hnamed]
  | none =>
    simp only [Option.map_none, anonymousClass_withReturns]
    cases anonymousClass value with
    | some tail => exact (withReturns_append_of_not_mem hclass).symm
    | none =>
      simp only [Option.map_none, isNamedDeclaration_withReturns]
      split
      · rfl
      · exact (withReturns_append_of_not_mem hvariable).symm

theorem defaultValue_withReturns :
    defaultValue free (withReturns value) = withReturns (defaultValue free value) := by
  cases free with
  | none => rfl
  | some name => exact declareAs_withReturns

theorem unexport_withReturns :
    unexport free (withReturns cs) = withReturns (unexport free cs) := by
  have hexport : EndsNoLine "export".toList := endsNoLine_of_isWord (by decide)
  have hdefault : EndsNoLine "default".toList := endsNoLine_of_isWord (by decide)
  rw [unexport, unexport, dropBlanks_withReturns, afterWord_withReturns hexport]
  cases afterWord "export" (dropBlanks cs) with
  | none => rfl
  | some exported =>
    simp only [Option.map_some, takeWhile_withReturns, afterWord_withReturns hdefault]
    cases afterWord "default" exported with
    | none => exact (withReturns_append _ _).symm
    | some value =>
      simp only [Option.map_some, defaultValue_withReturns]
      exact (withReturns_append _ _).symm

end Exports

section Lines

def OpenBlock.withReturns (block : OpenBlock) : OpenBlock :=
  { block with held := block.held.map Text.withReturns }

def Stripped.withReturns (stripped : Stripped) : Stripped :=
  ⟨Text.withReturns stripped.text, stripped.block.map OpenBlock.withReturns⟩

variable {line : Line} {ls : List Line} {block : Option OpenBlock}

theorem stripOutside_withReturns (h : OneLine line) :
    stripOutside free (Text.withReturns line) = (stripOutside free line).withReturns := by
  rw [stripOutside, stripOutside, h.body_withReturns]
  cases LineRole.ofBody line.body with
  | declaration => rfl
  | opening kind => rfl
  | program => exact congrArg (Stripped.mk · none) unexport_withReturns

theorem strip_withReturns (h : OneLine line) (b : OpenBlock) :
    b.withReturns.strip free (Text.withReturns line) = (b.strip free line).withReturns := by
  have hkind : b.withReturns.kind = b.kind := rfl
  have hheld : b.withReturns.held = b.held.map Text.withReturns := rfl
  rw [OpenBlock.strip, OpenBlock.strip, h.body_withReturns, stripOutside_withReturns h, hkind]
  split
  · rfl
  · split
    · simp [Stripped.withReturns, OpenBlock.withReturns, withReturns_nil]
    · simp only [Stripped.withReturns, hheld, withReturns_append, withReturns_flatten]

theorem stripLine_withReturns (h : OneLine line) :
    stripLine free (block.map OpenBlock.withReturns) (Text.withReturns line) =
      (stripLine free block line).withReturns := by
  cases block with
  | none => exact stripOutside_withReturns h
  | some b => exact strip_withReturns h b

theorem stripLines_withReturns (block : Option OpenBlock) (h : ∀ line ∈ ls, OneLine line) :
    stripLines free (block.map OpenBlock.withReturns) (ls.map Text.withReturns) =
      Text.withReturns (stripLines free block ls) := by
  induction ls generalizing block with
  | nil =>
    cases block with
    | none => rfl
    | some b => exact (withReturns_flatten b.held).symm
  | cons line ls ih =>
    obtain ⟨hline, hls⟩ := List.forall_mem_cons.1 h
    rw [List.map_cons, stripLines_cons, stripLines_cons, stripLine_withReturns hline,
      withReturns_append, ← ih _ hls]
    rfl

end Lines

section Names

theorem afterKeywordGap_eq (cs : List Char) : afterKeywordGap cs =
    if (dropBlanks cs).head? = some '*' then
      if startsBlank (dropBlanks cs).tail then some (dropBlanks (dropBlanks cs).tail) else none
    else if startsBlank cs then some (dropBlanks cs) else none := by
  unfold afterKeywordGap
  split
  · rename_i rest hstar
    rw [hstar]
    rfl
  · rename_i hnot
    have hhead : (dropBlanks cs).head? ≠ some '*' := by
      intro hhead
      obtain ⟨rest, hstar⟩ := List.head?_eq_some_iff.1 hhead
      exact hnot rest hstar
    rw [if_neg hhead]

theorem afterKeywordGap_withReturns :
    afterKeywordGap (withReturns cs) = (afterKeywordGap cs).map withReturns := by
  have hhead : (withReturns (dropBlanks cs)).head? = some '*' ↔ (dropBlanks cs).head? = some '*' :=
    head?_withReturns (by decide) (by decide)
  rw [afterKeywordGap_eq, afterKeywordGap_eq, dropBlanks_withReturns, startsBlank_withReturns]
  by_cases hstar : (dropBlanks cs).head? = some '*'
  · rw [if_pos (hhead.2 hstar), if_pos hstar, tail_withReturns (by decide) hstar,
      startsBlank_withReturns, dropBlanks_withReturns]
    split <;> rfl
  · rw [if_neg (mt hhead.1 hstar), if_neg hstar]
    split <;> rfl

theorem follows_withReturns : name.follows (withReturns cs) = name.follows cs := by
  rw [RootName.follows, RootName.follows, isPrefixOf?_withReturns (endsNoLine_rootName name)]
  cases name.text.toList.isPrefixOf? cs with
  | none => rfl
  | some rest => exact endsWord_withReturns

theorem declaredAt_withReturns : name.declaredAt (withReturns cs) = name.declaredAt cs := by
  have hkeyword : ∀ keyword ∈ declaringKeywords, EndsNoLine keyword.toList :=
    endsNoLine_of_all (by decide)
  rw [RootName.declaredAt, RootName.declaredAt, Bool.eq_iff_iff, List.any_eq_true,
    List.any_eq_true]
  refine exists_congr fun keyword => and_congr_right fun hmem => ?_
  rw [isPrefixOf?_withReturns (hkeyword keyword hmem)]
  cases keyword.toList.isPrefixOf? cs with
  | none => rfl
  | some rest =>
    simp only [Option.map_some, afterKeywordGap_withReturns]
    cases afterKeywordGap rest with
    | none => rfl
    | some named => exact Bool.eq_iff_iff.1 follows_withReturns

theorem declaredAt_newline : name.declaredAt ('\n' :: cs) = false := by
  rfl

theorem declaredIn_newline (inWord : Bool) :
    name.declaredIn inWord ('\n' :: cs) = name.declaredIn false cs := by
  rw [RootName.declaredIn, declaredAt_newline, Bool.and_false, Bool.false_or]
  rfl

theorem declaredIn_withReturns (inWord : Bool) :
    name.declaredIn inWord (withReturns cs) = name.declaredIn inWord cs := by
  induction cs generalizing inWord with
  | nil => rfl
  | cons c cs ih =>
    have hat : name.declaredAt (withReturns (c :: cs)) = name.declaredAt (c :: cs) :=
      declaredAt_withReturns
    by_cases hc : c = '\n'
    · subst hc
      rw [withReturns_newline, declaredAt_newline] at hat
      rw [withReturns_newline, RootName.declaredIn, hat, Bool.and_false, Bool.false_or,
        declaredIn_newline, ih, declaredIn_newline]
    · rw [withReturns_cons hc] at hat ⊢
      rw [RootName.declaredIn, RootName.declaredIn, hat, ih]

theorem freeRootName_withReturns : freeRootName (withReturns cs) = freeRootName cs := by
  simp only [freeRootName, declaredIn_withReturns]

end Names

section Hazards

theorem foldCase_return : foldCase '\r' = '\r' := by
  decide

theorem startsFolded_withReturns {word : List Char} (h : EndsNoLine word) :
    startsFolded word (withReturns cs) = startsFolded word cs := by
  induction word generalizing cs with
  | nil => rfl
  | cons w word ih =>
    obtain ⟨hnewline, hword⟩ := List.ne_and_not_mem_of_not_mem_cons h.1
    obtain ⟨hreturn, hword'⟩ := List.ne_and_not_mem_of_not_mem_cons h.2
    cases cs with
    | nil => rfl
    | cons c cs =>
      by_cases hc : c = '\n'
      · subst hc
        rw [withReturns_newline, startsFolded, startsFolded, foldCase_return, foldCase_newline,
          beq_eq_false_iff_ne.2 hreturn, beq_eq_false_iff_ne.2 hnewline]
        rfl
      · rw [withReturns_cons hc, startsFolded, startsFolded, ih ⟨hword, hword'⟩]

theorem isHazard_withReturns : isHazard (withReturns cs) = isHazard cs := by
  have hslash : EndsNoLine ['/'] := by simp [EndsNoLine]
  have hdashes : EndsNoLine ['!', '-', '-'] := by simp [EndsNoLine]
  have hscript : EndsNoLine ['s', 'c', 'r', 'i', 'p', 't'] := by simp [EndsNoLine]
  rw [isHazard_eq, isHazard_eq, isEndTag, isEndTag, isComment, isComment,
    isPrefixOf?_withReturns hslash, isPrefixOf?_withReturns hdashes, Option.any_map,
    Option.isSome_map]
  simp only [startsFolded_withReturns hscript]

theorem escapeHazards_withReturns :
    escapeHazards (withReturns cs) = withReturns (escapeHazards cs) := by
  induction cs with
  | nil => rfl
  | cons c cs ih =>
    by_cases hc : c = '\n'
    · subst hc
      have hreturn : ¬ ('\r' = '<' ∧ isHazard ('\n' :: withReturns cs)) := by simp
      have hnewline (u : List Char) : ¬ ('\n' = '<' ∧ isHazard u) := by simp
      rw [withReturns_newline, escapeHazards, if_neg hreturn, escapeHazards,
        if_neg (hnewline _), escapeHazards, if_neg (hnewline _), withReturns_newline, ih]
    · rw [withReturns_cons hc, escapeHazards, escapeHazards, isHazard_withReturns, ih]
      split
      · rw [withReturns_cons hc, withReturns_cons (by decide)]
      · rw [withReturns_cons hc]

end Hazards

section Constants

variable {constant : ConstantName}

theorem quoted_on_one_line {quote : Char} (hquote : quote = '"' ∨ quote = '\'')
    (hvalue : ∀ c ∈ value, c ≠ quote ∧ c ≠ '\\' ∧ c ≠ '\n') :
    '\n' ∉ quote :: value ∧ quote ≠ '\r' ∧ quote ≠ '\n' := by
  have hvalue' : '\n' ∉ value := fun hmem => (hvalue '\n' hmem).2.2 rfl
  rcases hquote with rfl | rfl <;> simp [hvalue']

theorem literal?_withReturns : literal? (withReturns cs) = literal? cs := by
  refine Option.ext fun value => ?_
  rw [literal?_eq_some_iff, literal?_eq_some_iff]
  constructor
  · rintro ⟨quote, rest, hsplit, hquote, hvalue⟩
    obtain ⟨hline, hreturn, hnewline⟩ := quoted_on_one_line hquote hvalue
    obtain ⟨rest', rfl, -⟩ := (withReturns_eq_append hline hreturn hnewline).1 hsplit
    exact ⟨quote, rest', rfl, hquote, hvalue⟩
  · rintro ⟨quote, rest, rfl, hquote, hvalue⟩
    obtain ⟨hline, hreturn, hnewline⟩ := quoted_on_one_line hquote hvalue
    exact ⟨quote, withReturns rest,
      (withReturns_eq_append hline hreturn hnewline).2 ⟨rest, rfl, rfl⟩, hquote, hvalue⟩

theorem declaredBy?_withReturns {keyword : String} (h : EndsNoLine keyword.toList) :
    declaredBy? constant (withReturns cs) keyword = declaredBy? constant cs keyword := by
  have hname : EndsNoLine constant.text.toList := by
    cases constant <;> exact endsNoLine_of_isWord (by decide)
  simp only [declaredBy?, Option.bind_eq_bind, isPrefixOf?_withReturns h]
  cases keyword.toList.isPrefixOf? cs with
  | none => rfl
  | some rest =>
    simp only [Option.map_some, Option.bind_some, startsBlank_withReturns,
      dropBlanks_withReturns, isPrefixOf?_withReturns hname]
    cases constant.text.toList.isPrefixOf? (dropBlanks rest) with
    | none => rfl
    | some rest =>
      simp only [Option.map_some, Option.bind_some, dropBlanks_withReturns]
      by_cases hequals : (dropBlanks rest).head? = some '='
      · obtain ⟨assigned, hassigned⟩ := List.head?_eq_some_iff.1 hequals
        rw [hassigned, withReturns_cons (by decide)]
        simp only [dropBlanks_withReturns, literal?_withReturns]
      · have hnot : (withReturns (dropBlanks rest)).head? ≠ some '=' :=
          mt (head?_withReturns (by decide) (by decide)).1 hequals
        split
        · rename_i hassigned
          exact absurd (congrArg List.head? hassigned) hnot
        · split
          · rename_i hassigned
            exact absurd (congrArg List.head? hassigned) hequals
          · rfl

theorem declaredLiteral?_withReturns :
    declaredLiteral? constant (withReturns cs) = declaredLiteral? constant cs := by
  have hkeyword : ∀ keyword ∈ constantKeywords, EndsNoLine keyword.toList :=
    endsNoLine_of_all (by decide)
  refine Option.ext fun value => ?_
  rw [declaredLiteral?_eq_some_iff, declaredLiteral?_eq_some_iff]
  refine exists_congr fun keyword => and_congr_right fun hmem => ?_
  rw [declaredBy?_withReturns (hkeyword keyword hmem)]

theorem declaredLiteral?_newline : declaredLiteral? constant ('\n' :: cs) = none := by
  rfl

theorem firstLiteral?_newline (inWord : Bool) :
    firstLiteral? constant inWord ('\n' :: cs) = firstLiteral? constant false cs := by
  rw [firstLiteral?, declaredLiteral?_newline, ite_self]
  rfl

theorem firstLiteral?_withReturns (inWord : Bool) :
    firstLiteral? constant inWord (withReturns cs) = firstLiteral? constant inWord cs := by
  induction cs generalizing inWord with
  | nil => rfl
  | cons c cs ih =>
    have hat : declaredLiteral? constant (withReturns (c :: cs)) =
        declaredLiteral? constant (c :: cs) :=
      declaredLiteral?_withReturns
    by_cases hc : c = '\n'
    · subst hc
      rw [withReturns_newline, declaredLiteral?_newline] at hat
      rw [withReturns_newline, firstLiteral?, hat, ite_self]
      simp only [firstLiteral?_newline, ih]
    · rw [withReturns_cons hc] at hat ⊢
      rw [firstLiteral?, firstLiteral?, hat, ih]

end Constants

def returned (source : String) : String :=
  .ofList (withReturns source.toList)

/-- Where a program has carriage returns before its newlines, so has its classic script, and nothing
else about the script is different. Its constants are the same. -/
theorem lineEnds_make_no_difference (source : String) :
    classicScript (returned source) = returned (classicScript source) ∧
      Constants.ofSource (returned source) = Constants.ofSource source := by
  have htext : (returned source).toList = withReturns source.toList := String.toList_ofList
  constructor
  · have hlines : ∀ line ∈ lines source.toList, OneLine line :=
      fun _ => (cut_lines source.toList).oneLine
    have hstripped : stripModuleSyntax (withReturns source.toList) =
        withReturns (stripModuleSyntax source.toList) := by
      rw [stripModuleSyntax, stripModuleSyntax, lines_withReturns, freeRootName_withReturns]
      exact stripLines_withReturns none hlines
    simp only [classicScript, defuse, withoutModuleSyntax, returned, String.toList_ofList,
      hstripped, escapeHazards_withReturns]
  · have hconstant (name : ConstantName) :
        constantIn? (returned source) name = constantIn? source name := by
      rw [constantIn?, constantIn?, htext, firstLiteral?_withReturns]
    simp only [Constants.ofSource, hconstant]

end LivePreview.Source
