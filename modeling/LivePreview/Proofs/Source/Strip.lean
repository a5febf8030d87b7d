import LivePreview.Source.ClassicScript
import LivePreview.Proofs.Source.ExportLine
import LivePreview.Proofs.Source.Hazard
import LivePreview.Proofs.Source.ModuleSyntax

/-!
What the pass over the lines does with one line, and what follows for a whole text: it stays
harmless, and it comes out unchanged only if every single line does.
-/

namespace LivePreview.Source

open LivePreview.Text

def heldText (block : Option OpenBlock) : List Char :=
  (block.map fun b => b.held.flatten).getD []

inductive Strips (free : Option RootName) (block : Option OpenBlock) (line : Line) :
    Stripped → Prop where
  | closed {b : OpenBlock} : block = some b → b.kind.closing.accepts line.body →
      Strips free block line ⟨[], none⟩
  | held {b : OpenBlock} : block = some b → b.kind.closing.accepts line.body = false →
      ModuleSyntax.bindingNames.accepts line.body →
      Strips free block line ⟨[], some { b with held := b.held ++ [line] }⟩
  | dropped : isDeclaration line.body → Strips free block line ⟨heldText block, none⟩
  | opened {kind : BlockKind} : LineRole.ofBody line.body = .opening kind →
      (∀ b, block = some b → b.kind.closing.accepts line.body = false) →
      Strips free block line ⟨heldText block, some ⟨kind, [line]⟩⟩
  | kept : LineRole.ofBody line.body = .program →
      (∀ b, block = some b → b.kind.closing.accepts line.body = false ∧
        ModuleSyntax.bindingNames.accepts line.body = false) →
      Strips free block line ⟨heldText block ++ unexport free line, none⟩

theorem strips_outside (free : Option RootName) {block : Option OpenBlock} {line : Line}
    (houtside : ∀ b, block = some b → b.kind.closing.accepts line.body = false ∧
      ModuleSyntax.bindingNames.accepts line.body = false) :
    Strips free block line ⟨heldText block ++ (stripOutside free line).text,
      (stripOutside free line).block⟩ := by
  unfold stripOutside
  split
  · rename_i hrole
    rw [List.append_nil]
    exact .dropped (ofBody_eq_declaration_iff.1 hrole)
  · rename_i kind hrole
    rw [List.append_nil]
    exact .opened hrole fun b hb => (houtside b hb).1
  · rename_i hrole
    exact .kept hrole houtside

theorem strips_stripLine (free : Option RootName) (block : Option OpenBlock) (line : Line) :
    Strips free block line (stripLine free block line) := by
  cases block with
  | none => exact strips_outside free nofun
  | some b =>
    rw [stripLine, OpenBlock.strip]
    split
    · rename_i hclosing
      exact .closed rfl hclosing
    · rename_i hclosing
      rw [Bool.not_eq_true] at hclosing
      split
      · rename_i hbinding
        exact .held rfl hclosing hbinding
      · rename_i hbinding
        rw [Bool.not_eq_true] at hbinding
        refine strips_outside free fun b' hb' => ?_
        obtain rfl := Option.some.inj hb'
        exact ⟨hclosing, hbinding⟩

theorem stripLines_nil (free : Option RootName) (block : Option OpenBlock) :
    stripLines free block [] = heldText block :=
  rfl

theorem stripLines_cons (free : Option RootName) (block : Option OpenBlock) (line : Line)
    (rest : List Line) :
    stripLines free block (line :: rest) = (stripLine free block line).text
      ++ stripLines free (stripLine free block line).block rest :=
  rfl

theorem heldText_none : heldText none = [] :=
  rfl

theorem heldText_opened (kind : BlockKind) (line : Line) :
    heldText (some ⟨kind, [line]⟩) = line := by
  simp [heldText]

theorem heldText_held (b : OpenBlock) (line : Line) :
    heldText (some { b with held := b.held ++ [line] }) = heldText (some b) ++ line := by
  simp [heldText]

variable {free : Option RootName} {block : Option OpenBlock} {line : Line} {ls : List Line}

theorem closed_of_isInert {words : List Char} (h : isInert words) : Closed words := by
  refine closed_of_not_mem fun hmem => ?_
  have hletter := List.all_eq_true.1 h '<' hmem
  exact absurd hletter (by decide)

theorem count_newline_of_isInert {words : List Char} (h : isInert words) :
    words.count '\n' = 0 := by
  refine List.count_eq_zero_of_not_mem fun hmem => ?_
  have hletter := List.all_eq_true.1 h '\n' hmem
  exact absurd hletter (by decide)

theorem suffix_newline_cases {body rest : List Char} (h : rest <:+ body ++ ['\n']) :
    rest = [] ∨ ∃ more, rest = more ++ ['\n'] ∧ more <:+ body := by
  obtain ⟨before, hsplit⟩ := h
  rcases List.eq_nil_or_concat rest with rfl | ⟨more, c, rfl⟩
  · exact .inl rfl
  · rw [List.concat_eq_append, ← List.append_assoc] at hsplit
    obtain ⟨hbody, hc⟩ := List.append_inj' hsplit rfl
    obtain rfl := (List.cons.inj hc).1
    exact .inr ⟨more, List.concat_eq_append, before, hbody⟩

theorem Respells.harmless {text : List Char} (h : Respells line text)
    (hline : isHarmless line) : isHarmless text := by
  obtain ⟨words, rest, rfl, hwords, before, rfl⟩ := h
  exact closed_of_isInert hwords rest (isHarmless_of_append hline)

theorem Respells.closes {body text : List Char} (h : Respells (body ++ ['\n']) text)
    (hline : isHarmless (body ++ ['\n'])) : Closed text := by
  obtain ⟨words, rest, rfl, hwords, hrest⟩ := h
  refine (closed_of_isInert hwords).append ?_
  rcases suffix_newline_cases hrest with rfl | ⟨more, rfl, before, rfl⟩
  · exact closed_nil
  · rw [List.append_assoc] at hline
    exact closed_newline (isHarmless_of_append_left (isHarmless_of_append hline))

theorem Respells.count_newline_le {text : List Char} (h : Respells line text) :
    text.count '\n' ≤ line.count '\n' := by
  obtain ⟨words, rest, rfl, hwords, hrest⟩ := h
  rw [List.count_append, count_newline_of_isInert hwords, Nat.zero_add]
  exact hrest.sublist.count_le '\n'

theorem closed_stripLine (free : Option RootName) {body : List Char} (hbody : '\n' ∉ body)
    (hline : isHarmless (body ++ ['\n'])) (hblock : Closed (heldText block)) :
    Closed (stripLine free block (body ++ ['\n'])).text ∧
      Closed (heldText (stripLine free block (body ++ ['\n'])).block) := by
  have hclosed : Closed (body ++ ['\n']) := closed_newline (isHarmless_of_append_left hline)
  have hstrips := strips_stripLine free block (body ++ ['\n'])
  generalize stripLine free block (body ++ ['\n']) = out at hstrips ⊢
  cases hstrips with
  | closed => exact ⟨closed_nil, closed_nil⟩
  | held hopen =>
    rw [hopen] at hblock
    rw [heldText_held]
    exact ⟨closed_nil, hblock.append hclosed⟩
  | dropped => exact ⟨hblock, closed_nil⟩
  | opened =>
    rw [heldText_opened]
    exact ⟨hblock, hclosed⟩
  | kept =>
    have hrespells := unexport_respells free (oneLine_newline hbody)
    exact ⟨hblock.append (hrespells.closes hline), closed_nil⟩

theorem isHarmless_stripLine_last (hone : OneLine line) (hline : isHarmless line)
    (hblock : Closed (heldText block)) :
    isHarmless ((stripLine free block line).text
      ++ heldText (stripLine free block line).block) := by
  have hstrips := strips_stripLine free block line
  generalize stripLine free block line = out at hstrips ⊢
  cases hstrips with
  | closed => rfl
  | held hopen =>
    rw [hopen] at hblock
    rw [heldText_held]
    exact hblock _ hline
  | dropped =>
    rw [heldText_none, List.append_nil]
    exact hblock.isHarmless
  | opened =>
    rw [heldText_opened]
    exact hblock _ hline
  | kept =>
    rw [heldText_none, List.append_nil]
    exact hblock _ ((unexport_respells free hone).harmless hline)

theorem isHarmless_stripLines (hcut : Cut ls) (hls : ∀ l ∈ ls, isHarmless l)
    (hblock : Closed (heldText block)) : isHarmless (stripLines free block ls) := by
  induction hcut generalizing block with
  | nil => exact hblock.isHarmless
  | last _ hbody =>
    rw [stripLines_cons, stripLines_nil]
    exact isHarmless_stripLine_last (oneLine_of_not_mem hbody) (hls _ (by simp)) hblock
  | cons hbody _ ih =>
    have hline := hls _ List.mem_cons_self
    have hclosed := closed_stripLine free hbody hline hblock
    rw [stripLines_cons]
    exact hclosed.1 _ (ih (fun l hl => hls l (List.mem_cons_of_mem _ hl)) hclosed.2)

theorem isHarmless_stripModuleSyntax {cs : List Char} (h : isHarmless cs) :
    isHarmless (stripModuleSyntax cs) := by
  refine isHarmless_stripLines (cut_lines cs) (fun l hl => ?_) closed_nil
  obtain ⟨before, after, hsplit⟩ := List.append_of_mem hl
  have hflatten := flatten_lines cs
  rw [hsplit, List.flatten_append, List.flatten_cons] at hflatten
  rw [← hflatten] at h
  exact isHarmless_of_append_left (isHarmless_of_append h)

def Keeps (free : Option RootName) (block : Option OpenBlock) (line : Line) : Prop :=
  (stripLine free block line).text ++ heldText (stripLine free block line).block
    = heldText block ++ line

def Kept (free : Option RootName) : Option OpenBlock → List Line → Prop
  | _, [] => True
  | block, line :: rest =>
      Keeps free block line ∧ Kept free (stripLine free block line).block rest

theorem stripLines_of_kept (h : Kept free block ls) :
    stripLines free block ls = heldText block ++ ls.flatten := by
  induction ls generalizing block with
  | nil => simp [stripLines_nil]
  | cons line rest ih =>
    obtain ⟨hline, hrest⟩ := h
    rw [stripLines_cons, ih hrest, List.flatten_cons, ← List.append_assoc, hline,
      List.append_assoc]

theorem count_stripLine_le (free : Option RootName) (block : Option OpenBlock)
    (hone : OneLine line) :
    (stripLine free block line).text.count '\n'
        + (heldText (stripLine free block line).block).count '\n'
      ≤ (heldText block).count '\n' + line.count '\n' := by
  have hstrips := strips_stripLine free block line
  generalize stripLine free block line = out at hstrips ⊢
  cases hstrips with
  | closed => simp [heldText_none]
  | held hopen =>
    rw [heldText_held, ← hopen, List.count_append]
    simp
  | dropped =>
    rw [heldText_none, List.count_nil]
    exact Nat.le_add_right _ _
  | opened => exact Nat.le_of_eq (by rw [heldText_opened])
  | kept =>
    have hle := (unexport_respells free hone).count_newline_le
    rw [heldText_none, List.count_nil, List.count_append]
    omega

theorem count_stripLines_le (hls : ∀ l ∈ ls, OneLine l) :
    (stripLines free block ls).count '\n'
      ≤ (heldText block).count '\n' + ls.flatten.count '\n' := by
  induction ls generalizing block with
  | nil => simp [stripLines_nil]
  | cons line rest ih =>
    have hline := count_stripLine_le free block (hls line List.mem_cons_self)
    have hrest : (stripLines free (stripLine free block line).block rest).count '\n'
        ≤ (heldText (stripLine free block line).block).count '\n' + rest.flatten.count '\n' :=
      ih fun l hl => hls l (List.mem_cons_of_mem _ hl)
    rw [stripLines_cons, List.count_append, List.flatten_cons, List.count_append]
    omega

theorem append_newline_inj {u v x y : List Char} (hu : '\n' ∉ u) (hv : '\n' ∉ v)
    (h : u ++ '\n' :: x = v ++ '\n' :: y) : u = v := by
  induction u generalizing v with
  | nil =>
    cases v with
    | nil => rfl
    | cons d v =>
      obtain ⟨rfl, -⟩ := List.cons.inj h
      exact absurd List.mem_cons_self hv
  | cons c u ih =>
    cases v with
    | nil =>
      obtain ⟨rfl, -⟩ := List.cons.inj h
      exact absurd List.mem_cons_self hu
    | cons d v =>
      obtain ⟨rfl, hrest⟩ := List.cons.inj h
      rw [ih (List.not_mem_of_not_mem_cons hu) (List.not_mem_of_not_mem_cons hv) hrest]

theorem Respells.eq_of_append_eq {body text x y : List Char} (hbody : '\n' ∉ body)
    (h : Respells (body ++ ['\n']) text) (heq : text ++ x = body ++ ['\n'] ++ y)
    (hcount : x.count '\n' ≤ y.count '\n') : text = body ++ ['\n'] := by
  obtain ⟨words, rest, rfl, hwords, hrest⟩ := h
  have hwordsLine : '\n' ∉ words := List.count_eq_zero.1 (count_newline_of_isInert hwords)
  rcases suffix_newline_cases hrest with rfl | ⟨more, rfl, hmore⟩
  · have hcounts := congrArg (List.count '\n') heq
    simp only [List.count_append, List.count_nil, List.count_singleton_self,
      count_newline_of_isInert hwords] at hcounts
    omega
  · have hmoreLine : '\n' ∉ more := fun hmem => hbody (hmore.mem hmem)
    have hfront : '\n' ∉ words ++ more := by
      rw [List.mem_append, not_or]
      exact ⟨hwordsLine, hmoreLine⟩
    have hlines : words ++ more ++ '\n' :: x = body ++ '\n' :: y := by
      simpa only [List.append_assoc, List.singleton_append] using heq
    rw [← List.append_assoc, append_newline_inj hfront hbody hlines]

theorem keeps_of_append_eq {body x y : List Char} (hbody : '\n' ∉ body)
    (heq : (stripLine free block (body ++ ['\n'])).text ++ x
      = heldText block ++ (body ++ ['\n'] ++ y))
    (hcount : x.count '\n'
      ≤ (heldText (stripLine free block (body ++ ['\n'])).block).count '\n' + y.count '\n') :
    Keeps free block (body ++ ['\n']) := by
  have hnewline : (body ++ ['\n'] ++ y).count '\n' = y.count '\n' + 1 := by
    simp [List.count_eq_zero_of_not_mem hbody]
  have hstrips := strips_stripLine free block (body ++ ['\n'])
  unfold Keeps
  generalize stripLine free block (body ++ ['\n']) = out at hstrips heq hcount ⊢
  -- A line that is lost takes its newline with it, and the lines after it have none to spare.
  cases hstrips with
  | closed =>
    have hcounts := congrArg (List.count '\n') heq
    rw [List.nil_append, List.count_append, hnewline] at hcounts
    rw [heldText_none, List.count_nil] at hcount
    omega
  | held hopen => rw [heldText_held, ← hopen, List.nil_append]
  | dropped =>
    have hrest := List.append_cancel_left heq
    rw [hrest, hnewline, heldText_none, List.count_nil] at hcount
    omega
  | opened => rw [heldText_opened]
  | kept =>
    rw [List.append_assoc] at heq
    have hrest := List.append_cancel_left heq
    rw [heldText_none, List.count_nil, Nat.zero_add] at hcount
    have hrespells := unexport_respells free (oneLine_newline hbody)
    rw [heldText_none, List.append_nil, hrespells.eq_of_append_eq hbody hrest hcount]

theorem kept_of_stripLines_eq (hcut : Cut ls)
    (heq : stripLines free block ls = heldText block ++ ls.flatten) : Kept free block ls := by
  -- On the lines as they are cut: once the first is known to be kept it cancels on both sides.
  induction hcut generalizing block with
  | nil => trivial
  | last _ _ =>
    rw [stripLines_cons, stripLines_nil, List.flatten_singleton] at heq
    exact ⟨heq, trivial⟩
  | cons hbody hls ih =>
    rw [stripLines_cons, List.flatten_cons] at heq
    have hkeeps : Keeps free block _ :=
      keeps_of_append_eq hbody heq (count_stripLines_le fun l hl => hls.oneLine hl)
    refine ⟨hkeeps, ih ?_⟩
    rw [← List.append_assoc, ← hkeeps, List.append_assoc] at heq
    exact List.append_cancel_left heq

theorem stripLines_eq_iff_kept (hcut : Cut ls) :
    stripLines free block ls = heldText block ++ ls.flatten ↔ Kept free block ls :=
  ⟨kept_of_stripLines_eq hcut, stripLines_of_kept⟩

end LivePreview.Source
