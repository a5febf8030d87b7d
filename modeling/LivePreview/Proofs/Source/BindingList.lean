import LivePreview.Proofs.Source.ListPart

/-!
Binding lists written over several lines, told by the places of their lines. A list is whole when a
line of its own kind closes it; it is broken when another line interrupts it or the text ends.
-/

namespace LivePreview.Source

open LivePreview.Text

open LivePreview.Text.Pattern (Matches)

def MatchesAt (p : Pattern) (ls : List Line) (k : Nat) : Prop :=
  ∃ line, ls[k]? = some line ∧ Matches p line.body

/-- Line `i` opens a list, and the lines behind it up to line `n` hold names of the list. -/
structure ListFrom (ls : List Line) (kind : BlockKind) (i n : Nat) : Prop where
  lt : i < n
  opens : MatchesAt kind.opener ls i
  names : ∀ k, i < k → k < n →
    MatchesAt ModuleSyntax.bindingNames ls k ∧ ¬ MatchesAt kind.closing ls k

/-- Lines `i` to `j` are a list that is closed by a line of its kind, and line `i` does not lie in
an earlier one. -/
def WholeList (ls : List Line) (i j : Nat) : Prop :=
  (∃ kind, ListFrom ls kind i j ∧ MatchesAt kind.closing ls j) ∧
    ∀ i', i' < i → ∀ j', WholeList ls i' j' → j' < i
termination_by i

/-- Lines `i` to `n` are a list, without line `n`, which is no part of it or does not exist. -/
def BrokenList (ls : List Line) (i n : Nat) : Prop :=
  ∃ kind, ListFrom ls kind i n ∧ n ≤ ls.length ∧
    ¬ MatchesAt ModuleSyntax.bindingNames ls n ∧ ¬ MatchesAt kind.closing ls n

def InWholeList (ls : List Line) (k : Nat) : Prop :=
  ∃ i j, WholeList ls i j ∧ i ≤ k ∧ k ≤ j

def InBrokenList (ls : List Line) (k : Nat) : Prop :=
  ∃ i n, BrokenList ls i n ∧ i ≤ k ∧ k < n

variable {kind kind' : BlockKind} {ls : List Line} {p q : Pattern} {line : Line}
  {i i' j j' k m n : Nat}

theorem matchesAt_iff (hline : ls[k]? = some line) : MatchesAt p ls k ↔ Matches p line.body := by
  constructor
  · rintro ⟨other, hother, h⟩
    obtain rfl := Option.some.inj (hline.symm.trans hother)
    exact h
  · exact fun h => ⟨line, hline, h⟩

theorem matchesAt_iff_accepts (hline : ls[k]? = some line) :
    MatchesAt p ls k ↔ p.accepts line.body = true :=
  (matchesAt_iff hline).trans Pattern.accepts_iff.symm

theorem MatchesAt.lt_length (h : MatchesAt p ls k) : k < ls.length := by
  obtain ⟨line, hline, -⟩ := h
  exact (List.getElem?_eq_some_iff.1 hline).1

theorem MatchesAt.not_matchesAt (h : MatchesAt p ls k)
    (hpq : ∀ u, Matches p u → ¬ Matches q u) : ¬ MatchesAt q ls k := by
  obtain ⟨line, hline, hmatches⟩ := h
  rw [matchesAt_iff hline]
  exact hpq _ hmatches

theorem ListFrom.of_le (h : ListFrom ls kind i n) (hi : i < m) (hm : m ≤ n) :
    ListFrom ls kind i m :=
  ⟨hi, h.opens, fun k hk hkm => h.names k hk (by omega)⟩

theorem listFrom_succ_iff : ListFrom ls kind i (n + 1) ↔
    (i = n ∧ MatchesAt kind.opener ls n) ∨ (ListFrom ls kind i n ∧
      MatchesAt ModuleSyntax.bindingNames ls n ∧ ¬ MatchesAt kind.closing ls n) := by
  constructor
  · intro h
    rcases Nat.lt_succ_iff_lt_or_eq.1 h.lt with hi | rfl
    · exact .inr ⟨h.of_le hi (Nat.le_succ n), h.names n hi (Nat.lt_succ_self n)⟩
    · exact .inl ⟨rfl, h.opens⟩
  · rintro (⟨rfl, hopens⟩ | ⟨h, hnames⟩)
    · exact ⟨Nat.lt_succ_self i, hopens, fun k hk hkn => by omega⟩
    · refine ⟨Nat.lt_succ_of_lt h.lt, h.opens, fun k hk hkn => ?_⟩
      rcases Nat.lt_succ_iff_lt_or_eq.1 hkn with hkn | rfl
      · exact h.names k hk hkn
      · exact hnames

theorem ListFrom.not_opener (h : ListFrom ls kind i n) (hi : i < k) (hk : k < n) :
    ¬ MatchesAt kind'.opener ls k := by
  intro hopens
  exact hopens.not_matchesAt (fun _ => not_names_of_opener) (h.names k hi hk).1

theorem ListFrom.unique (h : ListFrom ls kind i n) (h' : ListFrom ls kind' i' n) :
    kind = kind' ∧ i = i' := by
  have hi : i = i' := by
    rcases Nat.lt_trichotomy i i' with hlt | heq | hlt
    · exact absurd h'.opens (h.not_opener hlt h'.lt)
    · exact heq
    · exact absurd h.opens (h'.not_opener hlt h.lt)
  subst hi
  obtain ⟨line, hline, hopens⟩ := h.opens
  have hopens' := (matchesAt_iff hline).1 h'.opens
  exact ⟨opener_inj hopens hopens', rfl⟩

theorem WholeList.exists_listFrom (h : WholeList ls i j) :
    ∃ kind, ListFrom ls kind i j ∧ MatchesAt kind.closing ls j := by
  rw [WholeList] at h
  exact h.1

theorem wholeList_of_closing (h : ListFrom ls kind i j) (hcloses : MatchesAt kind.closing ls j) :
    WholeList ls i j := by
  rw [WholeList]
  refine ⟨⟨kind, h, hcloses⟩, fun i' hi j' hwhole => ?_⟩
  obtain ⟨kind', hlist, hend⟩ := hwhole.exists_listFrom
  rcases Nat.lt_trichotomy j' i with hlt | rfl | hlt
  · exact hlt
  · exact absurd hend (h.opens.not_matchesAt fun _ => not_closing_of_opener)
  · exact absurd h.opens (hlist.not_opener hi hlt)

theorem listFrom_of_inWholeList (h : InWholeList ls k) :
    (∃ kind : BlockKind, MatchesAt kind.opener ls k) ∨ ∃ kind i, ListFrom ls kind i k ∧
      (MatchesAt ModuleSyntax.bindingNames ls k ∨ MatchesAt kind.closing ls k) := by
  obtain ⟨i, j, hwhole, hi, hj⟩ := h
  obtain ⟨kind, hlist, hcloses⟩ := hwhole.exists_listFrom
  rcases Nat.eq_or_lt_of_le hi with rfl | hi
  · exact .inl ⟨kind, hlist.opens⟩
  · refine .inr ⟨kind, i, hlist.of_le hi hj, ?_⟩
    rcases Nat.eq_or_lt_of_le hj with rfl | hj
    · exact .inr hcloses
    · exact .inl (hlist.names k hi hj).1

theorem listFrom_of_inBrokenList (h : InBrokenList ls k) :
    (∃ kind : BlockKind, MatchesAt kind.opener ls k) ∨ ∃ kind i, ListFrom ls kind i k ∧
      MatchesAt ModuleSyntax.bindingNames ls k := by
  obtain ⟨i, n, ⟨kind, hlist, -⟩, hi, hn⟩ := h
  rcases Nat.eq_or_lt_of_le hi with rfl | hi
  · exact .inl ⟨kind, hlist.opens⟩
  · exact .inr ⟨kind, i, hlist.of_le hi (Nat.le_of_lt hn), (hlist.names k hi hn).1⟩

theorem ListFrom.ends (h : ListFrom ls kind i n) (hn : n ≤ ls.length) :
    (∃ j, n ≤ j ∧ WholeList ls i j) ∨ ∃ m, n ≤ m ∧ BrokenList ls i m := by
  obtain ⟨d, hd⟩ := Nat.exists_eq_add_of_le hn
  induction d generalizing n with
  | zero =>
    have hend : ∀ p, ¬ MatchesAt p ls n := by
      intro p hp
      have := hp.lt_length
      omega
    exact .inr ⟨n, Nat.le_refl n, kind, h, hn, hend _, hend _⟩
  | succ d ih =>
    by_cases hcloses : MatchesAt kind.closing ls n
    · exact .inl ⟨n, Nat.le_refl n, wholeList_of_closing h hcloses⟩
    by_cases hnames : MatchesAt ModuleSyntax.bindingNames ls n
    · have hnext : ListFrom ls kind i (n + 1) := listFrom_succ_iff.2 (.inr ⟨h, hnames, hcloses⟩)
      rcases ih hnext (by omega) (by omega) with ⟨j, hj, hwhole⟩ | ⟨m, hm, hbroken⟩
      · exact .inl ⟨j, Nat.le_of_succ_le hj, hwhole⟩
      · exact .inr ⟨m, Nat.le_of_succ_le hm, hbroken⟩
    · exact .inr ⟨n, Nat.le_refl n, kind, h, hn, hnames, hcloses⟩

theorem ListFrom.listed (h : ListFrom ls kind i (k + 1)) (hk : k < ls.length) :
    InWholeList ls k ∨ InBrokenList ls k := by
  have hi : i ≤ k := Nat.le_of_lt_succ h.lt
  rcases h.ends hk with ⟨j, hj, hwhole⟩ | ⟨m, hm, hbroken⟩
  · exact .inl ⟨i, j, hwhole, hi, Nat.le_of_succ_le hj⟩
  · exact .inr ⟨i, m, hbroken, hi, hm⟩

theorem not_listed_of_no_opener
    (h : ∀ line ∈ ls, ∀ kind ∈ [BlockKind.importing, .exporting], ¬ Matches kind.opener line.body) :
    ¬ InWholeList ls k ∧ ¬ InBrokenList ls k := by
  have hopens : ∀ (kind : BlockKind) i, ¬ MatchesAt kind.opener ls i := by
    rintro kind i ⟨line, hline, hmatches⟩
    exact h line (List.mem_of_getElem? hline) kind (by cases kind <;> simp) hmatches
  constructor
  · rintro ⟨i, j, hwhole, -⟩
    obtain ⟨kind, hlist, -⟩ := hwhole.exists_listFrom
    exact hopens kind i hlist.opens
  · rintro ⟨i, n, ⟨kind, hlist, -⟩, -⟩
    exact hopens kind i hlist.opens

theorem not_inWholeList_of_inBrokenList (h : InBrokenList ls k) : ¬ InWholeList ls k := by
  rintro ⟨i', j, hwhole, hi', hj⟩
  obtain ⟨i, n, ⟨kind, hlist, -, hnames, hcloses⟩, hi, hn⟩ := h
  obtain ⟨kind', hlist', hcloses'⟩ := hwhole.exists_listFrom
  have hk : ListFrom ls kind i (k + 1) := hlist.of_le (by omega) (by omega)
  rcases Nat.eq_or_lt_of_le hj with rfl | hj
  · -- A line of the broken list closes nothing.
    rcases Nat.eq_or_lt_of_le hi with rfl | hi
    · exact hlist.opens.not_matchesAt (fun _ => not_closing_of_opener) hcloses'
    · exact hcloses'.not_matchesAt (fun _ => not_names_of_closing) (hlist.names k hi hn).1
  · have hk' : ListFrom ls kind' i' (k + 1) := hlist'.of_le (by omega) (by omega)
    obtain ⟨rfl, rfl⟩ := hk.unique hk'
    rcases Nat.lt_trichotomy j n with hlt | rfl | hlt
    · exact (hlist.names j hlist'.lt hlt).2 hcloses'
    · exact hcloses hcloses'
    · exact hnames (hlist'.names n hlist.lt hlt).1

end LivePreview.Source
