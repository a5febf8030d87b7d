import LivePreview.Json.Reader

namespace LivePreview.Json

open LivePreview.Decimal (digitsOf)

variable {cs rest : List Char} {c : Char}

theorem ok_bind {α β : Type} (x : α) (f : α → Except Fault β) : (.ok x >>= f) = f x :=
  rfl

theorem takeWhile_dropWhile_append {p : Char → Bool} {word : List Char} (hword : ∀ c ∈ word, p c)
    (hrest : ∀ c, rest.head? = some c → p c = false) :
    (word ++ rest).takeWhile p = word ∧ (word ++ rest).dropWhile p = rest := by
  rw [List.takeWhile_append_of_pos hword, List.dropWhile_append_of_pos hword]
  cases rest with
  | nil => simp
  | cons c rest => simp [hrest c rfl]

def EndsNumber (rest : List Char) : Prop :=
  ∀ c, rest.head? = some c → isDigit c = false ∧ c ≠ '.' ∧ c ≠ 'e' ∧ c ≠ 'E'

theorem endsNumber_nil : EndsNumber [] := by
  simp [EndsNumber]

theorem endsNumber_cons (h : c ∈ [',', ']', '\x7d', ';']) : EndsNumber (c :: rest) := by
  simp only [List.mem_cons, List.not_mem_nil, or_false] at h
  intro d hd
  obtain rfl := Option.some.inj hd
  rcases h with rfl | rfl | rfl | rfl <;> decide

theorem skipSpace_cons (h : isSpace c = false) : skipSpace (c :: cs) = c :: cs := by
  simp [skipSpace, h]

section Numbers

variable {n : Nat} {ds : List Char}

theorem isDigit_of_mem_digitsOf (h : c ∈ digitsOf n) : isDigit c := by
  have hdigit : c.isDigit := Nat.isDigit_of_mem_toDigits (by decide) (by decide) h
  simp only [Char.isDigit, Bool.and_eq_true, decide_eq_true_eq] at hdigit
  simp only [isDigit, Bool.and_eq_true, decide_eq_true_eq, Char.le_def]
  exact hdigit

theorem isSpace_of_isDigit (h : isDigit c) : isSpace c = false := by
  cases hspace : isSpace c with
  | false => rfl
  | true =>
    simp only [isSpace, Bool.or_eq_true, beq_iff_eq] at hspace
    rcases hspace with ((rfl | rfl) | rfl) | rfl <;> exact absurd h (by decide)

theorem exists_digitsOf_cons (n : Nat) : ∃ c ds, digitsOf n = c :: ds ∧ isDigit c := by
  obtain ⟨c, ds, hcons⟩ := List.exists_cons_of_ne_nil (Nat.toDigits_ne_nil (b := 10) (n := n))
  refine ⟨c, ds, hcons, isDigit_of_mem_digitsOf (n := n) ?_⟩
  rw [digitsOf, hcons]
  exact List.mem_cons_self

theorem ne_zero_of_digitsOf (hn : 0 < n) (h : digitsOf n = c :: ds) : c ≠ '0' := by
  have hdigit : ∀ d < 10, 0 < d → Nat.digitChar d ≠ '0' := by decide
  induction n using Nat.strongRecOn generalizing c ds with
  | ind n ih =>
    rw [digitsOf] at h
    by_cases hsmall : n < 10
    · rw [Nat.toDigits_of_lt_base hsmall] at h
      obtain ⟨rfl, -⟩ := List.cons.inj h
      exact hdigit n hsmall hn
    · obtain ⟨d, es, hfront, -⟩ := exists_digitsOf_cons (n / 10)
      have hd : d ≠ '0' := ih (n / 10) (by omega) (by omega) hfront
      rw [Nat.toDigits_of_base_le (by decide) (by omega), ← digitsOf, hfront] at h
      obtain ⟨rfl, -⟩ := List.cons.inj h
      exact hd

theorem le_ofDigitChars (ds : List Char) : n ≤ Nat.ofDigitChars 10 ds n := by
  rw [Nat.ofDigitChars_eq_ofDigitChars_zero]
  have hpos : 0 < 10 ^ ds.length := Nat.pow_pos (by decide)
  exact Nat.le_add_right_of_le (Nat.le_mul_of_pos_left n hpos)

theorem gather_eq (h : Nat.ofDigitChars 10 ds n ≤ maxSignificand) :
    gather n ds = (Nat.ofDigitChars 10 ds n, []) := by
  induction ds generalizing n with
  | nil => rfl
  | cons d ds ih =>
    have hnext : 10 * n + (d.toNat - '0'.toNat) = n * 10 + digitValue d := by
      rw [digitValue, Nat.mul_comm]
    rw [Nat.ofDigitChars_cons, hnext] at h ⊢
    have hle := Nat.le_trans (le_ofDigitChars ds) h
    rw [gather, if_neg (Nat.not_lt.2 hle), ih h]

theorem gather_digitsOf (hn : n ≤ maxSignificand) : gather 0 (digitsOf n) = (n, []) := by
  have hvalue : Nat.ofDigitChars 10 (digitsOf n) 0 = n := Nat.ofDigitChars_ten_toDigits
  rw [gather_eq (by rwa [hvalue]), hvalue]

theorem readNumber_digitsOf (negative : Bool) (hn : n ≤ maxSignificand) (hrest : EndsNumber rest) :
    readNumber negative (digitsOf n ++ rest) = .ok (intOrFloat negative n, rest) := by
  have hall : ∀ c ∈ digitsOf n, isDigit c := fun c => isDigit_of_mem_digitsOf
  obtain ⟨htake, hdrop⟩ := takeWhile_dropWhile_append hall fun c hc => (hrest c hc).1
  have hgather := gather_digitsOf hn
  obtain ⟨c, ds, hcons, hc⟩ := exists_digitsOf_cons n
  have hlead : ¬ (c = '0' ∧ 1 < (c :: ds).length) := by
    rintro ⟨rfl, hlength⟩
    rcases Nat.eq_zero_or_pos n with rfl | hpos
    · obtain ⟨-, rfl⟩ := List.cons.inj hcons
      simp at hlength
    · exact ne_zero_of_digitsOf hpos hcons rfl
  rw [hcons] at htake hdrop hgather ⊢
  rw [List.cons_append] at htake hdrop ⊢
  simp only [readNumber, hc, htake, hdrop, hlead, if_true, if_false, hgather]
  split
  · exact absurd rfl (hrest '.' rfl).2.1
  · exact absurd rfl (hrest 'e' rfl).2.2.1
  · exact absurd rfl (hrest 'E' rfl).2.2.2
  · rfl

theorem readValue_digit {limit : Nat} (h : isDigit c) :
    readValue limit (c :: cs) = readNumber false (c :: cs) := by
  have hother {d : Char} {tail : List Char} (hd : isDigit d = false) : c :: cs ≠ d :: tail := by
    rintro heq
    rw [(List.cons.inj heq).1, hd] at h
    cases h
  rw [readValue, skipSpace_cons (isSpace_of_isDigit h)]
  split
  case h_1 heq => cases heq
  case h_9 heq =>
    obtain ⟨rfl, rfl⟩ := List.cons.inj heq
    exact if_pos h
  all_goals
    rename_i heq
    exact absurd heq (hother (by decide))

theorem ofInt?_val (n : JsonInt) : JsonInt.ofInt? n.val = some n :=
  dif_pos ⟨n.least_le, n.le_greatest⟩

theorem intOrFloat_toNat {n : JsonInt} (h : 0 ≤ n.val) : intOrFloat false n.val.toNat = .int n := by
  simp only [intOrFloat, Bool.false_eq_true, false_and, if_false, Int.toNat_of_nonneg h, ofInt?_val]

theorem intOrFloat_toNat_neg {n : JsonInt} (h : n.val < 0) :
    intOrFloat true (-n.val).toNat = .int n := by
  have hne : (-n.val).toNat ≠ 0 := by omega
  have hval : -((-n.val).toNat : Int) = n.val := by omega
  simp only [intOrFloat, hne, and_false, if_false, if_true, hval, ofInt?_val]

theorem toNat_le_maxSignificand (n : JsonInt) :
    n.val.toNat ≤ maxSignificand ∧ (-n.val).toNat ≤ maxSignificand := by
  have hleast := n.least_le
  have hgreatest := n.le_greatest
  simp only [JsonInt.least, JsonInt.greatest, maxSignificand] at *
  omega

end Numbers

section Sequences

variable {α : Type} {text : α → List Char} {xs : List α} {close : Char} {fuel : Nat}

def ReadsBack (item : Reader α) (text : α → List Char) (x : α) : Prop :=
  ∀ rest, EndsNumber rest → item (text x ++ rest) = .ok (x, rest)

def closedBy (close : Char) (text : α → List Char) (xs : List α) (rest : List Char) : List Char :=
  xs.flatMap (fun x => ',' :: text x) ++ close :: rest

theorem closedBy_cons (x : α) :
    closedBy close text (x :: xs) rest = ',' :: (text x ++ closedBy close text xs rest) := by
  simp [closedBy]

theorem endsNumber_closedBy (hclose : close = ']' ∨ close = '\x7d') (xs : List α) :
    EndsNumber (closedBy close text xs rest) := by
  cases xs with
  | nil => exact endsNumber_cons (by rcases hclose with rfl | rfl <;> simp)
  | cons x xs => exact endsNumber_cons (by simp)

theorem length_lt_closedBy (xs : List α) : xs.length < (closedBy close text xs rest).length := by
  induction xs with
  | nil => simp [closedBy]
  | cons x xs ih =>
    rw [closedBy_cons, List.length_cons, List.length_cons, List.length_append]
    omega

theorem read_closedBy {more : Nat → Reader (List α)} (hclose : close = ']' ∨ close = '\x7d')
    (hend : ∀ k, more (k + 1) (close :: rest) = .ok ([], rest))
    (hnext : ∀ x ∈ xs, ∀ k tail, EndsNumber tail → more (k + 1) (',' :: (text x ++ tail)) =
      more k tail >>= fun read => .ok (x :: read.1, read.2))
    (hfuel : xs.length < fuel) : more fuel (closedBy close text xs rest) = .ok (xs, rest) := by
  induction xs generalizing fuel with
  | nil =>
    obtain ⟨k, rfl⟩ := Nat.exists_eq_add_of_lt hfuel
    exact hend _
  | cons x xs ih =>
    obtain ⟨hx, hxs⟩ := List.forall_mem_cons.1 hnext
    obtain ⟨k, rfl⟩ := Nat.exists_eq_add_of_lt hfuel
    have hmore : more ((x :: xs).length + k) (closedBy close text xs rest) = .ok (xs, rest) := by
      refine ih hxs ?_
      rw [List.length_cons]
      omega
    rw [closedBy_cons, hx _ _ (endsNumber_closedBy hclose xs), hmore, ok_bind]

end Sequences

section Lists

variable {α : Type} {item : Reader α} {text : α → List Char} {xs : List α} {fuel : Nat}

def BeginsItem (cs : List Char) : Prop :=
  ∃ c rest, cs = c :: rest ∧ isSpace c = false ∧ c ≠ ']'

theorem BeginsItem.append (h : BeginsItem cs) (rest : List Char) : BeginsItem (cs ++ rest) := by
  obtain ⟨c, cs, rfl, hspace, hbracket⟩ := h
  exact ⟨c, cs ++ rest, rfl, hspace, hbracket⟩

theorem readMore_comma (h : BeginsItem cs) : readMore item (fuel + 1) (',' :: cs) =
    item cs >>= fun read =>
      readMore item fuel read.2 >>= fun more => .ok (read.1 :: more.1, more.2) := by
  obtain ⟨c, cs, rfl, hspace, hbracket⟩ := h
  rw [readMore, skipSpace_cons (by decide)]
  simp only [skipSpace_cons hspace]
  split
  · rename_i heq
    cases heq
  · rename_i heq
    exact absurd (List.cons.inj heq).1 hbracket
  · rfl

theorem readList_begins (h : BeginsItem cs) : readList item cs =
    item cs >>= fun read =>
      readMore item read.2.length read.2 >>= fun more => .ok (read.1 :: more.1, more.2) := by
  obtain ⟨c, cs, rfl, hspace, hbracket⟩ := h
  rw [readList, skipSpace_cons hspace]
  split
  · rename_i heq
    cases heq
  · rename_i heq
    exact absurd (List.cons.inj heq).1 hbracket
  · rfl

theorem readList_closedBy (x : α) (hread : ∀ y ∈ x :: xs, ReadsBack item text y)
    (hbegins : ∀ y ∈ x :: xs, BeginsItem (text y)) :
    readList item (text x ++ closedBy ']' text xs rest) = .ok (x :: xs, rest) := by
  obtain ⟨hx, hxs⟩ := List.forall_mem_cons.1 hread
  obtain ⟨hbegin, hbegins'⟩ := List.forall_mem_cons.1 hbegins
  have hnext : ∀ y ∈ xs, ∀ k tail, EndsNumber tail →
      readMore item (k + 1) (',' :: (text y ++ tail)) =
        readMore item k tail >>= fun read => .ok (y :: read.1, read.2) := by
    intro y hy k tail htail
    rw [readMore_comma ((hbegins' y hy).append tail), hxs y hy tail htail, ok_bind]
  have hmore : readMore item (closedBy ']' text xs rest).length (closedBy ']' text xs rest) =
      .ok (xs, rest) := read_closedBy (.inl rfl) (fun k => rfl) hnext (length_lt_closedBy xs)
  rw [readList_begins (hbegin.append _), hx _ (endsNumber_closedBy (.inl rfl) xs), ok_bind, hmore,
    ok_bind]

end Lists

section Fields

variable {α : Type} {field : Reader α} {body : α → List Char} {xs : List α} {fuel : Nat}

theorem readMoreFields_comma (cs : List Char) : readMoreFields field (fuel + 1) (',' :: '"' :: cs) =
    field cs >>= fun read =>
      readMoreFields field fuel read.2 >>= fun more => .ok (read.1 :: more.1, more.2) := by
  have hquote : skipSpace ('"' :: cs) = '"' :: cs := skipSpace_cons (by decide)
  rw [readMoreFields, skipSpace_cons (by decide)]
  simp only [hquote]

theorem readFields_quote (cs : List Char) : readFields field ('"' :: cs) =
    field cs >>= fun read =>
      readMoreFields field read.2.length read.2 >>= fun more => .ok (read.1 :: more.1, more.2) := by
  rw [readFields, skipSpace_cons (by decide)]
  rfl

theorem readFields_closedBy (x : α) (hread : ∀ y ∈ x :: xs, ReadsBack field body y) :
    readFields field ('"' :: (body x ++ closedBy '\x7d' (fun y => '"' :: body y) xs rest)) =
      .ok (x :: xs, rest) := by
  obtain ⟨hx, hxs⟩ := List.forall_mem_cons.1 hread
  have hnext : ∀ y ∈ xs, ∀ k tail, EndsNumber tail →
      readMoreFields field (k + 1) (',' :: (('"' :: body y) ++ tail)) =
        readMoreFields field k tail >>= fun read => .ok (y :: read.1, read.2) := by
    intro y hy k tail htail
    rw [List.cons_append, readMoreFields_comma, hxs y hy tail htail, ok_bind]
  have hmore : readMoreFields field (closedBy '\x7d' (fun y => '"' :: body y) xs rest).length
      (closedBy '\x7d' (fun y => '"' :: body y) xs rest) = .ok (xs, rest) :=
    read_closedBy (.inr rfl) (fun k => rfl) hnext (length_lt_closedBy xs)
  rw [readFields_quote, hx _ (endsNumber_closedBy (.inr rfl) xs), ok_bind, hmore, ok_bind]

end Fields

section Objects

variable {fields sorted : List (String × Json)} {name : String} {value : Json}

theorem insertField_of_last (h : ∀ field ∈ sorted, field.1 < name) :
    insertField name value sorted = sorted ++ [(name, value)] := by
  induction sorted with
  | nil => rfl
  | cons field sorted ih =>
    obtain ⟨hfield, hsorted⟩ := List.forall_mem_cons.1 h
    have hne : name ≠ field.1 := by
      rintro rfl
      exact String.lt_irrefl _ hfield
    rw [insertField, if_neg (String.lt_asymm hfield), if_neg hne, ih hsorted, List.cons_append]

theorem ofFields_of_pairwise (h : fields.Pairwise (·.1 < ·.1)) : ofFields fields = .obj fields := by
  have hfold : ∀ sorted : List (String × Json), (sorted ++ fields).Pairwise (·.1 < ·.1) →
      fields.foldl (fun sorted field => insertField field.1 field.2 sorted) sorted =
        sorted ++ fields := by
    induction fields with
    | nil => simp
    | cons field fields ih =>
      intro sorted hsorted
      have hlast : ∀ other ∈ sorted, other.1 < field.1 := fun other hother =>
        (List.pairwise_append.1 hsorted).2.2 other hother field List.mem_cons_self
      have hmoved : sorted ++ field :: fields = sorted ++ [field] ++ fields := by simp
      rw [List.foldl_cons, insertField_of_last hlast, hmoved]
      rw [hmoved] at hsorted
      exact ih (List.pairwise_cons.1 h).2 _ hsorted
  rw [ofFields, hfold [] h, List.nil_append]

end Objects

end LivePreview.Json
