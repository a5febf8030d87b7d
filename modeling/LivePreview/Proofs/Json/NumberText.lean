import LivePreview.Json.Printer

namespace LivePreview

namespace Decimal

def isNumberChar (c : Char) : Bool :=
  c.isDigit || ['.', '-', '+', 'e'].contains c

def Numeric (cs : List Char) : Prop :=
  ∀ c ∈ cs, isNumberChar c

variable {cs ds : List Char} {c : Char}

theorem numeric_nil : Numeric [] :=
  nofun

theorem numeric_cons : Numeric (c :: cs) ↔ isNumberChar c ∧ Numeric cs :=
  List.forall_mem_cons

theorem numeric_append : Numeric (cs ++ ds) ↔ Numeric cs ∧ Numeric ds :=
  List.forall_mem_append

theorem numeric_replicate (n : Nat) (hc : isNumberChar c) : Numeric (List.replicate n c) :=
  fun _ hd => List.eq_of_mem_replicate hd ▸ hc

theorem Numeric.take (h : Numeric cs) (n : Nat) : Numeric (cs.take n) :=
  fun _ hc => h _ (List.mem_of_mem_take hc)

theorem Numeric.drop (h : Numeric cs) (n : Nat) : Numeric (cs.drop n) :=
  fun _ hc => h _ (List.mem_of_mem_drop hc)

theorem numeric_digitsOf (n : Nat) : Numeric (digitsOf n) := by
  intro c hc
  have hdigit : c.isDigit := Nat.isDigit_of_mem_toDigits (by decide) (by decide) hc
  simp [isNumberChar, hdigit]

theorem numeric_pointAfter (h : Numeric cs) (places : Nat) : Numeric (pointAfter cs places) := by
  unfold pointAfter
  split
  · have hzeros := numeric_replicate (places - cs.length) (c := '0') (by decide)
    exact numeric_append.2 ⟨numeric_append.2 ⟨h, hzeros⟩, by simp [Numeric, isNumberChar]⟩
  · exact numeric_append.2 ⟨h.take places, numeric_cons.2 ⟨by decide, h.drop places⟩⟩

theorem numeric_positional (h : Numeric cs) (first : Int) : Numeric (positional cs first) := by
  unfold positional
  split
  · exact numeric_pointAfter h _
  · have hzeros := numeric_replicate ((-first).toNat - 1) (c := '0') (by decide)
    exact numeric_append.2
      ⟨numeric_cons.2 ⟨by decide, numeric_cons.2 ⟨by decide, hzeros⟩⟩, h⟩

theorem numeric_scientific (h : Numeric cs) (first : Int) : Numeric (scientific cs first) := by
  have hfraction : Numeric (if cs.length ≤ 1 then [] else '.' :: cs.drop 1) := by
    split
    · exact numeric_nil
    · exact numeric_cons.2 ⟨by decide, h.drop 1⟩
  have hsign : isNumberChar (if 0 ≤ first then '+' else '-') := by
    split <;> decide
  have hexponent := numeric_digitsOf first.natAbs
  exact numeric_append.2 ⟨numeric_append.2 ⟨h.take 1, hfraction⟩,
    numeric_cons.2 ⟨by decide, numeric_cons.2 ⟨hsign, hexponent⟩⟩⟩

theorem Layout.numeric_write (layout : Layout) (d : Scaled) : Numeric (layout.write d) := by
  simp only [Layout.write]
  split
  · exact numeric_positional (numeric_digitsOf d.digits) _
  · exact numeric_scientific (numeric_digitsOf d.digits) _

theorem Layout.numeric_writeFloat (layout : Layout) (x : Float) :
    Numeric (layout.writeFloat x) := by
  refine numeric_append.2 ⟨?_, ?_⟩
  · split
    · simp [Numeric, isNumberChar]
    · exact numeric_nil
  · split
    · simp [Numeric, isNumberChar]
    · exact layout.numeric_write _

theorem digitsOf_inj {m n : Nat} (h : digitsOf m = digitsOf n) : m = n := by
  have hread := Nat.ofDigitChars_ten_toDigits (n := m)
  rw [show Nat.toDigits 10 m = Nat.toDigits 10 n from h, Nat.ofDigitChars_ten_toDigits] at hread
  exact hread.symm

end Decimal

end LivePreview
