namespace LivePreview.Address

/-- Ranges of characters that stand for numbers, with the number of the first one. -/
def numberForms : List (Nat × Nat × Nat) := [
  (0xB2, 0xB3, 2), (0xB9, 0xB9, 1), (0x2070, 0x2070, 0), (0x2074, 0x2079, 4), (0x2080, 0x2089, 0),
  (0x2460, 0x2473, 1), (0x24EA, 0x24EA, 0), (0x3251, 0x325F, 21), (0x32B1, 0x32BF, 36),
  (0x1D7CE, 0x1D7D7, 0), (0x1D7D8, 0x1D7E1, 0), (0x1D7E2, 0x1D7EB, 0), (0x1D7EC, 0x1D7F5, 0),
  (0x1D7F6, 0x1D7FF, 0), (0x1FBF0, 0x1FBF9, 0)]

def silentRanges : List (Nat × Nat) := [
  (0xAD, 0xAD), (0x34F, 0x34F), (0x180B, 0x180D), (0x180F, 0x180F), (0x200B, 0x200B),
  (0x2060, 0x2060), (0x2064, 0x2064), (0xFE00, 0xFE0F), (0xFEFF, 0xFEFF), (0x1BCA0, 0x1BCA3),
  (0xE0100, 0xE01EF)]

def isSilent (c : Char) : Bool :=
  silentRanges.any fun range => range.1 ≤ c.toNat && c.toNat ≤ range.2

def numberOf? (c : Char) : Option Nat :=
  (numberForms.find? fun form => form.1 ≤ c.toNat && c.toNat ≤ form.2.1).map fun form =>
    form.2.2 + (c.toNat - form.1)

def isWide (c : Char) : Bool :=
  0xFF01 ≤ c.toNat && c.toNat ≤ 0xFF5E

def isFullStop (c : Char) : Bool :=
  c.toNat == 0x3002 || c.toNat == 0xFF61

def foldChar (c : Char) : List Char :=
  if isSilent c then []
  else if isFullStop c then ['.']
  else if isWide c then [(Char.ofNat (c.toNat - 0xFEE0)).toLower]
  else
    match numberOf? c with
    | some number => Nat.toDigits 10 number
    | none => [c.toLower]

end LivePreview.Address
