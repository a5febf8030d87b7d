import LivePreview.Decimal.Shortest

namespace LivePreview.Decimal

structure Layout where
  least : Int
  greatest : Int
  deriving DecidableEq, Repr

def digitsOf (n : Nat) : List Char :=
  Nat.toDigits 10 n

def pointAfter (digits : List Char) (places : Nat) : List Char :=
  match digits.drop places with
  | [] => digits ++ List.replicate (places - digits.length) '0' ++ ['.', '0']
  | fraction => digits.take places ++ '.' :: fraction

def positional (digits : List Char) (first : Int) : List Char :=
  if 0 ≤ first then pointAfter digits (first.toNat + 1)
  else '0' :: '.' :: List.replicate ((-first).toNat - 1) '0' ++ digits

def scientific (digits : List Char) (first : Int) : List Char :=
  let fraction := if digits.length ≤ 1 then [] else '.' :: digits.drop 1
  let sign := if 0 ≤ first then '+' else '-'
  digits.take 1 ++ fraction ++ 'e' :: sign :: digitsOf first.natAbs

def Layout.write (layout : Layout) (d : Scaled) : List Char :=
  let digits := digitsOf d.digits
  let first := d.exponent + digits.length - 1
  if layout.least ≤ first ∧ first ≤ layout.greatest then positional digits first
  else scientific digits first

def Layout.writeFloat (layout : Layout) (x : Float) : List Char :=
  let bits := x.toBits
  let sign := if bits.toNat / powerOfTwo 63 = 1 then ['-'] else []
  let magnitude := Binary.ofBits bits
  sign ++ if magnitude.mantissa = 0 then ['0', '.', '0'] else layout.write magnitude.shortest

end LivePreview.Decimal
