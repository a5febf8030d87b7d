import LivePreview.Text.Blank

namespace LivePreview.Decimal

open LivePreview.Text

def isDigit (c : Char) : Bool :=
  '0' ≤ c && c ≤ '9'

def natOf (digits : List Char) : Nat :=
  digits.foldl (fun n d => 10 * n + (d.toNat - '0'.toNat)) 0

def exponent? : List Char → Option Int
  | [] => some 0
  | e :: cs =>
      if e == 'e' || e == 'E' then
        let down := cs.head? == some '-'
        let digits := if down || cs.head? == some '+' then cs.drop 1 else cs
        if digits.isEmpty || !digits.all isDigit then none
        else some (if down then -(natOf digits : Int) else natOf digits)
      else none

/-- No finite number has its first digit further than this from the point. -/
def farthest : Int := 400

def nearest (digits : List Char) (exponent : Int) : Float :=
  let mantissa := natOf digits
  let significant := (digits.dropWhile (· == '0')).length
  if mantissa = 0 ∨ exponent + significant < -farthest then 0.0
  else if farthest < exponent + significant then 1.0 / 0.0
  else .ofScientific mantissa (exponent < 0) exponent.natAbs

def unsigned? (cs : List Char) : Option Float :=
  let whole := cs.takeWhile isDigit
  let rest := cs.dropWhile isDigit
  let fraction := if rest.head? == some '.' then (rest.drop 1).takeWhile isDigit else []
  let rest := if rest.head? == some '.' then (rest.drop 1).dropWhile isDigit else rest
  if whole.isEmpty && fraction.isEmpty then none
  else (exponent? rest).map fun e => nearest (whole ++ fraction) (e - fraction.length)

def named? (cs : List Char) : Option Float :=
  let name := cs.map Char.toLower
  if name == ['i', 'n', 'f'] || name == ['i', 'n', 'f', 'i', 'n', 'i', 't', 'y'] then
    some (1.0 / 0.0)
  else if name == ['n', 'a', 'n'] then some (0.0 / 0.0)
  else none

def parse? (cs : List Char) : Option Float :=
  let negative := cs.head? == some '-'
  let body := if negative || cs.head? == some '+' then cs.drop 1 else cs
  ((named? body).or (unsigned? body)).map fun x => if negative then -x else x

end LivePreview.Decimal
