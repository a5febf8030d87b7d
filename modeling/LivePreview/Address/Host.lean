import LivePreview.Text.Blank
import LivePreview.Text.Parts
import LivePreview.Text.Percent
import LivePreview.Address.Fault
import LivePreview.Address.Escape
import LivePreview.Address.Folding

/-!
The host of an address: a number of four bytes, eight numbers of two bytes in brackets, or a name.
A name whose last part is a number has to be a number of four bytes.
-/

namespace LivePreview.Address

inductive Host where
  | v4 (number : Nat)
  | v6 (pieces : List Nat)
  | name (text : String)
  deriving DecidableEq, Repr

/-! ### Four bytes -/

def digitsIn (base : Nat) (cs : List Char) : Option Nat :=
  cs.foldlM (fun n c => do
    let digit ← Text.Percent.hexValue? c
    if digit < base then some (base * n + digit) else none) 0

def v4Number? : List Char → Option Nat
  | [] => none
  | '0' :: 'x' :: cs => digitsIn 16 cs
  | '0' :: 'X' :: cs => digitsIn 16 cs
  | ['0'] => some 0
  | '0' :: cs => digitsIn 8 cs
  | cs => digitsIn 10 cs

def dottedParts (cs : List Char) : List (List Char) :=
  let parts := Text.splitWhere (· == '.') cs
  if parts.getLast? = some [] then parts.dropLast else parts

def endsInNumber (cs : List Char) : Bool :=
  match (dottedParts cs).getLast? with
  | none => false
  | some part => (!part.isEmpty && part.all Char.isDigit) || (v4Number? part).isSome

/-- The last number stands for all the bytes that the numbers before it leave over. -/
def joinNumbers : Nat → List Nat → Option Nat
  | _, [] => none
  | room, [last] => if last < room then some last else none
  | room, n :: ns => do
      let rest ← joinNumbers (room / 256) ns
      if n < 256 then some (n * (room / 256) + rest) else none

def v4? (cs : List Char) : Option Nat := do
  let parts := dottedParts cs
  if 4 < parts.length then none
  let numbers ← parts.mapM v4Number?
  joinNumbers 4294967296 numbers

/-! ### Eight numbers of two bytes -/

def byte? (cs : List Char) : Option Nat := do
  if cs.isEmpty || (1 < cs.length && cs.head? == some '0') then none
  let n ← digitsIn 10 cs
  if n < 256 then some n else none

def dottedPieces? (cs : List Char) : Option (List Nat) := do
  match ← (Text.splitWhere (· == '.') cs).mapM byte? with
  | [a, b, c, d] => some [256 * a + b, 256 * c + d]
  | _ => none

def piece? (cs : List Char) : Option Nat :=
  if cs.isEmpty || 4 < cs.length then none else digitsIn 16 cs

def sidePieces? (dotted : Bool) : List (List Char) → Option (List Nat)
  | [] => some []
  | [last] => if dotted && last.contains '.' then dottedPieces? last else (piece? last).map ([·])
  | piece :: pieces => do return (← piece? piece) :: (← sidePieces? dotted pieces)

def side? (dotted : Bool) (cs : List Char) : Option (List Nat) :=
  if cs.isEmpty then some [] else sidePieces? dotted (Text.splitWhere (· == ':') cs)

def splitGap : List Char → List Char × Option (List Char)
  | ':' :: ':' :: cs => ([], some cs)
  | c :: cs => ((c :: (splitGap cs).1), (splitGap cs).2)
  | [] => ([], none)

def v6? (cs : List Char) : Option (List Nat) := do
  match splitGap cs with
  | (cs, none) =>
      let pieces ← side? true cs
      if pieces.length = 8 then some pieces else none
  | (before, some after) =>
      let left ← side? false before
      let right ← side? true after
      let found := left.length + right.length
      if found < 8 then some (left ++ List.replicate (8 - found) 0 ++ right) else none

def bracketed (cs : List Char) : Except AddressFault Host :=
  if cs.getLast? = some ']' then
    match v6? cs.dropLast with
    | some pieces => .ok (.v6 pieces)
    | none => .error .invalidV6
  else .error .invalidV6

/-! ### Names -/

def isRefusedInName (c : Char) : Bool :=
  c.toNat ≤ 0x20 || c.toNat == 0x7F || "%#/:<>?@[\\]^|".toList.contains c || Text.isBlank c
    || c.toNat == 0xFFFD

def ofName (cs : List Char) : Except AddressFault Host :=
  match Text.Percent.decode? (.ofList cs) with
  | none => .error .invalidName
  | some decoded =>
      let name := decoded.toList.flatMap foldChar
      if name.any isRefusedInName then .error .invalidName
      else if name.isEmpty then .error .emptyHost
      else if endsInNumber name then
        match v4? name with
        | some number => .ok (.v4 number)
        | none => .error .invalidV4
      else .ok (.name (.ofList name))

def Host.parse : List Char → Except AddressFault Host
  | '[' :: cs => bracketed cs
  | cs => ofName cs

def isRefusedInPlainHost (c : Char) : Bool :=
  c == '\x00' || c == ' ' || "#/:<>?@[\\]^|".toList.contains c

def Host.parsePlain : List Char → Except AddressFault Host
  | '[' :: cs => bracketed cs
  | cs =>
      if cs.any isRefusedInPlainHost then .error .invalidCharacter
      else if cs.isEmpty then .error .emptyHost
      else .ok (.name (.ofList (encode [] cs)))

/-! ### The text of a host -/

def dotted (number : Nat) : String :=
  ".".intercalate ([16777216, 65536, 256, 1].map fun unit => toString (number / unit % 256))

def zerosAt (pieces : List Nat) : Nat :=
  (pieces.takeWhile (· == 0)).length

def longestZeros (pieces : List Nat) : Nat × Nat :=
  (List.range pieces.length).foldl
    (fun best start =>
      let run := zerosAt (pieces.drop start)
      if best.2 < run then (start, run) else best)
    (0, 0)

def colonJoined (pieces : List Nat) : String :=
  ":".intercalate (pieces.map fun piece => .ofList (Nat.toDigits 16 piece))

def piecesText (pieces : List Nat) : String :=
  let (start, run) := longestZeros pieces
  if run < 2 then colonJoined pieces
  else colonJoined (pieces.take start) ++ "::" ++ colonJoined (pieces.drop (start + run))

def Host.text : Host → String
  | .v4 number => dotted number
  | .v6 pieces => "[" ++ piecesText pieces ++ "]"
  | .name text => text

end LivePreview.Address
