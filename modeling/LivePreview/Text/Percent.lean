namespace LivePreview.Text

namespace Percent

def isPlain (byte : UInt8) : Bool :=
  let c := Char.ofNat byte.toNat
  byte < 0x80 && (c.isAlphanum || c == '-' || c == '_' || c == '.' || c == '~')

def hexDigit (n : Nat) : Char :=
  (Nat.digitChar n).toUpper

def escape (byte : UInt8) : List Char :=
  ['%', hexDigit (byte.toNat / 16), hexDigit (byte.toNat % 16)]

def encodeByte (byte : UInt8) : List Char :=
  if isPlain byte then [.ofNat byte.toNat] else escape byte

def bytes (s : String) : List UInt8 :=
  s.toUTF8.data.toList

def encode (s : String) : String :=
  .ofList ((bytes s).flatMap encodeByte)

def hexValue? (c : Char) : Option Nat :=
  if '0' ≤ c ∧ c ≤ '9' then some (c.toNat - '0'.toNat)
  else if 'A' ≤ c ∧ c ≤ 'F' then some (c.toNat - 'A'.toNat + 10)
  else if 'a' ≤ c ∧ c ≤ 'f' then some (c.toNat - 'a'.toNat + 10)
  else none

def escaped? : List Char → Option UInt8
  | a :: b :: _ => do return .ofNat (16 * (← hexValue? a) + (← hexValue? b))
  | _ => none

def decodeBytes : List Char → List UInt8
  | [] => []
  | '%' :: cs =>
      match escaped? cs with
      | some byte => byte :: decodeBytes (cs.drop 2)
      | none => bytes "%" ++ decodeBytes cs
  | c :: cs => bytes (String.singleton c) ++ decodeBytes cs
termination_by cs => cs.length

def decode? (s : String) : Option String :=
  String.fromUTF8? ⟨(decodeBytes s.toList).toArray⟩

end Percent

end LivePreview.Text
