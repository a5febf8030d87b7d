namespace LivePreview.Text

namespace Fingerprint

def basis : UInt64 := 0xcbf29ce484222325

def multiplier : UInt64 := 0x100000001b3

def step (hash : UInt64) (byte : UInt8) : UInt64 :=
  (hash ^^^ byte.toUInt64) * multiplier

def ofBytes (bytes : List UInt8) : UInt64 :=
  bytes.foldl step basis

end Fingerprint

def fingerprint (text : String) : UInt64 :=
  Fingerprint.ofBytes text.toUTF8.data.toList

def hexDigits (n : UInt64) : String :=
  let digits := Nat.toDigits 16 n.toNat
  .ofList (List.replicate (16 - digits.length) '0' ++ digits)

end LivePreview.Text
