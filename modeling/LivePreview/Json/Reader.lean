import LivePreview.Json.Fault

namespace LivePreview.Json

abbrev Reader (α : Type) :=
  List Char → Except Fault (α × List Char)

def isSpace (c : Char) : Bool :=
  c == ' ' || c == '\n' || c == '\t' || c == '\r'

def skipSpace (cs : List Char) : List Char :=
  cs.dropWhile isSpace

/-- The fault shows one byte ahead of where reading stands. -/
def malformedAt {α : Type} (m : Malformed) (rest : List Char) : Except Fault α :=
  .error (.malformed m rest 1)

def endOfText {α : Type} (m : Malformed) : Except Fault α :=
  .error (.malformed m [] 0)

def readLiteral : List Char → Reader Unit
  | [], cs => .ok ((), cs)
  | _ :: _, [] => endOfText .endInValue
  | w :: ws, c :: cs => if c = w then readLiteral ws cs else malformedAt .expectedLiteral (c :: cs)

def hexValue? (c : Char) : Option Nat :=
  if '0' ≤ c ∧ c ≤ '9' then some (c.toNat - '0'.toNat)
  else if 'a' ≤ c ∧ c ≤ 'f' then some (c.toNat - 'a'.toNat + 10)
  else if 'A' ≤ c ∧ c ≤ 'F' then some (c.toNat - 'A'.toNat + 10)
  else none

def hexValue (digits : List Char) : Option Nat :=
  digits.foldl (fun n c => return 16 * (← n) + (← hexValue? c)) (some 0)

def readHex (cs : List Char) : Except Fault Nat :=
  if (String.ofList (cs.take 4)).utf8ByteSize < 4 then endOfText .endInString
  else
    match hexValue (cs.take 4) with
    | some n => .ok n
    | none => .error (.malformed .invalidEscape cs 4)

def isLowSurrogate (n : Nat) : Bool :=
  0xDC00 ≤ n && n ≤ 0xDFFF

def isHighSurrogate (n : Nat) : Bool :=
  0xD800 ≤ n && n ≤ 0xDBFF

def joinSurrogates (high low : Nat) : Char :=
  .ofNat ((high - 0xD800) * 0x400 + (low - 0xDC00) + 0x10000)

def readLowSurrogate (cs : List Char) : Except Fault Nat :=
  match cs with
  | [] => endOfText .endInString
  | '\\' :: [] => endOfText .endInString
  | '\\' :: 'u' :: rest => do
      let low ← readHex rest
      if isLowSurrogate low then .ok low else .error (.malformed .loneSurrogate rest 4)
  | '\\' :: rest => malformedAt .unfinishedSurrogate rest
  | rest => malformedAt .unfinishedSurrogate rest

def readEscape (cs : List Char) : Except Fault (Char × Nat) :=
  match cs with
  | [] => endOfText .endInString
  | '"' :: _ => .ok ('"', 1)
  | '\\' :: _ => .ok ('\\', 1)
  | '/' :: _ => .ok ('/', 1)
  | 'b' :: _ => .ok ('\x08', 1)
  | 'f' :: _ => .ok ('\x0c', 1)
  | 'n' :: _ => .ok ('\n', 1)
  | 'r' :: _ => .ok ('\r', 1)
  | 't' :: _ => .ok ('\t', 1)
  | 'u' :: rest => do
      let n ← readHex rest
      if isLowSurrogate n then .error (.malformed .loneSurrogate rest 4)
      else if isHighSurrogate n then
        let low ← readLowSurrogate (rest.drop 4)
        .ok (joinSurrogates n low, 11)
      else .ok (.ofNat n, 5)
  | c :: rest => malformedAt .invalidEscape (c :: rest)

def readString (cs : List Char) : Except Fault (List Char × List Char) :=
  match cs with
  | [] => endOfText .endInString
  | '"' :: rest => .ok ([], rest)
  | '\\' :: rest => do
      let (c, n) ← readEscape rest
      let (s, rest) ← readString (rest.drop n)
      .ok (c :: s, rest)
  | c :: rest =>
      if c.toNat < 0x20 then malformedAt .controlCharacter (c :: rest)
      else do
        let (s, rest) ← readString rest
        .ok (c :: s, rest)
termination_by cs.length

def isDigit (c : Char) : Bool :=
  '0' ≤ c && c ≤ '9'

def digitValue (c : Char) : Nat :=
  c.toNat - '0'.toNat

def maxSignificand : Nat := 0xFFFFFFFFFFFFFFFF

def gather (significand : Nat) : List Char → Nat × List Char
  | [] => (significand, [])
  | d :: ds =>
      let next := significand * 10 + digitValue d
      if maxSignificand < next then (significand, d :: ds) else gather next ds

def tenTo (n : Nat) : Float :=
  .ofScientific 1 false n

def scaleFloat (x : Float) (exponent : Int) : Option Float :=
  if 0 ≤ exponent then
    if exponent ≤ 308 then
      let y := x * tenTo exponent.toNat
      if y.isInf then none else some y
    else if x == 0.0 then some x else none
  else if -308 ≤ exponent then some (x / tenTo (-exponent).toNat)
  else if x == 0.0 then some x
  else scaleFloat (x / tenTo 308) (exponent + 308)
termination_by (-exponent).toNat

def signed (negative : Bool) (x : Float) : Float :=
  if negative then -x else x

def readScaled (negative : Bool) (significand : Nat) (exponent : Int) : Reader Json := fun cs =>
  match scaleFloat significand.toUInt64.toFloat exponent with
  | some x => .ok (.float (signed negative x), cs)
  | none => .error (.malformed .numberOutOfRange cs 0)

def maxExponent : Nat := 0x7FFFFFFF

def clampExponent (n : Int) : Int :=
  max (-0x80000000) (min 0x7FFFFFFF n)

def gatherExponent (n : Nat) : List Char → Option Nat × List Char
  | [] => (some n, [])
  | d :: ds =>
      if isDigit d then
        let next := n * 10 + digitValue d
        if maxExponent < next then (none, ds) else gatherExponent next ds
      else (some n, d :: ds)

def readExponent (negative : Bool) (significand : Nat) (exponent : Int) : Reader Json := fun cs =>
  let down := cs.head? = some '-'
  match if down ∨ cs.head? = some '+' then cs.drop 1 else cs with
  | [] => endOfText .endInValue
  | d :: ds =>
      if isDigit d then
        match gatherExponent (digitValue d) ds with
        | (some n, rest) =>
            let shift : Int := if down then -n else n
            readScaled negative significand (clampExponent (exponent + shift)) rest
        | (none, rest) =>
            if significand ≠ 0 ∧ ¬ down then .error (.malformed .numberOutOfRange rest 0)
            else .ok (.float (signed negative 0.0), rest.dropWhile isDigit)
      else malformedAt .invalidNumber (d :: ds)

def readFloatEnd (negative : Bool) (significand : Nat) (exponent : Int) : Reader Json := fun cs =>
  match cs with
  | 'e' :: rest => readExponent negative significand exponent rest
  | 'E' :: rest => readExponent negative significand exponent rest
  | rest => readScaled negative significand exponent rest

def readFraction (negative : Bool) (significand : Nat) (exponent : Int) : Reader Json := fun cs =>
  match cs with
  | [] => endOfText .endInValue
  | c :: _ =>
      if isDigit c then
        let digits := cs.takeWhile isDigit
        let (significand, dropped) := gather significand digits
        readFloatEnd negative significand (exponent - (digits.length - dropped.length : Nat))
          (cs.dropWhile isDigit)
      else malformedAt .invalidNumber cs

def intOrFloat (negative : Bool) (significand : Nat) : Json :=
  let n : Int := if negative then -significand else significand
  if negative ∧ significand = 0 then .float (-0.0)
  else
    match JsonInt.ofInt? n with
    | some n => .int n
    | none => .float (signed negative significand.toUInt64.toFloat)

def readNumber (negative : Bool) : Reader Json := fun cs =>
  match cs with
  | [] => endOfText .endInValue
  | c :: _ =>
      if isDigit c then
        let digits := cs.takeWhile isDigit
        let rest := cs.dropWhile isDigit
        if c = '0' ∧ 1 < digits.length then malformedAt .invalidNumber (cs.drop 1)
        else
          let (significand, dropped) := gather 0 digits
          match rest with
          | '.' :: fraction => readFraction negative significand dropped.length fraction
          | 'e' :: _ => readFloatEnd negative significand dropped.length rest
          | 'E' :: _ => readFloatEnd negative significand dropped.length rest
          | _ =>
              if dropped.isEmpty then .ok (intOrFloat negative significand, rest)
              else readScaled negative significand dropped.length rest
      else malformedAt .invalidNumber cs

def readMore {α : Type} (item : Reader α) : Nat → Reader (List α)
  | 0, _ => endOfText .endInList
  | fuel + 1, cs =>
      match skipSpace cs with
      | [] => endOfText .endInList
      | ']' :: rest => .ok ([], rest)
      | ',' :: rest =>
          match skipSpace rest with
          | [] => endOfText .endInValue
          | ']' :: after => malformedAt .trailingComma (']' :: after)
          | next => do
              let (x, rest) ← item next
              let (xs, rest) ← readMore item fuel rest
              .ok (x :: xs, rest)
      | rest => malformedAt .expectedCommaOrBracket rest

def readList {α : Type} (item : Reader α) : Reader (List α) := fun cs =>
  match skipSpace cs with
  | [] => endOfText .endInList
  | ']' :: rest => .ok ([], rest)
  | next => do
      let (x, rest) ← item next
      let (xs, rest) ← readMore item rest.length rest
      .ok (x :: xs, rest)

def readColon : Reader Unit := fun cs =>
  match skipSpace cs with
  | [] => endOfText .endInObject
  | ':' :: rest => .ok ((), rest)
  | rest => malformedAt .expectedColon rest

def readField {α : Type} (value : Reader α) : Reader (String × α) := fun cs => do
  let (name, rest) ← readString cs
  let (_, rest) ← readColon rest
  let (x, rest) ← value rest
  .ok ((.ofList name, x), rest)

def readMoreFields {α : Type} (field : Reader α) : Nat → Reader (List α)
  | 0, _ => endOfText .endInObject
  | fuel + 1, cs =>
      match skipSpace cs with
      | [] => endOfText .endInObject
      | '\x7d' :: rest => .ok ([], rest)
      | ',' :: rest =>
          match skipSpace rest with
          | [] => endOfText .endInValue
          | '"' :: next => do
              let (x, rest) ← field next
              let (xs, rest) ← readMoreFields field fuel rest
              .ok (x :: xs, rest)
          | '\x7d' :: after => malformedAt .trailingComma ('\x7d' :: after)
          | rest => malformedAt .expectedKey rest
      | rest => malformedAt .expectedCommaOrBrace rest

def readFields {α : Type} (field : Reader α) : Reader (List α) := fun cs =>
  match skipSpace cs with
  | [] => endOfText .endInObject
  | '\x7d' :: rest => .ok ([], rest)
  | '"' :: next => do
      let (x, rest) ← field next
      let (xs, rest) ← readMoreFields field rest.length rest
      .ok (x :: xs, rest)
  | rest => malformedAt .expectedKey rest

def readValue : Nat → Reader Json
  | depth, cs =>
      match skipSpace cs with
      | [] => endOfText .endInValue
      | 'n' :: rest => do
          let (_, rest) ← readLiteral ['u', 'l', 'l'] rest
          .ok (.null, rest)
      | 't' :: rest => do
          let (_, rest) ← readLiteral ['r', 'u', 'e'] rest
          .ok (.bool true, rest)
      | 'f' :: rest => do
          let (_, rest) ← readLiteral ['a', 'l', 's', 'e'] rest
          .ok (.bool false, rest)
      | '-' :: rest => readNumber true rest
      | '"' :: rest => do
          let (s, rest) ← readString rest
          .ok (.str (.ofList s), rest)
      | '[' :: rest =>
          match depth with
          | 0 => malformedAt .tooDeep ('[' :: rest)
          | depth + 1 => do
              let (items, rest) ← readList (readValue depth) rest
              .ok (.arr items, rest)
      | '\x7b' :: rest =>
          match depth with
          | 0 => malformedAt .tooDeep ('\x7b' :: rest)
          | depth + 1 => do
              let (fields, rest) ← readFields (readField (readValue depth)) rest
              .ok (ofFields fields, rest)
      | c :: rest =>
          if isDigit c then readNumber false (c :: rest)
          else malformedAt .expectedValue (c :: rest)

def readAll {α : Type} (reader : Reader α) (text : List Char) : Except Fault α := do
  let (x, rest) ← reader text
  match skipSpace rest with
  | [] => .ok x
  | rest => malformedAt .trailingCharacters rest

def maxDepth : Nat := 127

def parse (text : String) : Except Fault Json :=
  readAll (readValue maxDepth) text.toList

end LivePreview.Json
