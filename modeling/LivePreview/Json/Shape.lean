import LivePreview.Json.Reader

/-!
Readers of values of a given shape. The first fault in the text counts, so a value is checked while
it is read. A record is an object, in which unknown fields are passed over, or the list of its
fields in order.
-/

namespace LivePreview.Json

def mismatch {α : Type} (m : Mismatch) (rest : List Char) : Except Fault α :=
  .error (.mismatch m rest)

def readFound (cs : List Char) : Except Fault Found :=
  match cs with
  | '[' :: _ => .ok .sequence
  | '\x7b' :: _ => .ok .map
  | _ => do
      let (value, _) ← readValue 0 cs
      .ok (.ofJson value)

def wrongType {α : Type} (expected : String) (cs : List Char) : Except Fault α := do
  let found ← readFound cs
  mismatch (.wrongType found expected) cs

def readText : Reader String := fun cs =>
  match skipSpace cs with
  | [] => endOfText .endInValue
  | '"' :: rest => do
      let (s, rest) ← readString rest
      .ok (.ofList s, rest)
  | rest => wrongType "a string" rest

def startsNumber (cs : List Char) : Bool :=
  match cs with
  | [] => false
  | c :: _ => c == '-' || isDigit c

def readNumberAs {α : Type} (expected : String) (convert : Json → Except Mismatch α) : Reader α :=
  fun cs =>
    match skipSpace cs with
    | [] => endOfText .endInValue
    | next =>
        if startsNumber next then do
          let (value, rest) ← readValue 0 next
          match convert value with
          | .ok x => .ok (x, rest)
          | .error m => mismatch m rest
        else wrongType expected next

def toWord (value : Json) : Except Mismatch UInt64 :=
  match value with
  | .int n =>
      match n.toUInt64? with
      | some word => .ok word
      | none => .error (.wrongValue (.int n.val) "u64")
  | value => .error (.wrongType (.ofJson value) "u64")

def toFloat (value : Json) : Except Mismatch Float :=
  match value with
  | .int n => .ok n.toFloat
  | .float x => .ok x
  | value => .error (.wrongType (.ofJson value) "f64")

def readWord : Reader UInt64 :=
  readNumberAs "u64" toWord

def readFloat : Reader Float :=
  readNumberAs "f64" toFloat

def readOptional {α : Type} (reader : Reader α) : Reader (Option α) := fun cs =>
  match skipSpace cs with
  | 'n' :: rest => do
      let (_, rest) ← readLiteral ['u', 'l', 'l'] rest
      .ok (none, rest)
  | next => do
      let (x, rest) ← reader next
      .ok (some x, rest)

def readListOf {α : Type} (item : Reader α) : Reader (List α) := fun cs =>
  match skipSpace cs with
  | [] => endOfText .endInValue
  | '[' :: rest => readList item rest
  | rest => wrongType "a sequence" rest

def skipString (cs : List Char) : Except Fault (List Char) :=
  match cs with
  | [] => endOfText .endInString
  | '"' :: rest => .ok rest
  | '\\' :: 'u' :: rest => do
      let _ ← readHex rest
      skipString (rest.drop 4)
  | '\\' :: rest => do
      let (_, n) ← readEscape rest
      skipString (rest.drop n)
  | c :: rest =>
      if c.toNat < 0x20 then malformedAt .controlCharacter (c :: rest) else skipString rest
termination_by cs.length

def skipDigits (cs : List Char) : Except Fault (List Char) :=
  match cs with
  | [] => malformedAt .invalidNumber []
  | c :: rest =>
      if isDigit c then .ok (rest.dropWhile isDigit) else malformedAt .invalidNumber (c :: rest)

def skipExponent (cs : List Char) : Except Fault (List Char) :=
  let mark := cs.head?
  if mark = some 'e' ∨ mark = some 'E' then
    let sign := (cs.drop 1).head?
    skipDigits (if sign = some '+' ∨ sign = some '-' then cs.drop 2 else cs.drop 1)
  else .ok cs

def skipNumber (cs : List Char) : Except Fault (List Char) := do
  let digits := if cs.head? = some '-' then cs.drop 1 else cs
  let rest ← skipDigits digits
  if digits.head? = some '0' ∧ rest.length + 1 < digits.length then
    malformedAt .invalidNumber (digits.drop 1)
  else if rest.head? = some '.' then
    let rest ← skipDigits (rest.drop 1)
    skipExponent rest
  else skipExponent rest

def skipField (value : List Char → Except Fault (List Char)) (cs : List Char) :
    Except Fault (Unit × List Char) := do
  let rest ← skipString cs
  let (_, rest) ← readColon rest
  let rest ← value rest
  .ok ((), rest)

def skipValue : Nat → List Char → Except Fault (List Char)
  | depth, cs =>
      match skipSpace cs with
      | [] => endOfText .endInValue
      | '"' :: rest => skipString rest
      | '[' :: rest =>
          match depth with
          | 0 => malformedAt .tooDeep rest
          | depth + 1 => do
              let (_, rest) ← readList (fun cs => do .ok ((), ← skipValue depth cs)) rest
              .ok rest
      | '\x7b' :: rest =>
          match depth with
          | 0 => malformedAt .tooDeep rest
          | depth + 1 => do
              let (_, rest) ← readFields (skipField (skipValue depth)) rest
              .ok rest
      | next =>
          if startsNumber next then skipNumber next
          else do
            let (_, rest) ← readValue 0 next
            .ok rest

def skipAny (cs : List Char) : Except Fault (List Char) :=
  skipValue cs.length cs

structure Slot (σ : Type) where
  name : String
  required : Bool := false
  read : σ → Reader σ

structure Record (σ : Type) where
  name : String
  slots : List (Slot σ)
  start : σ

structure Partial (σ : Type) where
  value : σ
  seen : List String

namespace Record

variable {σ : Type}

def readEntry (record : Record σ) (state : Partial σ) (cs : List Char) :
    Except Fault (Partial σ × List Char) := do
  let (name, rest) ← readString cs
  let name := String.ofList name
  match record.slots.find? fun slot => slot.name == name with
  | none =>
      let (_, rest) ← readColon rest
      let rest ← skipAny rest
      .ok (state, rest)
  | some slot =>
      if state.seen.contains name then mismatch (.duplicateField name) rest
      else do
        let (_, rest) ← readColon rest
        let (value, rest) ← slot.read state.value rest
        .ok (⟨value, name :: state.seen⟩, rest)

def readMoreEntries (record : Record σ) :
    Nat → Partial σ → List Char → Except Fault (Partial σ × List Char)
  | 0, _, _ => endOfText .endInObject
  | fuel + 1, state, cs =>
      match skipSpace cs with
      | [] => endOfText .endInObject
      | '\x7d' :: rest => .ok (state, rest)
      | ',' :: rest =>
          match skipSpace rest with
          | [] => endOfText .endInValue
          | '"' :: next => do
              let (state, rest) ← record.readEntry state next
              record.readMoreEntries fuel state rest
          | '\x7d' :: after => malformedAt .trailingComma ('\x7d' :: after)
          | rest => malformedAt .expectedKey rest
      | rest => malformedAt .expectedCommaOrBrace rest

def readEntries (record : Record σ) (cs : List Char) : Except Fault (Partial σ × List Char) :=
  match skipSpace cs with
  | [] => endOfText .endInObject
  | '\x7d' :: rest => .ok (⟨record.start, []⟩, rest)
  | '"' :: next => do
      let (state, rest) ← record.readEntry ⟨record.start, []⟩ next
      record.readMoreEntries rest.length state rest
  | rest => malformedAt .expectedKey rest

def complete (record : Record σ) (state : Partial σ) (rest : List Char) :
    Except Fault (σ × List Char) :=
  match record.slots.find? fun slot => slot.required && !state.seen.contains slot.name with
  | some slot => mismatch (.missingField slot.name) rest
  | none => .ok (state.value, rest)

def closeList (value : σ) (cs : List Char) : Except Fault (σ × List Char) :=
  match skipSpace cs with
  | [] => endOfText .endInList
  | ']' :: rest => .ok (value, rest)
  | rest => malformedAt .trailingCharacters rest

def describe (record : Record σ) : String :=
  "struct " ++ record.name ++ " with " ++ toString record.slots.length ++ " elements"

def readPositions (record : Record σ) (value : σ) (read : Nat) :
    List (Slot σ) → List Char → Except Fault (σ × List Char)
  | [], cs => closeList value cs
  | slot :: slots, cs =>
      match skipSpace cs with
      | [] => endOfText .endInList
      | ']' :: rest =>
          if slot.required then mismatch (.wrongLength read record.describe) (']' :: rest)
          else .ok (value, rest)
      | next =>
          if read = 0 then do
            let (value, rest) ← slot.read value next
            record.readPositions value (read + 1) slots rest
          else
            match next with
            | ',' :: rest =>
                match skipSpace rest with
                | [] => endOfText .endInValue
                | ']' :: after => malformedAt .trailingComma (']' :: after)
                | next => do
                    let (value, rest) ← slot.read value next
                    record.readPositions value (read + 1) slots rest
            | rest => malformedAt .expectedCommaOrBracket rest

def read (record : Record σ) : Reader σ := fun cs =>
  match skipSpace cs with
  | [] => endOfText .endInValue
  | '\x7b' :: rest => do
      let (state, rest) ← record.readEntries rest
      record.complete state rest
  | '[' :: rest => record.readPositions record.start 0 record.slots rest
  | rest => wrongType ("struct " ++ record.name) rest

end Record

end LivePreview.Json
