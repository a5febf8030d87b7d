import LivePreview.Text.Visible
import LivePreview.Json.Printer

namespace LivePreview.Json

inductive Malformed where
  | endInValue
  | endInString
  | endInList
  | endInObject
  | expectedValue
  | expectedLiteral
  | expectedColon
  | expectedCommaOrBracket
  | expectedCommaOrBrace
  | expectedKey
  | invalidNumber
  | numberOutOfRange
  | invalidEscape
  | controlCharacter
  | loneSurrogate
  | unfinishedSurrogate
  | trailingComma
  | trailingCharacters
  | tooDeep
  deriving DecidableEq, Repr

def Malformed.message : Malformed → String
  | .endInValue => "EOF while parsing a value"
  | .endInString => "EOF while parsing a string"
  | .endInList => "EOF while parsing a list"
  | .endInObject => "EOF while parsing an object"
  | .expectedValue => "expected value"
  | .expectedLiteral => "expected ident"
  | .expectedColon => "expected \x60:\x60"
  | .expectedCommaOrBracket => "expected \x60,\x60 or \x60]\x60"
  | .expectedCommaOrBrace => "expected \x60,\x60 or \x60\x7d\x60"
  | .expectedKey => "key must be a string"
  | .invalidNumber => "invalid number"
  | .numberOutOfRange => "number out of range"
  | .invalidEscape => "invalid escape"
  | .controlCharacter => "control character (\\u0000-\\u001F) found while parsing a string"
  | .loneSurrogate => "lone leading surrogate in hex escape"
  | .unfinishedSurrogate => "unexpected end of hex escape"
  | .trailingComma => "trailing comma"
  | .trailingCharacters => "trailing characters"
  | .tooDeep => "recursion limit exceeded"

inductive Found where
  | null
  | bool (b : Bool)
  | int (n : Int)
  | float (x : Float)
  | str (s : String)
  | sequence
  | map

def code (s : String) : String :=
  "\x60" ++ s ++ "\x60"

def Found.text : Found → String
  | .null => "null"
  | .bool b => "boolean " ++ code (if b then "true" else "false")
  | .int n => "integer " ++ code (.ofList (writeInt n))
  | .float x => "floating point " ++ code (.ofList (writeFloat x))
  | .str s => "string " ++ Text.quoteVisibly s
  | .sequence => "sequence"
  | .map => "map"

def Found.ofJson : Json → Found
  | .null => .null
  | .bool b => .bool b
  | .int n => .int n.val
  | .float x => .float x
  | .str s => .str s
  | .arr _ => .sequence
  | .obj _ => .map

inductive Mismatch where
  | wrongType (found : Found) (expected : String)
  | wrongValue (found : Found) (expected : String)
  | wrongLength (length : Nat) (expected : String)
  | missingField (name : String)
  | duplicateField (name : String)
  | unknownVariant (name : String) (known : List String)

def alternatives (names : List String) : String :=
  ", ".intercalate (names.map code)

def Mismatch.message : Mismatch → String
  | .wrongType found expected => "invalid type: " ++ found.text ++ ", expected " ++ expected
  | .wrongValue found expected => "invalid value: " ++ found.text ++ ", expected " ++ expected
  | .wrongLength length expected =>
      "invalid length " ++ toString length ++ ", expected " ++ expected
  | .missingField name => "missing field " ++ code name
  | .duplicateField name => "duplicate field " ++ code name
  | .unknownVariant name known =>
      "unknown variant " ++ code name ++ ", expected one of " ++ alternatives known

inductive Cause where
  | malformed (m : Malformed)
  | mismatch (m : Mismatch)

def Cause.message : Cause → String
  | .malformed m => m.message
  | .mismatch m => m.message

/-- A cause with its place: `read` bytes into the text `rest`. -/
structure Fault where
  cause : Cause
  rest : List Char
  read : Nat

def Fault.malformed (m : Malformed) (rest : List Char) (read : Nat) : Fault :=
  ⟨.malformed m, rest, read⟩

def Fault.mismatch (m : Mismatch) (rest : List Char) : Fault :=
  ⟨.mismatch m, rest, 0⟩

def Fault.bytesBefore (fault : Fault) (text : List Char) : List UInt8 :=
  let before := text.take (text.length - fault.rest.length)
  (String.ofList before).toUTF8.data.toList
    ++ ((String.ofList fault.rest).toUTF8.data.toList.take fault.read)

def Fault.lineAndColumn (fault : Fault) (text : List Char) : Nat × Nat :=
  let bytes := fault.bytesBefore text
  (bytes.count 10 + 1, (bytes.reverse.takeWhile (· != 10)).length)

def Fault.located (fault : Fault) (text : List Char) : String :=
  let place := fault.lineAndColumn text
  fault.cause.message ++ " at line " ++ toString place.1 ++ " column " ++ toString place.2

end LivePreview.Json
