/-!
Reading the words of a command. A value follows its option as the next word or behind an equals
sign; it may start with a dash only there. A value behind an equals sign is checked at once, one
that is a word of its own when the reading goes on.
-/

namespace LivePreview.CommandLine

inductive ValueKind where
  | any
  | path
  | number (greatest : Nat)
  deriving DecidableEq, Repr

def natUpTo? (greatest : Nat) (value : String) : Option Nat :=
  let cs := value.toList
  let negative := cs.head? == some '-'
  let digits := if negative || cs.head? == some '+' then cs.drop 1 else cs
  if digits.isEmpty || !digits.all Char.isDigit then none
  else
    let n := digits.foldl (fun n d => 10 * n + (d.toNat - '0'.toNat)) 0
    if (negative && n != 0) || greatest < n then none else some n

def ValueKind.accepts (value : String) : ValueKind → Bool
  | .any => true
  | .path => !value.isEmpty
  | .number greatest => (natUpTo? greatest value).isSome

structure OptionSpec where
  long : String
  short : Option Char := none
  kind : Option ValueKind := some .any
  deriving DecidableEq, Repr

structure Subject where
  name : String
  kind : ValueKind
  deriving DecidableEq, Repr

inductive Misuse where
  | unknownOption (word : String)
  | missingValue (option : String)
  | repeatedOption (option : String)
  | uselessValue (option : String)
  | invalidValue (option value : String)
  | unknownCommand (word : String)
  | missingCommand
  | missingWord (name : String)
  | extraWord (word : String)
  deriving DecidableEq, Repr

def Misuse.message : Misuse → String
  | .unknownOption word => "unexpected argument '" ++ word ++ "' found"
  | .missingValue option => "a value is required for '--" ++ option ++ "' but none was supplied"
  | .repeatedOption option => "the argument '--" ++ option ++ "' cannot be used multiple times"
  | .uselessValue option => "unexpected value for '--" ++ option ++ "' found; no more were expected"
  | .invalidValue option value => "invalid value '" ++ value ++ "' for '" ++ option ++ "'"
  | .unknownCommand word => "unrecognized subcommand '" ++ word ++ "'"
  | .missingCommand => "a subcommand is required but one was not provided"
  | .missingWord name =>
      "the following required arguments were not provided: <" ++ name ++ ">"
  | .extraWord word => "unexpected argument '" ++ word ++ "' found"

structure Entry where
  name : String
  kind : ValueKind
  value : String
  deriving DecidableEq, Repr

structure Words where
  values : List (String × String) := []
  pending : Option Entry := none
  help : Bool := false
  deriving DecidableEq, Repr

namespace Words

def value? (words : Words) (name : String) : Option String :=
  (words.values.find? fun entry => entry.1 == name).map (·.2)

def has (words : Words) (name : String) : Bool :=
  (words.value? name).isSome || words.pending.any fun entry => entry.name == name

def number? (words : Words) (name : String) (greatest : Nat) : Option Nat :=
  (words.value? name).bind (natUpTo? greatest)

def add (words : Words) (entry : Entry) : Except Misuse Words :=
  if (words.value? entry.name).isSome then .error (.repeatedOption entry.name)
  else if entry.kind.accepts entry.value then
    .ok { words with values := words.values ++ [(entry.name, entry.value)] }
  else .error (.invalidValue entry.name entry.value)

def settle (words : Words) : Except Misuse Words :=
  match words.pending with
  | none => .ok words
  | some entry => { words with pending := none }.add entry

def addNow (words : Words) (entry : Entry) : Except Misuse Words := do
  (← words.settle).add entry

def addLater (words : Words) (entry : Entry) : Except Misuse Words := do
  .ok { ← words.settle with pending := some entry }

end Words

inductive Word where
  | long (name : String) (value : Option String)
  | short (name : Char) (value : Option String)
  | rest
  | plain (word : String)
  deriving DecidableEq, Repr

def longWord (cs : List Char) : Word :=
  match cs.dropWhile (· != '=') with
  | [] => .long (.ofList cs) none
  | _ :: value => .long (.ofList (cs.takeWhile (· != '='))) (some (.ofList value))

def attached (cs : List Char) : Option String :=
  match cs with
  | [] => none
  | '=' :: value => some (.ofList value)
  | value => some (.ofList value)

def Word.ofString (word : String) : Word :=
  match word.toList with
  | ['-', '-'] => .rest
  | '-' :: '-' :: cs => longWord cs
  | '-' :: c :: cs => .short c (attached cs)
  | _ => .plain word

def isValueWord (word : String) : Bool :=
  match Word.ofString word with
  | .plain _ => true
  | _ => false

def readOption (spec : OptionSpec) (value : Option String) (words : Words) (next : List String) :
    Except Misuse (Words × List String) :=
  match spec.kind, value, next with
  | none, none, next => do return (← words.addNow ⟨spec.long, .any, ""⟩, next)
  | none, some _, _ => .error (.uselessValue spec.long)
  | some kind, some value, next => do return (← words.addNow ⟨spec.long, kind, value⟩, next)
  | some kind, none, word :: next =>
      if isValueWord word then do return (← words.addLater ⟨spec.long, kind, word⟩, next)
      else .error (.missingValue spec.long)
  | some _, none, [] => .error (.missingValue spec.long)

def isHelp : Word → Bool
  | .long name none => name == "help"
  | .short name _ => name == 'h'
  | _ => false

def findOption (specs : List OptionSpec) : Word → Option (OptionSpec × Option String)
  | .long name value => (specs.find? fun spec => spec.long == name).map (·, value)
  | .short name value => (specs.find? fun spec => spec.short == some name).map (·, value)
  | _ => none

def readPlain (subject : Option Subject) (words : Words) (word : String) : Except Misuse Words :=
  match subject with
  | none => .error (.extraWord word)
  | some subject =>
      if words.has subject.name then .error (.extraWord word)
      else words.addLater ⟨subject.name, subject.kind, word⟩

def readWords (specs : List OptionSpec) (subject : Option Subject) :
    Nat → Words → List String → Except Misuse Words
  | 0, words, _ => words.settle
  | _ + 1, words, [] => words.settle
  | fuel + 1, words, word :: next => do
      let read := Word.ofString word
      if isHelp read then return { ← words.settle with help := true }
      match read with
      | .rest => (← next.foldlM (readPlain subject) words).settle
      | .plain text => readWords specs subject fuel (← readPlain subject words text) next
      | option =>
          match findOption specs option with
          | none => .error (.unknownOption word)
          | some (spec, value) =>
              let (words, next) ← readOption spec value words next
              readWords specs subject fuel words next

def readOptions (specs : List OptionSpec) :
    Nat → Words → List String → Except Misuse (Words × List String)
  | 0, words, left => .ok (words, left)
  | _ + 1, words, [] => .ok (words, [])
  | fuel + 1, words, word :: next => do
      let read := Word.ofString word
      if isHelp read then return ({ ← words.settle with help := true }, [])
      match read with
      | .rest => return (← next.foldlM (readPlain none) words, [])
      | .plain _ => return (words, word :: next)
      | option =>
          match findOption specs option with
          | none => .error (.unknownOption word)
          | some (spec, value) =>
              let (words, next) ← readOption spec value words next
              readOptions specs fuel words next

end LivePreview.CommandLine
