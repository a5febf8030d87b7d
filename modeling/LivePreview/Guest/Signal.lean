import LivePreview.Guest.Engine
import LivePreview.Json.Shape

namespace LivePreview

inductive Signal where
  | loaded
  | loadFailed (error : String)
  | mountFailed (error : String)
  | bridge (channel : String) (payload : Json)

structure GuestReport where
  generation : Generation
  signal : Signal

inductive SignalKind where
  | loaded
  | loadFailed
  | mountFailed
  | bridge
  deriving DecidableEq, Repr

namespace SignalKind

def all : List SignalKind :=
  [.loaded, .loadFailed, .mountFailed, .bridge]

def text : SignalKind → String
  | .loaded => "loaded"
  | .loadFailed => "load-failed"
  | .mountFailed => "mount-failed"
  | .bridge => "bridge"

def ofJson : Json → Except Json.Mismatch SignalKind
  | .str name =>
      match all.find? fun kind => kind.text == name with
      | some kind => .ok kind
      | none => .error (.unknownVariant name (all.map text))
  | .int n =>
      if n.val < 0 then .error (.wrongType (.int n.val) "variant identifier")
      else
        match all[n.val.toNat]? with
        | some kind => .ok kind
        | none => .error (.wrongValue (.int n.val) "variant index 0 <= i < 4")
  | value => .error (.wrongType (.ofJson value) "variant identifier")

end SignalKind

namespace GuestReport

open Json (Fault Mismatch)

structure Entries where
  generation : Option Generation := none
  others : List (String × Json) := []

/-- Brackets inside an event nest one less deep than in a value of its own. -/
def entryDepth : Nat := Json.maxDepth - 1

def readEntry (entries : Entries) (cs : List Char) : Except Fault (Entries × List Char) := do
  let (name, rest) ← Json.readString cs
  let name := String.ofList name
  if name = "generation" then
    if entries.generation.isSome then Json.mismatch (.duplicateField name) rest
    else do
      let (_, rest) ← Json.readColon rest
      let (generation, rest) ← Json.readWord rest
      .ok ({ entries with generation := some generation }, rest)
  else do
    let (_, rest) ← Json.readColon rest
    let (value, rest) ← Json.readValue entryDepth rest
    .ok ({ entries with others := entries.others ++ [(name, value)] }, rest)

def readMoreEntries : Nat → Entries → List Char → Except Fault (Entries × List Char)
  | 0, _, _ => Json.endOfText .endInObject
  | fuel + 1, entries, cs =>
      match Json.skipSpace cs with
      | [] => Json.endOfText .endInObject
      | '\x7d' :: rest => .ok (entries, rest)
      | ',' :: rest =>
          match Json.skipSpace rest with
          | [] => Json.endOfText .endInValue
          | '"' :: next => do
              let (entries, rest) ← readEntry entries next
              readMoreEntries fuel entries rest
          | '\x7d' :: after => Json.malformedAt .trailingComma ('\x7d' :: after)
          | rest => Json.malformedAt .expectedKey rest
      | rest => Json.malformedAt .expectedCommaOrBrace rest

def readEntries (cs : List Char) : Except Fault (Entries × List Char) :=
  match Json.skipSpace cs with
  | [] => Json.endOfText .endInObject
  | '\x7d' :: rest => .ok ({}, rest)
  | '"' :: next => do
      let (entries, rest) ← readEntry {} next
      readMoreEntries rest.length entries rest
  | rest => Json.malformedAt .expectedKey rest

def kindOf (found : Option SignalKind) : List (String × Json) → Except Mismatch SignalKind
  | [] =>
      match found with
      | some kind => .ok kind
      | none => .error (.missingField "kind")
  | (name, value) :: rest =>
      if name = "kind" then
        match found with
        | some _ => .error (.duplicateField "kind")
        | none => do
            let kind ← SignalKind.ofJson value
            kindOf (some kind) rest
      else kindOf found rest

def textOf (value : Json) : Except Mismatch String :=
  match value with
  | .str s => .ok s
  | value => .error (.wrongType (.ofJson value) "a string")

def errorOf (found : Option String) : List (String × Json) → Except Mismatch String
  | [] => .ok (found.getD "")
  | (name, value) :: rest =>
      if name = "error" then
        match found with
        | some _ => .error (.duplicateField "error")
        | none => do
            let error ← textOf value
            errorOf (some error) rest
      else errorOf found rest

def bridgeOf (channel : Option String) (payload : Option Json) :
    List (String × Json) → Except Mismatch Signal
  | [] =>
      match channel with
      | some channel => .ok (.bridge channel (payload.getD .null))
      | none => .error (.missingField "channel")
  | (name, value) :: rest =>
      if name = "channel" then
        match channel with
        | some _ => .error (.duplicateField "channel")
        | none => do
            let channel ← textOf value
            bridgeOf (some channel) payload rest
      else if name = "payload" then
        match payload with
        | some _ => .error (.duplicateField "payload")
        | none => bridgeOf channel (some value) rest
      else bridgeOf channel payload rest

def signalOf (entries : List (String × Json)) : Except Mismatch Signal := do
  match ← kindOf none entries with
  | .loaded => .ok .loaded
  | .loadFailed => return .loadFailed (← errorOf none entries)
  | .mountFailed => return .mountFailed (← errorOf none entries)
  | .bridge => bridgeOf none none entries

def ofEntries (entries : Entries) : Except Mismatch GuestReport :=
  match entries.generation with
  | none => .error (.missingField "generation")
  | some generation => do
      let signal ← signalOf entries.others
      .ok ⟨generation, signal⟩

def read : Json.Reader GuestReport := fun cs =>
  match Json.skipSpace cs with
  | [] => Json.endOfText .endInValue
  | '\x7b' :: rest => do
      let (entries, rest) ← readEntries rest
      match ofEntries entries with
      | .ok event => .ok (event, rest)
      | .error m => Json.mismatch m rest
  | rest => Json.wrongType "struct GuestEvent" rest

def parse (text : String) : Except Fault GuestReport :=
  Json.readAll read text.toList

end GuestReport

end LivePreview
