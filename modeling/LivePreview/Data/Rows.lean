import LivePreview.Json.Reader
import LivePreview.Decimal.Reader

/-!
What the data API answers: rows, a message of its own, or something of another shape. Rows can be
held to a least quantity, which is read loosely: a number, the text of one, a truth value, or
nothing at all for zero.
-/

namespace LivePreview

inductive DataFailure where
  | api (message : String)
  | transport (message : String)
  | decode (message : String)
  | unexpectedShape
  deriving DecidableEq, Repr

def DataFailure.message : DataFailure → String
  | .api message => message
  | .transport message => message
  | .decode message => "invalid JSON response: " ++ message
  | .unexpectedShape => "Unexpected response shape"

abbrev Rows := List Json

def reportedError? (body : Json) : Option String :=
  match (body.get? "message").bind Json.string? with
  | some message => some message
  | none =>
      match body.get? "error" with
      | some (.str message) => some message
      | some error => (error.get? "message").bind Json.string?
      | none => none

def Rows.ofBody : Json → Except DataFailure Rows
  | .arr rows => .ok rows
  | body =>
      match reportedError? body with
      | some message => .error (.api message)
      | none => .error .unexpectedShape

def decodeBody (body : String) : Except DataFailure Json :=
  match Json.parse body with
  | .ok value => .ok value
  | .error fault => .error (.decode (fault.located body.toList))

namespace Quantity

def coerce? : Json → Option Float
  | .int n => some n.toFloat
  | .float x => some x
  | .str s =>
      let text := Text.trim s.toList
      if text.isEmpty then some 0.0 else Decimal.parse? text
  | .bool b => some (if b then 1.0 else 0.0)
  | .null => some 0.0
  | _ => none

def reaches (least : Float) (row : Json) : Bool :=
  match (row.get? "quantity").bind coerce? with
  | some quantity => least ≤ quantity
  | none => false

end Quantity

def Rows.withQuantity (least : Float) (rows : Rows) : Rows :=
  rows.filter (Quantity.reaches least)

end LivePreview
