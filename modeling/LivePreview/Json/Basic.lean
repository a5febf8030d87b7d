/-!
JSON values. An integer is kept exactly when it fits 64 bits, with or without a sign; every other
number is a floating-point number. An object lists its fields in ascending order of their names,
each name once.
-/

namespace LivePreview

namespace JsonInt

def least : Int := -0x8000000000000000

def greatest : Int := 0xFFFFFFFFFFFFFFFF

end JsonInt

structure JsonInt where
  val : Int
  least_le : JsonInt.least ≤ val
  le_greatest : val ≤ JsonInt.greatest
  deriving DecidableEq

namespace JsonInt

theorem least_le_natCast (n : Nat) : least ≤ n := by
  simp only [least]
  omega

theorem toNat_le_greatest (n : UInt64) : (n.toNat : Int) ≤ greatest := by
  have := n.toNat_lt
  simp only [greatest]
  omega

def ofUInt64 (n : UInt64) : JsonInt :=
  ⟨n.toNat, least_le_natCast _, toNat_le_greatest n⟩

def ofInt? (n : Int) : Option JsonInt :=
  if h : least ≤ n ∧ n ≤ greatest then some ⟨n, h.1, h.2⟩ else none

def toUInt64? (n : JsonInt) : Option UInt64 :=
  if 0 ≤ n.val then some (.ofNat n.val.toNat) else none

def toFloat (n : JsonInt) : Float :=
  if 0 ≤ n.val then n.val.toNat.toUInt64.toFloat else -(-n.val).toNat.toUInt64.toFloat

end JsonInt

inductive Json where
  | null
  | bool (b : Bool)
  | int (n : JsonInt)
  | float (x : Float)
  | str (s : String)
  | arr (items : List Json)
  | obj (fields : List (String × Json))

namespace Json

instance : Inhabited Json := ⟨.null⟩

instance : Coe String Json := ⟨.str⟩

def ofUInt64 (n : UInt64) : Json :=
  .int (.ofUInt64 n)

def ofOption : Option String → Json
  | some s => .str s
  | none => .null

def insertField (name : String) (value : Json) : List (String × Json) → List (String × Json)
  | [] => [(name, value)]
  | field :: fields =>
      if name < field.1 then (name, value) :: field :: fields
      else if name = field.1 then (name, value) :: fields
      else field :: insertField name value fields

def ofFields (fields : List (String × Json)) : Json :=
  .obj (fields.foldl (fun sorted field => insertField field.1 field.2 sorted) [])

def get? (name : String) : Json → Option Json
  | .obj fields => (fields.find? fun field => field.1 == name).map (·.2)
  | _ => none

def string? : Json → Option String
  | .str s => some s
  | _ => none

end Json

end LivePreview
