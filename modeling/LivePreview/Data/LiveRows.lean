import LivePreview.Data.Rows

namespace LivePreview

structure LiveRows where
  data : Rows := []
  loading : Bool := true
  error : Option String := none

namespace LiveRows

def apply (state : LiveRows) : Except DataFailure Rows → LiveRows
  | .ok rows => ⟨rows, false, none⟩
  | .error failure => ⟨state.data, false, some failure.message⟩

def deliveries (state : LiveRows) : List (Except DataFailure Rows) → List LiveRows
  | [] => []
  | outcome :: rest =>
      let next := state.apply outcome
      next :: next.deliveries rest

def line (state : LiveRows) : String :=
  let error := match state.error with
    | some message => Json.quote message
    | none => "null".toList
  .ofList ("\x7b\"data\":".toList ++ (Json.arr state.data).write ++ ",\"loading\":".toList
    ++ (Json.bool state.loading).write ++ ",\"error\":".toList ++ error ++ "\x7d".toList)

end LiveRows

end LivePreview
