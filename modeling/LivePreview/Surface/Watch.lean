import LivePreview.Text.Parts
import LivePreview.Surface.Registry

/-!
Watching a file. A file that cannot be read changes nothing; when the surface cannot take the source
any more, watching stops for good.
-/

namespace LivePreview.Surface

def defaultSurface : String := "default"

structure Watch where
  path : String
  active : Bool := true
  deriving DecidableEq, Repr

namespace Watch

def steps (path : String) : List (List Char) :=
  match Text.splitWhere (· == '/') path.toList with
  | ['.'] :: rest => ['.'] :: rest.filter isStep
  | parts => parts.filter isStep
where
  isStep (part : List Char) : Bool :=
    !part.isEmpty && part != ['.']

def fileName (path : String) : Option String :=
  match (steps path).getLast? with
  | none => none
  | some step => if step = ['.'] ∨ step = ['.', '.'] then none else some (.ofList step)

def folder (path : String) : String :=
  let steps := steps path
  let above := "/".intercalate (steps.dropLast.map .ofList)
  if !steps.isEmpty && path.startsWith "/" then "/" ++ above
  else if above.isEmpty then "."
  else above

def feed (watch : Watch) (text : Option String) (registry : Registry) : Watch × Registry :=
  match text with
  | none => (watch, registry)
  | some text =>
      match registry.send defaultSurface (.update ⟨watch.path, text⟩ none) with
      | .ok registry => (watch, registry)
      | .error _ => ({ watch with active := false }, registry)

def notice (watch : Watch) (text : Option String) (registry : Registry) : Watch × Registry :=
  if watch.active then watch.feed text registry else (watch, registry)

end Watch

structure Obstacles where
  cannotWatch : Bool := false
  cannotBind : Bool := false
  deriving DecidableEq, Repr

def localAddress (port : UInt16) : String :=
  "127.0.0.1:" ++ toString port.toNat

def serve (registry : Registry) (port : UInt16) (watched : Option String) (obstacles : Obstacles)
    (reason : Option String) : Except SurfaceError Registry := do
  let registry ←
    match watched with
    | none => .ok registry
    | some path => do
        let (_, registry) ← registry.openSurface defaultSurface
        if obstacles.cannotWatch then .error (.cannotWatch path reason) else .ok registry
  if obstacles.cannotBind then .error (.cannotBind (localAddress port) reason) else .ok registry

end LivePreview.Surface
