import LivePreview.Guest.Engine

namespace LivePreview

inductive ErrorKind where
  | notFound
  | badRequest
  | conflict
  | internal
  deriving DecidableEq, Repr

namespace ErrorKind

def status : ErrorKind → Nat
  | .notFound => 404
  | .badRequest => 400
  | .conflict => 409
  | .internal => 500

def title : ErrorKind → String
  | .notFound => "not found"
  | .badRequest => "bad request"
  | .conflict => "conflict"
  | .internal => "internal"

end ErrorKind

structure SurfaceError where
  kind : ErrorKind
  message : String
  deriving DecidableEq, Repr

namespace SurfaceError

def text (error : SurfaceError) : String :=
  error.kind.title ++ ": " ++ error.message

def body (error : SurfaceError) : Json :=
  .ofFields [("error", .str error.message)]

def sessionName (id : String) : String :=
  "session '" ++ id ++ "'"

def invalidId (id : String) : SurfaceError :=
  ⟨.badRequest, "invalid session id '" ++ id ++ "'"⟩

def alreadyOpen (id : String) : SurfaceError :=
  ⟨.conflict, sessionName id ++ " already open"⟩

def unknownSession (id : String) : SurfaceError :=
  ⟨.notFound, sessionName id⟩

def sessionClosed (id : String) : SurfaceError :=
  ⟨.notFound, sessionName id ++ " closed"⟩

def unknownDocument (id : String) (generation : Generation) : SurfaceError :=
  ⟨.notFound, "document " ++ toString generation.toNat ++ " of " ++ sessionName id⟩

def ofGuest : GuestFailure → SurfaceError
  | .closed => ⟨.notFound, GuestFailure.closed.message⟩
  | .engine message => ⟨.internal, message⟩

def because (attempt : String) (reason : Option String) : SurfaceError :=
  ⟨.internal, attempt ++ reason.elim "" (": " ++ ·)⟩

def cannotWatch (path : String) (reason : Option String) : SurfaceError :=
  because ("watch " ++ path) reason

def cannotBind (address : String) (reason : Option String) : SurfaceError :=
  because ("bind " ++ address) reason

end SurfaceError

end LivePreview
