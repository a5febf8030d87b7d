import LivePreview.Data.Api
import LivePreview.Data.Query
import LivePreview.Data.Rows
import LivePreview.Address.Basic

namespace LivePreview

structure Request where
  method : String
  address : Address
  headers : List (String × String)
  body : String := ""
  deriving DecidableEq, Repr

def Request.target (request : Request) : String :=
  request.address.target

def isHeaderChar (c : Char) : Bool :=
  c == '\t' || (0x20 ≤ c.toNat && c.toNat < 0x7F)

def badHeader? (headers : List (String × String)) : Option (String × String) :=
  headers.find? fun header => !header.2.toList.all isHeaderChar

def badHeaderMessage (header : String × String) : String :=
  "Bad Header: invalid header '" ++ header.1 ++ ": " ++ header.2 ++ "'"

def unknownSchemeMessage (address : Address) : String :=
  address.text ++ ": Unknown Scheme: unknown scheme '" ++ address.scheme ++ "'"

inductive Reply where
  | received (status : Nat) (body : String)
  | lost (message : String)
  deriving DecidableEq, Repr

def hasNoBody (status : Nat) : Bool :=
  status == 204 || status == 304

structure Client where
  api : DataApi

namespace Client

def ofApi (env : Environment) (api : DataApi) : Client :=
  ⟨api.filled env⟩

def locationUrl (client : Client) : String :=
  trimSlashes client.api.url ++ "/rest/rpc/" ++ Text.Percent.encode client.api.locationRpc

def authorization (client : Client) : List (String × String) :=
  [("apikey", client.api.anonKey), ("Authorization", "Bearer " ++ client.api.bearerToken),
    ("Accept", "application/json")]

def locationBody (location : String) : String :=
  (Json.obj [("location_id", .str location)]).compact

def readReply : Reply → Except DataFailure Json
  | .received status body => decodeBody (if hasNoBody status then "" else body)
  | .lost message => .error (.transport message)

def rowsOf (reply : Reply) : Except DataFailure Rows :=
  readReply reply >>= Rows.ofBody

variable {m : Type → Type} [Monad m]

def send (exchange : Request → m Reply) (method url : String) (headers : List (String × String))
    (body : String) : m Reply :=
  match badHeader? headers, Address.parse url with
  | some header, _ => return .lost (badHeaderMessage header)
  | none, .error fault => return .lost fault.message
  | none, .ok address =>
      if address.isReachable then exchange { method, address, headers, body }
      else return .lost (unknownSchemeMessage address)

def fetch (exchange : Request → m Reply) (client : Client) (query : Query) :
    m (Except DataFailure Rows) := do
  return rowsOf (← send exchange "GET" (query.url client.api.url) client.authorization "")

def productsAt (exchange : Request → m Reply) (client : Client) (location : Option String) :
    m (Except DataFailure Rows) := do
  match location.filter fun id => !id.isEmpty with
  | none => client.fetch exchange { table := "products" }
  | some id =>
      let headers := client.authorization ++ [("Content-Type", "application/json")]
      let reply ← send exchange "POST" client.locationUrl headers (locationBody id)
      return (rowsOf reply).map (Rows.withQuantity client.api.minQuantity)

end Client

end LivePreview
