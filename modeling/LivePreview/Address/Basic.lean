import LivePreview.Address.Host
import LivePreview.Address.Path

namespace LivePreview

structure Address where
  scheme : String
  user : String := ""
  host : Address.Host
  port : Option Nat := none
  path : String
  query : Option String := none
  fragment : Option String := none
  deriving DecidableEq, Repr

namespace Address

inductive SchemeKind where
  | web
  | file
  | other
  deriving DecidableEq, Repr

def defaultPort (scheme : String) : Option Nat :=
  if scheme = "http" ∨ scheme = "ws" then some 80
  else if scheme = "https" ∨ scheme = "wss" then some 443
  else if scheme = "ftp" then some 21
  else none

def SchemeKind.ofScheme (scheme : String) : SchemeKind :=
  if scheme = "file" then .file
  else if (defaultPort scheme).isSome then .web
  else .other

def SchemeKind.isSlash (kind : SchemeKind) (c : Char) : Bool :=
  c == '/' || (kind != .other && c == '\\')

def isPathEnd (c : Char) : Bool :=
  c == '?' || c == '#'

def SchemeKind.endsHost (kind : SchemeKind) (c : Char) : Bool :=
  kind.isSlash c || isPathEnd c

/-! ### Reading -/

def clean (cs : List Char) : List Char :=
  let outer := fun c : Char => c.toNat ≤ 0x20
  ((cs.dropWhile outer).reverse.dropWhile outer).reverse.filter fun c =>
    c != '\t' && c != '\n' && c != '\r'

def isSchemeChar (c : Char) : Bool :=
  c.isAlphanum || c == '+' || c == '-' || c == '.'

def splitScheme (cs : List Char) : Option (String × List Char) :=
  let scheme := cs.takeWhile isSchemeChar
  match cs.dropWhile isSchemeChar with
  | ':' :: rest =>
      if scheme.head?.any Char.isAlpha then some (.ofList (scheme.map Char.toLower), rest) else none
  | _ => none

def splitUser (kind : SchemeKind) (cs : List Char) : Option (List Char) × List Char :=
  let authority := cs.takeWhile fun c => !kind.endsHost c
  if authority.contains '@' then
    let behind := (authority.reverse.takeWhile (· != '@')).length
    let length := authority.length - behind - 1
    (some (cs.take length), cs.drop (length + 1))
  else (none, cs)

def userText (cs : List Char) : List Char :=
  let name := encode escapedInUser (cs.takeWhile (· != ':'))
  let password := encode escapedInUser ((cs.dropWhile (· != ':')).drop 1)
  let both := if password.isEmpty then name else name ++ ':' :: password
  if both.isEmpty then [] else both ++ ['@']

def takeHost (kind : SchemeKind) (inBrackets : Bool) : List Char → List Char
  | [] => []
  | c :: cs =>
      if kind.endsHost c || (c == ':' && !inBrackets) then []
      else
        let inBrackets := if c = '[' then true else if c = ']' then false else inBrackets
        c :: takeHost kind inBrackets cs

def readHost (kind : SchemeKind) (cs : List Char) : Except AddressFault Host :=
  if kind = .other then Host.parsePlain cs
  else if cs.isEmpty then .error .emptyHost
  else Host.parse cs

def readPort (scheme : String) (cs : List Char) :
    Except AddressFault (Option Nat × List Char) :=
  match cs with
  | ':' :: cs =>
      let digits := cs.takeWhile Char.isDigit
      let rest := cs.dropWhile Char.isDigit
      let port := digits.foldl (fun n d => 10 * n + (d.toNat - '0'.toNat)) 0
      if 65535 < port || rest.head?.any (fun c => !SchemeKind.web.endsHost c) then
        .error .invalidPort
      else if digits.isEmpty || defaultPort scheme = some port then .ok (none, rest)
      else .ok (some port, rest)
  | cs => .ok (none, cs)

def readPath (kind : SchemeKind) (cs : List Char) : List Char :=
  if kind = .other ∧ cs.isEmpty then []
  else
    let inner := if cs.head?.any kind.isSlash then cs.drop 1 else cs
    joinSegments (resolved kind.isSlash inner)

def readQuery (kind : SchemeKind) (cs : List Char) : Option String :=
  match cs with
  | '?' :: cs =>
      some (.ofList (encode (if kind = .other then escapedInQuery else escapedInWebQuery) cs))
  | _ => none

def readFragment (cs : List Char) : Option String :=
  match cs with
  | '#' :: cs => some (.ofList (encode escapedInFragment cs))
  | _ => none

def withRest (address : Address) (kind : SchemeKind) (cs : List Char) : Address :=
  let beforeFragment := cs.takeWhile (· != '#')
  { address with
    path := .ofList (readPath kind (beforeFragment.takeWhile (· != '?')))
    query := readQuery kind (beforeFragment.dropWhile (· != '?'))
    fragment := readFragment (cs.dropWhile (· != '#')) }

def readAuthority (scheme : String) (kind : SchemeKind) (cs : List Char) :
    Except AddressFault Address := do
  let (user, cs) := splitUser kind cs
  let hostText := takeHost kind false cs
  let host ← readHost kind hostText
  let (port, rest) ← readPort scheme (cs.drop hostText.length)
  let user := String.ofList (userText (user.getD []))
  .ok (withRest { scheme, user, host, port, path := "" } kind rest)

def readFileAddress (cs : List Char) : Except AddressFault Address := do
  let hostText := cs.takeWhile fun c => !SchemeKind.file.endsHost c
  if hostText.isEmpty || isDrive hostText then .error .emptyHost
  else
    let host ← Host.parse hostText
    let rest := cs.drop hostText.length
    let segments := resolved SchemeKind.file.isSlash
      ((rest.takeWhile fun c => !isPathEnd c).drop 1)
    if host = .name "localhost" ∨ segments.head?.any isDrive then .error .emptyHost
    else
      let address := withRest { scheme := "file", host, path := "" } .file rest
      let path := address.path.toList.dropWhile (· == '/')
      .ok { address with path := .ofList ('/' :: path) }

def parse (url : String) : Except AddressFault Address :=
  match splitScheme (clean url.toList) with
  | none => .error .noScheme
  | some (scheme, rest) =>
      let kind := SchemeKind.ofScheme scheme
      match kind, rest with
      | .web, rest => readAuthority scheme kind (rest.dropWhile kind.isSlash)
      | .file, a :: b :: rest =>
          if kind.isSlash a && kind.isSlash b then readFileAddress rest else .error .emptyHost
      | .other, '/' :: '/' :: rest => readAuthority scheme kind rest
      | _, _ => .error .emptyHost

/-! ### Use -/

def text (address : Address) : String :=
  address.scheme ++ "://" ++ address.user ++ address.host.text
    ++ (address.port.elim "" fun port => ":" ++ toString port) ++ address.path
    ++ (address.query.elim "" fun query => "?" ++ query)
    ++ (address.fragment.elim "" fun fragment => "#" ++ fragment)

def target (address : Address) : String :=
  match address.query with
  | none => address.path
  | some query => if query.isEmpty then address.path else address.path ++ "?" ++ query

def isReachable (address : Address) : Bool :=
  address.scheme == "http" || address.scheme == "https"

end Address

end LivePreview
