namespace LivePreview.Surface

namespace MediaType

def isToken (c : Char) : Bool :=
  c.isAlphanum || "!#$%&'*+-.^_\x60|~".toList.contains c

def isQuotable (c : Char) : Bool :=
  0x20 ≤ c.toNat && c.toNat < 0x7F

def afterQuoted (cs : List Char) : Option (List Char) :=
  match cs.dropWhile (· == ' ') with
  | [] => some []
  | ';' :: rest => some rest
  | _ => none

def skipQuoted : List Char → Option (List Char)
  | [] => none
  | first :: cs =>
      if isQuotable first then
        match cs.dropWhile fun c => isQuotable c && c != '"' with
        | '"' :: rest => afterQuoted rest
        | _ => none
      else none

def skipValue (cs : List Char) : Option (List Char) :=
  match cs with
  | '"' :: quoted => skipQuoted quoted
  | _ =>
      match cs.dropWhile isToken with
      | [] => some []
      | ';' :: rest => if cs.head? = some ';' then none else some rest
      | _ => none

def areParameters : Nat → List Char → Bool
  | 0, _ => false
  | fuel + 1, cs =>
      let name := cs.dropWhile (· == ' ')
      name.isEmpty ||
        match name.dropWhile isToken with
        | '=' :: value =>
            name.head? != some '=' &&
              match skipValue value with
              | some rest => areParameters fuel rest
              | none => false
        | _ => false

def splitSuffix (subtype : List Char) : List Char × Option (List Char) :=
  let suffix := (subtype.reverse.takeWhile (· != '+')).reverse
  let length := subtype.length - suffix.length - 1
  if length = 0 || suffix.length = subtype.length then (subtype, none)
  else (subtype.take length, some suffix)

def isJsonSubtype (subtype : List Char) : Bool :=
  let (plain, suffix) := splitSuffix (subtype.map Char.toLower)
  plain == "json".toList || suffix == some "json".toList

def isJson (contentType : String) : Bool :=
  let cs := contentType.toList
  let main := cs.takeWhile isToken
  match cs.dropWhile isToken with
  | '/' :: rest =>
      let subtype := rest.takeWhile isToken
      let parameters :=
        match rest.dropWhile isToken with
        | [] => true
        | ';' :: text => areParameters (text.length + 1) text
        | _ => false
      main.map Char.toLower == "application".toList && !subtype.isEmpty && parameters
        && isJsonSubtype subtype
  | _ => false

end MediaType

end LivePreview.Surface
