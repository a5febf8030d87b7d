import LivePreview.Json.Printer

/-!
How values are put into a document: text and attribute values by character references, JSON inside
a script with every `<` written as an escape, so that no value can end the element it stands in.
-/

namespace LivePreview.Document

def escapeTextChar (c : Char) : List Char :=
  if c = '&' then "&amp;".toList
  else if c = '<' then "&lt;".toList
  else if c = '>' then "&gt;".toList
  else [c]

def escapeAttributeChar (c : Char) : List Char :=
  if c = '"' then "&quot;".toList else escapeTextChar c

def escapeText (s : String) : String :=
  .ofList (s.toList.flatMap escapeTextChar)

def escapeAttribute (s : String) : String :=
  .ofList (s.toList.flatMap escapeAttributeChar)

def escapeScriptChar (c : Char) : List Char :=
  if c = '<' then ['\\', 'u', '0', '0', '3', 'c'] else [c]

def embeddedJson (value : Json) : String :=
  .ofList (value.write.flatMap escapeScriptChar)

end LivePreview.Document
