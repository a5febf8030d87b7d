import LivePreview.Source.ClassicScript
import LivePreview.Source.Constants
import LivePreview.Text.Fingerprint
import LivePreview.Document.Escape
import LivePreview.Document.Options
import LivePreview.Document.ConsoleScript
import LivePreview.Document.DataScript
import LivePreview.Document.MountScript

/-!
A preview document is a complete page that compiles and mounts one program. It depends on the
program, the constants and the options alone.
-/

namespace LivePreview

structure Document where
  html : String
  deriving DecidableEq, Repr

namespace Document

def hash (document : Document) : UInt64 :=
  Text.fingerprint document.html

def size (document : Document) : Nat :=
  document.html.utf8ByteSize

def isEmpty (document : Document) : Bool :=
  document.html.isEmpty

def summary (document : Document) : String :=
  "BootstrapDocument \x7b len: " ++ toString document.size ++ ", hash: "
    ++ Text.hexDigits document.hash ++ " \x7d"

def resetStyle : String :=
  String.join [
    "*,*::before,*::after\x7bbox-sizing:border-box\x7d",
    "html,body\x7bmargin:0;padding:0;min-height:100%;",
    "font-family:system-ui,-apple-system,sans-serif\x7d",
    "#root\x7bmin-height:100vh\x7d",
    ".lantern-error\x7bmargin:16px;padding:16px;border:1px solid #f5c2c7;border-radius:8px;",
    "background:#fff5f5;color:#842029\x7d",
    ".lantern-error h2\x7bmargin:0 0 8px;font-size:16px\x7d",
    ".lantern-error pre\x7bmargin:0;white-space:pre-wrap;font-size:12px\x7d",
    ".lantern-error button\x7bmargin-top:12px\x7d"]

def inlineScript (body : String) : String :=
  "<script>\n" ++ body ++ "\n</script>\n"

def environment (options : Options) : String :=
  "<!DOCTYPE html>\n<html lang=\"en\">\n<head>\n"
    ++ "<meta charset=\"utf-8\" />\n"
    ++ "<meta name=\"viewport\" content=\"width=device-width, initial-scale=1\" />\n"
    ++ "<base href=\"" ++ escapeAttribute options.baseUrl ++ "\" />\n"
    ++ "<title>" ++ escapeText options.title ++ "</title>\n"
    ++ "<style>" ++ resetStyle ++ "</style>\n"

def requiredLibrary (src : String) : String :=
  "<script src=\"" ++ escapeAttribute src ++ "\" crossorigin=\"anonymous\"></script>\n"

def optionalLibrary (src : String) : String :=
  "<script src=\"" ++ escapeAttribute src
    ++ "\" crossorigin=\"anonymous\" data-optional=\"true\"></script>\n"

def libraryIncludes (libraries : Libraries) : String :=
  String.join (libraries.required.map requiredLibrary)
    ++ String.join (libraries.optional.map optionalLibrary)

def guestSettings (api : DataApi) : Json :=
  .ofFields [
    ("apiUrl", .str api.url),
    ("anonKey", .str api.anonKey),
    ("serviceKey", .ofOption api.serviceKey),
    ("pollIntervalMs", .ofUInt64 api.pollIntervalMs),
    ("minQuantity", .float api.minQuantity),
    ("locationRpc", .str api.locationRpc),
    ("rootSymbols", .arr (Source.RootName.all.map fun name => .str name.text)),
    ("recognized", .arr (Source.ConstantName.all.map fun name => .str name.text))]

def settingsScript (api : DataApi) : String :=
  "window.__LANTERN_CONFIG__ = " ++ embeddedJson (guestSettings api) ++ ";\n" ++ dataScript

def constantAssignment (constant : Source.ConstantName × String) : String :=
  "window." ++ constant.1.text ++ " = " ++ embeddedJson (.str constant.2) ++ ";\n"

def constantsScript (constants : Source.Constants) : String :=
  String.join (constants.toList.map constantAssignment)

def programElement (script : String) : String :=
  "<script type=\"text/plain\" id=\"lantern-source\">\n" ++ script ++ "\n</script>\n"

def build (script : String) (constants : Source.Constants) (options : Options) : Document :=
  { html :=
      environment options
        ++ inlineScript consoleScript
        ++ libraryIncludes options.libraries
        ++ "</head>\n<body>\n<div id=\"root\"></div>\n"
        ++ inlineScript (settingsScript options.api)
        ++ (if constants.isEmpty then "" else inlineScript (constantsScript constants))
        ++ programElement script
        ++ inlineScript mountScript
        ++ "</body>\n</html>\n" }

def ofSource (raw : String) (options : Options) : Document :=
  build (Source.classicScript raw) (Source.Constants.ofSource raw) options

end Document

end LivePreview
