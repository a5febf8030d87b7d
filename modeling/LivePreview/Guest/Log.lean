import LivePreview.Guest.Engine
import LivePreview.Json.Printer

namespace LivePreview

structure LogRecord where
  session : String
  generation : Generation
  message : String
  deriving DecidableEq, Repr

namespace LogRecord

def channel : String := "log"

def target : String := "lantern::guest"

def line (entry : LogRecord) : String :=
  "[session:" ++ entry.session ++ "] " ++ entry.message

end LogRecord

def logText : Json → String
  | .str s => s
  | payload => payload.compact

end LivePreview
