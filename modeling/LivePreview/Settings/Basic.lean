import LivePreview.Document.Options
import LivePreview.Session.Timing
import LivePreview.Json.Shape

namespace LivePreview

structure Settings where
  api : DataApi := {}
  document : Document.Options := {}
  timing : Timing := {}

namespace Settings

open Json (Reader Record readText readWord readFloat readOptional readListOf)

def into {σ α : Type} (reader : Reader α) (put : σ → α → σ) (state : σ) : Reader σ := fun cs => do
  let (x, rest) ← reader cs
  .ok (put state x, rest)

def apiRecord : Record DataApi :=
  { name := "DataApiConfig"
    start := {}
    slots := [
      { name := "url", read := into readText fun api url => { api with url } },
      { name := "anon_key", read := into readText fun api anonKey => { api with anonKey } },
      { name := "service_key"
        read := into (readOptional readText) fun api serviceKey => { api with serviceKey } },
      { name := "poll_interval_ms"
        read := into readWord fun api pollIntervalMs => { api with pollIntervalMs } },
      { name := "min_quantity"
        read := into readFloat fun api minQuantity => { api with minQuantity } },
      { name := "location_rpc"
        read := into readText fun api locationRpc => { api with locationRpc } }] }

def librariesRecord : Record Document.Libraries :=
  { name := "LibrarySet"
    start := {}
    slots := [
      { name := "required"
        read := into (readListOf readText) fun libraries required => { libraries with required } },
      { name := "optional"
        read := into (readListOf readText) fun libraries optional => { libraries with optional } }] }

def documentRecord : Record Document.Options :=
  { name := "DocumentOptions"
    start := {}
    slots := [
      { name := "base_url", read := into readText fun options baseUrl => { options with baseUrl } },
      { name := "title", read := into readText fun options title => { options with title } },
      { name := "libraries"
        read := into librariesRecord.read fun options libraries => { options with libraries } }] }

def timingRecord : Record Timing :=
  { name := "SessionConfig"
    start := {}
    slots := [
      { name := "crossfade_ms"
        read := into readWord fun timing crossfadeMs => { timing with crossfadeMs } },
      { name := "load_timeout_ms"
        read := into readWord fun timing loadTimeoutMs => { timing with loadTimeoutMs } }] }

def record : Record Settings :=
  { name := "LanternConfig"
    start := {}
    slots := [
      { name := "data_api", read := into apiRecord.read fun settings api => { settings with api } },
      { name := "document"
        read := into documentRecord.read fun settings document => { settings with document } },
      { name := "session"
        read := into timingRecord.read fun settings timing => { settings with timing } }] }

def parse (text : String) : Except Json.Fault Settings :=
  Json.readAll record.read text.toList

def effectiveOptions (env : Environment) (settings : Settings) : Document.Options :=
  { settings.document with api := settings.api.filled env }

end Settings

end LivePreview
