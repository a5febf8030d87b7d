import LivePreview.Document.Escape
import LivePreview.Session.Timing
import LivePreview.Surface.ShellStyle
import LivePreview.Surface.ShellScript

namespace LivePreview.Surface

def Shell.settings (session : String) (timing : Timing) : Json :=
  .ofFields [("session", .str session), ("crossfadeMs", .ofUInt64 timing.crossfadeMs)]

def Shell.page (session : String) (timing : Timing) : String :=
  "<!DOCTYPE html>\n<html lang=\"en\">\n<head>\n"
    ++ "<meta charset=\"utf-8\" />\n"
    ++ "<meta name=\"viewport\" content=\"width=device-width, initial-scale=1\" />\n"
    ++ "<title>Lantern preview</title>\n"
    ++ "<style>:root\x7b--fade:" ++ toString timing.crossfadeMs.toNat ++ "ms\x7d" ++ shellStyle
    ++ "</style>\n"
    ++ "</head>\n<body>\n<div id=\"stage\">\n"
    ++ "<div id=\"loading\" class=\"overlay\"><div class=\"spinner\"></div></div>\n"
    ++ "<div id=\"empty\" class=\"overlay\"></div>\n"
    ++ "<div id=\"error\" class=\"overlay\"><div class=\"panel\"><strong>Preview error</strong>"
    ++ "<pre id=\"error-text\"></pre><button id=\"dismiss\" type=\"button\">Dismiss</button></div></div>\n"
    ++ "</div>\n"
    ++ "<script>window.__LANTERN_SHELL__ = "
    ++ Document.embeddedJson (Shell.settings session timing) ++ ";</script>\n"
    ++ "<script>" ++ shellScript ++ "</script>\n</body>\n</html>\n"

end LivePreview.Surface
