namespace LivePreview.Surface

def shellStyleLines : List String := [
  "",
  "html,body\x7bmargin:0;height:100%;font-family:system-ui,-apple-system,sans-serif;background:#fafafa\x7d",
  "#stage\x7bposition:relative;height:100%;overflow:hidden\x7d",
  "#stage iframe\x7bposition:absolute;inset:0;width:100%;height:100%;border:0;background:#fff;opacity:0;transition:opacity var(--fade) ease\x7d",
  "#stage iframe.visible\x7bopacity:1\x7d",
  "#stage.fading iframe.visible\x7bopacity:.6\x7d",
  ".overlay\x7bposition:absolute;inset:0;display:none;align-items:center;justify-content:center;pointer-events:none\x7d",
  ".overlay.on\x7bdisplay:flex\x7d",
  "#loading .spinner\x7bwidth:28px;height:28px;border:3px solid #ddd;border-top-color:#555;border-radius:50%;animation:spin .8s linear infinite\x7d",
  "@keyframes spin\x7bto\x7btransform:rotate(360deg)\x7d\x7d",
  "#empty\x7bcolor:#666;font-size:14px\x7d",
  "#error\x7balign-items:flex-start;padding:16px\x7d",
  "#error .panel\x7bpointer-events:auto;max-width:720px;width:100%;padding:16px;border:1px solid #f5c2c7;border-radius:8px;background:#fff5f5;color:#842029;box-shadow:0 2px 8px rgba(0,0,0,.08)\x7d",
  "#error pre\x7bwhite-space:pre-wrap;font-size:12px;margin:8px 0 0\x7d",
  "#error button\x7bmargin-top:12px\x7d",
  ""]

def shellStyle : String :=
  "\n".intercalate shellStyleLines

end LivePreview.Surface
