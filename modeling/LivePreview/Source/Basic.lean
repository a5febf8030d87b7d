import LivePreview.Text.Blank

namespace LivePreview

structure Source where
  documentId : String
  text : String
  deriving DecidableEq, Repr

def Source.isEmpty (source : Source) : Bool :=
  source.text.toList.all Text.isBlank

end LivePreview
