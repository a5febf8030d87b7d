import LivePreview.Text.Blank
import LivePreview.Text.Percent

namespace LivePreview

structure Query where
  table : String
  select : Option String := none
  filter : Option String := none
  order : Option String := none
  limit : Option UInt32 := none
  deriving DecidableEq, Repr

def trimSlashes (url : String) : String :=
  .ofList (Text.dropEndWhile (· == '/') url.toList)

namespace Query

open Text.Percent (encode)

def ofRowId (table id : String) : Query :=
  { table, filter := some ("id=eq." ++ encode id), limit := some 1 }

def parameters (query : Query) : List String :=
  ["select=" ++ encode (query.select.getD "*")]
    ++ (query.filter.filter fun filter => !filter.isEmpty).toList
    ++ (query.order.map fun order => "order=" ++ encode order).toList
    ++ (query.limit.map fun limit => "limit=" ++ toString limit.toNat).toList

def url (query : Query) (base : String) : String :=
  trimSlashes base ++ "/rest/" ++ encode query.table ++ "?" ++ "&".intercalate query.parameters

end Query

end LivePreview
