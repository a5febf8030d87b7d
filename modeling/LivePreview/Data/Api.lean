import LivePreview.Data.Placeholder

namespace LivePreview

structure DataApi where
  url : String := ""
  anonKey : String := ""
  serviceKey : Option String := none
  pollIntervalMs : UInt64 := 5000
  minQuantity : Float := 1.0
  locationRpc : String := "location_products"

namespace DataApi

def filled (env : Environment) (api : DataApi) : DataApi :=
  { api with
    url := resolvePlaceholders env api.url
    anonKey := resolvePlaceholders env api.anonKey
    serviceKey := (api.serviceKey.map (resolvePlaceholders env)).filter fun key => !key.isEmpty }

def pollPeriod (api : DataApi) : Nat :=
  if api.pollIntervalMs = 0 then 5000 else api.pollIntervalMs.toNat

def bearerToken (api : DataApi) : String :=
  api.serviceKey.getD api.anonKey

end DataApi

end LivePreview
