namespace LivePreview

structure Timing where
  crossfadeMs : UInt64 := 300
  loadTimeoutMs : UInt64 := 15000
  deriving DecidableEq, Repr

namespace Timing

def crossfade (timing : Timing) : Nat :=
  timing.crossfadeMs.toNat

def loadLimit (timing : Timing) : Option Nat :=
  if 0 < timing.loadTimeoutMs then some timing.loadTimeoutMs.toNat else none

end Timing

end LivePreview
