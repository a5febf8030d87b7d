import LivePreview.Guest.Signal

/-!
A host owns one engine and counts generations: every load and every teardown takes a new one, so a
signal of an older document can be told from one of the document that is live.
-/

namespace LivePreview

structure Host (ε : Type) where
  engine : ε
  generation : Generation := 0
  live : Bool := false
  closed : Bool := false

namespace Host

variable {ε : Type}

def accepts (host : Host ε) (generation : Generation) : Bool :=
  !host.closed && host.live && generation == host.generation

variable [Engine ε]

def load (host : Host ε) (document : Document) : Except GuestFailure Generation × Host ε :=
  if host.closed then (.error .closed, host)
  else
    let generation := host.generation + 1
    match Engine.load host.engine generation document with
    | (.ok (), engine) => (.ok generation, { host with engine, generation, live := true })
    | (.error error, engine) => (.error error, { host with engine, generation, live := false })

def teardown (host : Host ε) : Host ε :=
  { host with
    engine := if host.live then Engine.teardown host.engine else host.engine
    generation := host.generation + 1
    live := false }

def close (host : Host ε) : Host ε :=
  if host.closed then host else { host.teardown with closed := true }

end Host

end LivePreview
