import ManifestRelay.Stream.Channel

/-!
# Serving a stream

A stream is served by a session that runs by itself.  The session is cancelled
when the reader goes away or the program shuts down.  When it has failed, its
status follows what it sent, as the last item of the stream.
-/

namespace ManifestRelay.Service

open ManifestRelay.Stream

/-- What is under way to the reader of a served stream. -/
abbrev Delivery (φ : Type) := Channel (Except Status φ)

namespace Delivery

variable {φ : Type}

def shutDown (d : Delivery φ) : Delivery φ := d.cancel

def depart (d : Delivery φ) : Delivery φ := d.close.cancel

def sendFrame (d : Delivery φ) (frame : φ) : Progress × Delivery φ := d.send (.ok frame) true

/-- What the stream ends with after its session has ended. -/
def lastItem : Except Status Unit → Option (Except Status φ)
  | .ok () => none
  | .error status => some (.error status)

/-- The session has ended; its status waits for room even if the stream is cancelled. -/
def finish (d : Delivery φ) (result : Except Status Unit) : Option Progress × Delivery φ :=
  match lastItem result with
  | none => (none, d)
  | some item =>
      let (progress, d) := d.send item false
      (some progress, d)

end Delivery

end ManifestRelay.Service
