import ManifestRelay.Stream.Status

/-!
# Bounded delivery to one reader

A stream holds at most `capacity` items between its senders and its reader.
A sender that finds no room joins a queue.  Room that the reader makes is
granted to the first of the queue, which puts its item in when it is next
woken.  Once the stream is cancelled, a cancellable sender gives up whenever it
looks, even with room at hand; once the reader is gone, every sender gives up.
-/

namespace ManifestRelay.Stream

inductive SendError where
  | cancelled
  | closed
deriving DecidableEq, Repr, Inhabited

def SendError.message : SendError → String
  | .cancelled => "stream cancelled"
  | .closed => "peer closed the stream"

structure Waiter (α : Type) where
  number : Nat
  item : α
  /-- Whether cancelling the stream ends the send. -/
  cancellable : Bool
  /-- Whether room has been set aside for it. -/
  granted : Bool
deriving DecidableEq, Repr

/-- The items under way on one stream and the senders that wait for room. -/
structure Channel (α : Type) where
  capacity : Nat
  /-- Items put in and not yet read, oldest first. -/
  buffer : List α
  /-- Waiting sends in order of arrival. -/
  waiters : List (Waiter α)
  nextNumber : Nat
  /-- Whether the reader is gone. -/
  closed : Bool
  cancelled : Bool
deriving DecidableEq, Repr

/-- Where a send stands after it looked at the stream. -/
inductive Progress where
  | sent
  | refused (reason : SendError)
  | waiting (number : Nat)
deriving DecidableEq, Repr

namespace Channel

variable {α : Type}

def empty (capacity : Nat) : Channel α :=
  ⟨capacity, [], [], 0, false, false⟩

/-- Places that are neither filled nor set aside. -/
def room (c : Channel α) : Nat :=
  c.capacity - (c.buffer.length + c.waiters.countP Waiter.granted)

/-- Set a place aside for the first sender that has none. -/
def grantFirst : List (Waiter α) → List (Waiter α)
  | [] => []
  | w :: rest => if w.granted then w :: grantFirst rest else { w with granted := true } :: rest

/-- Set aside as many places as are free and wanted. -/
def grantAll (c : Channel α) : Channel α :=
  { c with waiters := (min c.room c.waiters.length).repeat grantFirst c.waiters }

/-- The reason for which a send gives up at once, if there is one. -/
def refusal (c : Channel α) (cancellable : Bool) : Option SendError :=
  if cancellable && c.cancelled then some .cancelled
  else if c.closed then some .closed
  else none

def send (c : Channel α) (item : α) (cancellable : Bool) : Progress × Channel α :=
  match c.refusal cancellable with
  | some reason => (.refused reason, c)
  | none =>
      if 0 < c.room then (.sent, { c with buffer := c.buffer ++ [item] })
      else
        (.waiting c.nextNumber,
          { c with
            waiters := c.waiters ++ [⟨c.nextNumber, item, cancellable, false⟩]
            nextNumber := c.nextNumber + 1 })

def waiter? (c : Channel α) (number : Nat) : Option (Waiter α) :=
  c.waiters.find? (·.number == number)

/-- Give up a waiting send; room set aside for it goes to the next. -/
def abandon (c : Channel α) (number : Nat) : Channel α :=
  grantAll { c with waiters := c.waiters.filter (·.number != number) }

/-- Let a waiting send look at the stream again. -/
def wake (c : Channel α) (number : Nat) : Option Progress × Channel α :=
  match c.waiter? number with
  | none => (none, c)
  | some w =>
      match c.refusal w.cancellable with
      | some reason => (some (.refused reason), c.abandon number)
      | none =>
          if w.granted then
            (some .sent,
              { c with
                waiters := c.waiters.filter (·.number != number)
                buffer := c.buffer ++ [w.item] })
          else (some (.waiting number), c)

def receive (c : Channel α) : Option α × Channel α :=
  match c.buffer with
  | [] => (none, c)
  | item :: rest => (some item, grantAll { c with buffer := rest })

def cancel (c : Channel α) : Channel α := { c with cancelled := true }

/-- The reader goes away, and what it has not read is lost. -/
def close (c : Channel α) : Channel α := { c with closed := true, buffer := [] }

end Channel

end ManifestRelay.Stream
