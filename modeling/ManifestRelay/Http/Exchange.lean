import ManifestRelay.Http.Location
import ManifestRelay.Http.Response

/-!
# Requests and redirects

A caller sends a request and follows the redirects that come back, up to a
limit.  Its credentials go with a redirect only if the server stays the same.
-/

namespace ManifestRelay.Http

inductive Method where
  | get
  | post
deriving DecidableEq, Repr, Inhabited

structure Request where
  method : Method
  location : Location
  authorization : Option String
  document : Option String
deriving DecidableEq, Repr, Inhabited

inductive Consequence where
  | accepted
  | failed
  | redirected (request : Request)

namespace Request

/-- Go on elsewhere; `authorization` is what the caller began with. -/
def moved (r : Request) (authorization : Option String) (keep : Bool) (location : Location) :
    Request where
  method := if keep then r.method else .get
  location := location
  authorization := if location.isSameServer r.location then authorization else none
  document := if keep then r.document else none

def consequence (r : Request) (authorization : Option String) (response : Response) :
    Consequence :=
  if response.keepsRequest || response.changesRequest then
    match response.location.map (Location.lead (some r.location)) with
    | none | some .nowhere => .accepted
    | some .unreachable => .failed
    | some (.to location) => .redirected (r.moved authorization response.keepsRequest location)
  else .accepted

end Request

def maxRedirects : Nat := 10

section

variable {σ : Type} (serve : Request → σ → Option Response × σ)

/-- Send a request and at most `n - 1` more that it is redirected to; nothing if no response is
found in this way. -/
def send (authorization : Option String) : Nat → Request → σ → Option Response × σ
  | 0, _, s => (none, s)
  | n + 1, request, s =>
      match serve request s with
      | (none, s) => (none, s)
      | (some response, s) =>
          match request.consequence authorization response with
          | .accepted => (some response, s)
          | .failed => (none, s)
          | .redirected request => send authorization n request s

def Request.send (request : Request) (s : σ) : Option Response × σ :=
  Http.send serve request.authorization (maxRedirects + 1) request s

end

end ManifestRelay.Http
