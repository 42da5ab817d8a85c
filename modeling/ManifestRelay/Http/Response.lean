import ManifestRelay.Http.Body
import ManifestRelay.Text.Utf8

/-!
# Responses

A response is what is left of the bytes of a server once the heads that only
announce it are passed over.
-/

namespace ManifestRelay.Http

/-- A response whose head is complete. -/
structure Response where
  status : Nat
  /-- Where the server sends its caller. -/
  location : Option String
  /-- The body, unless it is cut short. -/
  body : Option (List UInt8)
deriving DecidableEq, Repr, Inhabited

/-- Whether a head only announces another one. -/
def Head.isInterim (h : Head) : Bool := h.status < 200 && h.status != 101

/-- The head that is no announcement, and the bytes after it. -/
def Head.readFinal? : Nat → List UInt8 → Option (Head × List UInt8)
  | 0, _ => none
  | fuel + 1, bytes => do
      let (head, rest) ← Head.read? bytes
      if head.isInterim then readFinal? fuel rest else some (head, rest)

namespace Response

def isSuccess (r : Response) : Bool := 200 ≤ r.status && r.status < 300

/-- Whether the response sends its caller elsewhere with the same request. -/
def keepsRequest (r : Response) : Bool := r.status = 307 || r.status = 308

/-- Whether the response sends its caller elsewhere to look. -/
def changesRequest (r : Response) : Bool := r.status = 301 || r.status = 302 || r.status = 303

def read? (bytes : List UInt8) : Option Response := do
  let (head, rest) ← Head.readFinal? bytes.length bytes
  let extent ← head.extent?
  let location := (head.values "location").head?.bind Text.Utf8.decode?
  return ⟨head.status, location.map String.ofList, extent.read? rest⟩

end Response

end ManifestRelay.Http
