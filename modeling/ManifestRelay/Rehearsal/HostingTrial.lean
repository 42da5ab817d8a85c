import ManifestRelay.Hosting.Interface

/-!
# Rehearsing the hosting service

A scripted server answers one request after another as its script says, however
odd, and then no more.
-/

namespace ManifestRelay.Rehearsal.HostingTrial

open Http Metadata

structure Scripted where
  status : Nat
  phrase : List UInt8
  headers : List (String × String)
  body : List UInt8
  announced : Bool
  /-- How far the announced length is off. -/
  lengthError : Int

namespace Scripted

def allHeaders (s : Scripted) : List (String × String) :=
  s.headers ++ (if s.announced then [("content-length", toString (s.body.length + s.lengthError))]
    else []) ++ [("connection", "close")]

def bytes (s : Scripted) : List UInt8 :=
  let write (text : String) : List UInt8 := Text.Utf8.encode text.toList
  write s!"HTTP/1.1 {s.status} " ++ s.phrase ++ write "\r\n" ++
    (s.allHeaders.flatMap fun (name, value) => write s!"{name}: {value}\r\n") ++ write "\r\n" ++
    s.body

end Scripted

/-- What is left of a script, and the requests that came, latest first. -/
structure Server where
  script : List Scripted
  requests : List Request

/-- Answer a request; a server without certificates sees no request for a secure connection. -/
def Server.serve (request : Request) (s : Server) : Option Response × Server :=
  if request.location.scheme != "http" then (none, s)
  else
    let s := { s with requests := request :: s.requests }
    match s.script with
    | [] => (none, s)
    | scripted :: rest => (Response.read? scripted.bytes, { s with script := rest })

/-- Send a request, if there is one, to a scripted server: the requests that it saw, and its
response. -/
def run (script : List Scripted) : Option Request → List Request × Option Response
  | none => ([], none)
  | some request =>
      let (response, s) := request.send Server.serve ⟨script, []⟩
      (s.requests.reverse, response)

end ManifestRelay.Rehearsal.HostingTrial
