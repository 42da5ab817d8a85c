import ManifestRelay.Http.Host

/-!
# Authorities

The authority of a location says who asks, and which server is asked.
-/

namespace ManifestRelay.Http

structure Authority where
  user : String
  /-- Not empty. -/
  password : Option String
  host : Host
  port : Option Nat
deriving DecidableEq, Repr, Inhabited

namespace Authority

def defaultPort? (scheme : String) : Option Nat :=
  [("http", 80), ("ws", 80), ("https", 443), ("wss", 443), ("ftp", 21)].lookup scheme

/-- A text before the last sign `@` and behind it. -/
def splitLogin (text : List Char) : List Char × List Char :=
  let server := (text.reverse.takeWhile (· != '@')).reverse
  ((text.take (text.length - server.length)).dropLast, server)

/-- The text of a host, which ends before a colon that is not in brackets. -/
def takeHost (inBrackets : Bool) : List Char → List Char
  | [] => []
  | c :: rest =>
      if c = ':' && !inBrackets then []
      else c :: takeHost (c = '[' || (inBrackets && c != ']')) rest

/-- A port of 16 bits; without digits there is none. -/
def readPort? (scheme : String) (digits : List Char) : Option (Option Nat) :=
  if !digits.all Char.isDigit then none
  else if digits.isEmpty then some none
  else do
    let port ← (Host.number? 10 digits).filter (· < 65536)
    return if some port = defaultPort? scheme then none else some port

def read? (scheme : String) (readHost? : List Char → Option Host) (text : List Char) :
    Option Authority := do
  let (login, server) := splitLogin text
  let user := login.takeWhile (· != ':')
  let password := login.drop (user.length + 1)
  let hostText := takeHost false server
  if hostText.isEmpty then none
  let host ← readHost? hostText
  let port ← readPort? scheme (server.drop (hostText.length + 1))
  let written (text : List Char) := String.ofList (escape keepsInLogin text)
  return ⟨written user, if password.isEmpty then none else some (written password), host, port⟩

def loginText (a : Authority) : String :=
  match a.password with
  | some password => a.user ++ ":" ++ password ++ "@"
  | none => if a.user.isEmpty then "" else a.user ++ "@"

def text (a : Authority) : String :=
  let port := match a.port with
    | some port => s!":{port}"
    | none => ""
  a.loginText ++ a.host.text ++ port

def withoutLogin (a : Authority) : Authority := { a with user := "", password := none }

def isSameServer (scheme : String) (a : Authority) (other : String) (b : Authority) : Bool :=
  a.host = b.host && a.port.or (defaultPort? scheme) = b.port.or (defaultPort? other)

/-! ### What a request carries -/

/-- Characters that stand for themselves where a request names a server. -/
def isPlainChar (c : Char) : Bool := isAlphanumeric c || "!$&'()*+,-.:;=@[]_~".contains c

structure Survey where
  colons : Nat
  opened : Bool
  closed : Bool
  escapes : Bool
  /-- Whether the last character ends a login. -/
  afterLogin : Bool
deriving DecidableEq, Repr

def Survey.see (s : Survey) (c : Char) : Option Survey :=
  let s := { s with afterLogin := c = '@' }
  if c = ':' then if s.colons < 8 then some { s with colons := s.colons + 1 } else none
  else if c = '[' then if s.escapes || s.opened then none else some { s with opened := true }
  else if c = ']' then
    if !s.opened || s.closed then none
    else some { s with closed := true, colons := 0, escapes := false }
  else if c = '@' then some { s with colons := 0, escapes := false }
  else if c = '%' then some { s with escapes := true }
  else if isPlainChar c then some s
  else none

/-- Whether a request can name a server by a text. -/
def isCarried (text : List Char) : Bool :=
  match text.foldlM Survey.see ⟨0, false, false, false, false⟩ with
  | none => false
  | some s => s.opened = s.closed && s.colons ≤ 1 && !s.afterLogin && !s.escapes

end Authority

end ManifestRelay.Http
