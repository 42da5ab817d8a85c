import ManifestRelay.Http.Location

/-!
# Logins

The user and the password that a location names are sent as credentials: joined
by a colon and written in base 64.
-/

namespace ManifestRelay.Http

def digits64 : List Char :=
  "ABCDEFGHIJKLMNOPQRSTUVWXYZabcdefghijklmnopqrstuvwxyz0123456789+/".toList

def digit64 (n : Nat) : Char := digits64.getD (n % 64) 'A'

/-- Write bytes in base 64, four digits for three bytes. -/
def encode64 : List UInt8 → List Char
  | [] => []
  | [a] => [digit64 (a.toNat / 4), digit64 (a.toNat * 16), '=', '=']
  | [a, b] =>
      let n := 256 * a.toNat + b.toNat
      [digit64 (n / 1024), digit64 (n / 16), digit64 (n * 4), '=']
  | a :: b :: c :: rest =>
      let n := 65536 * a.toNat + 256 * b.toNat + c.toNat
      [digit64 (n / 262144), digit64 (n / 4096), digit64 (n / 64), digit64 n] ++ encode64 rest

def basicCredentials (user password : List Char) : String :=
  "Basic " ++ String.ofList (encode64 (Text.Utf8.encode (user ++ ':' :: password)))

/-- The credentials that a location names, and the location without them.  A user that is no
text is left where it is. -/
def Location.takeLogin (l : Location) : Option String × Location :=
  match unescapeText? l.authority.user.toList with
  | none => (none, l)
  | some user =>
      let password := l.authority.password.bind fun text => unescapeText? text.toList
      if user.isEmpty && password.isNone then (none, l)
      else
        (some (basicCredentials user (password.getD [])),
          { l with authority := l.authority.withoutLogin })

end ManifestRelay.Http
