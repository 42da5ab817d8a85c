import ManifestRelay.Http.Authority

/-!
# Locations

A location names a server and what is asked of it.  It is read from a text with
much leniency: blanks around the text and line ends in it do not count, a
backslash is a slash, and what cannot stand in a location is written by its
bytes.  A text that is found at a location may leave out what it shares with it.
-/

namespace ManifestRelay.Http

structure Location where
  /-- In lower case. -/
  scheme : String
  authority : Authority
  /-- Starts with a slash. -/
  path : String
  query : Option String
deriving DecidableEq, Repr, Inhabited

namespace Location

def target (l : Location) : String :=
  match l.query with
  | none => l.path
  | some query => l.path ++ "?" ++ query

def text (l : Location) : String := l.scheme ++ "://" ++ l.authority.text ++ l.target

def isSameServer (a b : Location) : Bool :=
  a.authority.isSameServer a.scheme b.scheme b.authority

def withField (l : Location) (name value : String) : Location :=
  let field := String.ofList (escapeForm name.toList ++ '=' :: escapeForm value.toList)
  { l with query := some (match l.query with | none | some "" => field | some q => q ++ "&" ++ field) }

def maxLength : Nat := 65534

def isCarried (l : Location) : Bool :=
  Authority.isCarried l.authority.text.toList && l.text.utf8ByteSize ≤ maxLength

/-! ### Paths -/

/-- Whether a segment names a drive, which steps up do not leave. -/
def isDrive : List Char → Bool
  | [letter, mark] => letter.isAlpha && (mark = ':' || mark = '|')
  | _ => false

/-- Segments that stand for a step: dots, which may be written by their numbers. -/
def plainDots (segment : List Char) : List Char :=
  let text := ((String.ofList segment).toLower).replace "%2e" "."
  if text = "." || text = ".." then text.toList else segment

/-- Take a step up or stay for segments of dots; `above` holds the segments before, latest first. -/
def withoutDots (above : List (List Char)) : List (List Char) → List (List Char)
  | [] => above.reverse
  | segment :: rest =>
      let ending := if rest.isEmpty then [[]] else []
      if segment = ['.'] then withoutDots above rest ++ ending
      else if segment = ['.', '.'] then
        withoutDots (if above.head?.any isDrive then above else above.tail) rest ++ ending
      else withoutDots (segment :: above) rest

def segmentsOf (text : List Char) : List (List Char) :=
  ((text.map fun c => if c = '\\' then '/' else c).splitOn '/').map fun segment =>
    plainDots (escape keepsInPath segment)

/-- The path of a text that is found below segments, given latest first. -/
def pathBelow (above : List (List Char)) (text : List Char) : String :=
  String.ofList ('/' :: List.intercalate ['/'] (withoutDots above (segmentsOf text)))

/-- The segments of a path but the last, latest first. -/
def directoryOf (path : String) : List (List Char) :=
  ((path.toList.drop 1).splitOn '/').dropLast.reverse

/-! ### Reading -/

inductive Lead where
  | nowhere
  /-- To something that a request can carry, but that cannot be asked. -/
  | unreachable
  | to (location : Location)
deriving DecidableEq, Repr

def isSlash (c : Char) : Bool := c = '/' || c = '\\'

def cleaned (text : List Char) : List Char :=
  let isEdge (c : Char) : Bool := c ≤ ' '
  let text := ((text.dropWhile isEdge).reverse.dropWhile isEdge).reverse
  text.filter fun c => c != '\t' && c != '\n' && c != '\r'

def splitScheme (text : List Char) : Option (String × List Char) :=
  let scheme := text.takeWhile fun c => isAlphanumeric c || "+-.".contains c
  match scheme, text.drop scheme.length with
  | first :: _, ':' :: rest =>
      if first.isAlpha then some ((String.ofList scheme).toLower, rest) else none
  | _, _ => none

/-- A text without its fragment before its query, and the query. -/
def splitQuery (text : List Char) : List Char × Option String :=
  let text := text.takeWhile (· != '#')
  let head := text.takeWhile (· != '?')
  match text.drop head.length with
  | [] => (head, none)
  | _ :: query => (head, some (String.ofList (escape keepsInQuery query)))

/-- Schemes whose locations name a server in one and the same way. -/
def serverSchemes : List String := ["http", "https", "ws", "wss", "ftp"]

def leadTo (l : Location) : Lead :=
  if !l.isCarried then .nowhere
  else if l.scheme = "http" || l.scheme = "https" then .to l
  else .unreachable

def leadOfServer (scheme : String) (text : List Char) : Lead :=
  let (text, query) := splitQuery text
  let authorityText := text.takeWhile (!isSlash ·)
  match Authority.read? scheme Host.read? authorityText with
  | none => .nowhere
  | some authority =>
      leadTo ⟨scheme, authority, pathBelow [] (text.drop (authorityText.length + 1)), query⟩

/-- Where a text leads that leaves out the scheme of the location that it is found at. -/
def leadFrom (base : Location) (text : List Char) : Lead :=
  match text with
  | [] => leadTo base
  | '#' :: _ => leadTo base
  | '/' :: '/' :: rest => leadOfServer base.scheme rest
  | _ =>
      let (path, query) := splitQuery text
      let slashes := path.takeWhile isSlash
      if 2 ≤ slashes.length then leadOfServer base.scheme (text.drop slashes.length)
      else if slashes.length = 1 then
        leadTo { base with path := pathBelow [] path.tail, query := query }
      else if path.isEmpty then leadTo { base with query := query }
      else leadTo { base with path := pathBelow (directoryOf base.path) path, query := query }

/-- Where a text leads that names a file: to another server or nowhere. -/
def leadOfFile (text : List Char) : Lead :=
  let server := (text.drop 2).takeWhile fun c => !isSlash c && c != '?' && c != '#'
  let path := ((splitQuery (text.drop 2)).1).drop (server.length + 1)
  match (text.take 2).all isSlash && 2 ≤ text.length, Host.read? server with
  | true, some host =>
      let authority : Authority := ⟨"", none, host, none⟩
      let isLocal := isDrive server || host = .named "localhost" ||
        (withoutDots [] (segmentsOf path)).head?.any isDrive
      if !isLocal && Authority.isCarried authority.text.toList then .unreachable else .nowhere
  | _, _ => .nowhere

def maxScheme : Nat := 64

/-- Where a text leads behind a scheme of which nothing is known. -/
def leadOfOther (scheme : String) (text : List Char) : Lead :=
  let isEnd (c : Char) : Bool := c = '/' || c = '?' || c = '#'
  match text with
  | '/' :: '/' :: rest =>
      match Authority.read? scheme Host.readOpaque? (rest.takeWhile (!isEnd ·)) with
      | some authority =>
          if scheme.length ≤ maxScheme && Authority.isCarried authority.text.toList then .unreachable
          else .nowhere
      | none => .nowhere
  | _ =>
      let whole := scheme.toList ++ ':' :: escape keepsInOpaque text
      if !text.any isEnd && Authority.isCarried whole then .unreachable else .nowhere

/-- Where a text leads; `base` is the location that it is found at. -/
def lead (base : Option Location) (text : String) : Lead :=
  let text := cleaned text.toList
  match splitScheme text with
  | some (scheme, rest) =>
      let slashes := rest.takeWhile isSlash
      if scheme = "file" then leadOfFile rest
      else if !serverSchemes.contains scheme then leadOfOther scheme rest
      else
        match base.filter fun base => base.scheme = scheme && slashes.length < 2 with
        | some base => leadFrom base rest
        | none => leadOfServer scheme (rest.drop slashes.length)
  | none =>
      match base with
      | some base => leadFrom base text
      | none => .nowhere

def read? (text : String) : Option Location :=
  match lead none text with
  | .to location => some location
  | _ => none

end Location

end ManifestRelay.Http
