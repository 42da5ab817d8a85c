import ManifestRelay.Binary.Width
import ManifestRelay.Http.Head

/-!
# Bodies of responses

The head of a response says how far its body reaches: as many bytes as it
announces, or chunks up to an empty one, or all that comes.  A body that ends
too early, or that is not what the head says, is not received.
-/

namespace ManifestRelay.Http

open Text

/-! ### How far a body reaches -/

inductive Extent where
  | nothing
  | announced (length : Nat)
  | chunked
  | rest
deriving DecidableEq, Repr

/-- The number that bytes are the digits of, if it is one of 64 bits. -/
def readLength? (digits : List UInt8) : Option Nat :=
  let n := decimalValue digits
  if !digits.isEmpty && digits.all isDigitByte && Binary.holdsNatural 64 n then some n else none

def members (value : List UInt8) : List (List UInt8) := (value.splitOn 0x2C).map withoutBlanks

/-- The length that values announce, which has to be the same in all of them. -/
def announcedLength? (values : List (List UInt8)) : Option Nat := do
  let lengths ← (values.flatMap members).mapM readLength?
  match lengths with
  | [] => none
  | n :: others => if others.all (· = n) && n + 2 < Binary.patterns 64 then some n else none

/-- Whether the last of the encodings that values name is that in chunks. -/
def endsInChunks (values : List (List UInt8)) : Bool :=
  match values.getLast? with
  | none => false
  | some value => value.all (· < 0x80) &&
      ((members value).getLast?.map fun name => (asciiText name).toLower) = some "chunked"

def Head.extent? (h : Head) : Option Extent :=
  let encodings := h.values "transfer-encoding"
  let lengths := h.values "content-length"
  if h.status = 101 || h.status = 204 || h.status = 304 then some .nothing
  else if !encodings.isEmpty then
    if h.isOld then none else some (if endsInChunks encodings then .chunked else .rest)
  else if lengths.isEmpty then some .rest
  else (announcedLength? lengths).map .announced

/-! ### Chunks -/

/-- Bytes up to a carriage return, and the bytes after the line feed that follows it. -/
def untilReturn? (bytes : List UInt8) : Option (List UInt8 × List UInt8) :=
  let line := bytes.takeWhile (· != 0x0D)
  match bytes.drop line.length with
  | 0x0D :: 0x0A :: rest => some (line, rest)
  | _ => none

/-- What may follow the size of a chunk: blanks, and then an extension. -/
def extension? (line : List UInt8) : Option (List UInt8) :=
  match line.dropWhile isBlankByte with
  | [] => some []
  | 0x3B :: extension => if extension.contains 0x0A then none else some extension
  | _ => none

/-- The first line of a chunk: its size, how long its extension is, and the bytes after it. -/
def readSize? (bytes : List UInt8) : Option (Nat × Nat × List UInt8) := do
  let (line, rest) ← untilReturn? bytes
  let digits := line.takeWhile fun b => (hexValue? b).isSome
  let size := digits.foldl (fun n b => 16 * n + (hexValue? b).getD 0) 0
  let extension ← extension? (line.drop digits.length)
  if digits.isEmpty || !Binary.holdsNatural 64 size then none
  else some (size, extension.length, rest)

def maxExtensions : Nat := 16384

def maxTrailer : Nat := 16384

def trailerLines? : Nat → List (List UInt8) → List UInt8 → Option (List (List UInt8))
  | 0, _, _ => none
  | fuel + 1, lines, bytes => do
      match ← untilReturn? bytes with
      | ([], _) => some lines
      | (line, rest) => trailerLines? fuel (line :: lines) rest

/-- Whether what follows the last chunk is a trailer or nothing. -/
def isTrailer (bytes : List UInt8) : Bool :=
  match trailerLines? Head.maxFields [] bytes with
  | none => false
  | some [] => true
  | some lines =>
      let text := lines.reverse.flatMap (· ++ [0x0D, 0x0A]) ++ [0x0D, 0x0A]
      text.length < maxTrailer && (readFields? lines.length text).isSome

/-- Join the chunks that bytes start with, up to an empty one and its trailer; `extensions` is
how long the extensions before were. -/
def readChunks? : Nat → Nat → List UInt8 → Option (List UInt8)
  | 0, _, _ => none
  | fuel + 1, extensions, bytes => do
      let (size, extension, rest) ← readSize? bytes
      if maxExtensions ≤ extensions + extension then none
      else if size = 0 then if isTrailer rest then some [] else none
      else
        match rest.drop size with
        | 0x0D :: 0x0A :: more =>
            return rest.take size ++ (← readChunks? fuel (extensions + extension) more)
        | _ => none

/-! ### Bodies -/

def Extent.read? (bytes : List UInt8) : Extent → Option (List UInt8)
  | .nothing => some []
  | .announced length => if length ≤ bytes.length then some (bytes.take length) else none
  | .chunked => readChunks? (bytes.length + 1) 0 bytes
  | .rest => some bytes

end ManifestRelay.Http
