/-!
# UTF-8

`Utf8.encode` writes characters as bytes and `Utf8.decode` reads them back. A
refused byte sequence is described by the place where it starts and, unless
the text ends inside it, by the number of bytes that cannot begin a character.
-/

namespace ManifestRelay.Text.Utf8

def encodeChar (c : Char) : List UInt8 :=
  let n := c.toNat
  if n < 0x80 then [UInt8.ofNat n]
  else if n < 0x800 then [UInt8.ofNat (0xC0 + n / 64), UInt8.ofNat (0x80 + n % 64)]
  else if n < 0x10000 then
    [UInt8.ofNat (0xE0 + n / 4096), UInt8.ofNat (0x80 + n / 64 % 64),
      UInt8.ofNat (0x80 + n % 64)]
  else
    [UInt8.ofNat (0xF0 + n / 262144), UInt8.ofNat (0x80 + n / 4096 % 64),
      UInt8.ofNat (0x80 + n / 64 % 64), UInt8.ofNat (0x80 + n % 64)]

def encode (text : List Char) : List UInt8 := text.flatMap encodeChar

/-- Where and how bytes fail to be text. -/
inductive Fault where
  /-- The bytes at `index` begin no character; `length` of them are to blame. -/
  | invalid (index length : Nat)
  /-- The text ends inside the character that starts at `index`. -/
  | incomplete (index : Nat)
deriving DecidableEq, Repr

namespace Fault

def message : Fault → String
  | .invalid index length => s!"invalid utf-8 sequence of {length} bytes from index {index}"
  | .incomplete index => s!"incomplete utf-8 byte sequence from index {index}"

end Fault

/-- Whether a byte continues a character. -/
def isTail (b : UInt8) : Bool := 0x80 ≤ b && b < 0xC0

/-- The six bits that a continuing byte adds. -/
def tailBits (b : UInt8) : Nat := b.toNat % 64

/-- Whether `b` may follow the first byte `a` of a character of three bytes:
no shorter form exists and the character is no surrogate. -/
def second3 (a b : UInt8) : Bool :=
  if a = 0xE0 then 0xA0 ≤ b && b < 0xC0
  else if a = 0xED then 0x80 ≤ b && b < 0xA0
  else isTail b

/-- Whether `b` may follow the first byte `a` of a character of four bytes:
no shorter form exists and the character is in range. -/
def second4 (a b : UInt8) : Bool :=
  if a = 0xF0 then 0x90 ≤ b && b < 0xC0
  else if a = 0xF4 then 0x80 ≤ b && b < 0x90
  else isTail b

/-- Read the bytes from `index` on; `done` holds the characters before them,
newest first. -/
def decodeFrom (index : Nat) (done : List Char) : List UInt8 → Except Fault (List Char)
  | [] => .ok done.reverse
  | a :: rest =>
      if a < 0x80 then decodeFrom (index + 1) (Char.ofNat a.toNat :: done) rest
      else if a < 0xC2 || 0xF4 < a then .error (.invalid index 1)
      else if a < 0xE0 then
        match rest with
        | [] => .error (.incomplete index)
        | b :: rest =>
            if isTail b then
              decodeFrom (index + 2) (Char.ofNat (a.toNat % 32 * 64 + tailBits b) :: done) rest
            else .error (.invalid index 1)
      else if a < 0xF0 then
        match rest with
        | [] => .error (.incomplete index)
        | b :: rest =>
            if !second3 a b then .error (.invalid index 1)
            else match rest with
              | [] => .error (.incomplete index)
              | c :: rest =>
                  if isTail c then
                    let n := a.toNat % 16 * 4096 + tailBits b * 64 + tailBits c
                    decodeFrom (index + 3) (Char.ofNat n :: done) rest
                  else .error (.invalid index 2)
      else
        match rest with
        | [] => .error (.incomplete index)
        | b :: rest =>
            if !second4 a b then .error (.invalid index 1)
            else match rest with
              | [] => .error (.incomplete index)
              | c :: rest =>
                  if !isTail c then .error (.invalid index 2)
                  else match rest with
                    | [] => .error (.incomplete index)
                    | d :: rest =>
                        if isTail d then
                          let n := a.toNat % 8 * 262144 + tailBits b * 4096 + tailBits c * 64 +
                            tailBits d
                          decodeFrom (index + 4) (Char.ofNat n :: done) rest
                        else .error (.invalid index 3)

def decode (bytes : List UInt8) : Except Fault (List Char) := decodeFrom 0 [] bytes

def decode? (bytes : List UInt8) : Option (List Char) := (decode bytes).toOption

end ManifestRelay.Text.Utf8
