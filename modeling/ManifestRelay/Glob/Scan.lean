/-!
# Reading a glob from left to right

A backslash takes the next character with it, and an unescaped `[` opens a
character class that lasts to the next unescaped `]`. Braces and commas count
as group syntax only outside escapes and classes; `glyphs` gives every
character of a glob the part it plays in that reading.
-/

namespace ManifestRelay.Glob

/-- The part a character of a glob plays in the grouping of alternatives. -/
inductive Role where
  | text
  | opening
  | comma
  | closing
deriving DecidableEq, Repr

structure Glyph where
  char : Char
  role : Role
deriving DecidableEq, Repr

namespace Glyph

def plain (c : Char) : Glyph := ⟨c, .text⟩

end Glyph

/-- The role of an unescaped character outside character classes. -/
def roleOf : Char → Role
  | '{' => .opening
  | ',' => .comma
  | '}' => .closing
  | _ => .text

/-- The characters of a glob with their roles; `inClass` says whether the text
starts inside a character class. -/
def glyphsFrom : (inClass : Bool) → List Char → List Glyph
  | _, [] => []
  | _, ['\\'] => [.plain '\\']
  | inClass, '\\' :: c :: rest => .plain '\\' :: .plain c :: glyphsFrom inClass rest
  | true, c :: rest => .plain c :: glyphsFrom (c != ']') rest
  | false, c :: rest => ⟨c, roleOf c⟩ :: glyphsFrom (c == '[') rest

def glyphs (glob : List Char) : List Glyph := glyphsFrom false glob

theorem map_char_glyphsFrom (inClass : Bool) (glob : List Char) :
    (glyphsFrom inClass glob).map Glyph.char = glob := by
  fun_induction glyphsFrom inClass glob <;> simp_all [Glyph.plain]

theorem map_char_glyphs (glob : List Char) : (glyphs glob).map Glyph.char = glob :=
  map_char_glyphsFrom false glob

end ManifestRelay.Glob
