import ManifestRelay.Glob.Scan

/-!
# Alternatives in braces

`expand` replaces the brace groups of a glob by their alternatives until none
is left, and lists the resulting plain globs in the order they are written,
the leftmost group varying slowest. A glob may stand for at most
`maxAlternatives` plain globs.
-/

namespace ManifestRelay.Glob

/-- Upper bound on the plain globs a single glob may stand for. -/
def maxAlternatives : Nat := 1024

inductive BraceError where
  | unclosed
  /-- The glob stands for more than `maxAlternatives` plain globs. -/
  | tooMany
deriving DecidableEq, Repr

namespace BraceError

def message : BraceError → String
  | .unclosed => "unclosed '\x7b'"
  | .tooMany => s!"pattern expands to more than {maxAlternatives} alternatives"

end BraceError

/-- The text inside a group that has been entered, and the text after it;
`depth` counts the inner groups still open. -/
def closeGroup : (depth : Nat) → List Glyph → Option (List Glyph × List Glyph)
  | _, [] => none
  | depth, g :: rest =>
      match g.role, depth with
      | .closing, 0 => some ([], rest)
      | .closing, depth + 1 =>
          (closeGroup depth rest).map fun (body, tail) => (g :: body, tail)
      | .opening, depth =>
          (closeGroup (depth + 1) rest).map fun (body, tail) => (g :: body, tail)
      | _, depth =>
          (closeGroup depth rest).map fun (body, tail) => (g :: body, tail)

/-- The text of a group cut at the commas that no inner group encloses. -/
def alternatives : (depth : Nat) → List Glyph → List (List Glyph)
  | _, [] => [[]]
  | depth, g :: rest =>
      match g.role, depth with
      | .comma, 0 => [] :: alternatives 0 rest
      | .opening, depth => extend g (alternatives (depth + 1) rest)
      | .closing, depth => extend g (alternatives (depth - 1) rest)
      | _, depth => extend g (alternatives depth rest)
where
  extend (g : Glyph) : List (List Glyph) → List (List Glyph)
    | [] => [[g]]
    | first :: others => (g :: first) :: others

/-- The first group of a glob with the text around it. -/
inductive Split where
  | plain
  | unclosed
  | group (before body after : List Glyph)
deriving DecidableEq, Repr

def split (glob : List Glyph) : Split :=
  match glob.dropWhile (·.role != .opening) with
  | [] => .plain
  | _ :: inner =>
      match closeGroup 0 inner with
      | none => .unclosed
      | some (body, after) => .group (glob.takeWhile (·.role != .opening)) body after

theorem length_closeGroup {depth : Nat} {text body after : List Glyph}
    (h : closeGroup depth text = some (body, after)) :
    body.length + after.length + 1 = text.length := by
  fun_induction closeGroup depth text generalizing body after with
  | case1 => simp at h
  | case2 => simp_all
  | case3 | case4 | case5 =>
      rename_i ih
      obtain ⟨⟨inner, tail⟩, hinner, heq⟩ := Option.map_eq_some_iff.1 h
      obtain ⟨rfl, rfl⟩ : _ :: inner = body ∧ tail = after := by simpa using heq
      have := ih hinner
      simp only [List.length_cons]
      omega

theorem length_split {glob before body after : List Glyph}
    (h : split glob = .group before body after) :
    before.length + body.length + after.length + 2 = glob.length := by
  have hparts := congrArg List.length (List.takeWhile_append_dropWhile
    (p := fun g : Glyph => g.role != .opening) (l := glob))
  rw [split] at h
  split at h
  · simp at h
  · next opening inner hrest =>
      split at h
      · simp at h
      · next inside tail hclose =>
          obtain ⟨rfl, rfl, rfl⟩ : _ = before ∧ inside = body ∧ tail = after := by
            simpa using h
          have hlength := length_closeGroup hclose
          rw [hrest, List.length_append, List.length_cons] at hparts
          omega

def powerOfThree : Nat → Nat
  | 0 => 1
  | n + 1 => 3 * powerOfThree n

theorem powerOfThree_pos (n : Nat) : 0 < powerOfThree n := by
  induction n with
  | zero => exact Nat.one_pos
  | succ n ih => exact Nat.mul_pos (by decide) ih

theorem powerOfThree_add (m n : Nat) :
    powerOfThree (m + n) = powerOfThree m * powerOfThree n := by
  induction m with
  | zero => rw [Nat.zero_add, powerOfThree, Nat.one_mul]
  | succ m ih => rw [Nat.succ_add, powerOfThree, powerOfThree, ih, Nat.mul_assoc]

/-- A bound on the number of plain globs, in the length of the text alone. -/
def weight (glob : List Glyph) : Nat := powerOfThree glob.length

theorem weight_pos (glob : List Glyph) : 0 < weight glob := powerOfThree_pos _

theorem weight_cons (g : Glyph) (text : List Glyph) : weight (g :: text) = 3 * weight text := rfl

theorem weight_append (text more : List Glyph) :
    weight (text ++ more) = weight text * weight more := by
  rw [weight, List.length_append, powerOfThree_add]
  rfl

def totalWeight : List (List Glyph) → Nat
  | [] => 0
  | text :: others => weight text + totalWeight others

theorem totalWeight_append (texts more : List (List Glyph)) :
    totalWeight (texts ++ more) = totalWeight texts + totalWeight more := by
  induction texts with
  | nil => rw [List.nil_append, totalWeight, Nat.zero_add]
  | cons text others ih => rw [List.cons_append, totalWeight, totalWeight, ih, Nat.add_assoc]

theorem totalWeight_reverse (texts : List (List Glyph)) :
    totalWeight texts.reverse = totalWeight texts := by
  induction texts with
  | nil => rfl
  | cons text others ih =>
      rw [List.reverse_cons, totalWeight_append, ih, Nat.add_comm]
      rfl

theorem totalWeight_extend (g : Glyph) (parts : List (List Glyph)) :
    totalWeight (alternatives.extend g parts) ≤
      3 * totalWeight parts + if parts = [] then 3 else 0 := by
  cases parts with
  | nil => exact Nat.le_refl 3
  | cons first others =>
      rw [alternatives.extend, if_neg (List.cons_ne_nil first others)]
      rw [totalWeight, totalWeight, weight_cons]
      omega

theorem extend_ne_nil (g : Glyph) (parts : List (List Glyph)) :
    alternatives.extend g parts ≠ [] := by
  cases parts <;> simp [alternatives.extend]

theorem alternatives_ne_nil (depth : Nat) (text : List Glyph) :
    alternatives depth text ≠ [] := by
  fun_cases alternatives depth text <;> simp [extend_ne_nil]

theorem totalWeight_extend_alternatives (g : Glyph) (depth : Nat) (text : List Glyph) :
    totalWeight (alternatives.extend g (alternatives depth text)) ≤
      3 * totalWeight (alternatives depth text) := by
  have h := totalWeight_extend g (alternatives depth text)
  rwa [if_neg (alternatives_ne_nil depth text)] at h

theorem totalWeight_alternatives (depth : Nat) (text : List Glyph) :
    totalWeight (alternatives depth text) ≤ weight text := by
  fun_induction alternatives depth text with
  | case1 => exact Nat.le_refl 1
  | case2 g rest _ ih =>
      have hpos := weight_pos rest
      have hempty : weight [] = 1 := rfl
      rw [totalWeight, weight_cons]
      omega
  | case3 | case4 | case5 =>
      rename_i ih
      rw [weight_cons]
      exact Nat.le_trans (totalWeight_extend_alternatives _ _ _) (Nat.mul_le_mul_left 3 ih)

/-- Texts with the same surroundings weigh what the surroundings weigh, times what they weigh. -/
theorem totalWeight_surrounded (before after : List Glyph) (parts : List (List Glyph)) :
    totalWeight (parts.map fun part => before ++ part ++ after) =
      weight before * weight after * totalWeight parts := by
  induction parts with
  | nil => rfl
  | cons first others ih =>
      rw [List.map_cons, totalWeight, ih, totalWeight, Nat.mul_add]
      rw [weight_append, weight_append, Nat.mul_right_comm]

/-- Replacing a group by its alternatives makes the work smaller. -/
theorem totalWeight_group {glob before body after : List Glyph}
    (h : split glob = .group before body after) :
    totalWeight ((alternatives 0 body).map fun part => before ++ part ++ after) <
      weight glob := by
  have hlength := length_split h
  rw [totalWeight_surrounded]
  have hbody := totalWeight_alternatives 0 body
  have hglob : weight glob = weight before * weight after * weight body * 9 := by
    rw [weight, ← hlength, powerOfThree_add, powerOfThree_add, powerOfThree_add]
    rw [Nat.mul_right_comm (powerOfThree before.length)]
    rfl
  have hle := Nat.mul_le_mul_left (weight before * weight after) hbody
  have hpos := Nat.mul_pos (Nat.mul_pos (weight_pos before) (weight_pos after)) (weight_pos body)
  omega

/-- Expand the globs of `pending`, the first of which is written last; the
plain globs found so far are in `found`, in written order. -/
def expandAll (pending found : List (List Glyph)) :
    Except BraceError (List (List Glyph)) :=
  match pending with
  | [] => .ok found
  | glob :: others =>
      match _h : split glob with
      | .plain => expandAll others (glob :: found)
      | .unclosed => .error .unclosed
      | .group before body after =>
          let parts := (alternatives 0 body).map fun part => before ++ part ++ after
          let waiting := parts.reverse ++ others
          if found.length + waiting.length > maxAlternatives then .error .tooMany
          else expandAll waiting found
termination_by totalWeight pending
decreasing_by
  · have := weight_pos glob
    rw [totalWeight]
    omega
  · have hgroup := totalWeight_group _h
    rw [totalWeight_append, totalWeight_reverse, totalWeight]
    omega

/-- The plain globs a glob stands for, in the order they are written. -/
def expand (glob : List Char) : Except BraceError (List (List Char)) :=
  (expandAll [glyphs glob] []).map (·.map (·.map Glyph.char))

end ManifestRelay.Glob
