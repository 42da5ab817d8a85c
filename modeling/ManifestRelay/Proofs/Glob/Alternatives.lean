import Mathlib.Data.List.TakeWhile
import ManifestRelay.Proofs.Glob.Expansion
import ManifestRelay.Proofs.Outcome

/-!
# Groups as choices

A text whose opening braces are all matched is a row of characters and groups, and a group is a
choice between such rows.  The texts that a row stands for are listed in the order in which they
are written, the choice of the leftmost group varying slowest.  Expansion lists just these, or
refuses if there are more than `maxAlternatives` or if some opening brace is not matched.
-/

namespace ManifestRelay.Glob

/-! ### Matching braces -/

/-- Text that closes every group that it opens, and so many more. -/
inductive Closes : Nat → List Glyph → Prop where
  | nil : Closes 0 []
  | single {count : Nat} {g : Glyph} {rest : List Glyph} (opens : g.role ≠ .opening)
      (closes : g.role ≠ .closing) (h : Closes count rest) : Closes count (g :: rest)
  | opening {count : Nat} {g : Glyph} {rest : List Glyph} (role : g.role = .opening)
      (h : Closes (count + 1) rest) : Closes count (g :: rest)
  | closing {count : Nat} {g : Glyph} {rest : List Glyph} (role : g.role = .closing)
      (h : Closes count rest) : Closes (count + 1) (g :: rest)

/-- Every opening brace is matched: between it and some closing brace, groups that are opened are
closed. -/
def IsMatched (text : List Glyph) : Prop :=
  ∀ before opening after, text = before ++ opening :: after → opening.role = .opening →
    ∃ body closing rest, after = body ++ closing :: rest ∧ closing.role = .closing ∧ Closes 0 body

namespace Closes

variable {count : Nat} {text rest : List Glyph}

theorem append {more : Nat} (h : Closes count text) (hrest : Closes more rest) :
    Closes (count + more) (text ++ rest) := by
  induction h with
  | nil => rwa [Nat.zero_add]
  | single opens closes _ ih => exact .single opens closes ih
  | opening role _ ih =>
      rw [Nat.add_right_comm] at ih
      exact .opening role ih
  | closing role _ ih =>
      rw [Nat.add_right_comm]
      exact .closing role ih

theorem of_append {before : List Glyph} (h : Closes count (before ++ text)) :
    ∃ more, Closes more text := by
  induction before generalizing count with
  | nil => exact ⟨count, h⟩
  | cons g before ih =>
      cases h with
      | single _ _ h => exact ih h
      | opening _ h => exact ih h
      | closing _ h => exact ih h

theorem cut (h : Closes (count + 1) text) : ∃ body closing after,
    text = body ++ closing :: after ∧ closing.role = .closing ∧ Closes 0 body ∧
      Closes count after := by
  generalize hlength : text.length = length
  induction length using Nat.strongRecOn generalizing count text with
  | ind length ih =>
      subst hlength
      cases h with
      | @single _ g rest opens closes h =>
          obtain ⟨body, closing, after, rfl, hclosing, hbody, hafter⟩ :=
            ih rest.length (Nat.lt_succ_self _) h rfl
          exact ⟨g :: body, closing, after, rfl, hclosing, .single opens closes hbody, hafter⟩
      | @opening _ g rest role h =>
          -- the brace that closes this group comes first, the one looked for after it
          obtain ⟨body, closing, more, rfl, hclosing, hbody, hmore⟩ :=
            ih rest.length (Nat.lt_succ_self _) h rfl
          obtain ⟨next, last, after, rfl, hlast, hnext, hafter⟩ :=
            ih more.length (by simp only [List.length_append, List.length_cons]; omega) hmore rfl
          refine ⟨g :: body ++ closing :: next, last, after, ?_, hlast, ?_, hafter⟩
          · simp
          · exact .opening role (hbody.append (.closing hclosing hnext))
      | @closing _ g rest role h => exact ⟨[], g, rest, rfl, role, .nil, h⟩

theorem isMatched (h : Closes count text) : IsMatched text := by
  rintro before opening after rfl hrole
  obtain ⟨more, hmore⟩ := h.of_append
  cases hmore with
  | single opens => exact absurd hrole opens
  | opening _ h =>
      obtain ⟨body, closing, rest, hafter, hclosing, hbody, -⟩ := h.cut
      exact ⟨body, closing, rest, hafter, hclosing, hbody⟩
  | closing role =>
      rw [hrole] at role
      cases role

end Closes

/-- A group is closed by the first brace that closes more than was opened. -/
theorem closeGroup_eq_some_iff {depth : Nat} {text body after : List Glyph} :
    closeGroup depth text = some (body, after) ↔
      Closes depth body ∧ ∃ closing, closing.role = .closing ∧ text = body ++ closing :: after := by
  constructor
  · intro h
    fun_induction closeGroup depth text generalizing body after with
    | case1 => cases h
    | case2 g rest hrole =>
        obtain ⟨rfl, rfl⟩ : [] = body ∧ rest = after := by simpa using h
        exact ⟨.nil, g, hrole, rfl⟩
    | case3 g rest depth hrole ih =>
        obtain ⟨⟨inner, tail⟩, hinner, heq⟩ := Option.map_eq_some_iff.1 h
        obtain ⟨rfl, rfl⟩ := Prod.mk.inj heq
        obtain ⟨hcloses, closing, hclosing, rfl⟩ := ih hinner
        exact ⟨.closing hrole hcloses, closing, hclosing, rfl⟩
    | case4 g rest depth hrole ih =>
        obtain ⟨⟨inner, tail⟩, hinner, heq⟩ := Option.map_eq_some_iff.1 h
        obtain ⟨rfl, rfl⟩ := Prod.mk.inj heq
        obtain ⟨hcloses, closing, hclosing, rfl⟩ := ih hinner
        exact ⟨.opening hrole hcloses, closing, hclosing, rfl⟩
    | case5 g rest depth hzero hsucc hopening ih =>
        obtain ⟨⟨inner, tail⟩, hinner, heq⟩ := Option.map_eq_some_iff.1 h
        obtain ⟨rfl, rfl⟩ := Prod.mk.inj heq
        obtain ⟨hcloses, closing, hclosing, rfl⟩ := ih hinner
        have hrole : g.role ≠ .closing := by
          intro hrole
          cases depth with
          | zero => exact hzero hrole rfl
          | succ depth => exact hsucc depth hrole rfl
        exact ⟨.single hopening hrole hcloses, closing, hclosing, rfl⟩
  · rintro ⟨hcloses, closing, hclosing, rfl⟩
    induction hcloses with
    | nil => simp [closeGroup, hclosing]
    | @single depth g rest opens closes h ih =>
        cases hrole : g.role with
        | opening => exact absurd hrole opens
        | closing => exact absurd hrole closes
        | text | comma => simp [closeGroup, hrole, ih]
    | opening role h ih => simp [closeGroup, role, ih]
    | closing role h ih => simp [closeGroup, role, ih]

namespace IsMatched

variable {text : List Glyph}

theorem of_append {before : List Glyph} (h : IsMatched (before ++ text)) : IsMatched text := by
  rintro front opening after rfl hrole
  exact h (before ++ front) opening after (List.append_assoc ..).symm hrole

theorem single {g : Glyph} (h : IsMatched text) (opens : g.role ≠ .opening) :
    IsMatched (g :: text) := by
  rintro (_ | ⟨first, before⟩) opening after htext hrole
  · obtain ⟨rfl, -⟩ := List.cons.inj htext
    exact absurd hrole opens
  · exact h before opening after (List.cons.inj htext).2 hrole

theorem lead {before : List Glyph} (plain : ∀ g ∈ before, g.role ≠ .opening) (h : IsMatched text) :
    IsMatched (before ++ text) := by
  induction before with
  | nil => exact h
  | cons g before ih =>
      obtain ⟨hg, hbefore⟩ := List.forall_mem_cons.1 plain
      exact (ih hbefore).single hg

theorem group {g closing : Glyph} {body : List Glyph} (hbody : Closes 0 body)
    (hclosing : closing.role = .closing) (h : IsMatched text) :
    IsMatched (g :: body ++ closing :: text) := by
  rintro (_ | ⟨first, before⟩) opening after htext hrole
  · obtain ⟨-, rfl⟩ := List.cons.inj htext
    exact ⟨body, closing, text, rfl, hclosing, hbody⟩
  · have hrest : body ++ closing :: text = before ++ opening :: after := (List.cons.inj htext).2
    rcases List.append_eq_append_iff.1 hrest with ⟨front, rfl, hmore⟩ | ⟨front, rfl, hmore⟩
    · -- behind the group
      have hnot : closing.role ≠ .opening := by
        rw [hclosing]
        exact nofun
      exact h.single hnot front opening after hmore hrole
    · cases front with
      | nil =>
          obtain ⟨rfl, -⟩ := List.cons.inj hmore
          rw [hclosing] at hrole
          cases hrole
      | cons other front =>
          obtain ⟨rfl, rfl⟩ := List.cons.inj hmore
          obtain ⟨inner, last, rest, rfl, hlast, hinner⟩ :=
            hbody.isMatched before opening front rfl hrole
          exact ⟨inner, last, rest ++ closing :: text, by simp, hlast, hinner⟩

end IsMatched

/-! ### Rows and choices -/

mutual

/-- Characters and groups in a row. -/
inductive Row where
  | nil
  | single (g : Glyph) (rest : Row)
  | group (choice : Choice) (rest : Row)

inductive Choice where
  | last (row : Row)
  | more (row : Row) (others : Choice)

end

mutual

def Row.written : Row → List Glyph
  | .nil => []
  | .single g rest => g :: rest.written
  | .group choice rest =>
      ⟨'\x7b', .opening⟩ :: choice.written ++ ⟨'\x7d', .closing⟩ :: rest.written

def Choice.written : Choice → List Glyph
  | .last row => row.written
  | .more row others => row.written ++ ⟨',', .comma⟩ :: others.written

end

mutual

/-- Whether the single characters of a row are no group syntax: inside a group they are all text,
and outside only opening braces count. -/
def Row.IsSound (inGroup : Bool) : Row → Prop
  | .nil => True
  | .single g rest => (if inGroup then g.role = .text else g.role ≠ .opening) ∧ rest.IsSound inGroup
  | .group choice rest => choice.IsSound ∧ rest.IsSound inGroup

def Choice.IsSound : Choice → Prop
  | .last row => row.IsSound true
  | .more row others => row.IsSound true ∧ others.IsSound

end

mutual

/-- The texts that a row stands for, one for each way to choose in its groups. -/
def Row.choices : Row → List (List Glyph)
  | .nil => [[]]
  | .single g rest => rest.choices.map (g :: ·)
  | .group choice rest => choice.choices.flatMap fun text => rest.choices.map (text ++ ·)

def Choice.choices : Choice → List (List Glyph)
  | .last row => row.choices
  | .more row others => row.choices ++ others.choices

end

mutual

/-- The number of texts that a row stands for: a product over its groups, each of which counts as
the sum of its alternatives. -/
def Row.count : Row → Nat
  | .nil => 1
  | .single _ rest => rest.count
  | .group choice rest => choice.count * rest.count

def Choice.count : Choice → Nat
  | .last row => row.count
  | .more row others => row.count + others.count

end

mutual

theorem Row.length_choices (row : Row) : row.choices.length = row.count := by
  cases row with
  | nil => rfl
  | single g rest => rw [Row.choices, List.length_map, Row.count, rest.length_choices]
  | group choice rest =>
      rw [Row.choices, List.length_flatMap, Row.count, ← choice.length_choices,
        ← rest.length_choices]
      simp [List.map_const']

theorem Choice.length_choices (choice : Choice) : choice.choices.length = choice.count := by
  cases choice with
  | last row => exact row.length_choices
  | more row others =>
      rw [Choice.choices, List.length_append, Choice.count, row.length_choices,
        others.length_choices]

end

mutual

theorem Row.count_pos (row : Row) : 0 < row.count := by
  cases row with
  | nil => exact Nat.one_pos
  | single g rest => exact rest.count_pos
  | group choice rest => exact Nat.mul_pos choice.count_pos rest.count_pos

theorem Choice.count_pos (choice : Choice) : 0 < choice.count := by
  cases choice with
  | last row => exact row.count_pos
  | more row others => exact Nat.add_pos_left row.count_pos _

end

/-! ### Rows are the texts with matched braces -/

mutual

theorem Row.closes_written (row : Row) (sound : row.IsSound true) : Closes 0 row.written := by
  cases row with
  | nil => exact .nil
  | single g rest =>
      have hrole : g.role = .text := sound.1
      refine .single ?_ ?_ (rest.closes_written sound.2)
      · rw [hrole]
        exact nofun
      · rw [hrole]
        exact nofun
  | group choice rest =>
      have hrest : Closes 1 (⟨'\x7d', .closing⟩ :: rest.written) :=
        .closing rfl (rest.closes_written sound.2)
      have hbody := (choice.closes_written sound.1).append hrest
      exact .opening rfl hbody

theorem Choice.closes_written (choice : Choice) (sound : choice.IsSound) :
    Closes 0 choice.written := by
  cases choice with
  | last row => exact row.closes_written sound
  | more row others =>
      have hothers : Closes 0 (⟨',', .comma⟩ :: others.written) :=
        .single nofun nofun (others.closes_written sound.2)
      exact (row.closes_written sound.1).append hothers

end

theorem Row.isMatched_written (row : Row) (sound : row.IsSound false) : IsMatched row.written := by
  cases row with
  | nil =>
      rintro before opening after hnil -
      cases before <;> cases hnil
  | single g rest => exact (rest.isMatched_written sound.2).single sound.1
  | group choice rest =>
      exact (rest.isMatched_written sound.2).group (choice.closes_written sound.1) rfl

namespace Glyph

def IsMarked (g : Glyph) : Prop :=
  match g.role with
  | .opening => g.char = '\x7b'
  | .comma => g.char = ','
  | .closing => g.char = '\x7d'
  | .text => True

theorem IsMarked.eq_opening {g : Glyph} (marked : g.IsMarked) (role : g.role = .opening) :
    g = ⟨'\x7b', .opening⟩ := by
  obtain ⟨c, _⟩ := g
  subst role
  exact congrArg (Glyph.mk · .opening) marked

theorem IsMarked.eq_closing {g : Glyph} (marked : g.IsMarked) (role : g.role = .closing) :
    g = ⟨'\x7d', .closing⟩ := by
  obtain ⟨c, _⟩ := g
  subst role
  exact congrArg (Glyph.mk · .closing) marked

end Glyph

theorem isMarked_of_mem_glyphsFrom (inClass : Bool) (glob : List Char) :
    ∀ g ∈ glyphsFrom inClass glob, g.IsMarked := by
  fun_induction glyphsFrom inClass glob with
  | case1 => exact List.forall_mem_nil _
  | case2 inClass => exact List.forall_mem_singleton.2 trivial
  | case3 inClass c rest ih =>
      exact List.forall_mem_cons.2 ⟨trivial, List.forall_mem_cons.2 ⟨trivial, ih⟩⟩
  | case4 c rest _ _ ih => exact List.forall_mem_cons.2 ⟨trivial, ih⟩
  | case5 c rest _ _ ih =>
      refine List.forall_mem_cons.2 ⟨?_, ih⟩
      unfold Glyph.IsMarked roleOf
      split <;> split at * <;> simp_all

namespace Choice

def mapFirst (f : Row → Row) : Choice → Choice
  | last row => last (f row)
  | more row others => more (f row) others

theorem written_mapFirst {f : Row → Row} {text : List Glyph}
    (hf : ∀ row, (f row).written = text ++ row.written) (choice : Choice) :
    (choice.mapFirst f).written = text ++ choice.written := by
  cases choice with
  | last row => exact hf row
  | more row others => rw [mapFirst, written, hf, List.append_assoc, written]

theorem isSound_mapFirst {f : Row → Row} (hf : ∀ row, row.IsSound true → (f row).IsSound true)
    {choice : Choice} (sound : choice.IsSound) : (choice.mapFirst f).IsSound := by
  cases choice with
  | last row => exact hf row sound
  | more row others => exact ⟨hf row sound.1, sound.2⟩

end Choice

theorem exists_choice {text : List Glyph} (marked : ∀ g ∈ text, g.IsMarked) (h : Closes 0 text) :
    ∃ choice : Choice, choice.IsSound ∧ choice.written = text := by
  generalize hlength : text.length = length
  induction length using Nat.strongRecOn generalizing text with
  | ind length ih =>
      subst hlength
      cases h with
      | nil => exact ⟨.last .nil, trivial, rfl⟩
      | @single _ g rest opens closes h =>
          obtain ⟨hg, hrest⟩ := List.forall_mem_cons.1 marked
          obtain ⟨choice, sound, hwritten⟩ := ih rest.length (Nat.lt_succ_self _) hrest h rfl
          obtain ⟨c, role⟩ := g
          cases role with
          | opening => exact absurd rfl opens
          | closing => exact absurd rfl closes
          | comma =>
              obtain rfl : c = ',' := hg
              refine ⟨.more .nil choice, ⟨trivial, sound⟩, ?_⟩
              rw [Choice.written, hwritten]
              rfl
          | text =>
              refine ⟨choice.mapFirst (.single ⟨c, .text⟩), ?_, ?_⟩
              · exact Choice.isSound_mapFirst (f := .single ⟨c, .text⟩) (fun _ h => ⟨rfl, h⟩) sound
              · have hsingle (row : Row) :
                    (Row.single ⟨c, .text⟩ row).written = [⟨c, .text⟩] ++ row.written := by
                  rw [Row.written, List.singleton_append]
                rw [Choice.written_mapFirst hsingle, hwritten, List.singleton_append]
      | @opening _ g rest role h =>
          obtain ⟨hg, hrest⟩ := List.forall_mem_cons.1 marked
          obtain ⟨body, closing, after, rfl, hclosing, hbody, hafter⟩ := h.cut
          obtain ⟨hmarkedBody, hmore⟩ := List.forall_mem_append.1 hrest
          obtain ⟨hmarkedClosing, hmarkedAfter⟩ := List.forall_mem_cons.1 hmore
          obtain ⟨inner, innerSound, hinner⟩ := ih body.length
            (by simp only [List.length_cons, List.length_append]; omega) hmarkedBody hbody rfl
          obtain ⟨choice, sound, hwritten⟩ := ih after.length
            (by simp only [List.length_cons, List.length_append]; omega) hmarkedAfter hafter rfl
          obtain rfl := hg.eq_opening role
          obtain rfl := hmarkedClosing.eq_closing hclosing
          refine ⟨choice.mapFirst (.group inner), ?_, ?_⟩
          · exact Choice.isSound_mapFirst (f := .group inner) (fun _ h => ⟨innerSound, h⟩) sound
          · have hgroup (row : Row) : (Row.group inner row).written =
                (⟨'\x7b', .opening⟩ :: inner.written ++ [⟨'\x7d', .closing⟩]) ++ row.written := by
              simp [Row.written]
            rw [Choice.written_mapFirst hgroup, hwritten, hinner]
            simp

/-- Text with matched braces is a row. -/
theorem exists_row {text : List Glyph} (marked : ∀ g ∈ text, g.IsMarked) (h : IsMatched text) :
    ∃ row : Row, row.IsSound false ∧ row.written = text := by
  generalize hlength : text.length = length
  induction length using Nat.strongRecOn generalizing text with
  | ind length ih =>
      subst hlength
      cases text with
      | nil => exact ⟨.nil, trivial, rfl⟩
      | cons g rest =>
          obtain ⟨hg, hrest⟩ := List.forall_mem_cons.1 marked
          by_cases hrole : g.role = .opening
          · obtain ⟨body, closing, after, rfl, hclosing, hbody⟩ := h [] g rest rfl hrole
            obtain ⟨hmarkedBody, hmore⟩ := List.forall_mem_append.1 hrest
            obtain ⟨hmarkedClosing, hmarkedAfter⟩ := List.forall_mem_cons.1 hmore
            obtain ⟨choice, choiceSound, hchoice⟩ := exists_choice hmarkedBody hbody
            have hafter : IsMatched after := by
              have hsuffix : g :: (body ++ closing :: after) = (g :: body ++ [closing]) ++ after := by
                simp
              exact (hsuffix ▸ h).of_append
            obtain ⟨row, sound, hwritten⟩ := ih after.length
              (by simp only [List.length_cons, List.length_append]; omega) hmarkedAfter hafter rfl
            obtain rfl := hg.eq_opening hrole
            obtain rfl := hmarkedClosing.eq_closing hclosing
            refine ⟨.group choice row, ⟨choiceSound, sound⟩, ?_⟩
            rw [Row.written, hchoice, hwritten]
            rfl
          · have hsuffix : IsMatched rest := by
              rw [← List.singleton_append] at h
              exact h.of_append
            obtain ⟨row, sound, hwritten⟩ := ih rest.length (Nat.lt_succ_self _) hrest hsuffix rfl
            exact ⟨.single g row, ⟨hrole, sound⟩, by rw [Row.written, hwritten]⟩

/-! ### Cutting a group at its commas -/

def prepend (text : List Glyph) (parts : List (List Glyph)) : List (List Glyph) :=
  text.foldr alternatives.extend parts

theorem prepend_cons (text first : List Glyph) (others : List (List Glyph)) :
    prepend text (first :: others) = (text ++ first) :: others := by
  induction text with
  | nil => rfl
  | cons g text ih =>
      have hstep : prepend (g :: text) (first :: others) =
          alternatives.extend g (prepend text (first :: others)) := rfl
      rw [hstep, ih]
      rfl

theorem prepend_append (text more : List Glyph) (parts : List (List Glyph)) :
    prepend (text ++ more) parts = prepend text (prepend more parts) :=
  List.foldr_append

/-- Inside an inner group there is no comma to cut at. -/
theorem alternatives_append_of_closes {count : Nat} {text : List Glyph} (h : Closes count text)
    (depth : Nat) (rest : List Glyph) :
    alternatives (count + depth + 1) (text ++ rest) = prepend text (alternatives (depth + 1) rest) := by
  induction h with
  | nil => rw [Nat.zero_add]; rfl
  | @single count g text opens closes _ ih =>
      have hstep : alternatives (count + depth + 1) (g :: (text ++ rest)) =
          alternatives.extend g (alternatives (count + depth + 1) (text ++ rest)) := by
        cases hrole : g.role with
        | opening => exact absurd hrole opens
        | closing => exact absurd hrole closes
        | comma | text => simp [alternatives, hrole]
      rw [List.cons_append, hstep, ih]
      rfl
  | @opening count g text role _ ih =>
      rw [Nat.add_right_comm count 1 depth] at ih
      have hstep : alternatives (count + depth + 1) (g :: (text ++ rest)) =
          alternatives.extend g (alternatives (count + depth + 1 + 1) (text ++ rest)) := by
        simp [alternatives, role]
      rw [List.cons_append, hstep, ih]
      rfl
  | @closing count g text role _ ih =>
      rw [Nat.add_right_comm count 1 depth]
      have hstep : alternatives (count + depth + 1 + 1) (g :: (text ++ rest)) =
          alternatives.extend g (alternatives (count + depth + 1) (text ++ rest)) := by
        simp [alternatives, role]
      rw [List.cons_append, hstep, ih]
      rfl

/-- A row in a group is part of one alternative. -/
theorem Row.alternatives_written (row : Row) (sound : row.IsSound true) (rest : List Glyph) :
    alternatives 0 (row.written ++ rest) = prepend row.written (alternatives 0 rest) := by
  cases row with
  | nil => rfl
  | single g more =>
      have hrole : g.role = .text := sound.1
      have hstep : alternatives 0 (g :: (more.written ++ rest)) =
          alternatives.extend g (alternatives 0 (more.written ++ rest)) := by
        simp [alternatives, hrole]
      rw [Row.written, List.cons_append, hstep, more.alternatives_written sound.2]
      rfl
  | group choice more =>
      have hopening (text : List Glyph) : alternatives 0 (⟨'\x7b', .opening⟩ :: text) =
          alternatives.extend ⟨'\x7b', .opening⟩ (alternatives 1 text) := by
        simp [alternatives]
      have hbody : alternatives 1 (choice.written ++ ⟨'\x7d', .closing⟩ :: (more.written ++ rest)) =
          prepend choice.written (alternatives 1 (⟨'\x7d', .closing⟩ :: (more.written ++ rest))) :=
        alternatives_append_of_closes (choice.closes_written sound.1) 0 _
      have hclosing : alternatives 1 (⟨'\x7d', .closing⟩ :: (more.written ++ rest)) =
          alternatives.extend ⟨'\x7d', .closing⟩ (alternatives 0 (more.written ++ rest)) := by
        simp [alternatives]
      calc alternatives 0 ((Row.group choice more).written ++ rest)
        _ = alternatives 0 (⟨'\x7b', .opening⟩ ::
              (choice.written ++ ⟨'\x7d', .closing⟩ :: (more.written ++ rest))) := by
            simp [Row.written]
        _ = alternatives.extend ⟨'\x7b', .opening⟩ (prepend choice.written
              (alternatives.extend ⟨'\x7d', .closing⟩
                (prepend more.written (alternatives 0 rest)))) := by
            rw [hopening, hbody, hclosing, more.alternatives_written sound.2]
        _ = prepend (Row.group choice more).written (alternatives 0 rest) := by
            rw [Row.written, prepend_append]
            rfl

def Choice.rows : Choice → List Row
  | last row => [row]
  | more row others => row :: others.rows

/-- A group is cut into its alternatives. -/
theorem Choice.alternatives_written (choice : Choice) (sound : choice.IsSound) :
    alternatives 0 choice.written = choice.rows.map Row.written := by
  cases choice with
  | last row =>
      have hrow := row.alternatives_written sound []
      have hend : prepend row.written (alternatives 0 []) = [row.written ++ []] := prepend_cons _ [] []
      rw [hend, List.append_nil] at hrow
      exact hrow
  | more row others =>
      have hcomma : alternatives 0 (⟨',', .comma⟩ :: others.written) =
          [] :: alternatives 0 others.written := by
        simp [alternatives]
      rw [Choice.written, row.alternatives_written sound.1, hcomma, prepend_cons, List.append_nil,
        others.alternatives_written sound.2]
      rfl

theorem Choice.isSound_of_mem_rows (choice : Choice) (sound : choice.IsSound) :
    ∀ row ∈ choice.rows, row.IsSound true := by
  cases choice with
  | last row => exact List.forall_mem_singleton.2 sound
  | more row others =>
      exact List.forall_mem_cons.2 ⟨sound.1, others.isSound_of_mem_rows sound.2⟩

theorem Choice.choices_eq (choice : Choice) : choice.choices = choice.rows.flatMap Row.choices := by
  cases choice with
  | last row => simp [Choice.choices, Choice.rows]
  | more row others => rw [Choice.choices, others.choices_eq, Choice.rows, List.flatMap_cons]

/-! ### Opening the first group of a row -/

namespace Row

def lead (before : List Glyph) (row : Row) : Row := before.foldr single row

def append : Row → Row → Row
  | nil, more => more
  | single g rest, more => single g (rest.append more)
  | group choice rest, more => group choice (rest.append more)

variable (before : List Glyph) (choice : Choice) (rest : Row)

theorem written_lead (row : Row) : (lead before row).written = before ++ row.written := by
  induction before with
  | nil => rfl
  | cons g before ih => exact congrArg (g :: ·) ih

theorem choices_lead (row : Row) : (lead before row).choices = row.choices.map (before ++ ·) := by
  induction before with
  | nil => simp [lead]
  | cons g before ih =>
      have hstep : (lead (g :: before) row).choices = (lead before row).choices.map (g :: ·) := rfl
      rw [hstep, ih, List.map_map]
      rfl

theorem written_append (row : Row) : (row.append rest).written = row.written ++ rest.written := by
  cases row with
  | nil => rfl
  | single g more => rw [append, written, more.written_append, written, List.cons_append]
  | group choice more => simp [append, written, more.written_append]

theorem choices_append (row : Row) : (row.append rest).choices =
    row.choices.flatMap fun text => rest.choices.map (text ++ ·) := by
  cases row with
  | nil => simp [append, choices]
  | single g more =>
      rw [append, choices, more.choices_append, choices, List.map_flatMap, List.flatMap_map]
      simp [Function.comp_def]
  | group choice more =>
      rw [append, choices, more.choices_append, choices, List.flatMap_assoc]
      simp [List.map_flatMap, List.flatMap_map, Function.comp_def]

theorem isSound_lead {before : List Glyph} (plain : ∀ g ∈ before, g.role ≠ .opening) {row : Row}
    (sound : row.IsSound false) : (lead before row).IsSound false := by
  induction before with
  | nil => exact sound
  | cons g before ih =>
      obtain ⟨hg, hbefore⟩ := List.forall_mem_cons.1 plain
      exact ⟨hg, ih hbefore⟩

theorem isSound_append (row : Row) (sound : row.IsSound true) {rest : Row}
    (hrest : rest.IsSound false) : (row.append rest).IsSound false := by
  cases row with
  | nil => exact hrest
  | single g more =>
      have hrole : g.role = .text := sound.1
      refine ⟨?_, more.isSound_append sound.2 hrest⟩
      rw [hrole]
      exact nofun
  | group choice more => exact ⟨sound.1, more.isSound_append sound.2 hrest⟩

/-- The rows that a row with a group first is replaced by. -/
def opened : List Row := choice.rows.map fun row => lead before (row.append rest)

theorem written_opened : (opened before choice rest).map written =
    (choice.rows.map written).map fun part => before ++ part ++ rest.written := by
  rw [opened, List.map_map, List.map_map]
  refine List.map_congr_left fun row _ => ?_
  simp [written_lead, written_append]

/-- Opening a group changes neither the texts nor their order. -/
theorem choices_opened :
    (opened before choice rest).flatMap choices = (lead before (group choice rest)).choices := by
  rw [choices_lead, choices, choice.choices_eq, opened, List.flatMap_map, List.flatMap_assoc,
    List.map_flatMap]
  refine congrArg (choice.rows.flatMap ·) (funext fun row => ?_)
  rw [choices_lead, choices_append]

theorem isSound_of_mem_opened {before : List Glyph} (plain : ∀ g ∈ before, g.role ≠ .opening)
    {choice : Choice} (sound : choice.IsSound) {rest : Row} (hrest : rest.IsSound false) :
    ∀ row ∈ opened before choice rest, row.IsSound false := by
  intro row hrow
  obtain ⟨inner, hinner, rfl⟩ := List.mem_map.1 hrow
  exact isSound_lead plain (inner.isSound_append (choice.isSound_of_mem_rows sound inner hinner) hrest)

/-- The first group of the text of a row is that of the row. -/
theorem split_written (row : Row) (sound : row.IsSound false) :
    (split row.written = .plain ∧ row.choices = [row.written]) ∨
      ∃ before choice rest, row = lead before (group choice rest) ∧
        split row.written = .group before choice.written rest.written ∧
        (∀ g ∈ before, g.role ≠ .opening) ∧ choice.IsSound ∧ rest.IsSound false := by
  cases row with
  | nil => exact .inl ⟨rfl, rfl⟩
  | single g more =>
      have hplain : ∀ h ∈ [g], h.role ≠ .opening := List.forall_mem_singleton.2 sound.1
      have hsplit := @split_append [g] more.written hplain
      rw [List.singleton_append] at hsplit
      rcases more.split_written sound.2 with ⟨hmore, hchoices⟩ | hgroup
      · left
        rw [written, hsplit, hmore, choices, hchoices]
        exact ⟨rfl, rfl⟩
      · obtain ⟨before, choice, rest, rfl, hfirst, hbefore, hchoice, hrest⟩ := hgroup
        refine .inr ⟨g :: before, choice, rest, rfl, ?_, ?_, hchoice, hrest⟩
        · rw [written, hsplit, hfirst]
          rfl
        · exact List.forall_mem_cons.2 ⟨sound.1, hbefore⟩
  | group choice rest =>
      refine .inr ⟨[], choice, rest, rfl, ?_, nofun, sound.1, sound.2⟩
      have hclose : closeGroup 0 (choice.written ++ ⟨'\x7d', .closing⟩ :: rest.written) =
          some (choice.written, rest.written) :=
        closeGroup_eq_some_iff.2 ⟨choice.closes_written sound.1, _, rfl, rfl⟩
      simp [split, written, hclose]

variable {row : Row} (sound : row.IsSound false)

include sound

theorem choices_of_plain (h : split row.written = .plain) : row.choices = [row.written] := by
  rcases row.split_written sound with ⟨-, hchoices⟩ | ⟨_, _, _, -, hgroup, -⟩
  · exact hchoices
  · rw [h] at hgroup
    cases hgroup

theorem split_ne_unclosed : split row.written ≠ .unclosed := by
  intro h
  rcases row.split_written sound with ⟨hplain, -⟩ | ⟨_, _, _, -, hgroup, -⟩
  · rw [h] at hplain
    cases hplain
  · rw [h] at hgroup
    cases hgroup

/-- The texts that a text with a group is replaced by are rows, which stand for the same texts. -/
theorem rows_of_group {before body after : List Glyph}
    (h : split row.written = .group before body after) : ∃ rows : List Row,
      rows.map written = (alternatives 0 body).map (fun part => before ++ part ++ after) ∧
      (∀ row ∈ rows, row.IsSound false) ∧ rows.flatMap choices = row.choices := by
  rcases row.split_written sound with ⟨hplain, -⟩ | hgroup
  · rw [h] at hplain
    cases hplain
  · obtain ⟨front, choice, rest, rfl, hfirst, hplain, hchoice, hrest⟩ := hgroup
    rw [h] at hfirst
    obtain ⟨rfl, rfl, rfl⟩ := Split.group.inj hfirst
    refine ⟨opened before choice rest, ?_, isSound_of_mem_opened hplain hchoice hrest,
      choices_opened before choice rest⟩
    rw [written_opened, choice.alternatives_written hchoice]

end Row

/-! ### Expansion lists the choices -/

theorem length_le_length_choices (rows : List Row) :
    rows.length ≤ (rows.flatMap Row.choices).length := by
  induction rows with
  | nil => exact Nat.le_refl 0
  | cons row rows ih =>
      rw [List.flatMap_cons, List.length_append, List.length_cons, row.length_choices]
      have hpos := row.count_pos
      omega

/-- What expansion comes to with rows ahead: their choices in written order, unless these are too
many.  Opening a group changes nothing of that, and every row stands for at least one text, so the
limit is exceeded on the way just if it is exceeded in the end. -/
theorem expandAll_written (rows : List Row) (sound : ∀ row ∈ rows, row.IsSound false)
    (found : List (List Glyph)) (bounded : found.length + rows.length ≤ maxAlternatives) :
    expandAll (rows.map Row.written) found =
      if found.length + (rows.flatMap Row.choices).length ≤ maxAlternatives then
        .ok (rows.reverse.flatMap Row.choices ++ found)
      else .error .tooMany := by
  generalize htexts : rows.map Row.written = texts
  fun_induction expandAll texts found generalizing rows with
  | case1 found =>
      obtain rfl := List.map_eq_nil_iff.1 htexts
      exact (if_pos bounded).symm
  | case2 found glob others hsplit ih =>
      obtain ⟨row, rows, rfl, rfl, rfl⟩ := List.map_eq_cons_iff.1 htexts
      obtain ⟨hrow, hrows⟩ := List.forall_mem_cons.1 sound
      have hchoices := Row.choices_of_plain hrow hsplit
      have hlength : (row.written :: found).length + (rows.flatMap Row.choices).length =
          found.length + ((row :: rows).flatMap Row.choices).length := by
        rw [List.flatMap_cons, hchoices, List.length_cons, List.length_append,
          List.length_singleton]
        omega
      have hlist : rows.reverse.flatMap Row.choices ++ row.written :: found =
          (row :: rows).reverse.flatMap Row.choices ++ found := by
        simp [hchoices]
      have hbounded : (row.written :: found).length + rows.length ≤ maxAlternatives := by
        simp only [List.length_cons] at bounded ⊢
        omega
      rw [ih rows hrows hbounded rfl, hlength, hlist]
  | case3 found glob others hsplit =>
      obtain ⟨row, rows, rfl, rfl, rfl⟩ := List.map_eq_cons_iff.1 htexts
      exact absurd hsplit (Row.split_ne_unclosed (sound row List.mem_cons_self))
  | case4 found glob others before body after hsplit parts waiting hmany =>
      obtain ⟨row, rows, rfl, rfl, rfl⟩ := List.map_eq_cons_iff.1 htexts
      obtain ⟨hrow, -⟩ := List.forall_mem_cons.1 sound
      obtain ⟨inner, hinner, -, hchoices⟩ := Row.rows_of_group hrow hsplit
      have hparts : parts.length = inner.length := by rw [← List.length_map Row.written, hinner]
      have hinnerLe := length_le_length_choices inner
      have hrowsLe := length_le_length_choices rows
      rw [hchoices] at hinnerLe
      refine (if_neg ?_).symm
      simp only [waiting, List.length_append, List.length_reverse, List.length_map] at hmany
      rw [List.flatMap_cons, List.length_append]
      omega
  | case5 found glob others before body after hsplit parts waiting hfew ih =>
      obtain ⟨row, rows, rfl, rfl, rfl⟩ := List.map_eq_cons_iff.1 htexts
      obtain ⟨hrow, hrows⟩ := List.forall_mem_cons.1 sound
      obtain ⟨inner, hinner, hinnerSound, hchoices⟩ := Row.rows_of_group hrow hsplit
      have hwaiting : (inner.reverse ++ rows).map Row.written = waiting := by
        rw [List.map_append, List.map_reverse, hinner]
      have hsound : ∀ row ∈ inner.reverse ++ rows, row.IsSound false :=
        List.forall_mem_append.2 ⟨fun row h => hinnerSound row (List.mem_reverse.1 h), hrows⟩
      have hbounded : found.length + (inner.reverse ++ rows).length ≤ maxAlternatives := by
        rw [← List.length_map Row.written, hwaiting]
        exact Nat.le_of_not_gt hfew
      have hlength : ((inner.reverse ++ rows).flatMap Row.choices).length =
          ((row :: rows).flatMap Row.choices).length := by
        have hreverse := (List.reverse_perm inner).flatMap_right Row.choices
        rw [List.flatMap_append, List.length_append, hreverse.length_eq, hchoices,
          List.flatMap_cons, List.length_append]
      have hlist : (inner.reverse ++ rows).reverse.flatMap Row.choices =
          (row :: rows).reverse.flatMap Row.choices := by
        simp [hchoices]
      rw [ih _ hsound hbounded hwaiting, hlength, hlist]

/-! ### Whole globs -/

/-- A row that is written like a glob. -/
structure Row.Describes (row : Row) (glob : List Char) : Prop where
  sound : row.IsSound false
  written_eq : row.written = glyphs glob

/-- Just the globs with matched braces are written like rows. -/
theorem isMatched_iff_describes (glob : List Char) :
    IsMatched (glyphs glob) ↔ ∃ row : Row, row.Describes glob := by
  constructor
  · intro h
    obtain ⟨row, sound, hwritten⟩ := exists_row (isMarked_of_mem_glyphsFrom false glob) h
    exact ⟨row, sound, hwritten⟩
  · rintro ⟨row, sound, hwritten⟩
    rw [← hwritten]
    exact row.isMatched_written sound

theorem expand_of_describes {row : Row} {glob : List Char} (h : row.Describes glob) :
    expand glob = if row.count ≤ maxAlternatives then
      .ok (row.choices.map (·.map Glyph.char)) else .error .tooMany := by
  have hall := expandAll_written [row] (List.forall_mem_singleton.2 h.sound) []
    (by simp [maxAlternatives])
  rw [List.map_singleton, h.written_eq] at hall
  rw [expand, hall]
  by_cases hcount : row.count ≤ maxAlternatives
  · simp [row.length_choices, hcount, Except.map]
  · simp [row.length_choices, hcount, Except.map]

theorem split_eq_group {glob before body after : List Glyph}
    (h : split glob = .group before body after) :
    (∀ g ∈ before, g.role ≠ .opening) ∧ Closes 0 body ∧ ∃ opening closing,
      opening.role = .opening ∧ closing.role = .closing ∧
        glob = before ++ opening :: body ++ closing :: after := by
  have hparts : glob.takeWhile (·.role != .opening) ++ glob.dropWhile (·.role != .opening) = glob :=
    List.takeWhile_append_dropWhile
  rw [split] at h
  split at h
  · cases h
  · next opening inner hrest =>
      split at h
      · cases h
      · next inside tail hclose =>
          obtain ⟨rfl, rfl, rfl⟩ := Split.group.inj h
          obtain ⟨hbody, closing, hclosing, rfl⟩ := closeGroup_eq_some_iff.1 hclose
          have hopening : opening.role = .opening := by
            have hhead := List.head?_dropWhile_not (fun g : Glyph => g.role != .opening) glob
            rw [hrest] at hhead
            simpa using hhead
          refine ⟨fun g hg => ?_, hbody, opening, closing, hopening, hclosing, ?_⟩
          · simpa using List.mem_takeWhile_imp hg
          · calc glob
              _ = _ := hparts.symm
              _ = _ := by rw [hrest, List.append_assoc, List.cons_append]

theorem role_ne_of_split_eq_plain {glob : List Glyph} (h : split glob = .plain) :
    ∀ g ∈ glob, g.role ≠ .opening := by
  rw [split] at h
  split at h
  · next hrest => simpa using List.dropWhile_eq_nil_iff.1 hrest
  · split at h <;> cases h

/-- Expansion meets every opening brace, and so refuses one that is not matched. -/
theorem isMatched_of_expandAll {pending found plain : List (List Glyph)}
    (h : expandAll pending found = .ok plain) : ∀ text ∈ pending, IsMatched text := by
  fun_induction expandAll pending found with
  | case1 => exact List.forall_mem_nil _
  | case2 found glob others hsplit ih =>
      refine List.forall_mem_cons.2 ⟨?_, ih h⟩
      rintro before opening after rfl hrole
      exact absurd hrole (role_ne_of_split_eq_plain hsplit opening (by simp))
  | case3 => cases h
  | case4 => cases h
  | case5 found glob others before body after hsplit parts waiting _ ih =>
      obtain ⟨hparts, hothers⟩ := List.forall_mem_append.1 (ih h)
      obtain ⟨hbefore, hbody, opening, closing, -, hclosing, rfl⟩ := split_eq_group hsplit
      refine List.forall_mem_cons.2 ⟨?_, hothers⟩
      -- any alternative will do: what comes after the group comes after each of them
      obtain ⟨part, hpart⟩ := List.exists_mem_of_ne_nil _ (alternatives_ne_nil 0 body)
      have hafter : IsMatched after :=
        (hparts _ (List.mem_reverse.2 (List.mem_map.2 ⟨part, hpart, rfl⟩))).of_append
      rw [List.append_assoc]
      exact (IsMatched.group hbody hclosing hafter).lead hbefore

theorem isMatched_of_expand {glob : List Char} {plain : List (List Char)}
    (h : expand glob = .ok plain) : IsMatched (glyphs glob) := by
  obtain ⟨texts, hall, -⟩ := Outcome.map_eq_ok.1 h
  exact isMatched_of_expandAll hall _ List.mem_cons_self

end ManifestRelay.Glob
