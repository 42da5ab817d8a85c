import ManifestRelay.Glob.Matcher
import ManifestRelay.Proofs.Glob.Rewriting
import ManifestRelay.Proofs.Glob.Tokens

/-!
# Escaped text

A backslash in front of every metacharacter takes all meaning from a text: neither the search for
groups nor the spelling of the pattern nor its reading finds anything in it but its characters, one
after the other.  The glob then matches the text that was escaped and nothing else.
-/

namespace ManifestRelay.Glob

open Outcome

def escape (chosen : Char → Bool) (text : List Char) : List Char :=
  text.flatMap fun c => if chosen c then ['\\', c] else [c]

/-- The characters that are spelled as a class of their own when they are escaped. -/
def bracketed : List Char := ['*', '?', '[', ']']

def spellEscaped (c : Char) : List Char :=
  if c ∈ bracketed then ['[', c, ']'] else [c]

theorem spell_backslash (c : Char) (rest : List Char) :
    spell ('\\' :: c :: rest) = spellEscaped c ++ spell rest := by
  rw [spell, spellEscaped, bracketed]
  split <;> rfl

/-! ### Characters without a meaning of their own -/

theorem role_plain_ne (c : Char) : (Glyph.plain c).role ≠ .opening := by
  intro h
  cases h

section Plain

variable {c : Char} (plain : c ∉ metaChars)

include plain

theorem ne_backslash_of_plain : c ≠ '\\' := fun h => plain (h ▸ by decide)

theorem spell_plain (rest : List Char) : spell (c :: rest) = spellEscaped c ++ spell rest := by
  have hclass : c ≠ '[' := fun h => plain (h ▸ by decide)
  have hspelled : spellEscaped c = [c] := by
    rw [spellEscaped, if_neg]
    simp only [metaChars, bracketed, List.mem_cons] at plain ⊢
    grind
  rw [spell_cons (ne_backslash_of_plain plain) hclass, hspelled, List.singleton_append]

theorem glyphsFrom_plain (inClass : Bool) (rest : List Char) : ∃ g : Glyph, g.role ≠ .opening ∧
    glyphsFrom inClass (c :: rest) = g :: glyphsFrom inClass rest := by
  have hescape := ne_backslash_of_plain plain
  cases inClass with
  | true =>
      have hclose : (c != ']') = true := by
        simpa using fun h : c = ']' => plain (h ▸ by decide)
      exact ⟨.plain c, role_plain_ne c, by rw [glyphsFrom_inside hescape, hclose]⟩
  | false =>
      have hopen : (c == '[') = false := by
        simpa using fun h : c = '[' => plain (h ▸ by decide)
      have hrole : roleOf c ≠ .opening := role_of_plain (List.forall_mem_singleton.2 plain) _
        (List.mem_singleton.2 rfl)
      exact ⟨⟨c, roleOf c⟩, hrole, by rw [glyphsFrom_outside hescape, hopen]⟩

end Plain

/-! ### Escaping at least the metacharacters -/

section Covers

variable {chosen : Char → Bool} (covers : ∀ c ∈ metaChars, chosen c = true)

include covers

/-- Escaped text has no group syntax, and leaves a class as open or closed as it was. -/
theorem glyphsFrom_escape (inClass : Bool) (text rest : List Char) :
    ∃ front, (∀ g ∈ front, g.role ≠ .opening) ∧
      glyphsFrom inClass (escape chosen text ++ rest) = front ++ glyphsFrom inClass rest := by
  induction text with
  | nil => exact ⟨[], List.forall_mem_nil _, rfl⟩
  | cons c more ih =>
      obtain ⟨front, hfront, hmore⟩ := ih
      rw [escape, List.flatMap_cons, ← escape, List.append_assoc]
      by_cases hc : chosen c = true
      · refine ⟨.plain '\\' :: .plain c :: front, ?_, ?_⟩
        · exact List.forall_mem_cons.2
            ⟨role_plain_ne '\\', List.forall_mem_cons.2 ⟨role_plain_ne c, hfront⟩⟩
        · rw [if_pos hc, List.cons_append, List.singleton_append, glyphsFrom, hmore]
          rfl
      · obtain ⟨g, hg, hstep⟩ := glyphsFrom_plain (fun h => hc (covers c h)) inClass
          (escape chosen more ++ rest)
        refine ⟨g :: front, List.forall_mem_cons.2 ⟨hg, hfront⟩, ?_⟩
        rw [if_neg hc, List.singleton_append, hstep, hmore]
        rfl

theorem spell_escape (text rest : List Char) :
    spell (escape chosen text ++ rest) = text.flatMap spellEscaped ++ spell rest := by
  induction text with
  | nil => rfl
  | cons c more ih =>
      rw [escape, List.flatMap_cons, ← escape, List.append_assoc, List.flatMap_cons,
        List.append_assoc, ← ih]
      by_cases hc : chosen c = true
      · rw [if_pos hc, List.cons_append, List.singleton_append, spell_backslash]
      · rw [if_neg hc, List.singleton_append, spell_plain fun h => hc (covers c h)]

end Covers

/-! ### Globs without groups -/

theorem expand_eq_self {glob : List Char} (h : ∀ g ∈ glyphs glob, g.role ≠ .opening) :
    expand glob = .ok [glob] := by
  have hsplit : split (glyphs glob) = .plain := by
    have happend := @split_append (glyphs glob) [] h
    rwa [List.append_nil] at happend
  have hall : expandAll [glyphs glob] [] = .ok [glyphs glob] := by
    rw [expandAll.eq_2]
    split
    · rw [expandAll]
    · next hunclosed =>
        rw [hsplit] at hunclosed
        cases hunclosed
    · next hgroup =>
        rw [hsplit] at hgroup
        cases hgroup
  rw [expand, hall]
  exact congrArg (fun text => Except.ok [text]) (map_char_glyphs glob)

namespace Matcher

theorem ofChars_eq_ok_iff {glob : List Char} (h : ∀ g ∈ glyphs glob, g.role ≠ .opening)
    {matcher : Matcher} : ofChars glob = .ok matcher ↔
      ∃ tokens, Token.ofText (spell glob) = .ok tokens ∧ matcher = ⟨[tokens]⟩ := by
  have hplain : (expand glob).mapError GlobError.braces = .ok [glob] := by
    rw [expand_eq_self h]
    rfl
  rw [ofChars, hplain, ok_bind, List.mapM_cons, List.mapM_nil, bind_eq_ok]
  constructor
  · rintro ⟨patterns, hpatterns, heq⟩
    obtain ⟨tokens, htokens, hrest⟩ := bind_eq_ok.1 hpatterns
    cases hrest
    cases heq
    exact ⟨tokens, mapError_eq_ok.1 htokens, rfl⟩
  · rintro ⟨tokens, htokens, rfl⟩
    exact ⟨[tokens], by rw [mapError_eq_ok.2 htokens]; rfl, rfl⟩

theorem matchesPath_single (tokens : List Token) (path : String) :
    (Matcher.mk [tokens]).matchesPath path = true ↔ Token.run tokens path.toList = .hit := by
  simp [matchesPath, matchesChars, Token.matchesPath]

end Matcher

/-! ### Classes -/

theorem cutAt_append {stop : Char} {before : List Char} (h : stop ∉ before) (after : List Char) :
    cutAt stop (before ++ stop :: after) = some (before, after) := by
  induction before with
  | nil => simp [cutAt]
  | cons c more ih =>
      obtain ⟨hc, hmore⟩ : stop ≠ c ∧ stop ∉ more := by simpa using h
      rw [List.cons_append, cutAt, if_neg (Ne.symm hc), ih hmore]
      rfl

theorem readClass_closed {first : Char} {items : List Char} (hbang : first ≠ '!')
    (hclose : ']' ∉ items) (after : List Char) :
    readClass ((first :: items) ++ ']' :: after) =
      some (.oneOf (Span.ofText (first :: items)), after, items.length + 2) := by
  simp [readClass, hbang, cutAt_append hclose]

theorem readClass_excluded (first : Char) {items : List Char} (hclose : ']' ∉ items)
    (after : List Char) :
    readClass ('!' :: (first :: items) ++ ']' :: after) =
      some (.noneOf (Span.ofText (first :: items)), after, 1 + items.length + 2) := by
  simp [readClass, cutAt_append hclose]

/-! ### Patterns of escaped text -/

namespace Token

theorem ofTextFrom_class {text after : List Char} {token : Token} {taken : Nat}
    (h : readClass text = some (token, after, taken)) (position : Nat) (previous : Option Char) :
    ofTextFrom position previous ('[' :: text) =
      (ofTextFrom (position + 1 + taken) (some ']') after).map (token :: ·) := by
  rw [ofTextFrom]
  split
  · next hnone =>
      rw [h] at hnone
      cases hnone
  · next hsome =>
      cases h.symm.trans hsome
      rfl

def ofEscaped (c : Char) : Token :=
  if c ∈ bracketed then .oneOf [.one c] else .literal c

theorem ofTextFrom_spellEscaped (position : Nat) (previous : Option Char) (text : List Char) :
    ofTextFrom position previous (text.flatMap spellEscaped) = .ok (text.map ofEscaped) := by
  induction text generalizing position previous with
  | nil => rw [List.flatMap_nil, ofTextFrom, List.map_nil]
  | cons c more ih =>
      rw [List.flatMap_cons, List.map_cons, spellEscaped, ofEscaped]
      by_cases hc : c ∈ bracketed
      · have hbang : c ≠ '!' := fun h => absurd (h ▸ hc) (by decide)
        have hclass := readClass_closed hbang List.not_mem_nil (more.flatMap spellEscaped)
        rw [List.singleton_append] at hclass
        rw [if_pos hc, if_pos hc, List.cons_append, List.cons_append, List.singleton_append,
          ofTextFrom_class hclass, ih]
        rfl
      · have hordinary : c ∉ ['?', '*', '['] := by
          simp only [bracketed, List.mem_cons] at hc ⊢
          grind
        rw [if_neg hc, if_neg hc, List.singleton_append, ofTextFrom_cons hordinary, ih]
        rfl

theorem accepts_ofEscaped (c d : Char) : (ofEscaped c).accepts d = true ↔ d = c := by
  rw [ofEscaped]
  split
  · next hc =>
      have hslash : c ≠ '/' := fun h => absurd (h ▸ hc) (by decide)
      simp only [accepts, Span.contains, List.any_cons, List.any_nil]
      grind
  · simp [accepts]

theorem run_map_ofEscaped (text path : List Char) :
    run (text.map ofEscaped) path = .hit ↔ path = text := by
  induction text generalizing path with
  | nil => cases path <;> simp [run]
  | cons c more ih =>
      rw [List.map_cons]
      cases path with
      | nil =>
          have hend : run (ofEscaped c :: more.map ofEscaped) [] = .exhausted := by
            rw [ofEscaped]
            split <;> rfl
          simp [hend]
      | cons d rest =>
          have hstep : run (ofEscaped c :: more.map ofEscaped) (d :: rest) =
              if (ofEscaped c).accepts d then run (more.map ofEscaped) rest else .miss := by
            rw [ofEscaped]
            split <;> rfl
          rw [hstep, List.cons.injEq, ← ih rest, ← accepts_ofEscaped c d]
          split <;> simp_all

end Token

def quote (path : String) : String :=
  String.ofList (escape (· ∈ metaChars) path.toList)

/-- A quoted path is a glob, and it matches that path only. -/
theorem quote_matches_iff (path : String) : ∃ matcher, Matcher.ofGlob (quote path) = .ok matcher ∧
    ∀ other, matcher.matchesPath other = true ↔ other = path := by
  have covers : ∀ c ∈ metaChars, decide (c ∈ metaChars) = true := fun c hc => decide_eq_true hc
  obtain ⟨front, hfront, hglyphs⟩ := glyphsFrom_escape covers false path.toList []
  rw [List.append_nil, glyphsFrom, List.append_nil, ← glyphs] at hglyphs
  have hspelled := spell_escape covers path.toList []
  rw [List.append_nil, spell, List.append_nil] at hspelled
  refine ⟨⟨[path.toList.map Token.ofEscaped]⟩, ?_, fun other => ?_⟩
  · rw [Matcher.ofGlob, quote, String.toList_ofList, Matcher.ofChars_eq_ok_iff (hglyphs ▸ hfront),
      hspelled]
    exact ⟨_, Token.ofTextFrom_spellEscaped 0 none path.toList, rfl⟩
  · rw [Matcher.matchesPath_single, Token.run_map_ofEscaped, String.toList_inj]

end ManifestRelay.Glob
