import Mathlib
import ManifestRelay.Glob.Matcher
import ManifestRelay.Proofs.Glob.Expansion
import ManifestRelay.Proofs.Glob.Scope
import ManifestRelay.Proofs.Glob.Tokens

/-!
# What the scope of a glob reaches

A walk of a glob's scope comes by every file that the glob matches, but for one
kind of glob: where no `**` is written and yet an alternative of its braces is
`**`, as in `*{*,b}`, the glob matches files in every depth and its scope stays
in one directory.  No other combination of braces, escapes, stars and classes
reaches out of the scope.
-/

namespace ManifestRelay.Glob

open Outcome

/-- A path as a repository names its files: no name on it is empty or leads elsewhere. -/
def IsRepositoryPath (path : List Char) : Prop :=
  ∀ name ∈ path.splitOn '/', name ≠ [] ∧ name ≠ ['.'] ∧ name ≠ ['.', '.']

instance (path : List Char) : Decidable (IsRepositoryPath path) :=
  inferInstanceAs (Decidable (∀ name ∈ path.splitOn '/', _))

namespace IsRepositoryPath

theorem append_slash {directory rest : List Char} :
    IsRepositoryPath (directory ++ '/' :: rest) ↔
      IsRepositoryPath directory ∧ IsRepositoryPath rest := by
  unfold IsRepositoryPath
  rw [List.splitOn_append_cons_self]
  exact List.forall_mem_append

theorem not_of_slash {rest : List Char} : ¬ IsRepositoryPath ('/' :: rest) := by
  intro h
  have hempty : IsRepositoryPath [] := (append_slash.1 h).1
  exact (hempty [] (by decide)).1 rfl

/-- What follows a directory on a path may be any other path. -/
theorem exchange {opening left right : List Char}
    (hopening : opening.getLast? = none ∨ opening.getLast? = some '/')
    (hleft : IsRepositoryPath (opening ++ left)) (hright : IsRepositoryPath right) :
    IsRepositoryPath (opening ++ right) := by
  rcases hopening with hnone | hslash
  · rw [List.getLast?_eq_none_iff.1 hnone]
    exact hright
  · obtain ⟨directory, rfl⟩ := List.getLast?_eq_some_iff.1 hslash
    rw [List.append_assoc] at hleft ⊢
    exact append_slash.2 ⟨(append_slash.1 hleft).1, hright⟩

end IsRepositoryPath

/-! ### Matches and alternatives -/

namespace Matcher

theorem ofChars_eq_ok {glob : List Char} {matcher : Matcher} (h : ofChars glob = .ok matcher) :
    ∃ plain, expand glob = .ok plain ∧
      (∀ text ∈ plain, ∃ tokens, Token.ofText (spell text) = .ok tokens) ∧
      ∀ tokens, tokens ∈ matcher.patterns ↔
        ∃ text ∈ plain, Token.ofText (spell text) = .ok tokens := by
  obtain ⟨plain, hplain, hrest⟩ := bind_eq_ok.1 h
  obtain ⟨patterns, hpatterns, heq⟩ := bind_eq_ok.1 hrest
  cases heq
  obtain ⟨hall, hmem⟩ := mapM_eq_ok hpatterns
  simp only [mapError_eq_ok] at hall hmem
  exact ⟨plain, mapError_eq_ok.1 hplain, hall, hmem⟩

/-- A compiled glob matches what the pattern of one of its plain globs matches. -/
theorem matchesChars_iff {glob : List Char} {matcher : Matcher} {plain : List (List Char)}
    (h : ofChars glob = .ok matcher) (hplain : expand glob = .ok plain) (path : List Char) :
    matcher.matchesChars path = true ↔
      ∃ text ∈ plain, ∃ tokens, Token.ofText (spell text) = .ok tokens ∧
        Token.run tokens path = .hit := by
  obtain ⟨plain', hplain', -, hpatterns⟩ := ofChars_eq_ok h
  cases hplain.symm.trans hplain'
  rw [matchesChars, List.any_eq_true]
  constructor
  · rintro ⟨tokens, htokens, hit⟩
    obtain ⟨text, htext, hread⟩ := (hpatterns tokens).1 htokens
    exact ⟨text, htext, tokens, hread, by simpa [Token.matchesPath] using hit⟩
  · rintro ⟨text, htext, tokens, hread, hit⟩
    refine ⟨tokens, (hpatterns tokens).2 ⟨text, htext, hread⟩, ?_⟩
    simpa [Token.matchesPath] using hit

/-- A match of a glob that begins literally begins with that text; what follows it is matched by
flat tokens, or by anything if the glob goes on with the alternative `**`. -/
theorem eq_append_of_matches {literal rest path : List Char} {matcher : Matcher}
    {plain : List (List Char)} (hliteral : ∀ c ∈ literal, c ∉ metaChars)
    (h : ofChars (literal ++ rest) = .ok matcher) (hplain : expand (literal ++ rest) = .ok plain)
    (hpath : matcher.matchesChars path = true) :
    ∃ left, path = literal ++ left ∧
      ('/' ∉ rest → literal ++ ['*', '*'] ∈ plain ∨ '/' ∉ left) := by
  obtain ⟨text, htext, tokens, hread, hit⟩ := (matchesChars_iff h hplain path).1 hpath
  obtain ⟨more, rfl, hmore⟩ := eq_append_of_mem_expand hliteral hplain htext
  rw [spell_append hliteral, Token.ofText, Token.ofTextFrom_append hliteral] at hread
  obtain ⟨tail, htail, rfl⟩ := map_eq_ok.1 hread
  obtain ⟨left, rfl, hleft⟩ := (Token.run_literals literal tail path).1 hit
  refine ⟨left, rfl, fun hslash => ?_⟩
  have hspelled : '/' ∉ spell more := fun hmem =>
    hslash (hmore.mem (mem_of_mem_spell (by decide) hmem))
  rcases Token.eq_stars_or_flat_of_ofTextFrom htail hspelled with ⟨hstars, -⟩ | hflat
  · exact .inl (eq_stars_of_spell hstars ▸ htext)
  · exact .inr (Token.not_mem_of_run hflat hleft)

/-- An alternative that is `**` in a directory matches whatever is below the directory. -/
theorem matches_of_stars {literal glob : List Char} {matcher : Matcher}
    {plain : List (List Char)} (hliteral : ∀ c ∈ literal, c ∉ metaChars)
    (hstart : literal.getLast? = none ∨ literal.getLast? = some '/')
    (h : ofChars glob = .ok matcher) (hplain : expand glob = .ok plain)
    (hstars : literal ++ ['*', '*'] ∈ plain) (left : List Char) :
    matcher.matchesChars (literal ++ left) = true := by
  refine (matchesChars_iff h hplain _).2 ⟨_, hstars, literal.map .literal ++ [.anyPath], ?_, ?_⟩
  · have hspell : spell ['*', '*'] = ['*', '*'] := by decide
    rw [spell_append hliteral, hspell, Token.ofText, Token.ofTextFrom_append hliteral,
      Token.ofTextFrom_stars (by simpa using hstart)]
    rfl
  · exact (Token.run_literals _ _ _).2 ⟨left, rfl, Token.run_anyPath left⟩

end Matcher

/-! ### Scopes and matches -/

/-- Whether a glob stays in one directory by its text, and yet has the alternative `**` there. -/
def HidesStars (glob : List Char) : Prop :=
  (scopeOf glob).recursive = false ∧ IsRepositoryPath ((scopeOf glob).opening ++ ['x']) ∧
    ∃ matcher plain, Matcher.ofChars (withoutSlash glob) = .ok matcher ∧
      expand (withoutSlash glob) = .ok plain ∧ (scopeOf glob).opening ++ ['*', '*'] ∈ plain

theorem plain_of_mem_strayOpenings {stray : List Char} (h : stray ∈ strayOpenings) :
    ∀ c ∈ stray, c ∉ metaChars := by
  have hall : ∀ stray ∈ strayOpenings, ∀ c ∈ stray, c ∉ metaChars := by
    simp [strayOpenings, metaChars]
  exact hall stray h

theorem not_isRepositoryPath_of_mem_strayOpenings {stray : List Char} (h : stray ∈ strayOpenings)
    (rest : List Char) : ¬ IsRepositoryPath (stray ++ rest) := by
  intro hpath
  simp only [strayOpenings, List.mem_cons, List.not_mem_nil, or_false] at h
  rcases h with rfl | rfl
  · exact IsRepositoryPath.not_of_slash hpath
  · have hdot : IsRepositoryPath ['.'] := (IsRepositoryPath.append_slash.1 hpath).1
    exact (hdot ['.'] (by decide)).2.1 rfl

/-- A file that a glob matches lies in its scope, if the glob hides no stars. -/
theorem reaches_or_hidesStars {glob path : List Char} {matcher : Matcher}
    (h : Matcher.ofChars (withoutSlash glob) = .ok matcher) (hpath : IsRepositoryPath path)
    (hmatch : matcher.matchesChars path = true) :
    (scopeOf glob).Reaches path ∨ HidesStars glob := by
  obtain ⟨plain, hplain, -⟩ := Matcher.ofChars_eq_ok h
  rcases (hasScope_scopeOf glob).opening with ⟨rest, hglob, hliteral, hend, hrest⟩ | hstray
  · have hcompiled := h
    have hexpanded := hplain
    rw [hglob] at hcompiled hexpanded
    obtain ⟨left, rfl, hleft⟩ :=
      Matcher.eq_append_of_matches hliteral hcompiled hexpanded hmatch
    by_cases hflat : (scopeOf glob).recursive = false → '/' ∉ left
    · exact .inl ⟨left, rfl, hflat⟩
    · rw [Classical.not_imp, Classical.not_not] at hflat
      rcases hleft (hrest hflat.1) with hstars | hslash
      · exact .inr ⟨hflat.1, hpath.exchange hend (by decide), matcher, plain, h, hplain, hstars⟩
      · exact absurd hflat.2 hslash
  · obtain ⟨stray, hmem, rest, hglob⟩ := hstray
    rw [hglob] at h hplain
    obtain ⟨left, rfl, -⟩ :=
      Matcher.eq_append_of_matches (plain_of_mem_strayOpenings hmem) h hplain hmatch
    exact absurd hpath (not_isRepositoryPath_of_mem_strayOpenings hmem left)

/-- A glob that hides stars matches a file one level below the files that its scope reaches. -/
theorem HidesStars.matches {glob : List Char} (hides : HidesStars glob) :
    ∃ matcher, Matcher.ofChars (withoutSlash glob) = .ok matcher ∧
      IsRepositoryPath ((scopeOf glob).opening ++ ['x', '/', 'x']) ∧
      matcher.matchesChars ((scopeOf glob).opening ++ ['x', '/', 'x']) = true := by
  obtain ⟨-, hname, matcher, plain, h, hplain, hstars⟩ := hides
  rcases (hasScope_scopeOf glob).opening with ⟨rest, -, hliteral, hend, -⟩ | hstray
  · exact ⟨matcher, h, hname.exchange hend (by decide),
      Matcher.matches_of_stars hliteral hend h hplain hstars _⟩
  · -- every alternative begins with the stray opening, and so would the scope's opening
    obtain ⟨stray, hmem, rest, hglob⟩ := hstray
    rw [hglob] at hplain
    obtain ⟨more, hmore, -⟩ :=
      eq_append_of_mem_expand (plain_of_mem_strayOpenings hmem) hplain hstars
    obtain ⟨inner, hinner⟩ : ∃ inner, (scopeOf glob).opening = stray ++ inner := by
      rcases List.append_eq_append_iff.1 hmore with ⟨front, hfront, hrest⟩ | ⟨inner, hinner, -⟩
      · cases front with
        | nil => exact ⟨[], by rw [hfront, List.append_nil, List.append_nil]⟩
        | cons c others =>
            obtain ⟨rfl, -⟩ := List.cons.inj hrest
            exact absurd (by simp [metaChars])
              (plain_of_mem_strayOpenings hmem '*' (by simp [hfront]))
      · exact ⟨inner, hinner⟩
    rw [hinner, List.append_assoc] at hname
    exact absurd hname (not_isRepositoryPath_of_mem_strayOpenings hmem _)

/-- The walk of a glob's scope comes by every file that the glob matches, exactly if the glob
hides no stars. -/
theorem reaches_every_match_iff (glob : String) :
    (∀ matcher (path : String),
      Matcher.ofGlob (String.ofList (withoutSlash glob.toList)) = .ok matcher →
      IsRepositoryPath path.toList → matcher.matchesPath path = true →
      (Scope.ofGlob glob).Reaches path.toList) ↔ ¬ HidesStars glob.toList := by
  constructor
  · intro hreaches hides
    obtain ⟨matcher, h, hpath, hmatch⟩ := hides.matches
    have hreached := hreaches matcher
      (String.ofList ((scopeOf glob.toList).opening ++ ['x', '/', 'x']))
      (by simpa [Matcher.ofGlob] using h) (by simpa using hpath)
      (by simpa [Matcher.matchesPath] using hmatch)
    obtain ⟨rest, heq, hflat⟩ := hreached
    rw [String.toList_ofList, Scope.ofGlob, List.append_right_inj] at heq
    exact hflat hides.1 (heq ▸ by decide)
  · intro hides matcher path h hpath hmatch
    rw [Matcher.ofGlob, String.toList_ofList] at h
    exact (reaches_or_hidesStars h hpath hmatch).resolve_right hides

/-- No `**` is written in `*{*,b}`, and yet it matches a file in a subdirectory, where the walk of
its scope does not come by. -/
theorem stars_across_braces_leave_scope :
    ∃ matcher, Matcher.ofGlob (String.ofList (withoutSlash "*{*,b}".toList)) = .ok matcher ∧
      IsRepositoryPath "x/y".toList ∧ matcher.matchesPath "x/y" = true ∧
      ¬ (Scope.ofGlob "*{*,b}").Reaches "x/y".toList := by
  refine ⟨⟨[[.anyPath], [.anyRun, .literal 'b']]⟩, by cbv, by decide, by decide, ?_⟩
  rintro ⟨rest, hrest, hflat⟩
  have hscope : Scope.ofGlob "*{*,b}" = ⟨".", false, "*{*,b}"⟩ := by decide
  rw [hscope] at hrest hflat
  have hpath : "x/y".toList = rest := hrest
  exact hflat rfl (hpath ▸ by decide)

end ManifestRelay.Glob
