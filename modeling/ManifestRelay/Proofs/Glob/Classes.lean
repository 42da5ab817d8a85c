import Mathlib
import ManifestRelay.Proofs.Glob.Quoting

/-!
# Escapes inside classes

A class whose characters are all escaped stands for just these characters, unless the spelling of
the escapes gives one of them a meaning again.  An escaped star, question mark or bracket is put in
brackets of its own, as if it stood outside, and the first of these closes the class too early.  All
other characters only lose their backslash: an exclamation mark in front excludes the others, and a
`-` between two of them makes a range.
-/

namespace ManifestRelay.Glob

open Outcome

/-- The class of some characters, each of which is escaped. -/
def escapedClass (chars : List Char) : String :=
  String.ofList ('[' :: escape (fun _ => true) chars ++ [']'])

/-- Whether the items of a class stand for just the characters they are written with, for no `-`
among them makes a range of other characters. -/
def StandsForItself (chars : List Char) : Prop :=
  ∀ c, c ≠ '/' → ((Span.ofText chars).any (·.contains c) = true ↔ c ∈ chars)

/-! ### Spelling -/

theorem role_glyphs_escapedClass (chars : List Char) :
    ∀ g ∈ glyphs ('[' :: escape (fun _ => true) chars ++ [']']), g.role ≠ .opening := by
  obtain ⟨front, hfront, hinner⟩ := glyphsFrom_escape (fun _ _ => rfl) true chars [']']
  have hglyphs : glyphs ('[' :: escape (fun _ => true) chars ++ [']']) =
      .plain '[' :: (front ++ [.plain ']']) := by
    rw [glyphs, List.cons_append, glyphsFrom_outside (by decide)]
    exact congrArg (_ :: ·) hinner
  rw [hglyphs]
  exact List.forall_mem_cons.2 ⟨role_plain_ne '[', List.forall_mem_append.2
    ⟨hfront, List.forall_mem_singleton.2 (role_plain_ne ']')⟩⟩

theorem spell_escapedClass {chars : List Char} (nonempty : chars ≠ []) :
    spell ('[' :: escape (fun _ => true) chars ++ [']']) =
      '[' :: (chars.flatMap spellEscaped ++ [']']) := by
  have hinner := spell_escape (fun _ _ => rfl) chars [']']
  obtain ⟨c, more, rfl⟩ := List.exists_cons_of_ne_nil nonempty
  have hstep (rest : List Char) : spell ('[' :: '\\' :: rest) = '[' :: spell ('\\' :: rest) := by
    rw [spell] <;> simp
  exact (hstep _).trans (congrArg ('[' :: ·) hinner)

theorem flatMap_spellEscaped {chars : List Char} (unmarked : ∀ c ∈ chars, c ∉ bracketed) :
    chars.flatMap spellEscaped = chars := by
  induction chars with
  | nil => rfl
  | cons c more ih =>
      obtain ⟨hc, hmore⟩ := List.forall_mem_cons.1 unmarked
      rw [List.flatMap_cons, spellEscaped, if_neg hc, ih hmore, List.singleton_append]

/-! ### Classes that are closed too early -/

theorem mem_tail_of_bracketed {chars : List Char} {c : Char} (hmem : c ∈ chars)
    (hc : c ∈ bracketed) : ']' ∈ (chars.flatMap spellEscaped).tail := by
  induction chars with
  | nil => cases hmem
  | cons first more ih =>
      rw [List.flatMap_cons, spellEscaped]
      by_cases hfirst : first ∈ bracketed
      · rw [if_pos hfirst]
        simp
      · have hmore : c ∈ more := (List.mem_cons.1 hmem).resolve_left fun h => hfirst (h ▸ hc)
        rw [if_neg hfirst, List.singleton_append, List.tail_cons]
        exact List.mem_of_mem_tail (ih hmore)

theorem exists_items_of_mem_tail {text : List Char} (h : ']' ∈ text.tail) :
    ∃ first items after, ']' ∉ items ∧ text = (first :: items) ++ ']' :: after := by
  cases text with
  | nil => cases h
  | cons first more =>
      obtain ⟨items, after, rfl, hitems⟩ := List.eq_append_cons_of_mem h
      exact ⟨first, items, after, hitems, rfl⟩

/-- The bracket that is meant to close the class stands behind its end. -/
theorem readClass_of_bracketed {chars : List Char} {c : Char} (hmem : c ∈ chars)
    (hc : c ∈ bracketed) : ∃ token after taken,
      readClass (chars.flatMap spellEscaped ++ [']']) = some (token, after ++ [']'], taken) := by
  cases chars with
  | nil => cases hmem
  | cons first more =>
      by_cases hbang : first = '!'
      · subst hbang
        have hother : c ≠ '!' := fun h => absurd (h ▸ hc) (by decide)
        have hmore := (List.mem_cons.1 hmem).resolve_left hother
        obtain ⟨d, items, after, hitems, htext⟩ :=
          exists_items_of_mem_tail (mem_tail_of_bracketed hmore hc)
        have hspelled : ('!' :: more).flatMap spellEscaped = '!' :: more.flatMap spellEscaped := rfl
        have hclass := readClass_excluded d hitems (after ++ [']'])
        rw [hspelled, htext]
        simp only [List.cons_append, List.append_assoc] at hclass ⊢
        exact ⟨_, _, _, hclass⟩
      · obtain ⟨d, items, after, hitems, htext⟩ :=
          exists_items_of_mem_tail (mem_tail_of_bracketed hmem hc)
        have hd : d ≠ '!' := by
          rw [List.flatMap_cons, spellEscaped] at htext
          split at htext
          · obtain ⟨rfl, -⟩ := List.cons.inj htext
            decide
          · obtain ⟨rfl, -⟩ := List.cons.inj htext
            exact hbang
        have hclass := readClass_closed hd hitems (after ++ [']'])
        rw [htext]
        simp only [List.cons_append, List.append_assoc] at hclass ⊢
        exact ⟨_, _, _, hclass⟩

namespace Token

def TakesOne (token : Token) : Prop := token ≠ .anyRun ∧ token ≠ .anyPath

theorem takesOne_oneOf (spans : List Span) : (oneOf spans).TakesOne := by
  constructor <;> intro h <;> cases h

theorem takesOne_noneOf (spans : List Span) : (noneOf spans).TakesOne := by
  constructor <;> intro h <;> cases h

theorem takesOne_of_readClass {text after : List Char} {token : Token} {taken : Nat}
    (h : readClass text = some (token, after, taken)) : token.TakesOne := by
  simp only [readClass] at h
  split at h
  · cases h
  · obtain ⟨⟨items, rest⟩, -, heq⟩ := Option.map_eq_some_iff.1 h
    obtain ⟨rfl, -⟩ := Prod.mk.inj heq
    split
    · exact takesOne_noneOf _
    · exact takesOne_oneOf _

theorem run_push_nil (tokens : List Token) : run (push .anyPath tokens) [] = run tokens [] := by
  unfold push
  split
  · rw [if_pos rfl]
  · rw [run]
    split
    · rw [afterComponents]
    · rfl

theorem eq_star_of_run_nil {position : Nat} {previous : Option Char} {text : List Char}
    {tokens : List Token} (h : ofTextFrom position previous text = .ok tokens)
    (hit : run tokens [] = .hit) : ∀ c ∈ text, c = '*' ∨ c = '/' := by
  fun_induction ofTextFrom position previous text generalizing tokens with
  | case1 => exact List.forall_mem_nil _
  | case2 position previous rest ih =>
      obtain ⟨more, -, rfl⟩ := map_eq_ok.1 h
      cases hit
  | case3 | case6 | case7 | case9 => cases h
  | case4 => simp
  | case5 =>
      rename_i ih
      obtain ⟨more, hmore, rfl⟩ := map_eq_ok.1 h
      have hrest : run more [] = .hit := (run_push_nil more).symm.trans hit
      simpa using ih hmore hrest
  | case8 position previous rest _ _ ih =>
      obtain ⟨more, hmore, rfl⟩ := map_eq_ok.1 h
      have hrest : run more [] = .hit := hit
      simpa using ih hmore hrest
  | case10 position previous rest token after taken hclass ih =>
      obtain ⟨more, -, rfl⟩ := map_eq_ok.1 h
      obtain ⟨hrun, hpath⟩ := takesOne_of_readClass hclass
      obtain ⟨c, left, hnil, -⟩ := run_cons_eq_hit hrun hpath hit
      cases hnil
  | case11 position previous c rest _ _ _ _ _ ih =>
      obtain ⟨more, -, rfl⟩ := map_eq_ok.1 h
      cases hit

theorem run_singleton {token : Token} (takesOne : token.TakesOne) (path : List Char) :
    run [token] path = .hit ↔ ∃ c, path = [c] ∧ token.accepts c = true := by
  obtain ⟨hrun, hpath⟩ := takesOne
  constructor
  · intro hit
    obtain ⟨c, rest, rfl, haccepts, hrest⟩ := run_cons_eq_hit hrun hpath hit
    cases rest with
    | nil => exact ⟨c, rfl, haccepts⟩
    | cons d more => cases hrest
  · rintro ⟨c, rfl, haccepts⟩
    rw [run, if_pos haccepts, run]
    · exact hrun
    · exact hpath

end Token

/-- A class that is closed too early goes on behind its end, with a bracket at the latest. -/
theorem not_run_of_bracketed {chars : List Char} {c : Char} (hmem : c ∈ chars)
    (hc : c ∈ bracketed) {tokens : List Token}
    (h : Token.ofText ('[' :: (chars.flatMap spellEscaped ++ [']'])) = .ok tokens) (d : Char) :
    Token.run tokens [d] ≠ .hit := by
  intro hit
  obtain ⟨token, after, taken, hclass⟩ := readClass_of_bracketed hmem hc
  rw [Token.ofText, Token.ofTextFrom_class hclass] at h
  obtain ⟨more, hmore, rfl⟩ := map_eq_ok.1 h
  obtain ⟨hrun, hpath⟩ := Token.takesOne_of_readClass hclass
  obtain ⟨_, rest, heq, -, hrest⟩ := Token.run_cons_eq_hit hrun hpath hit
  obtain ⟨-, rfl⟩ := List.cons.inj heq
  have hend := Token.eq_star_of_run_nil hmore hrest ']' (by simp)
  exact absurd hend (by decide)

/-! ### Classes that are closed at their end -/

theorem Span.exists_mem_of_any {text : List Char} {c : Char}
    (h : (ofText text).any (·.contains c) = true) :
    ∃ d ∈ text, (ofText text).any (·.contains d) = true := by
  fun_induction ofText text with
  | case1 low high rest ih =>
      rw [List.any_cons, Bool.or_eq_true] at h
      rcases h with hrange | hrest
      · refine ⟨low, List.mem_cons_self, ?_⟩
        have hbounds : low ≤ c ∧ c ≤ high := by simpa [contains] using hrange
        have hlow : low ≤ high := Char.le_trans hbounds.1 hbounds.2
        simp [contains, hlow]
      · obtain ⟨d, hd, hany⟩ := ih hrest
        exact ⟨d, by simp [hd], by rw [List.any_cons, hany, Bool.or_true]⟩
  | case2 first rest _ ih =>
      refine ⟨first, List.mem_cons_self, ?_⟩
      simp [contains]
  | case3 => cases h

theorem Span.ofText_eq_map {text : List Char} (h : '-' ∉ text.tail.dropLast) :
    ofText text = text.map .one := by
  fun_induction ofText text with
  | case1 => simp at h
  | case2 first rest _ ih =>
      have hrest : '-' ∉ rest.tail.dropLast := fun hmem => by
        rw [List.tail_dropLast.symm] at hmem
        exact h (List.mem_of_mem_tail hmem)
      rw [ih hrest, List.map_cons]
  | case3 => rfl

theorem standsForItself_of_no_range {text : List Char} (h : '-' ∉ text.tail.dropLast) :
    StandsForItself text := by
  intro c _
  simp [Span.ofText_eq_map h, Span.contains]

/-! ### What an escaped class stands for -/

def MatchesJust (glob : String) (chars : List Char) : Prop :=
  ∃ matcher, Matcher.ofGlob glob = .ok matcher ∧
    ∀ path : String, matcher.matchesPath path = true ↔ ∃ c ∈ chars, path.toList = [c]

theorem matchesJust_escapedClass_iff_run {chars : List Char} (nonempty : chars ≠ []) :
    MatchesJust (escapedClass chars) chars ↔
      ∃ tokens, Token.ofText ('[' :: (chars.flatMap spellEscaped ++ [']'])) = .ok tokens ∧
        ∀ path, Token.run tokens path = .hit ↔ ∃ c ∈ chars, path = [c] := by
  have hcompiles (matcher : Matcher) : Matcher.ofGlob (escapedClass chars) = .ok matcher ↔
      ∃ tokens, Token.ofText ('[' :: (chars.flatMap spellEscaped ++ [']'])) = .ok tokens ∧
        matcher = ⟨[tokens]⟩ := by
    rw [Matcher.ofGlob, escapedClass, String.toList_ofList,
      Matcher.ofChars_eq_ok_iff (role_glyphs_escapedClass chars), spell_escapedClass nonempty]
  constructor
  · rintro ⟨matcher, hmatcher, hpaths⟩
    obtain ⟨tokens, htokens, rfl⟩ := (hcompiles matcher).1 hmatcher
    refine ⟨tokens, htokens, fun path => ?_⟩
    have hpath := hpaths (String.ofList path)
    rwa [Matcher.matchesPath_single, String.toList_ofList] at hpath
  · rintro ⟨tokens, htokens, hpaths⟩
    refine ⟨⟨[tokens]⟩, (hcompiles _).2 ⟨tokens, htokens, rfl⟩, fun path => ?_⟩
    rw [Matcher.matchesPath_single, hpaths]

/-- Behind an exclamation mark in front the characters are excluded.  Either none of them is, and
then the class stands for others too, or one of them is, and then it does not stand for that one. -/
theorem mismatch_of_excluded {rest : List Char} (unmarked : ∀ c ∈ rest, c ∉ bracketed)
    {tokens : List Token} (h : Token.ofText ('[' :: ('!' :: rest ++ [']'])) = .ok tokens) :
    ∃ c, ¬ (Token.run tokens [c] = .hit ↔ c ∈ '!' :: rest) := by
  cases rest with
  | nil =>
      have hrefused : Token.ofText "[!]".toList = .error ⟨0, .range⟩ := by cbv
      cases hrefused.symm.trans h
  | cons first more =>
      have hclose : ']' ∉ more := fun hmem =>
        unmarked ']' (List.mem_cons_of_mem _ hmem) (by decide)
      rw [Token.ofText, Token.ofTextFrom_class (readClass_excluded first hclose []),
        Token.ofTextFrom] at h
      obtain rfl := Except.ok.inj h
      by_contra hall
      have hmatches (c : Char) : c ∈ '!' :: first :: more ↔
          (Token.noneOf (Span.ofText (first :: more))).accepts c = true := by
        have hsingle := Token.run_singleton (Token.takesOne_noneOf (Span.ofText (first :: more))) [c]
        refine (not_exists_not.1 hall c).symm.trans ?_
        simpa using hsingle
      have hstar : '*' ∉ '!' :: first :: more := by
        intro hmem
        rcases List.mem_cons.1 hmem with heq | hmem
        · exact absurd heq (by decide)
        · exact unmarked '*' hmem (by decide)
      have hcontained : (Span.ofText (first :: more)).any (·.contains '*') = true := by
        simpa [hmatches, Token.accepts] using hstar
      obtain ⟨d, hd, hexcluded⟩ := Span.exists_mem_of_any hcontained
      have haccepts := (hmatches d).1 (List.mem_cons_of_mem _ hd)
      rw [Token.accepts, hexcluded] at haccepts
      simp at haccepts

theorem run_oneOf_iff_standsForItself {chars : List Char} (noSlash : '/' ∉ chars) :
    (∀ path, Token.run [.oneOf (Span.ofText chars)] path = .hit ↔ ∃ c ∈ chars, path = [c]) ↔
      StandsForItself chars := by
  have hsingle := Token.run_singleton (Token.takesOne_oneOf (Span.ofText chars))
  constructor
  · intro hpaths c hslash
    have hpath := (hsingle [c]).symm.trans (hpaths [c])
    simpa [Token.accepts, hslash] using hpath
  · intro hitself path
    rw [hsingle]
    constructor
    · rintro ⟨c, rfl, haccepts⟩
      obtain ⟨hslash, hany⟩ : c ≠ '/' ∧ (Span.ofText chars).any (·.contains c) = true := by
        simpa [Token.accepts] using haccepts
      exact ⟨c, (hitself c hslash).1 hany, rfl⟩
    · rintro ⟨c, hc, rfl⟩
      have hslash : c ≠ '/' := fun h => noSlash (h ▸ hc)
      refine ⟨c, rfl, ?_⟩
      rw [Token.accepts, (hitself c hslash).2 hc]
      simpa using hslash

/-- The class of some characters that are escaped stands for them exactly if its spelling keeps
the meaning away from all of them: none is spelled with brackets, no exclamation mark is in front,
and no `-` makes a range. -/
theorem escapedClass_matches_just_iff {chars : List Char} (nonempty : chars ≠ [])
    (noSlash : '/' ∉ chars) : MatchesJust (escapedClass chars) chars ↔
      (∀ c ∈ chars, c ∉ bracketed) ∧ chars.head? ≠ some '!' ∧ StandsForItself chars := by
  rw [matchesJust_escapedClass_iff_run nonempty, ← run_oneOf_iff_standsForItself noSlash]
  obtain ⟨first, rest, rfl⟩ := List.exists_cons_of_ne_nil nonempty
  by_cases unmarked : ∀ c ∈ first :: rest, c ∉ bracketed
  · rw [flatMap_spellEscaped unmarked]
    by_cases hbang : first = '!'
    · subst hbang
      refine iff_of_false ?_ fun h => h.2.1 rfl
      rintro ⟨tokens, htokens, hpaths⟩
      obtain ⟨c, hc⟩ := mismatch_of_excluded (List.forall_mem_cons.1 unmarked).2 htokens
      exact hc (by simp [hpaths])
    · have hclose : ']' ∉ rest := fun hmem =>
        unmarked ']' (List.mem_cons_of_mem _ hmem) (by decide)
      have hread : Token.ofText ('[' :: (first :: rest ++ [']'])) =
          .ok [.oneOf (Span.ofText (first :: rest))] := by
        rw [Token.ofText, Token.ofTextFrom_class (readClass_closed hbang hclose []),
          Token.ofTextFrom]
        rfl
      constructor
      · rintro ⟨tokens, htokens, hpaths⟩
        cases hread.symm.trans htokens
        exact ⟨unmarked, by simpa using hbang, hpaths⟩
      · rintro ⟨-, -, hpaths⟩
        exact ⟨_, hread, hpaths⟩
  · refine iff_of_false ?_ fun h => unmarked h.1
    rintro ⟨tokens, htokens, hpaths⟩
    refine unmarked fun c hmem hc => not_run_of_bracketed hmem hc htokens first ?_
    exact (hpaths [first]).2 ⟨first, List.mem_cons_self, rfl⟩

/-- A caret has no meaning in front, an exclamation mark none behind it and a `-` none at the end. -/
theorem escapedClass_matches_just_marks :
    MatchesJust (escapedClass ['^', '!', ',', '-']) ['^', '!', ',', '-'] := by
  have hitself : StandsForItself ['^', '!', ',', '-'] := standsForItself_of_no_range (by decide)
  exact (escapedClass_matches_just_iff (by decide) (by decide)).2
    ⟨by simp [bracketed], by decide, hitself⟩

/-- The class of an escaped star is read as a class of a bracket and a star, with a bracket behind
it: it does not match a star, but a star and a bracket. -/
theorem escapedClass_of_star :
    escapedClass ['*'] = "[\\*]" ∧ ¬ MatchesJust "[\\*]" ['*'] ∧
      ∃ matcher, Matcher.ofGlob "[\\*]" = .ok matcher ∧
        matcher.matchesPath "*" = false ∧ matcher.matchesPath "*]" = true := by
  have hcompiled : Matcher.ofGlob "[\\*]" =
      .ok ⟨[[.oneOf [.one '[', .one '*'], .literal ']']]⟩ := by cbv
  refine ⟨by decide, ?_, _, hcompiled, by decide, by decide⟩
  rintro ⟨matcher, hmatcher, hpaths⟩
  cases hcompiled.symm.trans hmatcher
  have hstar := (hpaths "*").2 ⟨'*', by decide, by decide⟩
  exact absurd hstar (by decide)

end ManifestRelay.Glob
