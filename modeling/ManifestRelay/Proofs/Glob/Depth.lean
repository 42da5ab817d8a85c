import Mathlib
import ManifestRelay.Proofs.Glob.Quoting
import ManifestRelay.Proofs.Glob.Reach

/-!
# How deep the matches of a glob lie

A slash is matched by a written slash alone.  Stars, question marks and escaped characters stand
for other characters, so that the matches of a pattern lie as deep as the pattern is written, unless
it has a `**`.  Expansion and spelling neither add a slash to an alternative nor take one from it,
and they put no two stars side by side.
-/

namespace ManifestRelay.Glob

open Outcome

namespace Token

/-- Tokens that all stand for text in one directory, but for so many slashes. -/
structure HasSlashes (tokens : List Token) (count : Nat) : Prop where
  bounded : .anyPath ∉ tokens
  slashes : tokens.count (.literal '/') = count

namespace HasSlashes

variable {tokens : List Token}

theorem nil : HasSlashes [] 0 := ⟨List.not_mem_nil, rfl⟩

theorem flat {token : Token} {count : Nat} (h : HasSlashes tokens count) (flat : token.IsFlat) :
    HasSlashes (token :: tokens) count where
  bounded := List.not_mem_cons_of_ne_of_not_mem (Ne.symm flat.1) h.bounded
  slashes := by
    rw [List.count_cons_of_ne flat.2]
    exact h.slashes

theorem literal {rest : List Char} (h : HasSlashes tokens (rest.count '/')) (c : Char) :
    HasSlashes (.literal c :: tokens) ((c :: rest).count '/') := by
  by_cases hc : c = '/'
  · subst hc
    refine ⟨List.not_mem_cons_of_ne_of_not_mem (by decide) h.bounded, ?_⟩
    rw [List.count_cons_self, List.count_cons_self, h.slashes]
  · rw [List.count_cons_of_ne hc]
    refine h.flat ⟨?_, ?_⟩
    · intro heq
      cases heq
    · intro heq
      exact hc (literal.inj heq)

theorem count_of_run {count : Nat} (h : HasSlashes tokens count) {path : List Char}
    (hit : run tokens path = .hit) : path.count '/' = count := by
  induction tokens generalizing path count with
  | nil =>
      obtain rfl := h.slashes
      cases path with
      | nil => rfl
      | cons c rest => cases hit
  | cons token more ih =>
      have hpath : token ≠ .anyPath := fun heq => h.bounded (heq ▸ List.mem_cons_self)
      have hmore : HasSlashes more (more.count (.literal '/')) :=
        ⟨fun hmem => h.bounded (List.mem_cons_of_mem _ hmem), rfl⟩
      obtain rfl := h.slashes
      by_cases hrun : token = .anyRun
      · subst hrun
        rw [run] at hit
        obtain ⟨skipped, rest, rfl, hskipped, hrest⟩ := afterRun_eq_hit hit
        rw [List.count_append, List.count_eq_zero.2 hskipped, ih hmore hrest, Nat.zero_add,
          List.count_cons_of_ne (by decide)]
      · obtain ⟨c, rest, rfl, haccepts, hrest⟩ := run_cons_eq_hit hrun hpath hit
        by_cases hslash : token = .literal '/'
        · subst hslash
          obtain rfl : c = '/' := by simpa [accepts] using haccepts
          rw [List.count_cons_self, List.count_cons_self, ih hmore hrest]
        · have hc : c ≠ '/' := by
            rintro rfl
            rw [accepts_slash ⟨hpath, hslash⟩] at haccepts
            cases haccepts
          rw [List.count_cons_of_ne hc, List.count_cons_of_ne hslash, ih hmore hrest]

end HasSlashes

theorem ofTextFrom_star {rest : List Char} (single : rest.head? ≠ some '*') (position : Nat)
    (previous : Option Char) : ofTextFrom position previous ('*' :: rest) =
      (ofTextFrom (position + 1) (some '*') rest).map (.anyRun :: ·) := by
  rw [ofTextFrom]
  · rintro more rfl
    exact single rfl
  · rintro more rfl
    exact single rfl

/-- The pattern of a text without classes and without `**` is read into tokens with the slashes that
are written in the text. -/
theorem hasSlashes_of_spell {text : List Char} (classless : '[' ∉ text)
    (starless : ¬ ['*', '*'] <:+: text) {position : Nat} {previous : Option Char}
    {tokens : List Token} (h : ofTextFrom position previous (spell text) = .ok tokens) :
    HasSlashes tokens (text.count '/') := by
  fun_induction spell text generalizing position previous tokens with
  | case1 =>
      rw [ofTextFrom] at h
      cases h
      exact .nil
  | case2 =>
      rw [ofTextFrom_cons (by decide), ofTextFrom] at h
      cases h
      exact HasSlashes.nil.literal '\\'
  | case3 c rest hc ih =>
      have hbang : c ≠ '!' := fun heq => absurd (heq ▸ hc) (by decide)
      have hslash : c ≠ '/' := fun heq => absurd (heq ▸ hc) (by decide)
      have hclass := readClass_closed hbang List.not_mem_nil (spell rest)
      rw [List.singleton_append] at hclass
      rw [ofTextFrom_class hclass] at h
      obtain ⟨more, hmore, rfl⟩ := map_eq_ok.1 h
      have hrest := ih (fun hmem => classless (by simp [hmem]))
        (fun hstars => starless (hstars.trans (List.suffix_append ['\\', c] rest).isInfix)) hmore
      rw [List.count_cons_of_ne (by decide), List.count_cons_of_ne hslash]
      exact hrest.flat (suffix_of_readClass hclass).2
  | case4 c rest hc ih =>
      have hordinary : c ∉ ['?', '*', '['] := fun hmem => hc (by grind)
      rw [ofTextFrom_cons hordinary] at h
      obtain ⟨more, hmore, rfl⟩ := map_eq_ok.1 h
      have hrest := ih (fun hmem => classless (by simp [hmem]))
        (fun hstars => starless (hstars.trans (List.suffix_append ['\\', c] rest).isInfix)) hmore
      rw [List.count_cons_of_ne (by decide)]
      exact hrest.literal c
  | case5 rest ih => exact absurd List.mem_cons_self classless
  | case6 c rest hlast hescape hcaret ih =>
      have hrest {position : Nat} {previous : Option Char} {tokens : List Token}
          (h : ofTextFrom position previous (spell rest) = .ok tokens) :=
        ih (fun hmem => classless (List.mem_cons_of_mem c hmem))
          (fun hstars => starless (hstars.trans (List.suffix_cons c rest).isInfix)) h
      by_cases hordinary : c ∈ ['?', '*', '[']
      · simp only [List.mem_cons, List.not_mem_nil, or_false] at hordinary
        rcases hordinary with rfl | rfl | rfl
        · rw [ofTextFrom] at h
          obtain ⟨more, hmore, rfl⟩ := map_eq_ok.1 h
          exact (hrest hmore).flat ⟨by decide, by decide⟩
        · -- a second star would be written right behind this one
          have hsingle : (spell rest).head? ≠ some '*' := fun hstar => by
            obtain ⟨spelled, hspelled⟩ := List.head?_eq_some_iff.1 hstar
            obtain ⟨more, rfl, -⟩ := eq_cons_of_spell hspelled
            exact starless (List.prefix_append ['*', '*'] more).isInfix
          rw [ofTextFrom_star hsingle] at h
          obtain ⟨more, hmore, rfl⟩ := map_eq_ok.1 h
          exact (hrest hmore).flat ⟨by decide, by decide⟩
        · exact absurd List.mem_cons_self classless
      · rw [ofTextFrom_cons hordinary] at h
        obtain ⟨more, hmore, rfl⟩ := map_eq_ok.1 h
        exact (hrest hmore).literal c

end Token

def IsMatch (alternative path : List Char) : Prop :=
  ∃ tokens, Token.ofText (spell alternative) = .ok tokens ∧ Token.run tokens path = .hit

theorem mem_of_mem_expand {glob : List Char} {alternatives : List (List Char)}
    (expanded : expand glob = .ok alternatives) {alternative : List Char}
    (h : alternative ∈ alternatives) {c : Char} (hc : c ∈ alternative) : c ∈ glob := by
  obtain ⟨more, rfl, hmore⟩ :=
    @eq_append_of_mem_expand [] glob alternatives (List.forall_mem_nil _) expanded alternative h
  exact hmore.mem hc

/-- A glob without classes matches what one of its alternatives matches, and where no alternative
has a `**`, each of them matches paths that are just as deep as it is written. -/
theorem matches_as_deep_as_written {glob : String} {matcher : Matcher}
    {alternatives : List (List Char)} (compiled : Matcher.ofGlob glob = .ok matcher)
    (expanded : expand glob.toList = .ok alternatives) (classless : '[' ∉ glob.toList)
    (starless : ∀ alternative ∈ alternatives, ¬ ['*', '*'] <:+: alternative) (path : String) :
    (matcher.matchesPath path = true ↔
      ∃ alternative ∈ alternatives, IsMatch alternative path.toList) ∧
    ∀ alternative ∈ alternatives, IsMatch alternative path.toList →
      path.toList.count '/' = alternative.count '/' := by
  refine ⟨Matcher.matchesChars_iff compiled expanded path.toList, ?_⟩
  rintro alternative hmem ⟨tokens, hread, hit⟩
  have hclassless : '[' ∉ alternative := fun hc => classless (mem_of_mem_expand expanded hmem hc)
  exact (Token.hasSlashes_of_spell hclassless (starless alternative hmem) hread).count_of_run hit

/-- A glob with two alternatives, an escaped star and a star. -/
theorem matches_as_deep_as_written_sample :
    ∃ matcher, Matcher.ofGlob "{a,b?}/\\*-*.y" = .ok matcher ∧
      expand "{a,b?}/\\*-*.y".toList = .ok ["a/\\*-*.y".toList, "b?/\\*-*.y".toList] ∧
      matcher.matchesPath "bc/*-x.y" = true ∧
      (∃ alternative ∈ ["a/\\*-*.y".toList, "b?/\\*-*.y".toList],
        IsMatch alternative "bc/*-x.y".toList ∧
          "bc/*-x.y".toList.count '/' = alternative.count '/') := by
  obtain ⟨matcher, compiled, hmatch⟩ : ∃ matcher,
      Matcher.ofGlob "{a,b?}/\\*-*.y" = .ok matcher ∧ matcher.matchesPath "bc/*-x.y" = true :=
    ⟨⟨[[.literal 'a', .literal '/', .oneOf [.one '*'], .literal '-', .anyRun, .literal '.',
      .literal 'y'], [.literal 'b', .anyChar, .literal '/', .oneOf [.one '*'], .literal '-',
      .anyRun, .literal '.', .literal 'y']]⟩, by cbv, by decide⟩
  have expanded : expand "{a,b?}/\\*-*.y".toList =
      .ok ["a/\\*-*.y".toList, "b?/\\*-*.y".toList] := by cbv
  obtain ⟨hmatches, hdepth⟩ := matches_as_deep_as_written compiled expanded (by decide)
    (by decide) "bc/*-x.y"
  obtain ⟨alternative, hmem, his⟩ := hmatches.1 hmatch
  exact ⟨matcher, compiled, expanded, hmatch, alternative, hmem, his, hdepth alternative hmem his⟩

end ManifestRelay.Glob
