import ManifestRelay.Glob.Matching
import ManifestRelay.Glob.Scope
import ManifestRelay.Proofs.Outcome

/-!
# How the text of a pattern bounds its matches

Literal text at the front of a glob is spelled, read and matched character by
character.  A pattern without a slash matches only paths without a slash, unless
it is `**` from end to end: stars of any other slashless text never cross a
directory.
-/

namespace ManifestRelay.Glob

open Outcome

/-! ### Spelling -/

theorem spell_cons {c : Char} (hescape : c ≠ '\\') (hclass : c ≠ '[') (rest : List Char) :
    spell (c :: rest) = c :: spell rest := by
  rw [spell] <;> simp_all

theorem spell_append {literal : List Char} (plain : ∀ c ∈ literal, c ∉ metaChars)
    (rest : List Char) : spell (literal ++ rest) = literal ++ spell rest := by
  induction literal with
  | nil => rfl
  | cons c more ih =>
      obtain ⟨hc, hmore⟩ := List.forall_mem_cons.1 plain
      have hescape : c ≠ '\\' := fun heq => hc (heq ▸ by decide)
      have hclass : c ≠ '[' := fun heq => hc (heq ▸ by decide)
      rw [List.cons_append, spell_cons hescape hclass, ih hmore, List.cons_append]

theorem mem_of_mem_spell {c : Char} {text : List Char} (hmark : c ∉ ['[', ']', '!'])
    (h : c ∈ spell text) : c ∈ text := by
  fun_induction spell text with
  | case1 | case2 => exact h
  | case3 | case4 | case5 | case6 =>
      rename_i ih
      simp only [List.mem_cons] at h hmark ⊢
      grind

theorem eq_cons_of_spell {text spelled : List Char} (h : spell text = '*' :: spelled) :
    ∃ rest, text = '*' :: rest ∧ spell rest = spelled := by
  fun_cases spell text with
  | case1 => simp [spell] at h
  | case2 => simp [spell] at h
  | case3 c rest hc => simp [spell, hc] at h
  | case4 c rest hc =>
      simp only [spell, hc, if_false, List.cons.injEq] at h
      exact absurd (by simp [h.1]) hc
  | case5 => simp [spell] at h
  | case6 c rest h1 h2 h3 =>
      rw [spell] at h
      · obtain ⟨rfl, rfl⟩ := List.cons.inj h
        exact ⟨rest, rfl, rfl⟩
      all_goals assumption

theorem eq_nil_of_spell {text : List Char} (h : spell text = []) : text = [] := by
  fun_cases spell text <;> simp_all [spell]

theorem eq_stars_of_spell {text : List Char} (h : spell text = ['*', '*']) :
    text = ['*', '*'] := by
  obtain ⟨rest, rfl, hrest⟩ := eq_cons_of_spell h
  obtain ⟨last, rfl, hlast⟩ := eq_cons_of_spell hrest
  rw [eq_nil_of_spell hlast]

/-! ### Reading -/

namespace Token

theorem ofTextFrom_cons {c : Char} (hc : c ∉ ['?', '*', '[']) (position : Nat)
    (previous : Option Char) (rest : List Char) :
    ofTextFrom position previous (c :: rest) =
      (ofTextFrom (position + 1) (some c) rest).map (.literal c :: ·) := by
  rw [ofTextFrom] <;> simp_all

/-- Literal text is read into literal tokens, and its last character is what the rest follows. -/
theorem ofTextFrom_append {literal : List Char} (plain : ∀ c ∈ literal, c ∉ metaChars)
    (position : Nat) (previous : Option Char) (rest : List Char) :
    ofTextFrom position previous (literal ++ rest) =
      (ofTextFrom (position + literal.length) (literal.getLast?.or previous) rest).map
        (literal.map .literal ++ ·) := by
  induction literal generalizing position previous with
  | nil =>
      cases h : ofTextFrom position previous rest <;> simp [h, Except.map]
  | cons c more ih =>
      obtain ⟨hc, hmore⟩ := List.forall_mem_cons.1 plain
      have hordinary : c ∉ ['?', '*', '['] := by
        intro hmem
        apply hc
        simp only [List.mem_cons] at hmem
        rcases hmem with rfl | rfl | rfl | hnil
        · decide
        · decide
        · decide
        · cases hnil
      have hposition : position + 1 + more.length = position + (c :: more).length := by
        rw [List.length_cons]
        omega
      have hprevious : more.getLast?.or (some c) = (c :: more).getLast?.or previous := by
        rw [List.getLast?_cons]
        cases more.getLast? <;> rfl
      rw [List.cons_append, ofTextFrom_cons hordinary, ih hmore, hposition, hprevious]
      cases ofTextFrom (position + (c :: more).length) ((c :: more).getLast?.or previous) rest <;>
        rfl

/-- A token that never stands for text with a slash. -/
def IsFlat (token : Token) : Prop := token ≠ .anyPath ∧ token ≠ .literal '/'

theorem suffix_of_cutAt {stop : Char} {text before after : List Char}
    (h : cutAt stop text = some (before, after)) : after <:+ text :=
  ⟨before ++ [stop], by rw [(eq_of_cutAt h).1, List.append_assoc, List.singleton_append]⟩

theorem suffix_of_readClass {text after : List Char} {token : Token} {taken : Nat}
    (h : readClass text = some (token, after, taken)) : after <:+ text ∧ token.IsFlat := by
  simp only [readClass] at h
  split at h
  · cases h
  · next first more hbody =>
      obtain ⟨⟨items, tail⟩, hcut, heq⟩ := Option.map_eq_some_iff.1 h
      simp only [Prod.mk.injEq] at heq
      obtain ⟨rfl, rfl, -⟩ := heq
      have hmore : more <:+ text := by
        have hsuffix : first :: more <:+ text := by
          rw [← hbody]
          split
          · exact List.tail_suffix text
          · exact List.suffix_refl text
        exact (List.suffix_cons first more).trans hsuffix
      refine ⟨(suffix_of_cutAt hcut).trans hmore, ?_⟩
      split <;> constructor <;> intro heq <;> cases heq

/-- Text without a slash is read into flat tokens, unless it is `**` and fills a component. -/
theorem eq_stars_or_flat_of_ofTextFrom {position : Nat} {previous : Option Char}
    {text : List Char} {tokens : List Token}
    (h : ofTextFrom position previous text = .ok tokens) (hslash : '/' ∉ text) :
    (text = ['*', '*'] ∧ (previous = none ∨ previous = some '/')) ∨
      ∀ token ∈ tokens, token.IsFlat := by
  fun_induction ofTextFrom position previous text generalizing tokens with
  | case1 =>
      cases h
      exact .inr nofun
  | case2 position previous rest ih | case8 position previous rest _ _ ih =>
      obtain ⟨more, hmore, rfl⟩ := map_eq_ok.1 h
      right
      rcases ih hmore (fun hmem => hslash (List.mem_cons_of_mem _ hmem)) with ⟨-, hstart⟩ | hrest
      · simp at hstart
      · exact List.forall_mem_cons.2 ⟨⟨nofun, nofun⟩, hrest⟩
  | case3 | case6 | case7 | case9 => cases h
  | case4 position previous hstart => exact .inl ⟨rfl, hstart⟩
  | case5 => simp at hslash
  | case10 position previous rest token after taken hclass ih =>
      obtain ⟨more, hmore, rfl⟩ := map_eq_ok.1 h
      obtain ⟨hsuffix, hflat⟩ := suffix_of_readClass hclass
      right
      rcases ih hmore (fun hmem => hslash (List.mem_cons_of_mem _ (hsuffix.mem hmem))) with
        ⟨-, hstart⟩ | hrest
      · simp at hstart
      · exact List.forall_mem_cons.2 ⟨hflat, hrest⟩
  | case11 position previous c rest _ _ _ _ _ ih =>
      obtain ⟨more, hmore, rfl⟩ := map_eq_ok.1 h
      have hc : c ≠ '/' := fun heq => hslash (heq ▸ List.mem_cons_self)
      right
      rcases ih hmore (fun hmem => hslash (List.mem_cons_of_mem _ hmem)) with ⟨-, hstart⟩ | hrest
      · simp [hc] at hstart
      · exact List.forall_mem_cons.2 ⟨⟨nofun, by simpa using hc⟩, hrest⟩

theorem ofTextFrom_stars {position : Nat} {previous : Option Char}
    (hstart : previous = none ∨ previous = some '/') :
    ofTextFrom position previous ['*', '*'] = .ok [.anyPath] := by
  rw [ofTextFrom]
  simp [hstart]

end Token

/-! ### Matching -/

theorem afterRun_eq_hit {next : List Char → Verdict} {path : List Char}
    (h : afterRun next path = .hit) :
    ∃ skipped rest, path = skipped ++ rest ∧ '/' ∉ skipped ∧ next rest = .hit := by
  induction path with
  | nil => exact ⟨[], [], rfl, nofun, h⟩
  | cons c rest ih =>
      rw [afterRun] at h
      split at h
      · next hmiss =>
          split at h
          · cases h
          · next hc =>
              obtain ⟨skipped, left, rfl, hslash, hit⟩ := ih h
              refine ⟨c :: skipped, left, rfl, ?_, hit⟩
              simpa [Ne.symm hc] using hslash
      · exact ⟨[], c :: rest, rfl, nofun, h⟩

theorem afterComponents_run_nil (path : List Char) :
    afterComponents (Token.run []) path = .hit := by
  induction path with
  | nil => rfl
  | cons c rest ih =>
      rw [afterComponents]
      split
      · cases rest with
        | nil => rfl
        | cons d more =>
            simp only [Token.run]
            exact ih
      · exact ih

namespace Token

theorem run_anyPath (path : List Char) : run [.anyPath] path = .hit := by
  rw [run]
  cases path with
  | nil => rfl
  | cons c rest =>
      simp only [run]
      exact afterComponents_run_nil (c :: rest)

theorem accepts_slash {token : Token} (flat : token.IsFlat) : token.accepts '/' = false := by
  cases token with
  | literal c =>
      have hc : c ≠ '/' := fun heq => flat.2 (heq ▸ rfl)
      simpa [accepts] using Ne.symm hc
  | anyChar | anyRun | anyPath | oneOf | noneOf => simp [accepts]

theorem run_cons_eq_hit {token : Token} {tokens : List Token} {path : List Char}
    (hrun : token ≠ .anyRun) (hpath : token ≠ .anyPath) (hit : run (token :: tokens) path = .hit) :
    ∃ c rest, path = c :: rest ∧ token.accepts c ∧ run tokens rest = .hit := by
  cases path with
  | nil =>
      rw [run] at hit
      · cases hit
      · exact fun heq => hrun heq
      · exact fun heq => hpath heq
  | cons c rest =>
      rw [run] at hit
      · split at hit
        · next haccepts => exact ⟨c, rest, rfl, haccepts, hit⟩
        · cases hit
      · exact fun heq => hrun heq
      · exact fun heq => hpath heq

theorem not_mem_of_run {tokens : List Token} {path : List Char}
    (flat : ∀ token ∈ tokens, token.IsFlat) (hit : run tokens path = .hit) : '/' ∉ path := by
  induction tokens generalizing path with
  | nil =>
      cases path with
      | nil => exact nofun
      | cons c rest => cases hit
  | cons token more ih =>
      obtain ⟨hflat, hmore⟩ := List.forall_mem_cons.1 flat
      by_cases hrun : token = .anyRun
      · subst hrun
        rw [run] at hit
        obtain ⟨skipped, rest, rfl, hskipped, hrest⟩ := afterRun_eq_hit hit
        simpa [hskipped] using ih hmore hrest
      · obtain ⟨c, rest, rfl, haccepts, hrest⟩ := run_cons_eq_hit hrun hflat.1 hit
        have hc : '/' ≠ c := by
          rintro rfl
          rw [accepts_slash hflat] at haccepts
          cases haccepts
        simpa [hc] using ih hmore hrest

theorem run_literals (literal : List Char) (tokens : List Token) (path : List Char) :
    run (literal.map .literal ++ tokens) path = .hit ↔
      ∃ rest, path = literal ++ rest ∧ run tokens rest = .hit := by
  induction literal generalizing path with
  | nil => simp
  | cons c more ih =>
      cases path with
      | nil => simp [run]
      | cons d rest =>
          by_cases h : d = c
          · subst h
            simp [run, accepts, ih]
          · simp [run, accepts, h]

end Token

end ManifestRelay.Glob
