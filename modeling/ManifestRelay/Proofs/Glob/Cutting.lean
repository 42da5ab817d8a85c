import ManifestRelay.Proofs.Glob.Scope

/-!
# Where a glob is cut

One slash in front of a glob does not count.  The glob is cut at the last slash
that stands behind its start and in front of all its metacharacters; a glob
without such a slash is looked for in the whole tree.  Only a glob with two
slashes in front may be cut elsewhere: if no third slash is literal, the second
is taken for the end of a directory whose name is the first.
-/

namespace ManifestRelay.Glob

/-! ### Literal slashes -/

/-- A glob has a slash between these parts, which is not its first character and stands in front of
all its metacharacters. -/
structure IsCutInto (glob before after : List Char) : Prop where
  text : glob = before ++ '/' :: after
  nonempty : before ≠ []
  plain : ∀ c ∈ before, c ∉ metaChars

/-- The slash between these parts is the last of its kind. -/
structure IsLastCut (glob before after : List Char) : Prop extends IsCutInto glob before after where
  last : ∀ front back, IsCutInto glob front back → front.length ≤ before.length

theorem IsLastCut.unique {glob before after front back : List Char}
    (h : IsLastCut glob before after) (other : IsLastCut glob front back) :
    before = front ∧ after = back := by
  have hlength : before.length = front.length :=
    Nat.le_antisymm (other.last _ _ h.toIsCutInto) (h.last _ _ other.toIsCutInto)
  obtain ⟨hbefore, hafter⟩ := List.append_inj (h.text.symm.trans other.text) hlength
  exact ⟨hbefore, (List.cons.inj hafter).2⟩

theorem exists_cutAtLastSlash (before after : List Char) : ∃ front back,
    cutAtLastSlash (before ++ '/' :: after) = some (front, back) ∧
      before.length ≤ front.length := by
  induction before with
  | nil =>
      rw [List.nil_append, cutAtLastSlash]
      cases cutAtLastSlash after with
      | none => exact ⟨[], after, if_pos rfl, Nat.zero_le _⟩
      | some parts => exact ⟨'/' :: parts.1, parts.2, rfl, Nat.zero_le _⟩
  | cons c before ih =>
      obtain ⟨front, back, hcut, hlength⟩ := ih
      refine ⟨c :: front, back, ?_, Nat.succ_le_succ hlength⟩
      rw [List.cons_append, cutAtLastSlash, hcut]

theorem exists_literalDirectory {glob before after : List Char}
    (cut : IsCutInto glob before after) : ∃ directory residual,
      literalDirectory glob = some (directory, residual) ∧
        before.length ≤ directory.length := by
  have hplain : ∀ c ∈ before ++ ['/'], decide (c ∉ metaChars) = true := by
    refine List.forall_mem_append.2 ⟨fun c hc => decide_eq_true (cut.plain c hc), ?_⟩
    exact List.forall_mem_singleton.2 (by decide)
  have hrun : glob.takeWhile (· ∉ metaChars) =
      before ++ '/' :: after.takeWhile (· ∉ metaChars) := by
    rw [cut.text, List.append_cons, List.takeWhile_append_of_pos hplain, ← List.append_cons]
  obtain ⟨front, back, hcut, hlength⟩ :=
    exists_cutAtLastSlash before (after.takeWhile (· ∉ metaChars))
  rw [← hrun] at hcut
  cases front with
  | nil => exact absurd (List.length_eq_zero_iff.1 (Nat.le_zero.1 hlength)) cut.nonempty
  | cons first others => exact ⟨first :: others, _, by rw [literalDirectory, hcut], hlength⟩

/-- The literal directory of a glob ends at the last literal slash. -/
theorem literalDirectory_eq_some_iff {glob directory residual : List Char} :
    literalDirectory glob = some (directory, residual) ↔ IsLastCut glob directory residual := by
  have sound {directory residual : List Char}
      (h : literalDirectory glob = some (directory, residual)) :
      IsLastCut glob directory residual := by
    obtain ⟨htext, hplain, hnonempty⟩ := literalDirectory_eq_some h
    refine ⟨⟨htext, hnonempty, fun c hc => hplain c (List.mem_append_left _ hc)⟩, ?_⟩
    intro front back cut
    obtain ⟨directory', residual', h', hlength⟩ := exists_literalDirectory cut
    rw [h] at h'
    cases h'
    exact hlength
  refine ⟨sound, fun cut => ?_⟩
  obtain ⟨directory', residual', h, -⟩ := exists_literalDirectory cut.toIsCutInto
  obtain ⟨rfl, rfl⟩ := (sound h).unique cut
  exact h

theorem literalDirectory_eq_none_iff {glob : List Char} :
    literalDirectory glob = none ↔ ∀ before after, ¬ IsCutInto glob before after := by
  constructor
  · intro h before after cut
    obtain ⟨directory, residual, hsome, -⟩ := exists_literalDirectory cut
    rw [h] at hsome
    cases hsome
  · intro h
    cases hparts : literalDirectory glob with
    | none => rfl
    | some parts => exact absurd (literalDirectory_eq_some_iff.1 hparts).toIsCutInto (h _ _)

/-! ### Residuals -/

theorem spansDirectories_iff (residual : List Char) : spansDirectories residual = true ↔
    '/' ∈ residual ∨ '[' ∈ residual ∨ ['*', '*'] <:+: residual := by
  fun_induction spansDirectories residual with
  | case1 => simp
  | case2 rest => exact iff_of_true rfl (.inr (.inr (List.prefix_append ['*', '*'] rest).isInfix))
  | case3 c rest stars ih =>
      have hstars : ['*', '*'] <:+: c :: rest ↔ ['*', '*'] <:+: rest := by
        rw [List.infix_cons_iff, or_iff_right]
        rintro ⟨more, hmore⟩
        obtain ⟨rfl, rfl⟩ := List.cons.inj hmore
        exact stars more rfl rfl
      rw [Bool.or_eq_true, Bool.or_eq_true, beq_iff_eq, beq_iff_eq, ih, hstars]
      grind

/-! ### Scopes -/

/-- The scope of a glob whose leading slash is gone: the text around its last literal slash, or the
whole glob from the top of the tree if no slash is literal. -/
structure IsCutTo (glob : List Char) (scope : Scope) : Prop where
  parts : IsLastCut glob scope.directory.toList scope.residual.toList ∨
    (∀ before after, ¬ IsCutInto glob before after) ∧
      scope.directory = treeRoot ∧ scope.residual.toList = glob
  recursive : scope.recursive = true ↔ '/' ∈ scope.residual.toList ∨
    '[' ∈ scope.residual.toList ∨ ['*', '*'] <:+: scope.residual.toList

/-- Whether a glob has two slashes in front, and no other before its first metacharacter. -/
def IsDoubled (glob : List Char) : Prop :=
  ∃ rest, glob = '/' :: '/' :: rest ∧ '/' ∉ rest.takeWhile (· ∉ metaChars)

theorem isCutTo_of_literalDirectory (glob : List Char) :
    match literalDirectory glob with
    | some (directory, residual) => IsCutTo glob
        ⟨String.ofList directory, spansDirectories residual, String.ofList residual⟩
    | none => IsCutTo glob ⟨treeRoot, spansDirectories glob, String.ofList glob⟩ := by
  cases h : literalDirectory glob with
  | some parts =>
      obtain ⟨directory, residual⟩ := parts
      refine ⟨.inl ?_, ?_⟩
      · rw [String.toList_ofList, String.toList_ofList]
        exact literalDirectory_eq_some_iff.1 h
      · rw [String.toList_ofList]
        exact spansDirectories_iff residual
  | none =>
      refine ⟨.inr ⟨literalDirectory_eq_none_iff.1 h, rfl, String.toList_ofList⟩, ?_⟩
      rw [String.toList_ofList]
      exact spansDirectories_iff glob

theorem literalDirectory_slash_iff (rest : List Char) :
    literalDirectory ('/' :: rest) = none ↔ '/' ∉ rest.takeWhile (· ∉ metaChars) := by
  rw [literalDirectory_eq_none_iff]
  constructor
  · intro h hslash
    obtain ⟨front, back, hfront⟩ := List.append_of_mem hslash
    have hplain : ∀ c ∈ '/' :: front, c ∉ metaChars := by
      refine List.forall_mem_cons.2 ⟨by decide, fun c hc => ?_⟩
      have hrun : c ∈ rest.takeWhile (· ∉ metaChars) :=
        hfront ▸ List.mem_append_left _ hc
      simpa using List.all_eq_true.1 List.all_takeWhile c hrun
    refine h ('/' :: front) (back ++ rest.dropWhile (· ∉ metaChars)) ⟨?_, nofun, hplain⟩
    calc '/' :: rest
      _ = '/' :: (rest.takeWhile (· ∉ metaChars) ++ rest.dropWhile (· ∉ metaChars)) := by
          rw [List.takeWhile_append_dropWhile]
      _ = _ := by rw [hfront, List.append_assoc, List.cons_append, List.cons_append]
  · rintro hslash before after ⟨htext, hnonempty, hplain⟩
    obtain ⟨first, others, rfl⟩ := List.exists_cons_of_ne_nil hnonempty
    rw [List.cons_append] at htext
    obtain ⟨rfl, rfl⟩ := List.cons.inj htext
    have hothers : ∀ c ∈ others ++ ['/'], decide (c ∉ metaChars) = true := by
      refine List.forall_mem_append.2 ⟨fun c hc => ?_, List.forall_mem_singleton.2 (by decide)⟩
      exact decide_eq_true (hplain c (List.mem_cons_of_mem _ hc))
    rw [List.append_cons, List.takeWhile_append_of_pos hothers] at hslash
    exact hslash (by simp)

theorem IsCutInto.of_slash {rest before after : List Char}
    (cut : IsCutInto ('/' :: rest) before after)
    (uncut : ∀ front back, ¬ IsCutInto rest front back) :
    before = ['/'] ∧ rest = '/' :: after := by
  obtain ⟨htext, hnonempty, hplain⟩ := cut
  obtain ⟨first, others, rfl⟩ := List.exists_cons_of_ne_nil hnonempty
  rw [List.cons_append] at htext
  obtain ⟨rfl, hrest⟩ := List.cons.inj htext
  cases others with
  | nil => exact ⟨rfl, hrest⟩
  | cons second others =>
      have hcut : IsCutInto rest (second :: others) after :=
        ⟨hrest, List.cons_ne_nil second others, (List.forall_mem_cons.1 hplain).2⟩
      exact absurd hcut (uncut _ _)

theorem isCutTo_scopeOf_slash {rest : List Char} (single : ¬ IsDoubled ('/' :: rest)) :
    IsCutTo rest (scopeOf ('/' :: rest)) := by
  have hcut := isCutTo_of_literalDirectory rest
  cases hrest : literalDirectory rest with
  | some parts =>
      rw [hrest] at hcut
      simpa [scopeOf, withoutSlash, hrest] using hcut
  | none =>
      rw [hrest] at hcut
      cases hglob : literalDirectory ('/' :: rest) with
      | none => simpa [scopeOf, withoutSlash, hrest, hglob] using hcut
      | some parts =>
          obtain ⟨-, rfl⟩ := (literalDirectory_eq_some_iff.1 hglob).toIsCutInto.of_slash
            (literalDirectory_eq_none_iff.1 hrest)
          exact absurd ⟨_, rfl, (literalDirectory_slash_iff _).1 hrest⟩ single

theorem isCutTo_scopeOf {glob : List Char} (plain : glob.head? ≠ some '/') :
    IsCutTo (withoutSlash glob) (scopeOf glob) := by
  have hcut := isCutTo_of_literalDirectory glob
  rw [withoutSlash_eq_self plain]
  cases hglob : literalDirectory glob with
  | some parts =>
      rw [hglob] at hcut
      simpa [scopeOf, plain, hglob] using hcut
  | none =>
      rw [hglob] at hcut
      simpa [scopeOf, plain, hglob, withoutSlash_eq_self plain] using hcut

section Doubled

variable {rest : List Char} (doubled : '/' ∉ rest.takeWhile (· ∉ metaChars))

include doubled

theorem scopeOf_doubled : scopeOf ('/' :: '/' :: rest) =
    ⟨"/", spansDirectories rest, String.ofList rest⟩ := by
  have hnone := (literalDirectory_slash_iff rest).2 doubled
  have hcut : IsCutInto ('/' :: '/' :: rest) ['/'] rest :=
    ⟨rfl, List.cons_ne_nil _ _, List.forall_mem_singleton.2 (by decide)⟩
  obtain ⟨directory, residual, hsome, -⟩ := exists_literalDirectory hcut
  obtain ⟨rfl, heq⟩ := (literalDirectory_eq_some_iff.1 hsome).toIsCutInto.of_slash
    (literalDirectory_eq_none_iff.1 hnone)
  obtain rfl := (List.cons.inj heq).2
  simp [scopeOf, withoutSlash, hnone, hsome]

/-- Without its slash a doubled glob has no literal slash, and yet its scope is not the whole tree. -/
theorem not_isCutTo_scopeOf_doubled :
    ¬ IsCutTo ('/' :: rest) (scopeOf ('/' :: '/' :: rest)) := by
  have huncut := literalDirectory_eq_none_iff.1 ((literalDirectory_slash_iff rest).2 doubled)
  rw [scopeOf_doubled doubled]
  intro cut
  rcases cut.parts with hlast | ⟨-, hroot, -⟩
  · exact huncut _ _ hlast.toIsCutInto
  · have hother : "/" ≠ treeRoot := by decide
    exact hother hroot

end Doubled

/-- A glob is cut at its last literal slash exactly if it is not doubled, and a doubled one behind
its two slashes. -/
theorem scope_cut_iff (glob : String) :
    (IsCutTo (withoutSlash glob.toList) (Scope.ofGlob glob) ↔ ¬ IsDoubled glob.toList) ∧
      ∀ rest, glob.toList = '/' :: '/' :: rest → '/' ∉ rest.takeWhile (· ∉ metaChars) →
        Scope.ofGlob glob = ⟨"/", spansDirectories rest, String.ofList rest⟩ := by
  rw [Scope.ofGlob]
  generalize glob.toList = text
  refine ⟨⟨?_, fun single => ?_⟩, ?_⟩
  · rintro cut ⟨rest, rfl, doubled⟩
    exact not_isCutTo_scopeOf_doubled doubled cut
  · by_cases hslash : text.head? = some '/'
    · obtain ⟨rest, rfl⟩ := List.head?_eq_some_iff.1 hslash
      exact isCutTo_scopeOf_slash single
    · exact isCutTo_scopeOf hslash
  · rintro rest rfl doubled
    exact scopeOf_doubled doubled

/-- Of the two slashes in front of `//x` only one is left out of account: it is looked for in a
directory called `/`, although behind the slash that does not count no slash is literal. -/
theorem doubled_slash_names_directory :
    Scope.ofGlob "//x" = ⟨"/", false, "x"⟩ ∧
      ¬ IsCutTo (withoutSlash "//x".toList) (Scope.ofGlob "//x") :=
  ⟨by decide, not_isCutTo_scopeOf_doubled (by decide)⟩

end ManifestRelay.Glob
