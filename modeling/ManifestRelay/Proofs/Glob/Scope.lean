import ManifestRelay.Glob.Scope

/-!
# The scope of a glob

The scope of a glob is either the whole tree, or the directory that stands
before the last slash of its literal text.  Only a glob with a slash too many in
front has a scope that no file lies in.
-/

namespace ManifestRelay.Glob

/-! ### The last slash -/

theorem cutAtLastSlash_eq_none {text : List Char} (h : cutAtLastSlash text = none) :
    '/' ∉ text := by
  fun_induction cutAtLastSlash text with
  | case1 => exact nofun
  | case2 => cases h
  | case3 rest hrest ih => cases h
  | case4 c rest hrest hc ih => simpa [Ne.symm hc] using ih hrest

theorem cutAtLastSlash_eq_some {text before after : List Char}
    (h : cutAtLastSlash text = some (before, after)) : text = before ++ '/' :: after := by
  fun_induction cutAtLastSlash text generalizing before after with
  | case1 => cases h
  | case2 c rest first tail hrest ih =>
      cases h
      rw [ih hrest, List.cons_append]
  | case3 rest hrest ih =>
      cases h
      rfl
  | case4 => cases h

/-! ### Literal directories -/

theorem literalDirectory_eq_some {glob directory residual : List Char}
    (h : literalDirectory glob = some (directory, residual)) :
    glob = directory ++ '/' :: residual ∧ (∀ c ∈ directory ++ ['/'], c ∉ metaChars) ∧
      directory ≠ [] := by
  rw [literalDirectory] at h
  split at h
  · next first others after hcut =>
      cases h
      have hliteral := cutAtLastSlash_eq_some hcut
      have hplain : ∀ c ∈ glob.takeWhile (· ∉ metaChars), c ∉ metaChars := fun c hc => by
        simpa using List.all_eq_true.1 List.all_takeWhile c hc
      refine ⟨?_, ?_, List.cons_ne_nil first others⟩
      · calc glob
          _ = glob.takeWhile (· ∉ metaChars) ++ glob.dropWhile (· ∉ metaChars) :=
              List.takeWhile_append_dropWhile.symm
          _ = (first :: others ++ '/' :: after) ++ glob.dropWhile (· ∉ metaChars) := by
              rw [hliteral]
          _ = _ := List.append_assoc (first :: others) ('/' :: after) _
      · intro c hc
        apply hplain
        rw [hliteral]
        rw [List.append_cons]
        exact List.mem_append_left after hc
  · cases h

theorem literalDirectory_eq_none {glob : List Char} (h : literalDirectory glob = none) :
    '/' ∉ glob.takeWhile (· ∉ metaChars) ∨ ∃ rest, glob = '/' :: rest := by
  rw [literalDirectory] at h
  split at h
  · cases h
  · next hcut =>
      cases hparts : cutAtLastSlash (glob.takeWhile (· ∉ metaChars)) with
      | none => exact .inl (cutAtLastSlash_eq_none hparts)
      | some parts =>
          obtain ⟨before, after⟩ := parts
          cases before with
          | cons first others => exact absurd hparts (hcut first others after)
          | nil =>
              right
              have hliteral := cutAtLastSlash_eq_some hparts
              rw [← List.takeWhile_append_dropWhile (p := (· ∉ metaChars)) (l := glob), hliteral]
              exact ⟨_, rfl⟩

/-! ### Scopes -/

theorem not_mem_of_spansDirectories {residual : List Char}
    (h : spansDirectories residual = false) : '/' ∉ residual := by
  fun_induction spansDirectories residual with
  | case1 => exact nofun
  | case2 => cases h
  | case3 c rest _ ih =>
      simp only [Bool.or_eq_false_iff, beq_eq_false_iff_ne] at h
      have hc : '/' ≠ c := Ne.symm h.1.1
      simpa [hc] using ih h.2

/-- The scope of a glob that has lost its leading slash. -/
inductive HasScope (glob : List Char) : Scope → Prop where
  | root : HasScope glob ⟨treeRoot, spansDirectories glob, String.ofList glob⟩
  | below {directory residual : List Char} (hglob : glob = directory ++ '/' :: residual)
      (plain : ∀ c ∈ directory ++ ['/'], c ∉ metaChars) :
      HasScope glob
        ⟨String.ofList directory, spansDirectories residual, String.ofList residual⟩
  /-- A glob that still begins with a slash. -/
  | outside {scope : Scope} {rest : List Char} (hglob : glob = '/' :: rest) : HasScope glob scope

theorem hasScope_of_literalDirectory (glob : List Char) :
    match literalDirectory glob with
    | some (directory, residual) => HasScope glob
        ⟨String.ofList directory, spansDirectories residual, String.ofList residual⟩
    | none => HasScope glob ⟨treeRoot, spansDirectories glob, String.ofList glob⟩ := by
  cases h : literalDirectory glob with
  | none => exact .root
  | some parts =>
      obtain ⟨hglob, plain, -⟩ := literalDirectory_eq_some h
      exact .below hglob plain

theorem literalDirectory_slash {rest : List Char} (hrest : literalDirectory rest = none)
    {parts : List Char × List Char} (h : literalDirectory ('/' :: rest) = some parts) :
    ∃ more, rest = '/' :: more := by
  obtain ⟨directory, residual⟩ := parts
  obtain ⟨hglob, plain, hdirectory⟩ := literalDirectory_eq_some h
  obtain ⟨first, others, rfl⟩ := List.exists_cons_of_ne_nil hdirectory
  rw [List.cons_append, List.cons.injEq] at hglob
  obtain ⟨rfl, rfl⟩ := hglob
  rcases literalDirectory_eq_none hrest with hslash | hmore
  · refine absurd ?_ hslash
    have hothers : ∀ c ∈ others ++ ['/'], decide (c ∉ metaChars) = true := fun c hc =>
      decide_eq_true (plain c (List.mem_cons_of_mem _ hc))
    rw [List.append_cons, List.takeWhile_append_of_pos hothers]
    simp
  · exact hmore

theorem withoutSlash_eq_self {glob : List Char} (plain : glob.head? ≠ some '/') :
    withoutSlash glob = glob := by
  rw [withoutSlash]
  rintro rest rfl
  exact plain rfl

theorem hasScope_scopeOf (glob : List Char) : HasScope (withoutSlash glob) (scopeOf glob) := by
  rw [scopeOf]
  by_cases hslash : glob.head? = some '/'
  · obtain ⟨rest, rfl⟩ := List.head?_eq_some_iff.1 hslash
    have hcut := hasScope_of_literalDirectory rest
    rw [if_pos hslash]
    cases hrest : literalDirectory rest with
    | some parts =>
        rw [hrest] at hcut
        simpa [withoutSlash, hrest] using hcut
    | none =>
        rw [hrest] at hcut
        cases hglob : literalDirectory ('/' :: rest) with
        | none => simpa [withoutSlash, hrest, hglob] using hcut
        | some parts =>
            obtain ⟨more, hmore⟩ := literalDirectory_slash hrest hglob
            exact .outside hmore
  · have hcut := hasScope_of_literalDirectory glob
    rw [if_neg hslash, withoutSlash_eq_self hslash, Option.none_or]
    cases hglob : literalDirectory glob with
    | some parts => simpa [hglob] using hcut
    | none => simpa [hglob] using hcut

namespace Scope

/-- What every path below the directory of a scope begins with. -/
def opening (scope : Scope) : List Char :=
  if scope.directory = treeRoot then [] else scope.directory.toList ++ ['/']

/-- Whether a walk of the scope comes by a path. -/
def Reaches (scope : Scope) (path : List Char) : Prop :=
  ∃ rest, path = scope.opening ++ rest ∧ (scope.recursive = false → '/' ∉ rest)

end Scope

/-- Text in front of a glob that no path in a repository begins with. -/
def strayOpenings : List (List Char) := [['/'], ['.', '/']]

/-- A glob begins literally with the opening of its scope, which is empty or ends with a slash,
or no repository has a path for it. -/
theorem HasScope.opening {glob : List Char} {scope : Scope} (hasScope : HasScope glob scope) :
    (∃ rest, glob = scope.opening ++ rest ∧ (∀ c ∈ scope.opening, c ∉ metaChars) ∧
      (scope.opening.getLast? = none ∨ scope.opening.getLast? = some '/') ∧
      (scope.recursive = false → '/' ∉ rest)) ∨
    ∃ stray ∈ strayOpenings, ∃ rest, glob = stray ++ rest := by
  cases hasScope with
  | root => exact .inl ⟨glob, rfl, nofun, .inl rfl, not_mem_of_spansDirectories⟩
  | @below directory residual hglob plain =>
      by_cases hroot : String.ofList directory = treeRoot
      · have hdirectory : directory = ['.'] := by
          rw [← String.toList_ofList (l := directory), hroot]
          rfl
        rw [hdirectory] at hglob
        exact .inr ⟨['.', '/'], by decide, residual, hglob⟩
      · refine .inl ⟨residual, ?_, ?_, .inr ?_, not_mem_of_spansDirectories⟩
        · simp [Scope.opening, hroot, hglob]
        · simpa [Scope.opening, hroot] using plain
        · simp [Scope.opening, hroot]
  | @outside _ rest hglob => exact .inr ⟨['/'], by decide, rest, hglob⟩

end ManifestRelay.Glob
