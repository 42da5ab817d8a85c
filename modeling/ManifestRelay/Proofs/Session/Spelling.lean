import Mathlib
import ManifestRelay.Proofs.Glob.Scope
import ManifestRelay.Proofs.Session.Interruption
import ManifestRelay.Proofs.Turn.Selected

/-!
# Globs with and without a slash in front

A slash in front of a glob says nothing: the glob selects the same files without
it, in the same walk.  A stream of manifests notices the slash in one place only.
It drops a glob that it has been given before, and tells globs apart by their
spelling.
-/

namespace ManifestRelay

/-! ### Globs -/

namespace Glob

/-- A glob loses its slash without a change of scope, unless another slash is behind that one. -/
theorem scopeOf_withoutSlash {glob : List Char} (single : (withoutSlash glob).head? ≠ some '/') :
    scopeOf (withoutSlash glob) = scopeOf glob := by
  by_cases hslash : glob.head? = some '/'
  · obtain ⟨rest, rfl⟩ := List.head?_eq_some_iff.1 hslash
    have hplain : withoutSlash ('/' :: rest) = rest := rfl
    rw [hplain] at single ⊢
    have hcut : (literalDirectory rest).or (literalDirectory ('/' :: rest)) =
        literalDirectory rest := by
      cases hdirectory : literalDirectory rest with
      | some parts => rfl
      | none =>
          cases hglob : literalDirectory ('/' :: rest) with
          | none => rfl
          | some parts =>
              obtain ⟨more, rfl⟩ := literalDirectory_slash hdirectory hglob
              exact absurd rfl single
    rw [scopeOf, scopeOf, if_neg single, Option.none_or, withoutSlash_eq_self single, if_pos hslash,
      hplain, hcut]
  · rw [withoutSlash_eq_self hslash]

end Glob

namespace Session

open Metadata Relay Turn
open ManifestRelay.Stream

/-! ### Exchanges in parts -/

section Parts

variable {σ φ α β : Type} (surroundings : Surroundings σ φ)

theorem Dialogue.run_bind (d : Dialogue φ α) (f : α → Dialogue φ β) (s : σ) :
    (d.bind f).run surroundings s =
      match d.run surroundings s with
      | (some a, t) => (f a).run surroundings t
      | (none, t) => (none, t) := by
  induction d generalizing s with
  | done a => rfl
  | note n next ih => exact ih (surroundings.record n s)
  | ask query next ih =>
      rw [bind, run, run]
      rcases surroundings.answer query s with ⟨_ | answer, t⟩
      · rfl
      · exact ih answer t

theorem Exchange.run_bind (x : Exchange φ α) (f : α → Exchange φ β) (s : σ) :
    (x >>= f).run.run surroundings s =
      match x.run.run surroundings s with
      | (some (.ok a), t) => (f a).run.run surroundings t
      | (some (.error status), t) => (some (.error status), t)
      | (none, t) => (none, t) := by
  refine (Dialogue.run_bind surroundings x.run _ s).trans ?_
  rcases x.run.run surroundings s with ⟨_ | _ | a, t⟩ <;> rfl

end Parts

namespace ManifestStream

/-! ### Distinct globs -/

def mention (kept : List String) (glob : String) : List String :=
  if glob ∈ kept then kept else kept ++ [glob]

/-- The globs of a list without repetitions, in the order of their first mention. -/
def firstMentions (globs : List String) : List String := globs.foldl mention []

theorem mem_mention {kept : List String} {glob other : String} :
    other ∈ mention kept glob ↔ other ∈ kept ∨ other = glob := by
  unfold mention
  split
  · next hmem => exact ⟨.inl, fun h => h.elim id fun hsame => hsame ▸ hmem⟩
  · rw [List.mem_append, List.mem_singleton]

theorem nodup_mention {kept : List String} (distinct : kept.Nodup) (glob : String) :
    (mention kept glob).Nodup := by
  unfold mention
  split
  · exact distinct
  · next hnew => simpa only [List.concat_eq_append] using distinct.concat hnew

theorem mem_foldl_mention {globs kept : List String} {glob : String} :
    glob ∈ globs.foldl mention kept ↔ glob ∈ kept ∨ glob ∈ globs := by
  induction globs generalizing kept with
  | nil => rw [List.foldl_nil, or_iff_left List.not_mem_nil]
  | cons first rest ih => rw [List.foldl_cons, ih, mem_mention, List.mem_cons, or_assoc]

theorem nodup_foldl_mention (globs : List String) {kept : List String} (distinct : kept.Nodup) :
    (globs.foldl mention kept).Nodup := by
  induction globs generalizing kept with
  | nil => exact distinct
  | cons first rest ih => exact ih (nodup_mention distinct first)

/-- A map that confuses no two of the globs that are mentioned can be applied before or after. -/
theorem foldl_mention_map {globs kept : List String} {f : String → String}
    (apart : Set.InjOn f {glob | glob ∈ kept ∨ glob ∈ globs}) :
    (globs.map f).foldl mention (kept.map f) = (globs.foldl mention kept).map f := by
  induction globs generalizing kept with
  | nil => rfl
  | cons first rest ih =>
      have hmem : f first ∈ kept.map f ↔ first ∈ kept := by
        refine ⟨fun hmapped => ?_, List.mem_map_of_mem⟩
        obtain ⟨other, hother, hsame⟩ := List.mem_map.1 hmapped
        exact apart (.inl hother) (.inr List.mem_cons_self) hsame ▸ hother
      have hmention : mention (kept.map f) (f first) = (mention kept first).map f := by
        unfold mention
        rw [if_congr hmem rfl rfl, apply_ite (List.map f), List.map_append]
        rfl
      rw [List.map_cons, List.foldl_cons, List.foldl_cons, hmention]
      refine ih (apart.mono fun glob hglob => ?_)
      rcases hglob with hkept | hrest
      · refine (mem_mention.1 hkept).imp_right ?_
        rintro rfl
        exact List.mem_cons_self
      · exact .inr (List.mem_cons_of_mem first hrest)

theorem mem_firstMentions {globs : List String} {glob : String} :
    glob ∈ firstMentions globs ↔ glob ∈ globs := by
  rw [firstMentions, mem_foldl_mention, or_iff_right List.not_mem_nil]

theorem length_firstMentions (globs : List String) :
    (firstMentions globs).length = globs.toFinset.card := by
  have hdistinct : (firstMentions globs).Nodup := nodup_foldl_mention globs List.nodup_nil
  rw [← List.toFinset_card_of_nodup hdistinct]
  refine congrArg _ (Finset.ext fun glob => ?_)
  rw [List.mem_toFinset, List.mem_toFinset]
  exact mem_firstMentions

theorem length_firstMentions_map (globs : List String) (f : String → String) :
    (firstMentions (globs.map f)).length = (globs.toFinset.image f).card := by
  rw [length_firstMentions]
  refine congrArg _ (Finset.ext fun glob => ?_)
  simp only [List.mem_toFinset, List.mem_map, Finset.mem_image]

theorem length_firstMentions_map_le (globs : List String) (f : String → String) :
    (firstMentions (globs.map f)).length ≤ (firstMentions globs).length := by
  rw [length_firstMentions_map, length_firstMentions]
  exact Finset.card_image_le

/-- A map leaves as many distinct globs as there were only if it confuses no two of them. -/
theorem injOn_of_length_firstMentions {globs : List String} {f : String → String}
    (same : (firstMentions (globs.map f)).length = (firstMentions globs).length) :
    Set.InjOn f {glob | glob ∈ globs} := by
  rw [length_firstMentions_map, length_firstMentions, Finset.card_image_iff,
    List.coe_toFinset] at same
  exact same

/-- What a stream is opened with that has these distinct globs, unless they are too many. -/
def admitted (settings : Settings) (globs : List String) : Except Status (List String) :=
  if settings.maxGlobs < globs.length then
    .error (tooManyGlobs settings.maxGlobs globs.length)
  else .ok globs

theorem run_opening {σ : Type} (surroundings : Surroundings σ Frame) (settings : Settings)
    (token : AgentToken) (globs : List String) (s : σ) :
    (opening settings token globs).run.run surroundings s =
      match (Exchange.agent token false).run.run surroundings s with
      | (some (.ok _), t) => (some (admitted settings (firstMentions globs)), t)
      | (some (.error status), t) => (some (.error status), t)
      | (none, t) => (none, t) := by
  have hrest : ∀ t, (if settings.maxGlobs < (firstMentions globs).length then do
        throw (tooManyGlobs settings.maxGlobs (firstMentions globs).length)
        pure (firstMentions globs)
      else pure (firstMentions globs) : Exchange Frame (List String)).run.run surroundings t =
      (some (admitted settings (firstMentions globs)), t) := by
    intro t
    unfold admitted
    split <;> rfl
  refine (Exchange.run_bind surroundings _ _ s).trans ?_
  rcases (Exchange.agent token false).run.run surroundings s with ⟨_ | _ | agent, t⟩
  · rfl
  · rfl
  · exact hrest t

/-! ### Globs without their slashes -/

theorem head?_withoutSlash {glob : String} (single : glob.startsWith "//" = false) :
    (Glob.withoutSlash glob.toList).head? ≠ some '/' := by
  rw [← Bool.not_eq_true, String.startsWith_string_iff] at single
  by_cases hslash : glob.toList.head? = some '/'
  · obtain ⟨rest, hglob⟩ := List.head?_eq_some_iff.1 hslash
    rw [hglob] at single ⊢
    intro hsecond
    obtain ⟨more, rfl⟩ := List.head?_eq_some_iff.1 hsecond
    exact single ⟨more, rfl⟩
  · rwa [Glob.withoutSlash_eq_self hslash]

section Single

variable {glob : String} (single : glob.startsWith "//" = false)

include single

theorem plainGlob_plainGlob : plainGlob (plainGlob glob) = plainGlob glob := by
  rw [plainGlob, plainGlob, String.toList_ofList]
  exact congrArg String.ofList (Glob.withoutSlash_eq_self (head?_withoutSlash single))

theorem ofGlob_plainGlob : Glob.Scope.ofGlob (plainGlob glob) = Glob.Scope.ofGlob glob := by
  rw [Glob.Scope.ofGlob, plainGlob, String.toList_ofList]
  exact Glob.scopeOf_withoutSlash (head?_withoutSlash single)

theorem sendGlob_plainGlob (project : ProjectInfo) (commit : String) (selection : Selection) :
    sendGlob project commit (plainGlob glob) selection =
      sendGlob project commit glob selection := by
  have hplain : String.ofList (Glob.withoutSlash (plainGlob glob).toList) =
      String.ofList (Glob.withoutSlash glob.toList) := plainGlob_plainGlob single
  unfold sendGlob
  rw [ofGlob_plainGlob single, hplain]

end Single

section Globs

variable {globs : List String} (single : ∀ glob ∈ globs, glob.startsWith "//" = false)

include single

theorem sendGlobs_map_plainGlob (project : ProjectInfo) (commit : String) (selection : Selection) :
    sendGlobs project commit (globs.map plainGlob) selection =
      sendGlobs project commit globs selection := by
  induction globs generalizing selection with
  | nil => rfl
  | cons glob rest ih =>
      obtain ⟨hglob, hrest⟩ := List.forall_mem_cons.1 single
      rw [List.map_cons, sendGlobs, sendGlobs, sendGlob_plainGlob hglob]
      exact congrArg _ (funext (ih hrest))

theorem tick_map_plainGlob (settings : Settings) (token : AgentToken) (projectId : String) :
    tick settings token projectId (globs.map plainGlob) = tick settings token projectId globs := by
  have hturn : ∀ project, sendTurn settings.budget project (globs.map plainGlob) =
      sendTurn settings.budget project globs := by
    intro project
    funext commit
    unfold sendTurn
    rw [sendGlobs_map_plainGlob single]
  funext cursor
  unfold tick
  simp only [hturn]

/-- Globs that are told apart without their slashes make the same stream without them. -/
theorem run_map_plainGlob (apart : Set.InjOn plainGlob {glob | glob ∈ globs}) {σ : Type}
    (host : Host σ Frame) (settings : Settings) (token : AgentToken) (projectId commit : String)
    (fuel : Nat) (s : σ) :
    (plan settings token projectId (globs.map plainGlob) commit).run host fuel s =
      (plan settings token projectId globs commit).run host fuel s := by
  have hmentions : firstMentions (globs.map plainGlob) = (firstMentions globs).map plainGlob :=
    foldl_mention_map (apart.mono fun glob hglob => hglob.resolve_left List.not_mem_nil)
  have hmentioned : ∀ glob ∈ firstMentions globs, glob.startsWith "//" = false := fun glob hglob =>
    single glob (mem_firstMentions.1 hglob)
  have hpoller : (plan settings token projectId (globs.map plainGlob) commit).poller host
        ((firstMentions globs).map plainGlob) =
      (plan settings token projectId globs commit).poller host (firstMentions globs) := by
    unfold Plan.poller plan
    simp only [tick_map_plainGlob hmentioned]
  have hfirst : (plan settings token projectId (globs.map plainGlob) commit).opening.run.run
      host.toSurroundings s = _ := run_opening host.toSurroundings settings token _ s
  have hsecond : (plan settings token projectId globs commit).opening.run.run
      host.toSurroundings s = _ := run_opening host.toSurroundings settings token globs s
  rw [Plan.run, Plan.run, hfirst, hsecond, hmentions]
  rcases (Exchange.agent token false).run.run host.toSurroundings s with ⟨_ | _ | agent, t⟩
  · rfl
  · rfl
  · unfold admitted
    rw [List.length_map]
    by_cases hmany : settings.maxGlobs < (firstMentions globs).length
    · rw [if_pos hmany, if_pos hmany]
      rfl
    · rw [if_neg hmany, if_neg hmany]
      dsimp only
      rw [hpoller]
      rfl

end Globs

def knowing : Host Unit Frame where
  answer
    | .agent _, s => (some (.ok default), s)
    | _, s => (none, s)
  record _ s := s
  start _ s := s
  isStopped _ := false
  pause _ s := (false, s)

theorem run_knowing (settings : Settings) (globs : List String) :
    ((plan settings default "project" globs "").run knowing 0 ()).1 =
      match admitted settings (firstMentions globs) with
      | .ok _ => none
      | .error status => some (.error status) := by
  have hopening : (plan settings default "project" globs "").opening.run.run
      knowing.toSurroundings () = (some (admitted settings (firstMentions globs)), ()) :=
    run_opening knowing.toSurroundings settings default globs ()
  rw [Plan.run, hopening]
  cases admitted settings (firstMentions globs) <;> rfl

/-- Slashes in front of globs make no difference to any stream exactly if no glob of the list is
spelled with one and without one. -/
theorem slashes_immaterial_iff {globs : List String}
    (single : ∀ glob ∈ globs, glob.startsWith "//" = false) :
    (∀ {σ : Type} (host : Host σ Frame) settings token projectId commit fuel s,
      (plan settings token projectId (globs.map plainGlob) commit).run host fuel s =
        (plan settings token projectId globs commit).run host fuel s) ↔
      ∀ glob ∈ globs, ∀ other ∈ globs, plainGlob glob = plainGlob other → glob = other := by
  constructor
  · intro same glob hglob other hother hplain
    have hle : (firstMentions globs).length ≤ (firstMentions (globs.map plainGlob)).length := by
      by_contra hless
      have hrun := same knowing
        { (default : Settings) with maxGlobs := (firstMentions (globs.map plainGlob)).length }
        default "project" "" 0 ()
      have hresult := congrArg Prod.fst hrun
      rw [run_knowing, run_knowing, admitted, admitted, if_neg (lt_irrefl _),
        if_pos (not_le.1 hless)] at hresult
      cases hresult
    have hlength := le_antisymm (length_firstMentions_map_le globs plainGlob) hle
    exact injOn_of_length_firstMentions hlength hglob hother hplain
  · intro apart σ host settings token projectId commit fuel s
    exact run_map_plainGlob single (fun glob hglob other hother => apart glob hglob other hother)
      host settings token projectId commit fuel s

/-! ### One file under two spellings -/

/-- A stream that may be asked for so many globs, with the globs that it is asked for. -/
def streamOf (maxGlobs : Nat) (globs : List String) : Plan Frame (List String) :=
  plan { briefSettings with maxGlobs } ⟨"agent-token"⟩ "group/manifests" globs ""

def oneFile : Rehearsal.World Frame := slowWorld Frame [(0, .commit "R" [("a.y", [97])])] 0 0

/-- One of two globs loses its slash. -/
theorem slashes_immaterial_iff_one_file :
    (∀ glob ∈ ["/*.y", "apps/**"], glob.startsWith "//" = false) ∧
      (∀ glob ∈ ["/*.y", "apps/**"], ∀ other ∈ ["/*.y", "apps/**"],
        plainGlob glob = plainGlob other → glob = other) ∧
      (streamOf 2 ["*.y", "apps/**"]).run Rehearsal.World.host 4 oneFile.begin =
        (streamOf 2 ["/*.y", "apps/**"]).run Rehearsal.World.host 4 oneFile.begin ∧
      ((streamOf 2 ["*.y", "apps/**"]).run Rehearsal.World.host 4 oneFile.begin).1 =
        some (.ok ()) := by
  have hsingle : ∀ glob ∈ ["/*.y", "apps/**"], glob.startsWith "//" = false := by
    simp only [List.forall_mem_cons]
    exact ⟨by cbv, by cbv, fun glob hglob => absurd hglob List.not_mem_nil⟩
  have happart : ∀ glob ∈ ["/*.y", "apps/**"], ∀ other ∈ ["/*.y", "apps/**"],
      plainGlob glob = plainGlob other → glob = other := by decide
  exact ⟨hsingle, happart, (slashes_immaterial_iff hsingle).2 happart _ _ _ _ _ _ _, by cbv⟩

/-- A glob that is spelled in both ways counts twice, and a stream that may be asked for one glob is
refused; spelled twice in one way, the glob counts once, and the stream delivers its file. -/
theorem both_spellings_count_twice :
    (∀ glob ∈ ["*.y", "/*.y"], glob.startsWith "//" = false) ∧
      ["*.y", "/*.y"].map plainGlob = ["*.y", "*.y"] ∧
      (oneFile.runAlone (streamOf 1 ["*.y", "*.y"])).1 = some (.ok ()) ∧
      (oneFile.runAlone (streamOf 1 ["*.y", "*.y"])).2.reader.items =
        [(0, .ok .trailers), (0, .ok (.object "a.y" [97])), (0, .ok (.headers "R"))] ∧
      (oneFile.runAlone (streamOf 1 ["*.y", "/*.y"])).1 = some (.error (tooManyGlobs 1 2)) ∧
      (oneFile.runAlone (streamOf 1 ["*.y", "/*.y"])).2.reader.items = [] := by
  refine ⟨?_, by cbv, by cbv, by cbv, rfl, rfl⟩
  simp only [List.forall_mem_cons]
  exact ⟨by cbv, by cbv, fun glob hglob => absurd hglob List.not_mem_nil⟩

end ManifestStream

end Session

end ManifestRelay
