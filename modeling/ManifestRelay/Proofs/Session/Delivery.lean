import Mathlib
import ManifestRelay.Proofs.Session.Carrying
import ManifestRelay.Proofs.Session.Framing
import ManifestRelay.Proofs.Turn.Selected

/-!
# What a turn delivers

Before a peer that accepts every frame, a turn over a snapshot is completed
exactly if the budget allows its globs, whatever the order in which the walks
come upon the files.  It has then delivered the files that the globs select,
glob by glob, each listing in the order of its paths, every file whole.
-/

namespace ManifestRelay.Session

open Fetch Metadata Relay Snapshot Turn
open ManifestRelay.Stream

/-- Surroundings that walk a snapshot, with a peer that accepts every frame. -/
structure Surroundings.Serves {σ : Type} (surroundings : Surroundings σ Frame) (root : Node) :
    Prop where
  visit : ∀ server repository revision directory recursive s,
    (surroundings.answer (.visit server repository revision directory recursive) s).1 =
      some (Snapshot.visit root.find? repository revision directory recursive)
  send : ∀ frame s, (surroundings.answer (.send frame) s).1 = some (.ok ())

namespace ManifestStream

def IsTurnQuery : Query Frame → Prop
  | .visit .. => True
  | .send _ => True
  | _ => False

/-- The answers of a snapshot and a peer that accepts every frame; no other query is asked. -/
def served (root : Node) : (query : Query Frame) → query.Answer
  | .agent _ => .error .cancelled
  | .project .. => .error .cancelled
  | .poll .. => .error .noDefaultBranch
  | .file .. => .ok none
  | .visit _ repository revision directory recursive =>
      Snapshot.visit root.find? repository revision directory recursive
  | .send _ => .ok ()

theorem steady_of_serves {σ : Type} {surroundings : Surroundings σ Frame} {root : Node}
    (serves : surroundings.Serves root) (query : Query Frame) (s : σ) (asked : IsTurnQuery query) :
    (surroundings.answer query s).1 = some (served root query) := by
  cases query with
  | visit server repository revision directory recursive => exact serves.visit _ _ _ _ _ s
  | send frame => exact serves.send frame s
  | agent token => exact asked.elim
  | project token id => exact asked.elim
  | poll server repository last name => exact asked.elim
  | file server repository revision path limit => exact asked.elim

def AsksTurn (event : Event Frame) : Prop :=
  ∀ query given, event = .answered query given → IsTurnQuery query

theorem permits_asksTurn {commit : String} : Permits commit AsksTurn where
  note _ _ := nofun
  visit _ _ _ _ _ query given h := by
    cases h
    trivial
  object _ _ _ query given h := by
    cases h
    trivial

theorem asksTurn_send (text : String) (frame : Frame) :
    (Exchange.send text frame).run.Always AsksTurn := by
  have hsend : ∀ given, AsksTurn (.answered (.send frame) given) := by
    intro given query _ h
    cases h
    trivial
  exact Exchange.always_send hsend fun _ _ => nofun

theorem asksTurn_sendTurn (budget : Budget) (project : ProjectInfo) (globs : List String)
    (commit : String) : (sendTurn budget project globs commit).run.Always AsksTurn := by
  refine Exchange.always_bind (asksTurn_send _ _) fun _ => ?_
  refine Exchange.always_bind (always_sendGlobs permits_asksTurn _ _ _) fun _ => ?_
  refine Exchange.always_bind (asksTurn_send _ _) fun _ => ?_
  exact Exchange.always_notes fun _ _ => nofun

/-! ### Globs -/

section Playing

variable {answer : (query : Query Frame) → query.Answer}

theorem play_watch {walk : Walk} {s t : Selection} {events : List (Event Frame)}
    (h : ((walk.drive visitor).run s).play answer = (events, .ok (), t)) :
    (watch walk s).run.play answer = (events, .ok t) := by
  refine (Exchange.play_bind_ok (Exchange.play_lift h) rfl).trans ?_
  exact congrArg (·, _) (List.append_nil events)

theorem play_watch_failed {walk : Walk} {s t : Selection} {events : List (Event Frame)}
    {e : FetchError} (h : ((walk.drive visitor).run s).play answer = (events, .error e, t)) :
    (watch walk s).run.play answer =
      (events ++ (walkNotes e).map .noted, .error (walkStatus e)) := by
  exact Exchange.play_bind_ok (Exchange.play_lift h) (Exchange.play_fail _ _)

end Playing

theorem openingNotes_fileWalk (files : List (String × Content)) :
    openingNotes (fileWalk files) = [] := by
  cases files with
  | nil => rfl
  | cons file rest => rfl

theorem offersTo_visited {tree : Node} (plain : tree.IsPlain) {glob : String}
    {matcher : Glob.Matcher} (compiled : Glob.Matcher.ofGlob (plainGlob glob) = .ok matcher)
    {s : Selection} : offersTo (s.withMatcher matcher) (visited tree glob) = offersOf tree glob := by
  refine List.map_congr_left fun file hfile => ?_
  obtain ⟨hnonempty, hnames⟩ := names_of_mem_visited plain hfile
  dsimp only
  rw [selects_withMatcher compiled hnonempty hnames]

theorem carries_visited {root tree : Node} (plain : tree.IsPlain) {glob : String}
    {matcher : Glob.Matcher} (compiled : Glob.Matcher.ofGlob (plainGlob glob) = .ok matcher)
    (s : Selection) :
    Carries (s.withMatcher matcher) (offersOf tree glob)
      ((((fileWalk (offered (visited tree glob))).drive visitor).run (s.withMatcher matcher)).play
        (served root)) := by
  rw [← offersTo_visited plain compiled]
  exact carries_fileWalk (fun _ => rfl) (visited tree glob) (s.withMatcher matcher)

section Globs

variable {root tree : Node} {project : ProjectInfo} {commit : String}
  (snapshot : IsSnapshot root project.repository commit tree)

include snapshot

section Glob

variable {glob : String} (leads : LeadsInto glob tree) {matcher : Glob.Matcher}
  (compiled : Glob.Matcher.ofGlob (plainGlob glob) = .ok matcher)

include leads compiled

/-- The walk for a glob is shown to the selection that goes by the glob. -/
theorem play_sendGlob {s : Selection} {events : List (Event Frame)} {result : Except Status Selection}
    (watched : (watch (fileWalk (offered (visited tree glob))) (s.withMatcher matcher)).run.play
      (served root) = (events, result)) :
    ∃ asked, sent asked = [] ∧
      (sendGlob project commit glob s).run.play (served root) = (asked ++ events, result) := by
  have hwalk : Snapshot.visit root.find? project.repository commit
      (Glob.Scope.ofGlob glob).directory (Glob.Scope.ofGlob glob).recursive =
      fileWalk (offered (visited tree glob)) := by
    obtain ⟨hinside, entries, hat⟩ := leads
    unfold visited
    rw [hat]
    exact visit_eq_fileWalk snapshot hinside hat _
  refine ⟨[.answered (.visit project.server project.repository commit
    (Glob.Scope.ofGlob glob).directory (Glob.Scope.ofGlob glob).recursive)
    (fileWalk (offered (visited tree glob)))], rfl, ?_⟩
  unfold sendGlob
  extract_lets scope plain
  rw [show Glob.Matcher.ofGlob plain = .ok matcher from compiled]
  refine Exchange.play_bind_ok (Exchange.play_request hwalk) ?_
  rw [openingNotes_fileWalk]
  exact Exchange.play_bind_ok (Exchange.play_notes []) watched

/-- A glob is sent if the selection admits all that its walk offers. -/
theorem play_sendGlob_admitted {s t : Selection}
    (admitted : s.admitAll (offersOf tree glob) = some t) :
    ∃ events, sent events = (wantedOf (offersOf tree glob)).flatMap framesOf ∧
      (sendGlob project commit glob s).run.play (served root) =
        (events, .ok (t.withMatcher matcher)) := by
  have hadmitted : (s.withMatcher matcher).admitAll (offersOf tree glob) =
      some (t.withMatcher matcher) := by
    rw [Selection.admitAll_withMatcher, admitted]
    rfl
  obtain ⟨events, hsent, hcarried⟩ := (carries_visited snapshot.plain compiled s).of_some hadmitted
  obtain ⟨asked, hasked, hplay⟩ := play_sendGlob snapshot leads compiled (play_watch hcarried)
  refine ⟨asked ++ events, ?_, hplay⟩
  rw [sent_append, hasked, hsent, List.nil_append]

/-- A glob fails if the selection does not admit all that its walk offers. -/
theorem play_sendGlob_refused {s : Selection} (refused : s.admitAll (offersOf tree glob) = none) :
    ∃ events status,
      (sendGlob project commit glob s).run.play (served root) = (events, .error status) := by
  have hrefused : (s.withMatcher matcher).admitAll (offersOf tree glob) = none := by
    rw [Selection.admitAll_withMatcher, refused]
    rfl
  obtain ⟨events, e, t, hcarried⟩ := (carries_visited snapshot.plain compiled s).of_none hrefused
  obtain ⟨asked, -, hplay⟩ := play_sendGlob snapshot leads compiled (play_watch_failed hcarried)
  exact ⟨_, _, hplay⟩

end Glob

variable {globs : List String} (leads : ∀ glob ∈ globs, LeadsInto glob tree)
  (compiled : ∀ glob ∈ globs, ∃ matcher, Glob.Matcher.ofGlob (plainGlob glob) = .ok matcher)

include leads compiled

theorem play_sendGlobs_admitted {s : Selection}
    (admitted : (s.admitAll (globs.flatMap (offersOf tree))).isSome) :
    ∃ events t, sent events = (wantedOf (globs.flatMap (offersOf tree))).flatMap framesOf ∧
      (sendGlobs project commit globs s).run.play (served root) = (events, .ok t) := by
  induction globs generalizing s with
  | nil => exact ⟨[], s, rfl, rfl⟩
  | cons glob rest ih =>
      obtain ⟨hleads, hleadsRest⟩ := List.forall_mem_cons.1 leads
      obtain ⟨⟨matcher, hcompiled⟩, hcompiledRest⟩ := List.forall_mem_cons.1 compiled
      rw [List.flatMap_cons, Selection.admitAll_append] at admitted
      cases hfirst : s.admitAll (offersOf tree glob) with
      | none =>
          rw [hfirst] at admitted
          cases admitted
      | some t =>
          rw [hfirst, Option.bind_some] at admitted
          have hrest : ((t.withMatcher matcher).admitAll (rest.flatMap (offersOf tree))).isSome := by
            rw [Selection.admitAll_withMatcher, Option.isSome_map]
            exact admitted
          obtain ⟨events, hsent, hplay⟩ :=
            play_sendGlob_admitted snapshot hleads hcompiled hfirst
          obtain ⟨later, last, hlater, hplayRest⟩ := ih hleadsRest hcompiledRest hrest
          refine ⟨events ++ later, last, ?_, Exchange.play_bind_ok hplay hplayRest⟩
          rw [sent_append, hsent, hlater, List.flatMap_cons, wantedOf, wantedOf, wantedOf,
            List.filter_append, List.flatMap_append]

theorem play_sendGlobs_refused {s : Selection}
    (refused : s.admitAll (globs.flatMap (offersOf tree)) = none) :
    ∃ events status,
      (sendGlobs project commit globs s).run.play (served root) = (events, .error status) := by
  induction globs generalizing s with
  | nil => cases refused
  | cons glob rest ih =>
      obtain ⟨hleads, hleadsRest⟩ := List.forall_mem_cons.1 leads
      obtain ⟨⟨matcher, hcompiled⟩, hcompiledRest⟩ := List.forall_mem_cons.1 compiled
      rw [List.flatMap_cons, Selection.admitAll_append] at refused
      cases hfirst : s.admitAll (offersOf tree glob) with
      | none =>
          obtain ⟨events, status, hplay⟩ := play_sendGlob_refused snapshot hleads hcompiled hfirst
          exact ⟨events, status, Exchange.play_bind_error hplay _⟩
      | some t =>
          rw [hfirst, Option.bind_some] at refused
          have hrest : (t.withMatcher matcher).admitAll (rest.flatMap (offersOf tree)) = none := by
            rw [Selection.admitAll_withMatcher, refused]
            rfl
          obtain ⟨events, -, hplay⟩ := play_sendGlob_admitted snapshot hleads hcompiled hfirst
          obtain ⟨later, status, hplayRest⟩ := ih hleadsRest hcompiledRest hrest
          exact ⟨events ++ later, status, Exchange.play_bind_ok hplay hplayRest⟩

/-! ### Turns -/

theorem play_sendTurn_admitted {budget : Budget}
    (admitted : ((Selection.ofBudget budget).admitAll (globs.flatMap (offersOf tree))).isSome) :
    ∃ events, sent events = .headers commit ::
        ((wantedOf (globs.flatMap (offersOf tree))).flatMap framesOf ++ [.trailers]) ∧
      (sendTurn budget project globs commit).run.play (served root) = (events, .ok ()) := by
  obtain ⟨files, t, hsent, hplay⟩ :=
    play_sendGlobs_admitted snapshot leads compiled admitted
  refine ⟨_, ?_, Exchange.play_bind_ok rfl (Exchange.play_bind_ok hplay
    (Exchange.play_bind_ok rfl (Exchange.play_notes _)))⟩
  rw [sent_append, sent_append, hsent]
  rfl

theorem play_sendTurn_refused {budget : Budget}
    (refused : (Selection.ofBudget budget).admitAll (globs.flatMap (offersOf tree)) = none) :
    ∃ events status, .trailers ∉ sent events ∧
      (sendTurn budget project globs commit).run.play (served root) = (events, .error status) := by
  obtain ⟨files, status, hplay⟩ := play_sendGlobs_refused snapshot leads compiled refused
  have hall := Dialogue.play_always (served root)
    (always_sendGlobs (@permits_pieces commit) project globs (.ofBudget budget))
  rw [hplay] at hall
  obtain ⟨pieces, hpieces⟩ := sent_of_pieces hall
  refine ⟨_, status, ?_, Exchange.play_bind_ok rfl (Exchange.play_bind_error hplay _)⟩
  rw [sent_append, hpieces]
  exact Delivery.trailers_notMem_begun ⟨commit, pieces⟩

end Globs

/-- A turn is completed exactly if the budget allows its globs, and it has then delivered the files
that they select. -/
theorem sendTurn_delivers {σ : Type} {surroundings : Surroundings σ Frame} {root tree : Node}
    {project : ProjectInfo} {commit : String} {globs : List String} {budget : Budget}
    (serves : surroundings.Serves root)
    (snapshot : IsSnapshot root project.repository commit tree) (distinct : globs.Nodup)
    (compiled : ∀ glob ∈ globs, ∃ matcher, Glob.Matcher.ofGlob (plainGlob glob) = .ok matcher)
    (leads : ∀ glob ∈ globs, LeadsInto glob tree) (sizes : 0 ≤ budget.totalSize) (s : σ) :
    (∀ glob ∈ globs, IsListing tree (namesOf (Glob.Scope.ofGlob glob).directory)
      (Glob.Scope.ofGlob glob).recursive (visited tree glob)) ∧
    ∃ outcome t events,
      (sendTurn budget project globs commit).run.run surroundings.recorded (s, []) =
        (some outcome, t, events) ∧
      (.trailers ∈ sent events ↔ budget.Allows tree globs) ∧
      (budget.Allows tree globs → outcome = .ok () ∧
        sent events = .headers commit :: ((globs.flatMap (selected tree)).flatMap
          (fun (path, data) => fileFrames (pathText path) data) ++ [.trailers])) := by
  refine ⟨fun glob hglob => isListing_visited snapshot.plain (leads glob hglob), ?_⟩
  have hallows : ((Selection.ofBudget budget).admitAll (globs.flatMap (offersOf tree))).isSome ↔
      budget.Allows tree globs :=
    (Selection.isSome_admitAll_iff (Nat.zero_le _) sizes _).trans
      (fits_iff_allows snapshot.plain distinct budget)
  obtain ⟨t, hrun⟩ := Dialogue.run_eq_play (served root)
    (fun query s => steady_of_serves serves query s)
    (asksTurn_sendTurn budget project globs commit) s []
  rw [List.nil_append] at hrun
  by_cases h : budget.Allows tree globs
  · obtain ⟨events, hsent, hplay⟩ := play_sendTurn_admitted snapshot leads compiled (hallows.2 h)
    rw [wantedOf_flatMap, List.flatMap_map] at hsent
    rw [hplay] at hrun
    refine ⟨.ok (), t, events, hrun, iff_of_true ?_ h, fun _ => ⟨rfl, hsent⟩⟩
    rw [hsent, ← List.cons_append]
    exact List.mem_concat_self
  · have hrefused := Option.not_isSome_iff_eq_none.1 (mt hallows.1 h)
    obtain ⟨events, status, hnone, hplay⟩ :=
      play_sendTurn_refused snapshot leads compiled hrefused
    rw [hplay] at hrun
    exact ⟨.error status, t, events, hrun, iff_of_false hnone h, fun hallowed => absurd hallowed h⟩

/-! ### A small snapshot -/

def serving (root : Node) : Surroundings Unit Frame where
  answer query s := (some (served root query), s)
  record _ s := s

theorem serves_serving (root : Node) : (serving root).Serves root where
  visit _ _ _ _ _ _ := rfl
  send _ _ := rfl

namespace Sample

def apps : List (String × Node) :=
  [("b.yaml", .file (.ofBytes [3])), (".git", .directory [("b.yaml", .file (.ofBytes [9]))]),
    ("a.txt", .file (.ofBytes []))]

/-- A small tree, and a disk that has it as the tree of a commit. -/
def tree : Node := .directory [("z.yaml", .file (.ofBytes [1, 2])), ("apps", .directory apps)]

def disk : Node := .directory [("default", .directory [("sample.git", .directory
  [("trees", .directory [("first", tree)])])])]

def project : ProjectInfo :=
  { (default : ProjectInfo) with repository := ⟨"default", "sample.git", "", ""⟩ }

theorem snapshot : IsSnapshot disk project.repository "first" tree where
  lies := ⟨["default", "sample.git", "trees", "first"], by cbv, by cbv⟩
  plain := by
    have hnames : ∀ name ∈ ["z.yaml", "apps", "b.yaml", ".git", "a.txt"], IsFileName name := by
      decide
    simp only [List.forall_mem_cons] at hnames
    simp [tree, apps, Node.IsPlain, Node.ArePlain, hnames, Content.ofBytes]

theorem visited_top : visited tree "/*.yaml" = [(["z.yaml"], [1, 2])] := by cbv

theorem visited_apps : visited tree "apps/**" =
    [(["apps", ".git", "b.yaml"], [9]), (["apps", "a.txt"], []), (["apps", "b.yaml"], [3])] := by
  have hscope : Glob.Scope.ofGlob "apps/**" = ⟨"apps", true, "**"⟩ := by cbv
  have hplace : namesOf "apps" = ["apps"] := by cbv
  have hfound : found apps true = [(["b.yaml"], .ofBytes [3]), ([".git", "b.yaml"], .ofBytes [9]),
      (["a.txt"], .ofBytes [])] := rfl
  have hsorted : filesBelow ["apps"] apps true = [(["apps", ".git", "b.yaml"], [9]),
      (["apps", "a.txt"], []), (["apps", "b.yaml"], [3])] := by
    rw [filesBelow, hfound]
    simp [List.mergeSort, pathText, Content.ofBytes]
  unfold visited
  rw [hscope, hplace]
  exact hsorted

theorem selected_top : selected tree "/*.yaml" = [(["z.yaml"], [1, 2])] := by cbv

theorem selected_apps : selected tree "apps/**" =
    [(["apps", "a.txt"], []), (["apps", "b.yaml"], [3])] := by
  rw [selected, visited_apps]
  cbv

theorem allows : Budget.Allows ⟨3, 2, 4⟩ tree ["/*.yaml", "apps/**"] where
  count := by simp [visited_top, visited_apps]
  disjoint := by simp [selected_top, selected_apps, or_imp, forall_and]
  each := by simp [selected_top, selected_apps, or_imp, forall_and]
  total := by simp [selected_top, selected_apps]

end Sample

/-- A budget that is met exactly is kept. -/
theorem sendTurn_delivers_sample :
    Budget.Allows ⟨3, 2, 4⟩ Sample.tree ["/*.yaml", "apps/**"] ∧ ∃ outcome t events,
      (sendTurn ⟨3, 2, 4⟩ Sample.project ["/*.yaml", "apps/**"] "first").run.run
        (serving Sample.disk).recorded ((), []) = (some outcome, t, events) ∧ outcome = .ok () ∧
      sent events = [.headers "first", .object "z.yaml" [1, 2], .object "apps/b.yaml" [3],
        .trailers] := by
  have hdistinct : ["/*.yaml", "apps/**"].Nodup := by decide
  have hcompiled : ∀ glob ∈ ["/*.yaml", "apps/**"],
      ∃ matcher, Glob.Matcher.ofGlob (plainGlob glob) = .ok matcher :=
    List.forall_mem_cons.2 ⟨⟨_, by cbv⟩, List.forall_mem_cons.2 ⟨⟨_, by cbv⟩, nofun⟩⟩
  have hleads : ∀ glob ∈ ["/*.yaml", "apps/**"], LeadsInto glob Sample.tree :=
    List.forall_mem_cons.2 ⟨⟨by cbv, _, by cbv⟩,
      List.forall_mem_cons.2 ⟨⟨by cbv, _, by cbv⟩, nofun⟩⟩
  obtain ⟨-, outcome, t, events, hrun, -, hsent⟩ :=
    sendTurn_delivers (serves_serving Sample.disk) Sample.snapshot hdistinct hcompiled hleads
      (by decide : (0 : Int) ≤ (Budget.mk 3 2 4).totalSize) ()
  obtain ⟨houtcome, hframes⟩ := hsent Sample.allows
  refine ⟨Sample.allows, outcome, t, events, hrun, houtcome, ?_⟩
  rw [hframes]
  simp only [List.flatMap_cons, List.flatMap_nil, Sample.selected_top, Sample.selected_apps]
  cbv

end ManifestStream

end ManifestRelay.Session
