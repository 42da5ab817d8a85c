import Mathlib.Data.List.Basic
import ManifestRelay.Binary.Width
import ManifestRelay.Proofs.Snapshot.Narrowing
import ManifestRelay.Proofs.Turn.Admission

/-!
# Limits of a turn, whoever walks

A selection does not rely on the walk that calls it.  In whatever order files
are offered and chunks are handed over, and whatever becomes of the frames, a
budget bounds the files that are offered, the bytes that are sent and the size
that is granted to each file; no file is granted twice, and none that lies in a
hidden directory.
-/

namespace ManifestRelay.Turn

open Fetch
open ManifestRelay.Stream

/-! ### Hidden directories -/

/-- A path leads through a directory whose name starts with a dot, other than the dot alone. -/
def LeadsThroughDot (path : String) : Prop :=
  ∃ before name after : List Char, path.toList = before ++ name ++ '/' :: after ∧
    (before = [] ∨ ∃ outer, before = outer ++ ['/']) ∧ '/' ∉ name ∧
    name.head? = some '.' ∧ name ≠ ['.']

theorem exists_before_of_between (pre : List (List Char)) (name next : List Char)
    (post : List (List Char)) :
    ∃ before, ['/'].intercalate (pre ++ name :: next :: post) =
        before ++ name ++ '/' :: ['/'].intercalate (next :: post) ∧
      (before = [] ∨ ∃ outer, before = outer ++ ['/']) := by
  induction pre with
  | nil =>
      refine ⟨[], ?_, .inl rfl⟩
      rw [List.nil_append, List.intercalate_cons_cons, List.append_assoc]
      rfl
  | cons first pre ih =>
      obtain ⟨before, hchars, hbefore⟩ := ih
      obtain ⟨second, more, hmore⟩ : ∃ second more, pre ++ name :: next :: post = second :: more :=
        List.exists_cons_of_ne_nil (by simp)
      refine ⟨first ++ ['/'] ++ before, ?_, .inr ?_⟩
      · rw [List.cons_append, hmore, List.intercalate_cons_cons, ← hmore, hchars]
        simp only [List.append_assoc]
      · rcases hbefore with rfl | ⟨outer, rfl⟩
        · exact ⟨first, List.append_nil _⟩
        · exact ⟨first ++ ['/'] ++ outer, (List.append_assoc _ _ _).symm⟩

/-- The directories of a path are the parts of it that a slash follows. -/
theorem mem_directories_iff {chars name : List Char} :
    name ∈ (chars.splitOn '/').dropLast ↔
      ∃ before after, chars = before ++ name ++ '/' :: after ∧
        (before = [] ∨ ∃ outer, before = outer ++ ['/']) ∧ '/' ∉ name := by
  constructor
  · intro h
    have hslash := Snapshot.no_slash_of_mem_splitOn (List.dropLast_subset _ h)
    obtain ⟨pre, post, hparts⟩ := List.append_of_mem h
    have hlast := List.dropLast_append_getLast (List.splitOn_ne_nil '/' chars)
    generalize (chars.splitOn '/').getLast (List.splitOn_ne_nil '/' chars) = last at hlast
    obtain ⟨next, more, hmore⟩ : ∃ next more, post ++ [last] = next :: more :=
      List.exists_cons_of_ne_nil (by simp)
    rw [hparts, List.append_assoc, List.cons_append, hmore] at hlast
    obtain ⟨before, hchars, hbefore⟩ := exists_before_of_between pre name next more
    rw [hlast, List.intercalate_splitOn] at hchars
    exact ⟨before, _, hchars, hbefore, hslash⟩
  · rintro ⟨before, after, rfl, hbefore, hslash⟩
    have hlast : name ∈ ((name ++ '/' :: after).splitOn '/').dropLast := by
      rw [List.splitOn_append_cons_self, List.splitOn_eq_singleton hslash,
        List.dropLast_append_of_ne_nil (List.splitOn_ne_nil '/' after)]
      exact List.mem_cons_self
    rcases hbefore with rfl | ⟨outer, rfl⟩
    · exact hlast
    · rw [List.append_assoc, List.append_assoc, List.singleton_append,
        List.splitOn_append_cons_self,
        List.dropLast_append_of_ne_nil (List.splitOn_ne_nil '/' _)]
      exact List.mem_append_right _ hlast

theorem isHidden_iff {path : String} : isHidden path = true ↔ LeadsThroughDot path := by
  rw [isHidden, components, List.any_eq_true]
  constructor
  · rintro ⟨name, hname, hdot⟩
    obtain ⟨before, after, hpath, hbefore, hslash⟩ := mem_directories_iff.1 hname
    obtain ⟨hhead, hother⟩ : name.head? = some '.' ∧ name ≠ ['.'] := by
      simpa [isHiddenName] using hdot
    exact ⟨before, name, after, hpath, hbefore, hslash, hhead, hother⟩
  · rintro ⟨before, name, after, hpath, hbefore, hslash, hhead, hother⟩
    refine ⟨name, mem_directories_iff.2 ⟨before, after, hpath, hbefore, hslash⟩, ?_⟩
    simp [isHiddenName, hhead, hother]

/-! ### Calls -/

theorem holdsInteger_sub {total : Int} {spent : Nat} (nonneg : 0 ≤ total)
    (holds : Binary.holdsInteger 64 total = true) (few : spent < Binary.patterns 63) :
    Binary.holdsInteger 64 (total - spent) = true := by
  unfold Binary.holdsInteger Binary.leastInteger Binary.greatestInteger at holds ⊢
  rw [Bool.and_eq_true, decide_eq_true_eq, decide_eq_true_eq] at holds ⊢
  change _ ≤ _ ∧ total ≤ (Binary.patterns 63 : Int) - 1 at holds
  change -(Binary.patterns 63 : Int) ≤ _ ∧ _ ≤ (Binary.patterns 63 : Int) - 1
  omega

def Selection.heard : Except SendError Unit → Except FetchError Bool
  | .ok () => .ok false
  | .error e => .error (.sendFailed e.message)

theorem Selection.remaining_offer (s : Selection) (path : String) :
    (s.offer path).2.remaining = s.remaining := by
  unfold offer
  dsimp only
  split_ifs <;> rfl

section Visitor

variable {m : Type → Type} [Monad m] [LawfulMonad m] (send : Frame → m (Except SendError Unit))
  {s charged : Selection} (path : String) {data : List UInt8}

theorem Selection.visitor_chunk_refused {e : FetchError}
    (refused : s.charge data.length = (.error e, charged)) :
    ((visitor send).chunk path data).run.run s = pure (.error e, charged) := by
  have hcharge : (StateT.run (fun s => pure (s.charge data.length)) s : m _) =
      pure (.error e, charged) := congrArg pure refused
  simp [visitor, hcharge]

theorem Selection.visitor_chunk_charged (passed : s.charge data.length = (.ok (), charged)) :
    ((visitor send).chunk path data).run.run s =
      (fun answer => (Selection.heard answer, charged)) <$> send (.object path data) := by
  have hcharge : (StateT.run (fun s => pure (s.charge data.length)) s : m _) =
      pure (.ok (), charged) := congrArg pure passed
  simp only [visitor, hcharge, map_eq_pure_bind, ExceptT.run_bind, ExceptT.run_mk, ExceptT.run_lift,
    StateT.run_bind, StateT.run_lift, bind_assoc, pure_bind]
  refine bind_congr fun answer => ?_
  cases answer <;> rfl

end Visitor

/-- What a walk, or whoever poses as one, may ask of a selection. -/
inductive Call where
  | choose (matcher : Glob.Matcher)
  | entry (path : String)
  | chunk (path : String) (data : List UInt8)

def Call.size : Call → Nat
  | .choose _ | .entry _ => 0
  | .chunk _ data => data.length

def handedBytes (calls : List Call) : Nat := (calls.map Call.size).sum

theorem handedBytes_concat (calls : List Call) (call : Call) :
    handedBytes (calls ++ [call]) = handedBytes calls + call.size := by
  simp [handedBytes]

def Frame.size : Frame → Nat
  | .object _ data => data.length
  | .headers _ | .trailers => 0

def bytesOf (frames : List Frame) : Nat := (frames.map Frame.size).sum

theorem bytesOf_concat (frames : List Frame) (frame : Frame) :
    bytesOf (frames ++ [frame]) = bytesOf frames + frame.size := by
  simp [bytesOf]

/-- What has come of the calls to a selection whose frames go to a peer. -/
structure Account (σ : Type) where
  selection : Selection
  peer : σ
  /-- The frames that were handed to the peer, whether it took them or not. -/
  frames : List Frame
  /-- What became of each offered path. -/
  decisions : List (String × Except FetchError Decision)

def grantOf : String × Except FetchError Decision → Option String
  | (path, .ok (.take _)) => some path
  | _ => none

def grantedOf (decisions : List (String × Except FetchError Decision)) : List String :=
  decisions.filterMap grantOf

def passedOf (decisions : List (String × Except FetchError Decision)) : Nat :=
  decisions.countP fun decision => decision.2.isOk

namespace Account

variable {σ : Type}

def ofBudget (budget : Budget) (peer : σ) : Account σ := ⟨.ofBudget budget, peer, [], []⟩

/-- Hand a frame to the peer and keep a record of it. -/
def handing (send : Frame → StateM σ (Except SendError Unit)) (frame : Frame) :
    StateM (σ × List Frame) (Except SendError Unit) := fun (peer, frames) =>
  let (answer, peer) := send frame peer
  (answer, peer, frames ++ [frame])

variable (send : Frame → StateM σ (Except SendError Unit))

def answer (a : Account σ) : Call → Account σ
  | .choose matcher => { a with selection := a.selection.withMatcher matcher }
  | .entry path =>
      let ((decision, selection), peer, frames) :=
        (((Selection.visitor (handing send)).entry path).run.run a.selection).run (a.peer, a.frames)
      ⟨selection, peer, frames, a.decisions ++ [(path, decision)]⟩
  | .chunk path data =>
      let ((_, selection), peer, frames) :=
        (((Selection.visitor (handing send)).chunk path data).run.run a.selection).run
          (a.peer, a.frames)
      ⟨selection, peer, frames, a.decisions⟩

def ofCalls (budget : Budget) (peer : σ) (calls : List Call) : Account σ :=
  calls.foldl (answer send) (ofBudget budget peer)

variable {send} {a : Account σ} {path : String} {data : List UInt8}

theorem answer_entry : a.answer send (.entry path) =
    { a with
      selection := (a.selection.offer path).2
      decisions := a.decisions ++ [(path, (a.selection.offer path).1)] } := rfl

theorem answer_chunk : a.answer send (.chunk path data) =
    match a.selection.charge data.length with
    | (.ok (), charged) =>
        { a with
          selection := charged
          peer := (send (.object path data) a.peer).2
          frames := a.frames ++ [.object path data] }
    | (.error _, charged) => { a with selection := charged } := by
  rcases hcharge : a.selection.charge data.length with ⟨e | ⟨⟩, charged⟩
  · have hrun := Selection.visitor_chunk_refused (handing send) path hcharge
    rw [answer, hrun]
    rfl
  · have hrun := Selection.visitor_chunk_charged (handing send) path hcharge
    rw [answer, hrun]
    rfl

variable (send path) in
theorem answer_chunk_within (within : 0 ≤ a.selection.remaining - data.length) :
    a.answer send (.chunk path data) =
      { a with
        selection := { a.selection with remaining := a.selection.remaining - data.length }
        peer := (send (.object path data) a.peer).2
        frames := a.frames ++ [.object path data] } := by
  rw [answer_chunk, Selection.charge, if_neg (Int.not_lt.2 within)]

variable (send path) in
theorem answer_chunk_overdrawn (overdrawn : a.selection.remaining - data.length < 0) :
    a.answer send (.chunk path data) =
      { a with
        selection := { a.selection with remaining := a.selection.remaining - data.length } } := by
  rw [answer_chunk, Selection.charge, if_pos overdrawn]

/-! ### One call after another -/

/-- What calls leave in order. -/
structure IsSound (budget : Budget) (calls : List Call) (a : Account σ) : Prop where
  maxCount : a.selection.maxCount = budget.fileCount
  fileSize : a.selection.fileSize = budget.fileSize
  remaining : a.selection.remaining = budget.totalSize - handedBytes calls
  taken : a.selection.taken = (grantedOf a.decisions).reverse
  room : a.selection.count ≤ budget.fileCount
  passed : passedOf a.decisions ≤ a.selection.count
  handed : bytesOf a.frames ≤ handedBytes calls
  sent : bytesOf a.frames ≤ budget.totalSize
  once : (grantedOf a.decisions).Nodup
  each : ∀ path limit, (path, .ok (.take limit)) ∈ a.decisions →
    ¬ LeadsThroughDot path ∧ limit ≤ budget.fileSize

variable {budget : Budget} {calls : List Call}

theorem IsSound.ofBudget (nonneg : 0 ≤ budget.totalSize) (peer : σ) :
    (Account.ofBudget budget peer).IsSound budget [] where
  maxCount := rfl
  fileSize := rfl
  remaining := (Int.sub_zero _).symm
  taken := rfl
  room := Nat.zero_le _
  passed := Nat.le_refl 0
  handed := Nat.le_refl 0
  sent := nonneg
  once := List.nodup_nil
  each := nofun

theorem IsSound.choose (sound : a.IsSound budget calls) (matcher : Glob.Matcher) :
    IsSound budget (calls ++ [.choose matcher]) (a.answer send (.choose matcher)) := by
  have hbytes : handedBytes (calls ++ [.choose matcher]) = handedBytes calls :=
    handedBytes_concat calls _
  exact { sound with remaining := hbytes ▸ sound.remaining, handed := hbytes ▸ sound.handed }

theorem IsSound.decline (sound : a.IsSound budget calls) {decision : Except FetchError Decision}
    (declined : grantOf (path, decision) = none) {count : Nat} (room : count ≤ budget.fileCount)
    (passed : passedOf a.decisions + passedOf [(path, decision)] ≤ count) :
    IsSound budget (calls ++ [.entry path])
      { a with
        selection := { a.selection with count := count }
        decisions := a.decisions ++ [(path, decision)] } := by
  have hgranted : grantedOf (a.decisions ++ [(path, decision)]) = grantedOf a.decisions := by
    rw [grantedOf, List.filterMap_append, List.filterMap_cons_none declined, List.filterMap_nil,
      List.append_nil, grantedOf]
  have hbytes : handedBytes (calls ++ [.entry path]) = handedBytes calls :=
    handedBytes_concat calls _
  exact { sound with
    remaining := hbytes ▸ sound.remaining
    taken := hgranted ▸ sound.taken
    room := room
    passed := List.countP_append.trans_le passed
    handed := hbytes ▸ sound.handed
    once := hgranted ▸ sound.once
    each := by
      intro other limit hmem
      rcases List.mem_append.1 hmem with hbefore | hlast
      · exact sound.each other limit hbefore
      · cases List.mem_singleton.1 hlast
        cases declined }

theorem IsSound.grant (sound : a.IsSound budget calls)
    (hroom : a.selection.count ≠ a.selection.maxCount)
    (wanted : a.selection.selects path = true) (fresh : path ∉ a.selection.taken) :
    IsSound budget (calls ++ [.entry path])
      { a with
        selection := { a.selection.passOver with taken := path :: a.selection.taken }
        decisions := a.decisions ++ [(path, .ok (.take a.selection.limit))] } := by
  have hgranted : grantedOf (a.decisions ++ [(path, Except.ok (.take a.selection.limit))]) =
      grantedOf a.decisions ++ [path] := List.filterMap_append
  have hbytes : handedBytes (calls ++ [.entry path]) = handedBytes calls :=
    handedBytes_concat calls _
  exact { sound with
    remaining := hbytes ▸ sound.remaining
    taken := by
      rw [hgranted, List.reverse_append, ← sound.taken]
      rfl
    room := Nat.lt_of_le_of_ne sound.room (sound.maxCount ▸ hroom)
    passed := List.countP_append.trans_le (Nat.add_le_add_right sound.passed 1)
    handed := hbytes ▸ sound.handed
    once := by
      rw [hgranted]
      refine sound.once.append (List.nodup_singleton path) fun other hother hpath => ?_
      obtain rfl := List.mem_singleton.1 hpath
      exact fresh (sound.taken ▸ List.mem_reverse.2 hother)
    each := by
      intro other limit hmem
      rcases List.mem_append.1 hmem with hbefore | hlast
      · exact sound.each other limit hbefore
      · cases List.mem_singleton.1 hlast
        refine ⟨fun hdot => ?_, (Int.min_le_right _ _).trans_eq sound.fileSize⟩
        rw [Selection.selects, isHidden_iff.2 hdot] at wanted
        cases wanted }

theorem IsSound.entry (sound : a.IsSound budget calls) (path : String) :
    IsSound budget (calls ++ [.entry path]) (a.answer send (.entry path)) := by
  rw [answer_entry]
  by_cases hroom : a.selection.count = a.selection.maxCount
  · rw [Selection.offer_full hroom]
    exact sound.decline rfl sound.room sound.passed
  have hbelow : a.selection.count < budget.fileCount :=
    Nat.lt_of_le_of_ne sound.room (sound.maxCount ▸ hroom)
  cases hwanted : a.selection.selects path with
  | false =>
      rw [Selection.offer_unwanted hroom hwanted]
      exact sound.decline rfl hbelow (Nat.add_le_add_right sound.passed 1)
  | true =>
      by_cases hagain : path ∈ a.selection.taken
      · rw [Selection.offer_again hroom hwanted hagain]
        exact sound.decline rfl hbelow (Nat.le_succ_of_le sound.passed)
      · rw [Selection.offer_fresh hroom hwanted hagain]
        exact sound.grant hroom hwanted hagain

theorem IsSound.chunk (sound : a.IsSound budget calls) (path : String) (data : List UInt8) :
    IsSound budget (calls ++ [.chunk path data]) (a.answer send (.chunk path data)) := by
  have hbytes : handedBytes (calls ++ [.chunk path data]) = handedBytes calls + data.length :=
    handedBytes_concat calls _
  have hremaining : a.selection.remaining - data.length =
      budget.totalSize - handedBytes (calls ++ [.chunk path data]) := by
    rw [sound.remaining, hbytes, Int.natCast_add, Int.sub_sub]
  rcases Int.lt_or_le (a.selection.remaining - data.length) 0 with hless | hwithin
  · -- The bytes come off although they are not sent, so what was sent may be less from here on.
    rw [answer_chunk_overdrawn send path hless]
    exact { sound with
      remaining := hremaining
      handed := hbytes ▸ Nat.le_add_right_of_le sound.handed }
  · rw [answer_chunk_within send path hwithin]
    have hsent : bytesOf (a.frames ++ [Frame.object path data]) = bytesOf a.frames + data.length :=
      bytesOf_concat a.frames _
    have hhanded : bytesOf a.frames + data.length ≤ handedBytes (calls ++ [.chunk path data]) :=
      hbytes ▸ Nat.add_le_add_right sound.handed _
    exact { sound with
      remaining := hremaining
      handed := hsent ▸ hhanded
      sent := by
        rw [hsent]
        omega }

theorem IsSound.answer (sound : a.IsSound budget calls) (call : Call) :
    (a.answer send call).IsSound budget (calls ++ [call]) := by
  cases call with
  | choose matcher => exact sound.choose matcher
  | entry path => exact sound.entry path
  | chunk path data => exact sound.chunk path data

variable (send) in
theorem answer_of_overdrawn (overdrawn : a.selection.remaining < 0) (call : Call) :
    (a.answer send call).frames = a.frames ∧ (a.answer send call).selection.remaining < 0 := by
  cases call with
  | choose matcher => exact ⟨rfl, overdrawn⟩
  | entry path =>
      rw [answer_entry]
      exact ⟨rfl, (Selection.remaining_offer a.selection path).trans_lt overdrawn⟩
  | chunk path data =>
      have hless : a.selection.remaining - data.length < 0 := by omega
      rw [answer_chunk_overdrawn send path hless]
      exact ⟨rfl, hless⟩

/-! ### Many calls -/

variable (send)

theorem isSound_ofCalls (nonneg : 0 ≤ budget.totalSize) (peer : σ) (calls : List Call) :
    (ofCalls send budget peer calls).IsSound budget calls := by
  induction calls using List.reverseRecOn with
  | nil => exact .ofBudget nonneg peer
  | append_singleton before call ih =>
      rw [ofCalls, List.foldl_concat]
      exact ih.answer call

theorem frames_foldl_of_overdrawn (overdrawn : a.selection.remaining < 0) (calls : List Call) :
    (calls.foldl (answer send) a).frames = a.frames := by
  induction calls generalizing a with
  | nil => rfl
  | cons call rest ih =>
      obtain ⟨hframes, hless⟩ := answer_of_overdrawn send overdrawn call
      exact (ih hless).trans hframes

/-- A chunk that overdraws the budget is the last that a peer could hear of. -/
theorem frames_ofCalls_of_overdrawn (nonneg : 0 ≤ budget.totalSize) (peer : σ)
    (before rest : List Call) (path : String) (data : List UInt8)
    (overdrawn : budget.totalSize < handedBytes before + data.length) :
    (ofCalls send budget peer (before ++ .chunk path data :: rest)).frames =
      (ofCalls send budget peer before).frames := by
  have hbefore := (isSound_ofCalls send nonneg peer before).remaining
  have hless : (ofCalls send budget peer before).selection.remaining - data.length < 0 := by omega
  have hchunk := answer_chunk_overdrawn send path hless
  rw [ofCalls, List.foldl_append, List.foldl_cons]
  change (rest.foldl (answer send) ((ofCalls send budget peer before).answer send _)).frames = _
  rw [hchunk]
  exact frames_foldl_of_overdrawn send hless rest

/-- A budget is kept to. -/
structure Keeps (budget : Budget) (a : Account σ) : Prop where
  /-- Only so many offers do not fail. -/
  count : passedOf a.decisions ≤ budget.fileCount
  bytes : bytesOf a.frames ≤ budget.totalSize
  once : (grantedOf a.decisions).Nodup
  visible : ∀ path limit, (path, .ok (.take limit)) ∈ a.decisions → ¬ LeadsThroughDot path
  size : ∀ path limit, (path, .ok (.take limit)) ∈ a.decisions → limit ≤ budget.fileSize

/-- A budget is kept to whatever a selection is asked and whatever becomes of its frames.  Once a
chunk overdraws the budget nothing is sent, and as long as 63 bits can tell the bytes of all chunks,
64 bits hold what is left. -/
theorem keeps_ofCalls (nonneg : 0 ≤ budget.totalSize) (peer : σ) (calls : List Call) :
    (ofCalls send budget peer calls).Keeps budget ∧
      (∀ before path data rest, calls = before ++ .chunk path data :: rest →
        budget.totalSize < handedBytes before + data.length →
        (ofCalls send budget peer calls).frames = (ofCalls send budget peer before).frames) ∧
      (Binary.holdsInteger 64 budget.totalSize = true → handedBytes calls < Binary.patterns 63 →
        Binary.holdsInteger 64 (ofCalls send budget peer calls).selection.remaining = true) := by
  have sound := isSound_ofCalls send nonneg peer calls
  refine ⟨?_, ?_, ?_⟩
  · exact {
      count := sound.passed.trans sound.room
      bytes := sound.sent
      once := sound.once
      visible := fun path limit h => (sound.each path limit h).1
      size := fun path limit h => (sound.each path limit h).2 }
  · rintro before path data rest rfl overdrawn
    exact frames_ofCalls_of_overdrawn send nonneg peer before rest path data overdrawn
  · intro hbudget hhanded
    rw [sound.remaining]
    exact holdsInteger_sub nonneg hbudget hhanded

/-- A peer that goes away after its first frame. -/
def leaving (_ : Frame) : StateM Nat (Except SendError Unit) := fun heard =>
  (if heard = 0 then .ok () else .error .closed, heard + 1)

/-- Every file is asked for again, one of them is hidden, and the second chunk overdraws. -/
def greedy : List Call :=
  [.choose ⟨[[.anyPath]]⟩, .entry "a", .chunk "a" [1, 2, 3], .entry "a", .entry ".g/b",
    .chunk "a" [4, 5, 6], .entry "c", .chunk "c" [7]]

theorem keeps_ofCalls_greedy :
    0 ≤ (⟨5, 9, 4⟩ : Budget).totalSize ∧
      (ofCalls leaving ⟨5, 9, 4⟩ 0 greedy).Keeps ⟨5, 9, 4⟩ ∧
      (ofCalls leaving ⟨5, 9, 4⟩ 0 greedy).frames = [.object "a" [1, 2, 3]] := by
  have hbudget : 0 ≤ (⟨5, 9, 4⟩ : Budget).totalSize := by decide
  obtain ⟨keeps, silent, -⟩ := keeps_ofCalls leaving hbudget 0 greedy
  exact ⟨hbudget, keeps,
    silent (greedy.take 5) "a" [4, 5, 6] (greedy.drop 6) rfl (by decide)⟩

end Account

end ManifestRelay.Turn
