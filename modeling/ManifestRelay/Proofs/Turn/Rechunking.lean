import ManifestRelay.Proofs.Fetch.Course
import ManifestRelay.Proofs.Fetch.Pieces
import ManifestRelay.Proofs.Turn.Limits

/-!
# Chunks that are cut to size

A visitor whose chunks are cut to size is handed the same bytes in the same order, piece by
piece, until it ends the walk; it cannot tell where the pieces were cut from larger chunks.  A
selection that has room for a chunk sends the same bytes for it and is left with the same total,
whether the chunk is cut or not.
-/

namespace ManifestRelay

open Fetch Turn
open ManifestRelay.Stream

namespace Fetch

/-- Data is handed over in pieces of a size, and these calls were made for it and told this at
last. -/
structure IsRechunked (size : Nat) (path : String) (data : List UInt8) (calls : List Chunk)
    (answer : Except FetchError Bool) : Prop where
  path : ∀ call ∈ calls, call.path = path
  nonempty : ∀ call ∈ calls, call.data ≠ []
  fits : ∀ call ∈ calls, call.data.length ≤ size
  full : ∀ call ∈ calls.dropLast, call.data.length = size
  consecutive : calls.flatMap Chunk.data <+: data
  /-- Only the last call may have been told to end the walk, or that it has failed. -/
  goesOn : ∀ call ∈ calls.dropLast, call.answer = .ok false
  stops : ∀ call ∈ calls, call.answer ≠ .ok false → answer = call.answer
  whole : (∀ call ∈ calls, call.answer = .ok false) →
    calls.flatMap Chunk.data = data ∧ answer = .ok false

/-! ### Pieces one after another -/

/-- Pieces are handed over in calls until one of them is not told to go on. -/
inductive Heard (path : String) :
    List (List UInt8) → List Chunk → Except FetchError Bool → Prop where
  | finished : Heard path [] [] (.ok false)
  | stopped {piece : List UInt8} {rest : List (List UInt8)} {answer : Except FetchError Bool}
      (h : answer ≠ .ok false) : Heard path (piece :: rest) [⟨path, piece, answer⟩] answer
  | goesOn {piece : List UInt8} {rest : List (List UInt8)} {calls : List Chunk}
      {answer : Except FetchError Bool} (later : Heard path rest calls answer) :
      Heard path (piece :: rest) (⟨path, piece, .ok false⟩ :: calls) answer

namespace Heard

variable {path : String} {pieces : List (List UInt8)} {calls : List Chunk}
  {answer : Except FetchError Bool}

theorem path_eq (heard : Heard path pieces calls answer) : ∀ call ∈ calls, call.path = path := by
  induction heard with
  | finished => exact nofun
  | stopped => exact List.forall_mem_singleton.2 rfl
  | goesOn later ih => exact List.forall_mem_cons.2 ⟨rfl, ih⟩

theorem data_prefix (heard : Heard path pieces calls answer) :
    calls.map Chunk.data <+: pieces := by
  induction heard with
  | finished => exact List.nil_prefix
  | stopped => exact List.cons_prefix_cons.2 ⟨rfl, List.nil_prefix⟩
  | goesOn later ih => exact List.cons_prefix_cons.2 ⟨rfl, ih⟩

theorem goesOn_of_mem_dropLast (heard : Heard path pieces calls answer) :
    ∀ call ∈ calls.dropLast, call.answer = .ok false := by
  induction heard with
  | finished => exact nofun
  | stopped => exact nofun
  | @goesOn piece rest calls answer later ih =>
      cases calls with
      | nil => exact nofun
      | cons next more => exact List.forall_mem_cons.2 ⟨rfl, ih⟩

theorem data_mem_dropLast (heard : Heard path pieces calls answer) :
    ∀ call ∈ calls.dropLast, call.data ∈ pieces.dropLast := by
  induction heard with
  | finished => exact nofun
  | stopped => exact nofun
  | @goesOn piece rest calls answer later ih =>
      cases later with
      | finished => exact nofun
      | stopped h => exact List.forall_mem_cons.2 ⟨List.mem_cons_self, nofun⟩
      | goesOn later =>
          exact List.forall_mem_cons.2
            ⟨List.mem_cons_self, fun call hcall => .tail _ (ih call hcall)⟩

theorem stops (heard : Heard path pieces calls answer) :
    ∀ call ∈ calls, call.answer ≠ .ok false → answer = call.answer := by
  induction heard with
  | finished => exact nofun
  | stopped => exact List.forall_mem_singleton.2 fun _ => rfl
  | goesOn later ih => exact List.forall_mem_cons.2 ⟨fun h => absurd rfl h, ih⟩

theorem whole (heard : Heard path pieces calls answer)
    (patient : ∀ call ∈ calls, call.answer = .ok false) :
    calls.map Chunk.data = pieces ∧ answer = .ok false := by
  induction heard with
  | finished => exact ⟨rfl, rfl⟩
  | stopped h => exact absurd (patient _ List.mem_cons_self) h
  | goesOn later ih =>
      obtain ⟨hpieces, hanswer⟩ := ih fun call hcall => patient call (.tail _ hcall)
      exact ⟨congrArg _ hpieces, hanswer⟩

end Heard

theorem isRechunked_of_heard {limit : Nat} {path : String} {data : List UInt8}
    {calls : List Chunk} {answer : Except FetchError Bool}
    (heard : Heard path (piecesOf (limit - 1) data) calls answer) :
    IsRechunked (max 1 limit) path data calls answer := by
  have hsize : limit - 1 + 1 = max 1 limit := by omega
  have hprefix := heard.data_prefix
  have hmem : ∀ call ∈ calls, call.data ∈ piecesOf (limit - 1) data := fun call hcall =>
    hprefix.subset (List.mem_map_of_mem hcall)
  refine ⟨heard.path_eq, fun call hcall => ?_, fun call hcall => ?_, fun call hcall => ?_, ?_,
    heard.goesOn_of_mem_dropLast, heard.stops, fun patient => ?_⟩
  · exact ne_nil_of_mem_piecesOf _ (hmem call hcall)
  · exact hsize ▸ length_le_of_mem_piecesOf _ (hmem call hcall)
  · exact hsize ▸ length_of_mem_dropLast_piecesOf _ (heard.data_mem_dropLast call hcall)
  · rw [List.flatMap_def, ← flatten_piecesOf (limit - 1) data]
    exact hprefix.flatten
  · obtain ⟨hpieces, hanswer⟩ := heard.whole patient
    rw [List.flatMap_def, hpieces]
    exact ⟨flatten_piecesOf _ data, hanswer⟩

section Visits

variable {σ : Type} (visitor : Visitor (StateM σ)) (path : String)

section Pieces

variable {piece : List UInt8} (rest : List (List UInt8)) {s t : σ}
  {answer : Except FetchError Bool} (first : (visitor.chunk path piece).run.run s = (answer, t))

include first

theorem Visitor.run_chunks_of_stop (stops : answer ≠ .ok false) :
    (visitor.chunks path (piece :: rest)).run.run s = (answer, t) := by
  rw [chunks, ExceptT.run_bind, StateT.run_bind, first]
  match answer with
  | .error e => rfl
  | .ok true => rfl
  | .ok false => exact absurd rfl stops

theorem Visitor.run_chunks_of_goOn (goesOn : answer = .ok false) :
    (visitor.chunks path (piece :: rest)).run.run s = (visitor.chunks path rest).run.run t := by
  rw [chunks, ExceptT.run_bind, StateT.run_bind, first, goesOn]
  rfl

end Pieces

theorem Visitor.run_chunks_recorded (pieces : List (List UInt8)) (s : σ) (before : List Reply) :
    ∃ calls answer t, (visitor.chunks path pieces).run.run s = (answer, t) ∧
      (visitor.recorded.chunks path pieces).run.run (s, before) =
        (answer, t, before ++ calls.map .chunk) ∧
      Heard path pieces calls answer := by
  induction pieces generalizing s before with
  | nil => exact ⟨[], .ok false, s, rfl, by rw [List.map_nil, List.append_nil]; rfl, .finished⟩
  | cons piece rest ih =>
      rcases hpiece : (visitor.chunk path piece).run.run s with ⟨answer, t⟩
      have hrecorded : (visitor.recorded.chunk path piece).run.run (s, before) =
          (((visitor.chunk path piece).run.run s).1, ((visitor.chunk path piece).run.run s).2,
            before ++ [.chunk ⟨path, piece, ((visitor.chunk path piece).run.run s).1⟩]) := rfl
      rw [hpiece] at hrecorded
      by_cases hanswer : answer = .ok false
      · obtain ⟨calls, last, u, hplain, hlater, heard⟩ :=
          ih t (before ++ [.chunk ⟨path, piece, answer⟩])
        rw [visitor.run_chunks_of_goOn path rest hpiece hanswer,
          visitor.recorded.run_chunks_of_goOn path rest hrecorded hanswer]
        subst hanswer
        refine ⟨_, last, u, hplain, ?_, .goesOn heard⟩
        rw [hlater, List.map_cons, List.append_assoc]
        rfl
      · rw [visitor.run_chunks_of_stop path rest hpiece hanswer,
          visitor.recorded.run_chunks_of_stop path rest hrecorded hanswer]
        exact ⟨_, answer, t, rfl, rfl, .stopped hanswer⟩

end Visits

end Fetch

namespace Turn

def Frame.contents : Frame → List UInt8
  | .object _ data => data
  | .headers _ | .trailers => []

def contentsOf (frames : List Frame) : List UInt8 := frames.flatMap Frame.contents

def Delivers {σ : Type} (send : Frame → StateM σ (Except SendError Unit)) :
    σ → List Frame → Prop
  | _, [] => True
  | peer, frame :: rest =>
      ((send frame).run peer).1 = .ok () ∧ Delivers send ((send frame).run peer).2 rest

namespace Selection

section Sends

variable {σ : Type} {send : Frame → StateM σ (Except SendError Unit)} {path : String}

theorem run_chunk_of_room {data : List UInt8} {s : Selection} {peer : σ}
    (room : data.length ≤ s.remaining)
    (succeeds : ((send (.object path data)).run peer).1 = .ok ()) (frames : List Frame) :
    (((visitor (Account.handing send)).chunk path data).run.run s).run (peer, frames) =
      ((.ok false, { s with remaining := s.remaining - data.length }),
        ((send (.object path data)).run peer).2, frames ++ [.object path data]) := by
  have hcharge : s.charge data.length =
      (.ok (), { s with remaining := s.remaining - data.length }) :=
    if_neg (Int.not_lt.2 (Int.sub_nonneg_of_le room))
  rw [visitor_chunk_charged (Account.handing send) path hcharge]
  change ((heard ((send (.object path data)).run peer).1, _), _, _) = _
  rw [succeeds]
  rfl

theorem run_chunks_of_room {pieces : List (List UInt8)} {s : Selection} {peer : σ}
    (room : pieces.flatten.length ≤ s.remaining)
    (delivers : Delivers send peer (pieces.map (.object path))) (frames : List Frame) :
    ∃ heard, (((visitor (Account.handing send)).chunks path pieces).run.run s).run (peer, frames) =
      ((.ok false, { s with remaining := s.remaining - pieces.flatten.length }), heard,
        frames ++ pieces.map (.object path)) := by
  induction pieces generalizing s peer frames with
  | nil =>
      refine ⟨peer, ?_⟩
      rw [List.map_nil, List.append_nil, List.flatten_nil, List.length_nil, Int.natCast_zero,
        Int.sub_zero]
      rfl
  | cons piece rest ih =>
      rw [List.flatten_cons, List.length_append, Int.natCast_add] at room ⊢
      obtain ⟨hpiece, hdelivers⟩ := delivers
      have hfirst := run_chunk_of_room (s := s) (by omega) hpiece frames
      have hroom : rest.flatten.length ≤ s.remaining - piece.length := by omega
      obtain ⟨last, hrest⟩ := ih (s := { s with remaining := s.remaining - piece.length }) hroom
        hdelivers (frames ++ [.object path piece])
      refine ⟨last, ?_⟩
      rw [Visitor.chunks, ExceptT.run_bind, StateT.run_bind, StateT.run_bind, hfirst]
      refine hrest.trans ?_
      rw [List.map_cons, ← Int.sub_sub, List.append_assoc]
      rfl

end Sends

end Selection

theorem contentsOf_map_object (path : String) (pieces : List (List UInt8)) :
    contentsOf (pieces.map (.object path)) = pieces.flatten := by
  rw [contentsOf, List.flatMap_map, List.flatMap_def]
  exact congrArg List.flatten (List.map_id pieces)

end Turn

/-- A visitor whose chunks are cut to size is handed consecutive pieces of the chunk until it ends
the walk or fails, and that is what the walk is told; and a selection that has room for a chunk, and
whose frames are sent, sends the same bytes and is left with the same total whether its chunks are
cut or not. -/
theorem rechunking_is_transparent {σ : Type} (visitor : Visitor (StateM σ)) (s : σ)
    (path : String) (data : List UInt8) (limit : Nat) :
    (∃ calls answer t,
      ((visitor.rechunked limit).chunk path data).run.run s = (answer, t) ∧
      ((visitor.recorded.rechunked limit).chunk path data).run.run (s, []) =
        (answer, t, calls.map .chunk) ∧
      IsRechunked (max 1 limit) path data calls answer) ∧
    ∀ (send : Frame → StateM σ (Except SendError Unit)) (selection : Selection) (peer : σ),
      data.length ≤ selection.remaining →
      Delivers send peer [.object path data] →
      Delivers send peer ((piecesOf (limit - 1) data).map (.object path)) →
      ∃ left whole cut wholeFrames cutFrames,
        (((Selection.visitor (Account.handing send)).chunk path data).run.run selection).run
          (peer, []) = ((.ok false, left), whole, wholeFrames) ∧
        ((((Selection.visitor (Account.handing send)).rechunked limit).chunk path data).run.run
          selection).run (peer, []) = ((.ok false, left), cut, cutFrames) ∧
        left = { selection with remaining := selection.remaining - data.length } ∧
        contentsOf wholeFrames = data ∧ contentsOf cutFrames = data := by
  constructor
  · obtain ⟨calls, answer, t, hplain, hrecorded, heard⟩ :=
      visitor.run_chunks_recorded path (piecesOf (limit - 1) data) s []
    exact ⟨calls, answer, t, hplain, hrecorded, isRechunked_of_heard heard⟩
  · intro send selection peer room deliversWhole deliversPieces
    have hpieces := flatten_piecesOf (limit - 1) data
    have hwhole := Selection.run_chunk_of_room room deliversWhole.1 []
    obtain ⟨cut, hcut⟩ := Selection.run_chunks_of_room (hpieces.symm ▸ room) deliversPieces []
    rw [hpieces] at hcut
    refine ⟨_, _, cut, _, _, hwhole, hcut, rfl, List.append_nil data, ?_⟩
    rw [List.nil_append, contentsOf_map_object, hpieces]

def hurried : Visitor (StateM Nat) where
  entry _ := pure (.take 9)
  chunk _ _ := ExceptT.mk fun heard => (.ok (heard == 1), heard + 1)

/-- A peer that takes no more than three frames. -/
def welcoming (_ : Frame) : StateM Nat (Except SendError Unit) := fun heard =>
  (if heard < 3 then .ok () else .error .closed, heard + 1)

/-- Of three pieces a visitor in a hurry is handed two, and a selection that has room for five bytes
sends them all. -/
theorem rechunking_is_transparent_hurried :
    (∃ calls, ((hurried.recorded.rechunked 2).chunk "a" [1, 2, 3, 4, 5]).run.run (0, []) =
        (.ok true, 2, calls.map .chunk) ∧
      IsRechunked 2 "a" [1, 2, 3, 4, 5] calls (.ok true)) ∧
    ([1, 2, 3, 4, 5] : List UInt8).length ≤ (Selection.ofBudget ⟨5, 9, 1⟩).remaining ∧
    Delivers welcoming 0 [.object "a" [1, 2, 3, 4, 5]] ∧
    Delivers welcoming 0 ((piecesOf 1 [1, 2, 3, 4, 5]).map (.object "a")) ∧
    ∃ left cut cutFrames,
      ((((Selection.visitor (Account.handing welcoming)).rechunked 2).chunk "a"
        [1, 2, 3, 4, 5]).run.run (.ofBudget ⟨5, 9, 1⟩)).run (0, []) =
          ((.ok false, left), cut, cutFrames) ∧
      left.remaining = 0 ∧ contentsOf cutFrames = [1, 2, 3, 4, 5] := by
  obtain ⟨⟨calls, answer, t, hplain, hrecorded, hcalls⟩, hsends⟩ :=
    rechunking_is_transparent hurried 0 "a" [1, 2, 3, 4, 5] 2
  have hpieces : piecesOf 1 ([1, 2, 3, 4, 5] : List UInt8) = [[1, 2], [3, 4], [5]] := by
    simp [piecesOf]
  have hrun : (hurried.chunks "a" (piecesOf 1 [1, 2, 3, 4, 5])).run.run 0 = (.ok true, 2) := by
    rw [hpieces]
    rfl
  cases hplain.symm.trans hrun
  have hroom : ([1, 2, 3, 4, 5] : List UInt8).length ≤
      (Selection.ofBudget ⟨5, 9, 1⟩).remaining := by decide
  have hwhole : Delivers welcoming 0 [.object "a" [1, 2, 3, 4, 5]] := ⟨rfl, trivial⟩
  have hcut : Delivers welcoming 0 ((piecesOf 1 [1, 2, 3, 4, 5]).map (.object "a")) := by
    rw [hpieces]
    exact ⟨rfl, rfl, rfl, trivial⟩
  obtain ⟨left, -, cut, -, cutFrames, -, hrest, rfl, -, hcontents⟩ :=
    hsends welcoming _ 0 hroom hwhole hcut
  exact ⟨⟨calls, hrecorded, hcalls⟩, hroom, hwhole, hcut, _, cut, cutFrames, hrest, rfl, hcontents⟩

end ManifestRelay
