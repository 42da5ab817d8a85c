import ManifestRelay.Proofs.Fetch.Pieces
import ManifestRelay.Proofs.Session.Replay
import ManifestRelay.Proofs.Session.Sending
import ManifestRelay.Proofs.Snapshot.Listing
import ManifestRelay.Proofs.Turn.Admission

/-!
# Walks carried out

Before a peer that accepts every frame, a walk of files offers them to the
selection one after another.  What is sent are the files that the selection
admits, whole and in order, and the walk fails where the selection admits no
more.
-/

namespace ManifestRelay.Session

open Fetch Metadata Relay Snapshot Turn

namespace ManifestStream

theorem size_of_mem_pieces {data piece : List UInt8} (h : piece ∈ piecesOf (readSize - 1) data) :
    piece ≠ [] ∧ piece.length ≤ maxChunkSize := by
  refine ⟨ne_nil_of_mem_piecesOf _ h, ?_⟩
  exact (length_le_of_mem_piecesOf _ h).trans (by decide)

/-- The frames of a file, none if it is empty. -/
def fileFrames (path : String) (data : List UInt8) : List Frame :=
  (piecesOf (readSize - 1) data).map fun piece => .object path piece

def framesOf (o : Offer) : List Frame := fileFrames o.path o.data

def spent (s : Selection) (size : Nat) : Selection := { s with remaining := s.remaining - size }

def offersTo (s : Selection) (files : List (Path × List UInt8)) : List Offer :=
  files.map fun (path, data) => ⟨pathText path, data, s.selects (pathText path)⟩

/-- What happens is what the admission of offers makes of them. -/
def Carries (s : Selection) (offers : List Offer)
    (played : List (Event Frame) × Except FetchError Unit × Selection) : Prop :=
  match s.admitAll offers with
  | some t => sent played.1 = (wantedOf offers).flatMap framesOf ∧ played.2 = (.ok (), t)
  | none => ∃ e t, played.2 = (.error e, t)

namespace Carries

variable {s t : Selection} {o : Offer} {offers : List Offer}
  {played : List (Event Frame) × Except FetchError Unit × Selection}

theorem fail (refused : s.admitOne o = none) (failed : ∃ e t, played.2 = (.error e, t)) :
    Carries s (o :: offers) played := by
  unfold Carries
  rw [Selection.admitAll, refused]
  exact failed

theorem step (admitted : s.admitOne o = some t) {before : List (Event Frame)}
    (first : sent before = if o.wanted then framesOf o else [])
    (carries : Carries t offers played) : Carries s (o :: offers) (before ++ played.1, played.2) := by
  unfold Carries at carries ⊢
  rw [Selection.admitAll, admitted, Option.bind_some]
  split at carries
  · obtain ⟨hsent, hresult⟩ := carries
    refine ⟨?_, hresult⟩
    have hwanted : wantedOf (o :: offers) =
        if o.wanted then o :: wantedOf offers else wantedOf offers := List.filter_cons
    rw [sent_append, first, hsent, hwanted]
    split <;> rfl
  · exact carries

theorem of_some (carries : Carries s offers played) (admitted : s.admitAll offers = some t) :
    ∃ events, sent events = (wantedOf offers).flatMap framesOf ∧ played = (events, .ok (), t) := by
  unfold Carries at carries
  rw [admitted] at carries
  exact ⟨played.1, carries.1, Prod.ext rfl carries.2⟩

theorem of_none (carries : Carries s offers played) (refused : s.admitAll offers = none) :
    ∃ events e t, played = (events, .error e, t) := by
  unfold Carries at carries
  rw [refused] at carries
  obtain ⟨e, t, hresult⟩ := carries
  exact ⟨played.1, e, t, Prod.ext rfl hresult⟩

end Carries

section Playing

variable {answer : (query : Query Frame) → query.Answer}

theorem play_bind {α β : Type} {x : ExceptT FetchError (StateT Selection (Dialogue Frame)) α}
    {f : α → ExceptT FetchError (StateT Selection (Dialogue Frame)) β} {s t : Selection}
    {events : List (Event Frame)} {a : α}
    (h : (x.run.run s).play answer = (events, .ok a, t)) :
    ((x >>= f).run.run s).play answer =
      (events ++ (((f a).run.run t).play answer).1, (((f a).run.run t).play answer).2) := by
  refine (Dialogue.play_bind answer (x.run.run s) _).trans ?_
  rw [h]
  rfl

theorem play_drive_entry {path : String} {next : Except FetchError Decision → Walk}
    {s t : Selection} {decision : Except FetchError Decision} (h : s.offer path = (decision, t)) :
    (((Walk.entry path next).drive visitor).run s).play answer =
      (((next decision).drive visitor).run t).play answer := by
  change (((next (s.offer path).1).drive visitor).run (s.offer path).2).play answer = _
  rw [h]

theorem play_drive_chunk {path : String} {data : List UInt8}
    {next : Except FetchError Bool → Walk} {s t : Selection} {events : List (Event Frame)}
    {result : Except FetchError Bool}
    (h : ((visitor.chunk path data).run.run s).play answer = (events, result, t)) :
    (((Walk.chunk path data next).drive visitor).run s).play answer =
      (events ++ ((((next result).drive visitor).run t).play answer).1,
        ((((next result).drive visitor).run t).play answer).2) := by
  refine (Dialogue.play_bind answer ((visitor.chunk path data).run.run s) _).trans ?_
  rw [h]
  rfl

variable (accepts : ∀ frame, answer (.send frame) = .ok ())

include accepts

theorem play_chunk {s : Selection} {path : String} {data : List UInt8}
    (h : data.length ≤ s.remaining) :
    ((sender.chunk path data).run.run s).play answer =
      ([.answered (.send (.object path data)) (.ok ())], .ok false, spent s data.length) := by
  have hcharge : s.charge data.length = (.ok (), spent s data.length) := by
    rw [Selection.charge, if_neg (Int.not_lt.2 (Int.sub_nonneg_of_le h))]
    rfl
  have hcharged : ((ExceptT.mk fun s => pure (s.charge data.length) :
      ExceptT FetchError (StateT Selection (Dialogue Frame)) Unit).run.run s).play answer =
      ([], .ok (), spent s data.length) := congrArg (Prod.mk []) hcharge
  have hsent : ((ExceptT.lift (StateT.lift (Dialogue.request (.send (.object path data)))) :
      ExceptT FetchError (StateT Selection (Dialogue Frame)) _).run.run
        (spent s data.length)).play answer =
      ([.answered (.send (.object path data)) (.ok ())], .ok (.ok ()), spent s data.length) := by
    rw [← accepts (.object path data)]
    rfl
  refine (play_bind hcharged).trans ?_
  rw [List.nil_append]
  exact play_bind hsent

theorem play_visitor_chunk {s : Selection} {path : String} {data : List UInt8}
    (h : data.length ≤ s.remaining) (nonempty : data ≠ []) (size : data.length ≤ maxChunkSize) :
    ((visitor.chunk path data).run.run s).play answer =
      ([.answered (.send (.object path data)) (.ok ())], .ok false, spent s data.length) := by
  have hpieces : piecesOf (maxChunkSize - 1) data = [data] := piecesOf_of_length_le _ nonempty size
  change ((sender.chunks path (piecesOf (maxChunkSize - 1) data)).run.run s).play answer = _
  rw [hpieces]
  exact play_bind (play_chunk accepts h)

/-- Pieces are sent one after another while they stay within the limits. -/
theorem play_pieceWalk {pieces : List (List UInt8)}
    (sizes : ∀ piece ∈ pieces, piece ≠ [] ∧ piece.length ≤ maxChunkSize) {s : Selection}
    {path : String} {limit : Int} {rest : Walk} {total : Nat}
    (limited : total + pieces.flatten.length ≤ limit)
    (remaining : pieces.flatten.length ≤ s.remaining) :
    ∃ events, sent events = (pieces.map fun piece => Frame.object path piece) ∧
      (((pieceWalk path limit rest total pieces).drive visitor).run s).play answer =
        (events ++ (((rest.drive visitor).run (spent s pieces.flatten.length)).play answer).1,
          (((rest.drive visitor).run (spent s pieces.flatten.length)).play answer).2) := by
  induction pieces generalizing s total with
  | nil =>
      refine ⟨[], rfl, ?_⟩
      rw [List.flatten_nil, List.length_nil, spent, Int.ofNat_zero, Int.sub_zero]
      rfl
  | cons piece more ih =>
      obtain ⟨⟨hnonempty, hsize⟩, hmore⟩ := List.forall_mem_cons.1 sizes
      rw [List.flatten_cons, List.length_append, Int.natCast_add] at limited remaining
      have hcheck : checkSize path (total + piece.length) limit = .ok () :=
        if_pos (by omega)
      have hlimited : (total + piece.length : Nat) + more.flatten.length ≤ limit := by omega
      have hremaining : more.flatten.length ≤ (spent s piece.length).remaining := by
        change _ ≤ s.remaining - piece.length
        omega
      have hspent : spent (spent s piece.length) more.flatten.length =
          spent s (piece :: more).flatten.length := by
        rw [spent, spent, spent, List.flatten_cons, List.length_append, Int.natCast_add,
          Int.sub_sub]
      obtain ⟨events, hsent, hplay⟩ := ih hmore hlimited hremaining
      refine ⟨.answered (.send (.object path piece)) (.ok ()) :: events, ?_, ?_⟩
      · rw [List.map_cons, ← hsent]
        rfl
      · rw [pieceWalk, hcheck]
        refine (play_drive_chunk (play_visitor_chunk accepts (by omega) hnonempty hsize)).trans ?_
        rw [hspent] at hplay
        exact congrArg (fun played => (_ :: played.1, played.2)) hplay

theorem play_contents (s : Selection) (path : String) (rest : Walk) {data : List UInt8} {limit : Int}
    (limited : data.length ≤ limit) (remaining : data.length ≤ s.remaining) :
    ∃ events, sent events = fileFrames path data ∧
      (((pieceWalk path limit rest 0 (piecesOf (readSize - 1) data)).drive visitor).run s).play
        answer = (events ++ (((rest.drive visitor).run (spent s data.length)).play answer).1,
          (((rest.drive visitor).run (spent s data.length)).play answer).2) := by
  have hflatten := flatten_piecesOf (readSize - 1) data
  have hlimited : (0 : Nat) + (piecesOf (readSize - 1) data).flatten.length ≤ limit := by
    rw [hflatten]
    omega
  have hremaining : (piecesOf (readSize - 1) data).flatten.length ≤ s.remaining := by
    rw [hflatten]
    exact remaining
  rw [← congrArg List.length hflatten]
  exact play_pieceWalk accepts (fun _ => size_of_mem_pieces) hlimited hremaining

theorem carries_taken {s : Selection} {path : Path} {data : List UInt8}
    {files : List (Path × List UInt8)} (room : s.count ≠ s.maxCount)
    (wanted : s.selects (pathText path) = true) (fresh : pathText path ∉ s.taken)
    (rest : ∀ t : Selection, Carries t (offersTo t files)
      ((((fileWalk (offered files)).drive visitor).run t).play answer)) :
    Carries s (offersTo s ((path, data) :: files))
      ((((fileWalk (offered ((path, data) :: files))).drive visitor).run s).play answer) := by
  let o : Offer := ⟨pathText path, data, s.selects (pathText path)⟩
  have hmeasured : (Content.ofBytes data).measured = data.length := rfl
  change Carries s (o :: offersTo s files) _
  rw [offered, List.map_cons, fileWalk, play_drive_entry (Selection.offer_fresh room wanted fresh)]
  dsimp only
  by_cases hlimit : (data.length : Int) ≤ s.limit
  · have hadmit : s.admitOne o = some (s.spend o) := by
      rw [Selection.admitOne_wanted room wanted, if_pos ⟨fresh, hlimit⟩]
    have hcheck : checkSize (pathText path) data.length s.limit = .ok () := if_pos hlimit
    have hremaining : (data.length : Int) ≤ s.remaining := (Int.le_min.1 hlimit).1
    rw [hmeasured, hcheck]
    obtain ⟨events, hsent, hplay⟩ :=
      play_contents accepts { s.passOver with taken := pathText path :: s.taken }
        (pathText path) (fileWalk (offered files)) hlimit hremaining
    have hfirst : sent events = if o.wanted then framesOf o else [] := by
      rw [hsent, if_pos wanted]
      rfl
    refine (congrArg (Carries s (o :: offersTo s files)) hplay).mpr ?_
    exact .step hadmit hfirst (rest (s.spend o))
  · have hcheck : checkSize (pathText path) data.length s.limit =
        .error (.fileTooBig (pathText path) data.length s.limit) := if_neg hlimit
    have hrefused : s.admitOne o = none := by
      rw [Selection.admitOne_wanted room wanted, if_neg fun h => hlimit h.2]
    rw [hmeasured, hcheck]
    exact .fail hrefused ⟨_, _, rfl⟩

/-- A walk of files sends what the selection admits, or fails where the selection does. -/
theorem carries_fileWalk (files : List (Path × List UInt8)) (s : Selection) :
    Carries s (offersTo s files)
      ((((fileWalk (offered files)).drive visitor).run s).play answer) := by
  induction files generalizing s with
  | nil => exact ⟨rfl, rfl⟩
  | cons file rest ih =>
      obtain ⟨path, data⟩ := file
      let o : Offer := ⟨pathText path, data, s.selects (pathText path)⟩
      change Carries s (o :: offersTo s rest) _
      by_cases hfull : s.count = s.maxCount
      · rw [offered, List.map_cons, fileWalk, play_drive_entry (Selection.offer_full hfull)]
        exact .fail (Selection.admitOne_full hfull o) ⟨_, _, rfl⟩
      cases hwanted : s.selects (pathText path) with
      | false =>
          have hfirst : sent ([] : List (Event Frame)) =
              if o.wanted then framesOf o else [] := by
            rw [if_neg (ne_true_of_eq_false hwanted)]
            rfl
          rw [offered, List.map_cons, fileWalk,
            play_drive_entry (Selection.offer_unwanted hfull hwanted)]
          exact .step (Selection.admitOne_unwanted hfull hwanted) hfirst (ih s.passOver)
      | true =>
          by_cases hagain : pathText path ∈ s.taken
          · have hrefused : s.admitOne o = none := by
              rw [Selection.admitOne_wanted hfull hwanted, if_neg fun h => h.1 hagain]
            rw [offered, List.map_cons, fileWalk,
              play_drive_entry (Selection.offer_again hfull hwanted hagain)]
            exact .fail hrefused ⟨_, _, rfl⟩
          · exact carries_taken accepts hfull hwanted hagain ih

end Playing

end ManifestStream

end ManifestRelay.Session
