import ManifestRelay.Proofs.Session.Sent

/-!
# Sending files

Between its headers and its trailers a turn asks for walks, takes notes and
sends pieces of files, and does nothing else, whatever it is shown.
-/

namespace ManifestRelay.Session

open Fetch Metadata Relay Turn

/-- At most a piece of a file is sent, and no delivery is counted. -/
def Event.IsPiece (event : Event Frame) : Prop :=
  (∀ frame, event.sent? = some frame → ∃ source data, frame = .object source data) ∧
    event.isDelivery = false

theorem Event.IsQuiet.isPiece {event : Event Frame} (quiet : event.IsQuiet) : event.IsPiece :=
  ⟨fun frame h => (Option.some_ne_none frame (h.symm.trans quiet.1)).elim, quiet.2⟩

theorem sent_of_pieces {events : List (Event Frame)} (h : ∀ event ∈ events, event.IsPiece) :
    ∃ pieces : List (String × List UInt8),
      sent events = pieces.map fun (source, data) => .object source data := by
  induction events with
  | nil => exact ⟨[], rfl⟩
  | cons event rest ih =>
      obtain ⟨hevent, hrest⟩ := List.forall_mem_cons.1 h
      obtain ⟨pieces, hpieces⟩ := ih hrest
      cases hsent : event.sent? with
      | none => exact ⟨pieces, by rw [sent, List.filterMap_cons_none hsent]; exact hpieces⟩
      | some frame =>
          obtain ⟨source, data, rfl⟩ := hevent.1 frame hsent
          refine ⟨(source, data) :: pieces, ?_⟩
          rw [sent, List.filterMap_cons_some hsent, List.map_cons]
          exact congrArg _ hpieces

namespace ManifestStream

section Visits

variable {α β : Type} {p : Event Frame → Prop}

theorem always_bind {x : ExceptT FetchError (StateT Selection (Dialogue Frame)) α}
    {f : α → ExceptT FetchError (StateT Selection (Dialogue Frame)) β}
    (first : ∀ selection, (x.run.run selection).Always p)
    (later : ∀ a selection, ((f a).run.run selection).Always p) (selection : Selection) :
    ((x >>= f).run.run selection).Always p := by
  refine (first selection).bind ?_
  rintro ⟨result, next⟩
  cases result with
  | ok a => exact later a next
  | error e => trivial

end Visits

/-- The visitor before its chunks are cut to size. -/
abbrev sender : Visitor (StateT Selection (Dialogue Frame)) :=
  Selection.visitor fun frame => Dialogue.request (.send frame)

structure Permits (commit : String) (p : Event Frame → Prop) : Prop where
  note : ∀ note, note ≠ .delivered → p (.noted note)
  visit : ∀ server repository directory recursive walk,
    p (.answered (.visit server repository commit directory recursive) walk)
  object : ∀ source data result, p (.answered (.send (.object source data)) result)

section Pieces

variable {p : Event Frame → Prop}
  (object : ∀ source data result, p (.answered (.send (.object source data)) result))

include object

theorem always_chunk (path : String) (data : List UInt8) (selection : Selection) :
    ((sender.chunk path data).run.run selection).Always p := by
  refine always_bind ?_ (fun _ => always_bind ?_ ?_) selection
  · exact fun _ => trivial
  · exact fun selection answer => ⟨object path data answer, trivial⟩
  · intro answer selection
    cases answer with
    | ok _ => trivial
    | error e => trivial

theorem always_chunks (path : String) (pieces : List (List UInt8)) (selection : Selection) :
    ((sender.chunks path pieces).run.run selection).Always p := by
  induction pieces generalizing selection with
  | nil => trivial
  | cons piece rest ih =>
      refine always_bind (always_chunk object path piece) (fun stop selection => ?_) selection
      cases stop with
      | true => trivial
      | false => exact ih selection

/-- A walk that is shown to a selection sends pieces of files and does nothing else. -/
theorem always_drive (walk : Walk) (selection : Selection) :
    ((walk.drive visitor).run selection).Always p := by
  induction walk generalizing selection with
  | finished result => trivial
  | missing directory revision => trivial
  | entry path next ih => exact ih _ _
  | chunk path data next ih =>
      exact Dialogue.Always.bind (always_chunks object path _ selection) fun _ => ih _ _

end Pieces

section Permitted

variable {commit : String} {p : Event Frame → Prop} (permits : Permits commit p)

include permits

theorem always_failWalk {α : Type} (e : FetchError) :
    (failWalk e : Exchange Frame α).run.Always p :=
  Exchange.always_fail (fun note hnote => permits.note note (walkNotes_ne_delivered note hnote)) _

theorem always_watch (walk : Walk) (selection : Selection) :
    (watch walk selection).run.Always p := by
  have hdrive : (ExceptT.lift ((walk.drive visitor).run selection) :
      Exchange Frame (Except FetchError Unit × Selection)).run.Always p :=
    (always_drive permits.object walk selection).bind fun _ => trivial
  refine Exchange.always_bind hdrive ?_
  rintro ⟨result, selection⟩
  cases result with
  | ok _ => trivial
  | error e => exact always_failWalk permits e

theorem always_sendGlob (project : ProjectInfo) (glob : String) (selection : Selection) :
    (sendGlob project commit glob selection).run.Always p := by
  unfold sendGlob
  extract_lets scope plain
  split
  · exact always_failWalk permits _
  · refine Exchange.always_bind (Exchange.always_request (permits.visit _ _ _ _)) fun walk => ?_
    refine Exchange.always_bind (Exchange.always_notes fun note hnote => ?_) fun _ => ?_
    · exact permits.note note (openingNotes_ne_delivered note hnote)
    · exact always_watch permits walk _

theorem always_sendGlobs (project : ProjectInfo) (globs : List String) (selection : Selection) :
    (sendGlobs project commit globs selection).run.Always p := by
  induction globs generalizing selection with
  | nil => trivial
  | cons glob rest ih =>
      exact Exchange.always_bind (always_sendGlob permits project glob selection) ih

end Permitted

theorem permits_pieces {commit : String} : Permits commit Event.IsPiece where
  note _ h := (Event.isQuiet_noted h).isPiece
  visit _ _ _ _ _ := ⟨nofun, rfl⟩
  object source data result := by
    refine ⟨fun frame hsent => ?_, rfl⟩
    cases result with
    | error e => cases hsent
    | ok _ => exact ⟨source, data, (Option.some.inj hsent).symm⟩

end ManifestStream

end ManifestRelay.Session
