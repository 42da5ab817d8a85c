import ManifestRelay.Fetch.Visitor

/-!
# Courses of walks

A course tells which calls a walk made and what it was told in reply.  A walk
has many courses, for its visitor may reply what it likes.  A visitor that
keeps a record replies as before, and what it has on record is a course.
-/

namespace ManifestRelay.Fetch

/-- A chunk that was handed over, and what came of it. -/
structure Chunk where
  path : String
  data : List UInt8
  answer : Except FetchError Bool

/-- A call of a walk with the reply of its visitor. -/
inductive Reply where
  | entry (path : String) (answer : Except FetchError Decision)
  | chunk (chunk : Chunk)

/-- The chunks that were handed over before the next file was offered. -/
def chunksAhead : List Reply → List Chunk
  | .chunk chunk :: rest => chunk :: chunksAhead rest
  | _ => []

def enteredPaths (replies : List Reply) : List String :=
  replies.filterMap fun
    | .entry path _ => some path
    | .chunk _ => none

theorem enteredPaths_entry (path : String) (answer : Except FetchError Decision)
    (rest : List Reply) : enteredPaths (.entry path answer :: rest) = path :: enteredPaths rest := rfl

theorem enteredPaths_append (first rest : List Reply) :
    enteredPaths (first ++ rest) = enteredPaths first ++ enteredPaths rest :=
  List.filterMap_append

theorem enteredPaths_chunks (chunks : List Chunk) : enteredPaths (chunks.map Reply.chunk) = [] := by
  rw [enteredPaths, List.filterMap_map, List.filterMap_eq_nil_iff]
  intro chunk _
  rfl

theorem chunksAhead_append (chunks : List Chunk) (rest : List Reply) :
    chunksAhead (chunks.map Reply.chunk ++ rest) = chunks ++ chunksAhead rest := by
  induction chunks with
  | nil => rfl
  | cons chunk more ih => exact congrArg (chunk :: ·) ih

/-- A walk may make these calls, be told these replies, and end so. -/
inductive Walk.Course : Walk → List Reply → Except FetchError Unit → Prop where
  | finished (result : Except FetchError Unit) : Course (.finished result) [] result
  | missing (directory revision : String) : Course (.missing directory revision) [] (.ok ())
  | entry {path : String} {next : Except FetchError Decision → Walk} {replies : List Reply}
      {result : Except FetchError Unit} (answer : Except FetchError Decision)
      (rest : (next answer).Course replies result) :
      Course (.entry path next) (.entry path answer :: replies) result
  | chunk {path : String} {data : List UInt8} {next : Except FetchError Bool → Walk}
      {replies : List Reply} {result : Except FetchError Unit} (answer : Except FetchError Bool)
      (rest : (next answer).Course replies result) :
      Course (.chunk path data next) (.chunk ⟨path, data, answer⟩ :: replies) result

namespace Visitor

variable {σ : Type} (visitor : Visitor (StateM σ))

/-- The visitor with a record of its replies. -/
def recorded : Visitor (StateM (σ × List Reply)) where
  entry path := ExceptT.mk fun (s, replies) =>
    let (answer, s) := (visitor.entry path).run.run s
    (answer, s, replies ++ [.entry path answer])
  chunk path data := ExceptT.mk fun (s, replies) =>
    let (answer, s) := (visitor.chunk path data).run.run s
    (answer, s, replies ++ [.chunk ⟨path, data, answer⟩])

/-- Show a walk to the visitor: the replies to its calls, and how it ended. -/
def watch (walk : Walk) (s : σ) : List Reply × Except FetchError Unit :=
  let (result, _, replies) := (walk.drive visitor.recorded).run (s, [])
  (replies, result)

/-- A record makes no difference to a walk, and it is a course. -/
theorem run_drive_recorded (walk : Walk) (s : σ) (before : List Reply) :
    ∃ replies, (walk.drive visitor.recorded).run (s, before) =
        (((walk.drive visitor).run s).1, ((walk.drive visitor).run s).2, before ++ replies) ∧
      walk.Course replies ((walk.drive visitor).run s).1 := by
  induction walk generalizing s before with
  | finished result => exact ⟨[], by rw [List.append_nil]; rfl, .finished result⟩
  | missing directory revision => exact ⟨[], by rw [List.append_nil]; rfl, .missing _ _⟩
  | entry path next ih =>
      obtain ⟨replies, hrun, hcourse⟩ := ih ((visitor.entry path).run.run s).1
        ((visitor.entry path).run.run s).2
        (before ++ [.entry path ((visitor.entry path).run.run s).1])
      rw [List.append_assoc] at hrun
      exact ⟨_, hrun, .entry _ hcourse⟩
  | chunk path data next ih =>
      obtain ⟨replies, hrun, hcourse⟩ := ih ((visitor.chunk path data).run.run s).1
        ((visitor.chunk path data).run.run s).2
        (before ++ [.chunk ⟨path, data, ((visitor.chunk path data).run.run s).1⟩])
      rw [List.append_assoc] at hrun
      exact ⟨_, hrun, .chunk _ hcourse⟩

theorem course_watch (walk : Walk) (s : σ) :
    walk.Course (visitor.watch walk s).1 (visitor.watch walk s).2 := by
  obtain ⟨replies, hrun, hcourse⟩ := visitor.run_drive_recorded walk s []
  rw [watch, hrun]
  exact hcourse

end Visitor

end ManifestRelay.Fetch
