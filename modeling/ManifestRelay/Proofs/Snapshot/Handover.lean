import Mathlib
import ManifestRelay.Proofs.Fetch.Course
import ManifestRelay.Proofs.Fetch.Pieces
import ManifestRelay.Proofs.Snapshot.Listing
import ManifestRelay.Proofs.Snapshot.Restraint

/-!
# Files that are handed over

A walk of a snapshot offers its files one after another, each once, until a
visitor or the size of a file ends it.  A file that is taken follows at once and
in order, in chunks none of which is empty.  So an empty file that is taken
comes without a chunk, as if it had been passed over.
-/

namespace ManifestRelay.Snapshot

open Fetch Metadata

/-! ### What a visitor is shown -/

/-- A file is handed over in chunks, all of them its own. -/
structure IsHandedOver (path : String) (data : List UInt8) (limit : Int) (chunks : List Chunk) :
    Prop where
  own : ∀ chunk ∈ chunks, chunk.path = path
  size : ∀ chunk ∈ chunks, chunk.data ≠ [] ∧ chunk.data.length ≤ readSize
  told : chunks ≠ [] ↔ data ≠ []
  inOrder : chunks.flatMap Chunk.data <+: data
  within : (chunks.flatMap Chunk.data).length ≤ limit
  /-- No byte is missing unless a reply ends the walk. -/
  whole : (∀ chunk ∈ chunks, chunk.answer = .ok false) → chunks.flatMap Chunk.data = data

/-- A reply on which a walk of files ends, and how it ends. -/
inductive Closes (files : List (Path × List UInt8)) : Reply → Except FetchError Unit → Prop where
  | refused (path : String) (e : FetchError) : Closes files (.entry path (.error e)) (.error e)
  | tooBig {path : Path} {data : List UInt8} {limit : Int} (offered : (path, data) ∈ files)
      (larger : limit < data.length) : Closes files (.entry (pathText path) (.ok (.take limit)))
        (.error (.fileTooBig (pathText path) data.length limit))
  | failed (path : String) (data : List UInt8) (e : FetchError) :
      Closes files (.chunk ⟨path, data, .error e⟩) (.error e)
  | stopped (path : String) (data : List UInt8) :
      Closes files (.chunk ⟨path, data, .ok true⟩) (.ok ())

def TakenFollow (files : List (Path × List UInt8)) (replies : List Reply) : Prop :=
  ∀ before path (limit : Int) after, replies = before ++ .entry path (.ok (.take limit)) :: after →
    ∀ file ∈ files, pathText file.1 = path → file.2.length ≤ limit →
      IsHandedOver path file.2 limit (chunksAhead after)

/-- A walk offers files and hands over those that are taken. -/
structure IsHandover (files : List (Path × List UInt8)) (replies : List Reply)
    (result : Except FetchError Unit) : Prop where
  entered : enteredPaths replies <+: files.map fun file => pathText file.1
  /-- All files are offered unless the last reply ends the walk. -/
  complete : (enteredPaths replies = files.map (fun file => pathText file.1) ∧ result = .ok ()) ∨
    ∃ last ∈ replies.getLast?, Closes files last result
  taken : TakenFollow files replies

/-! ### One file -/

theorem Closes.of_tail {file : Path × List UInt8} {files : List (Path × List UInt8)} {last : Reply}
    {result : Except FetchError Unit} (closes : Closes files last result) :
    Closes (file :: files) last result := by
  cases closes with
  | refused path e => exact .refused path e
  | tooBig offered larger => exact .tooBig (.tail _ offered) larger
  | failed path data e => exact .failed path data e
  | stopped path data => exact .stopped path data

theorem checkSize_of_le {path : String} {size : Nat} {limit : Int} (fits : size ≤ limit) :
    checkSize path size limit = .ok () := if_pos fits

/-- Of pieces these are handed over, and this follows: either all of them and the rest of the walk,
or nothing but the reply that ends it. -/
def Follows (rest : Walk) (result : Except FetchError Unit) (pieces : List (List UInt8))
    (chunks : List Chunk) (later : List Reply) : Prop :=
  (chunks.map Chunk.data = pieces ∧ rest.Course later result) ∨
    (chunks.map Chunk.data <+: pieces ∧ later = [] ∧
      ∃ last ∈ chunks.getLast?, last.answer ≠ .ok false ∧
        ∀ files, Closes files (.chunk last) result)

theorem follows_of_closes {rest : Walk} {result : Except FetchError Unit} {chunk : Chunk}
    (more : List (List UInt8)) (answer : chunk.answer ≠ .ok false)
    (closes : ∀ files, Closes files (.chunk chunk) result) :
    Follows rest result (chunk.data :: more) [chunk] [] :=
  .inr ⟨(List.prefix_cons_inj chunk.data).2 List.nil_prefix, rfl, chunk, rfl, answer, closes⟩

theorem Follows.cons {rest : Walk} {result : Except FetchError Unit} {pieces : List (List UInt8)}
    {chunks : List Chunk} {later : List Reply} (follows : Follows rest result pieces chunks later)
    (chunk : Chunk) : Follows rest result (chunk.data :: pieces) (chunk :: chunks) later := by
  rcases follows with ⟨hall, hcourse⟩ | ⟨hsome, hlater, last, hlast, hanswer, hcloses⟩
  · exact .inl ⟨congrArg (chunk.data :: ·) hall, hcourse⟩
  · refine .inr ⟨(List.prefix_cons_inj chunk.data).2 hsome, hlater, last, ?_, hanswer, hcloses⟩
    rw [List.getLast?_cons, hlast]
    rfl

/-- Pieces that all stay within the limit are handed over until a reply ends the walk. -/
theorem course_pieceWalk {path : String} {limit : Int} {rest : Walk} {total : Nat}
    {pieces : List (List UInt8)} (fits : (total + pieces.flatten.length : Nat) ≤ limit)
    {replies : List Reply} {result : Except FetchError Unit}
    (course : (pieceWalk path limit rest total pieces).Course replies result) :
    ∃ chunks later, replies = chunks.map Reply.chunk ++ later ∧
      (∀ chunk ∈ chunks, chunk.path = path) ∧ (pieces ≠ [] → chunks ≠ []) ∧
      Follows rest result pieces chunks later := by
  induction pieces generalizing total replies with
  | nil =>
      refine ⟨[], replies, rfl, fun chunk hchunk => ?_, absurd rfl, .inl ⟨rfl, course⟩⟩
      exact absurd hchunk List.not_mem_nil
  | cons piece more ih =>
      rw [List.flatten_cons, List.length_append, ← Nat.add_assoc] at fits
      have hfits : (total + piece.length : Nat) ≤ limit := by omega
      rw [pieceWalk, checkSize_of_le hfits] at course
      cases course with
      | chunk answer course =>
        have hsingle : ∀ chunk ∈ [(⟨path, piece, answer⟩ : Chunk)], chunk.path = path :=
          fun chunk hchunk => by rw [List.mem_singleton.1 hchunk]
        cases answer with
        | error e =>
            cases course
            refine ⟨[_], [], rfl, hsingle, fun _ => List.cons_ne_nil _ _, follows_of_closes more ?_
              fun files => .failed path piece e⟩
            intro hanswer
            cases hanswer
        | ok stop =>
            cases stop with
            | true =>
                cases course
                refine ⟨[_], [], rfl, hsingle, fun _ => List.cons_ne_nil _ _,
                  follows_of_closes more ?_ fun files => .stopped path piece⟩
                intro hanswer
                cases hanswer
            | false =>
                obtain ⟨chunks, later, hreplies, hown, -, hfollows⟩ := ih fits course
                exact ⟨⟨path, piece, .ok false⟩ :: chunks, later, by rw [hreplies]; rfl,
                  List.forall_mem_cons.2 ⟨rfl, hown⟩, fun _ => List.cons_ne_nil _ _,
                  hfollows.cons ⟨path, piece, .ok false⟩⟩

theorem isHandedOver_of_pieces {path : String} {data : List UInt8} {limit : Int}
    {chunks : List Chunk} (fits : data.length ≤ limit) (own : ∀ chunk ∈ chunks, chunk.path = path)
    (told : piecesOf (readSize - 1) data ≠ [] → chunks ≠ [])
    (inOrder : chunks.map Chunk.data <+: piecesOf (readSize - 1) data)
    (whole : (∀ chunk ∈ chunks, chunk.answer = .ok false) →
      chunks.map Chunk.data = piecesOf (readSize - 1) data) :
    IsHandedOver path data limit chunks := by
  have hflat : ∀ chunks : List Chunk, chunks.flatMap Chunk.data = (chunks.map Chunk.data).flatten :=
    fun chunks => List.flatMap_def
  have hprefix : chunks.flatMap Chunk.data <+: data := by
    obtain ⟨later, hlater⟩ := inOrder
    refine ⟨later.flatten, ?_⟩
    rw [hflat, ← List.flatten_append, hlater, flatten_piecesOf]
  refine ⟨own, fun chunk hchunk => ?_, ?_, hprefix, ?_, fun hanswers => ?_⟩
  · have hpiece := inOrder.subset (List.mem_map_of_mem hchunk)
    exact ⟨ne_nil_of_mem_piecesOf _ hpiece, length_le_of_mem_piecesOf _ hpiece⟩
  · constructor
    · rintro hchunks rfl
      rw [piecesOf] at inOrder
      exact hchunks (List.map_eq_nil_iff.1 (List.prefix_nil.1 inOrder))
    · intro hdata
      refine told fun hnone => hdata ?_
      rw [← flatten_piecesOf (readSize - 1) data, hnone, List.flatten_nil]
  · exact (Int.ofNat_le.2 hprefix.length_le).trans fits
  · rw [hflat, whole hanswers, flatten_piecesOf]

/-! ### All files -/

theorem checkSize_of_lt {path : String} {size : Nat} {limit : Int} (larger : limit < size) :
    checkSize path size limit = .error (.fileTooBig path size limit) :=
  if_neg (Int.not_le.2 larger)

section First

variable {file : Path × List UInt8} {rest : List (Path × List UInt8)}
  {result : Except FetchError Unit}

theorem exists_reply_of_offered {replies : List Reply}
    (course : (fileWalk (offered (file :: rest))).Course replies result) :
    ∃ answer later, replies = .entry (pathText file.1) answer :: later := by
  cases course with
  | entry answer course => exact ⟨answer, _, rfl⟩

theorem course_of_take {path : String} {limit : Int} {after : List Reply}
    (course : (fileWalk (offered (file :: rest))).Course
      (.entry path (.ok (.take limit)) :: after) result) :
    (file.2.length ≤ limit ∧ ∃ chunks later, after = chunks.map .chunk ++ later ∧
        (∀ chunk ∈ chunks, chunk.path = pathText file.1) ∧
        (piecesOf (readSize - 1) file.2 ≠ [] → chunks ≠ []) ∧
        Follows (fileWalk (offered rest)) result (piecesOf (readSize - 1) file.2) chunks later) ∨
      (limit < file.2.length ∧ after = [] ∧
        result = .error (.fileTooBig (pathText file.1) file.2.length limit)) := by
  cases course with
  | entry _ course =>
    dsimp only [Content.ofBytes] at course
    by_cases hfits : (file.2.length : Int) ≤ limit
    · rw [checkSize_of_le hfits] at course
      have htotal : (0 + (piecesOf (readSize - 1) file.2).flatten.length : Nat) ≤ limit := by
        rwa [flatten_piecesOf, Nat.zero_add]
      exact .inl ⟨hfits, course_pieceWalk htotal course⟩
    · have hlarger := Int.not_le.1 hfits
      rw [checkSize_of_lt hlarger] at course
      cases course
      exact .inr ⟨hlarger, rfl, rfl⟩

end First

/-- A walk of files hands nothing over before it has offered a file. -/
theorem chunksAhead_fileWalk {files : List (String × Content)} {replies : List Reply}
    {result : Except FetchError Unit} (course : (fileWalk files).Course replies result) :
    chunksAhead replies = [] := by
  cases files with
  | nil =>
      cases course
      rfl
  | cons file rest =>
      cases course
      rfl

theorem exists_offer_behind {chunks : List Chunk} {later before after : List Reply} {path : String}
    {answer : Except FetchError Decision}
    (h : chunks.map .chunk ++ later = before ++ .entry path answer :: after) :
    ∃ between, later = between ++ .entry path answer :: after := by
  induction chunks generalizing before with
  | nil => exact ⟨before, h⟩
  | cons chunk more ih =>
      cases before with
      | nil => cases h
      | cons reply before => exact ih (List.cons.inj h).2

section Cons

variable {file : Path × List UInt8} {rest : List (Path × List UInt8)}
  {answer : Except FetchError Decision} {later : List Reply} {result : Except FetchError Unit}
  (distinct : ((file :: rest).map fun file => pathText file.1).Nodup) (chunks : List Chunk)
  (first : ∀ limit : Int, answer = .ok (.take limit) → file.2.length ≤ limit →
    IsHandedOver (pathText file.1) file.2 limit chunks)

include distinct first

theorem TakenFollow.cons (taken : TakenFollow rest later) (ahead : chunksAhead later = [])
    (entered : enteredPaths later ⊆ rest.map fun file => pathText file.1) :
    TakenFollow (file :: rest) (.entry (pathText file.1) answer :: (chunks.map .chunk ++ later)) := by
  have hfirst : ∀ other ∈ rest, pathText other.1 ≠ pathText file.1 := fun other hother hsame =>
    (List.nodup_cons.1 distinct).1 (List.mem_map.2 ⟨other, hother, hsame⟩)
  intro before path limit after hreplies other hother hpath hfits
  cases before with
  | nil =>
      obtain ⟨hentry, rfl⟩ := List.cons.inj hreplies
      obtain ⟨rfl, hanswer⟩ := Reply.entry.inj hentry
      rcases List.mem_cons.1 hother with rfl | hlater
      · rw [chunksAhead_append, ahead, List.append_nil]
        exact first limit hanswer hfits
      · exact absurd hpath (hfirst other hlater)
  | cons reply before =>
      -- The offer lies behind the chunks of the first file, which is not offered there again.
      obtain ⟨between, hlater⟩ := exists_offer_behind (List.cons.inj hreplies).2
      rcases List.mem_cons.1 hother with rfl | hmem
      · have hoffered : path ∈ enteredPaths later := by
          rw [hlater, enteredPaths_append]
          exact List.mem_append_right _ List.mem_cons_self
        obtain ⟨same, hsame, htext⟩ := List.mem_map.1 (entered hoffered)
        exact absurd (htext.trans hpath.symm) (hfirst same hsame)
      · exact taken between path limit after hlater other hmem hpath hfits

theorem isHandover_of_closes
    (closes : ∃ last ∈ (Reply.entry (pathText file.1) answer :: chunks.map .chunk).getLast?,
      Closes (file :: rest) last result) :
    IsHandover (file :: rest) (.entry (pathText file.1) answer :: chunks.map .chunk) result where
  entered := by
    have hentered := enteredPaths_entry (pathText file.1) answer (chunks.map .chunk)
    rw [enteredPaths_chunks] at hentered
    rw [hentered, List.map_cons, List.prefix_cons_inj]
    exact List.nil_prefix
  complete := .inr closes
  taken := by
    have hnone : TakenFollow rest [] := by
      intro before path limit after h
      simp at h
    have htaken := hnone.cons distinct chunks first rfl (List.nil_subset _)
    rwa [List.append_nil] at htaken

theorem IsHandover.cons (handover : IsHandover rest later result) (ahead : chunksAhead later = []) :
    IsHandover (file :: rest) (.entry (pathText file.1) answer :: (chunks.map .chunk ++ later))
      result where
  entered := by
    rw [enteredPaths_entry, enteredPaths_append, enteredPaths_chunks, List.nil_append, List.map_cons,
      List.prefix_cons_inj]
    exact handover.entered
  complete := by
    rcases handover.complete with ⟨hall, hresult⟩ | ⟨last, hlast, hcloses⟩
    · refine .inl ⟨?_, hresult⟩
      rw [enteredPaths_entry, enteredPaths_append, enteredPaths_chunks, List.nil_append, hall,
        List.map_cons]
    · refine .inr ⟨last, ?_, hcloses.of_tail⟩
      rw [← List.cons_append, List.getLast?_append, hlast]
      rfl
  taken := handover.taken.cons distinct chunks first ahead handover.entered.subset

end Cons

theorem isHandover_of_taken {file : Path × List UInt8} {rest : List (Path × List UInt8)}
    {limit : Int} {replies : List Reply} {result : Except FetchError Unit}
    (distinct : ((file :: rest).map fun file => pathText file.1).Nodup)
    (ih : ∀ {later}, (fileWalk (offered rest)).Course later result → IsHandover rest later result)
    (course : (fileWalk (offered (file :: rest))).Course
      (.entry (pathText file.1) (.ok (.take limit)) :: replies) result) :
    IsHandover (file :: rest) (.entry (pathText file.1) (.ok (.take limit)) :: replies) result := by
  rcases course_of_take course with
    ⟨hfits, chunks, later, rfl, hown, htold, hend⟩ | ⟨hlarger, rfl, rfl⟩
  · rcases hend with ⟨hall, hcourse⟩ | ⟨hsome, rfl, last, hlast, hanswer, hcloses⟩
    · refine (ih hcourse).cons distinct chunks ?_ (chunksAhead_fileWalk hcourse)
      rintro _ ⟨⟩ -
      exact isHandedOver_of_pieces hfits hown htold ⟨[], (List.append_nil _).trans hall⟩
        fun _ => hall
    · rw [List.append_nil]
      refine isHandover_of_closes distinct chunks ?_ ⟨.chunk last, ?_, hcloses _⟩
      · rintro _ ⟨⟩ -
        exact isHandedOver_of_pieces hfits hown htold hsome fun hanswers =>
          absurd (hanswers last (List.mem_of_getLast? hlast)) hanswer
      · rw [List.getLast?_cons, List.getLast?_map, hlast]
        rfl
  · refine isHandover_of_closes distinct [] ?_ ⟨_, rfl, .tooBig List.mem_cons_self hlarger⟩
    rintro _ ⟨⟩ hsmall
    exact absurd hsmall (Int.not_le.2 hlarger)

theorem isHandover_fileWalk {files : List (Path × List UInt8)}
    (distinct : (files.map fun file => pathText file.1).Nodup) {replies : List Reply}
    {result : Except FetchError Unit} (course : (fileWalk (offered files)).Course replies result) :
    IsHandover files replies result := by
  induction files generalizing replies with
  | nil =>
      cases course
      exact ⟨List.nil_prefix, .inl ⟨rfl, rfl⟩, fun _ _ _ _ _ _ h => absurd h List.not_mem_nil⟩
  | cons file rest ih =>
      have hrest := (List.nodup_cons.1 distinct).2
      obtain ⟨answer, replies, rfl⟩ := exists_reply_of_offered course
      rcases answer with e | _ | limit
      · cases course with
        | entry _ course =>
          cases course
          refine isHandover_of_closes distinct [] ?_ ⟨_, rfl, .refused _ e⟩
          intro limit hanswer
          cases hanswer
      · cases course with
        | entry _ course =>
          refine (ih hrest course).cons distinct [] ?_ (chunksAhead_fileWalk course)
          intro limit hanswer
          cases hanswer
      · exact isHandover_of_taken distinct (ih hrest) course

/-- A walk of a directory hands over the files of its listing, whoever is shown the walk. -/
theorem visit_hands_over {root tree : Node} {repository : Repository} {revision directory : String}
    (snapshot : IsSnapshot root repository revision tree) (inside : leaves directory = false)
    {entries : List (String × Node)}
    (leads : tree.at? (namesOf directory) = some (.directory entries)) (recursive : Bool)
    {σ : Type} (visitor : Visitor (StateM σ)) (s : σ) :
    ∃ files, IsListing tree (namesOf directory) recursive files ∧
      IsHandover files
        (visitor.watch (visit root.find? repository revision directory recursive) s).1
        (visitor.watch (visit root.find? repository revision directory recursive) s).2 := by
  refine ⟨_, isListing_filesBelow snapshot.plain leads recursive, ?_⟩
  refine isHandover_fileWalk ?_ ?_
  · have hascending := ascending_filesBelow snapshot.plain leads recursive
    refine List.pairwise_map.2 (hascending.imp fun {a b} hless hsame => ?_)
    rw [pathBytes, hsame] at hless
    exact List.lt_irrefl _ hless
  · rw [← visit_eq_fileWalk snapshot inside leads recursive]
    exact visitor.course_watch _ s

namespace Single

def tree (data : List UInt8) : Node := .directory [("a.yaml", .file (.ofBytes data))]

def root (data : List UInt8) : Node := .directory [("default", .directory [("sample.git", .directory
  [("trees", .directory [("c1", tree data)])])])]

def repository : Repository := ⟨"default", "sample.git", "", ""⟩

def taker : Visitor (StateM Unit) where
  entry _ := pure (.take 10)
  chunk _ _ := pure false

theorem isSnapshot (data : List UInt8) : IsSnapshot (root data) repository "c1" (tree data) where
  lies := ⟨["default", "sample.git", "trees", "c1"], by cbv, by cbv⟩
  plain := by
    have hname : IsFileName "a.yaml" := by decide
    simp [tree, Node.IsPlain, Node.ArePlain, hname, Content.ofBytes]

end Single

/-- A file with something in it is told of. -/
theorem visit_hands_over_single :
    leaves topName = false ∧
      ∃ files, IsListing (Single.tree [97]) (namesOf topName) true files ∧
        IsHandover files [.entry "a.yaml" (.ok (.take 10)), .chunk ⟨"a.yaml", [97], .ok false⟩]
          (.ok ()) := by
  have hleads : (Single.tree [97]).at? (namesOf topName) =
      some (.directory [("a.yaml", .file (.ofBytes [97]))]) := by cbv
  obtain ⟨files, hlisting, hands⟩ := visit_hands_over (Single.isSnapshot [97]) (by cbv) hleads true
    Single.taker ()
  have hwatch : Single.taker.watch (visit (Single.root [97]).find? Single.repository "c1" topName true)
      () = ([.entry "a.yaml" (.ok (.take 10)), .chunk ⟨"a.yaml", [97], .ok false⟩], .ok ()) := by cbv
  rw [hwatch] at hands
  exact ⟨by cbv, files, hlisting, hands⟩

/-- Of a file with nothing in it, a visitor that takes it is not told again. -/
theorem visit_leaves_out_empty :
    IsSnapshot (Single.root []) Single.repository "c1" (Single.tree []) ∧
      leaves topName = false ∧
      (Single.tree []).at? (namesOf topName) =
        some (.directory [("a.yaml", .file (.ofBytes []))]) ∧
      Single.taker.watch (visit (Single.root []).find? Single.repository "c1" topName true) () =
        ([.entry "a.yaml" (.ok (.take 10))], .ok ()) ∧
      ¬ ∀ before path limit after, [Reply.entry "a.yaml" (.ok (.take 10))] =
        before ++ .entry path (.ok (.take limit)) :: after → chunksAhead after ≠ [] := by
  refine ⟨Single.isSnapshot [], by cbv, by cbv, by cbv, fun told => ?_⟩
  exact told [] "a.yaml" 10 [] rfl rfl

end ManifestRelay.Snapshot
