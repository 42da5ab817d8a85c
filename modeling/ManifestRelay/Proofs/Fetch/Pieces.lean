import ManifestRelay.Fetch.Visitor

/-!
# Pieces of files

A list is cut into pieces none of which is empty, all of one length but the
last, which may be shorter; put together again they are the list.  A list that
fits into one piece is left in one, so cutting pieces again into pieces that
are no smaller changes nothing.  The pieces are those that come of filling a buffer
over and over, however many reads it takes to fill it.
-/

namespace ManifestRelay.Fetch

variable {α : Type} (size : Nat)

theorem flatten_piecesOf (data : List α) : (piecesOf size data).flatten = data := by
  fun_induction piecesOf size data with
  | case1 => rfl
  | case2 a rest ih =>
      rw [List.flatten_cons, ih, List.cons_append, List.take_append_drop]

theorem ne_nil_of_mem_piecesOf {data piece : List α} (h : piece ∈ piecesOf size data) :
    piece ≠ [] := by
  fun_induction piecesOf size data with
  | case1 => cases h
  | case2 a rest ih =>
      rcases List.mem_cons.1 h with rfl | hlater
      · exact List.cons_ne_nil a _
      · exact ih hlater

theorem length_le_of_mem_piecesOf {data piece : List α} (h : piece ∈ piecesOf size data) :
    piece.length ≤ size + 1 := by
  fun_induction piecesOf size data with
  | case1 => cases h
  | case2 a rest ih =>
      rcases List.mem_cons.1 h with rfl | hlater
      · rw [List.length_cons, List.length_take]
        omega
      · exact ih hlater

theorem piecesOf_of_length_le {data : List α} (nonempty : data ≠ [])
    (fits : data.length ≤ size + 1) : piecesOf size data = [data] := by
  cases data with
  | nil => exact absurd rfl nonempty
  | cons a rest =>
      have hrest : rest.length ≤ size := Nat.le_of_succ_le_succ fits
      rw [piecesOf, List.take_of_length_le hrest, List.drop_of_length_le hrest, piecesOf]

theorem length_of_mem_dropLast_piecesOf {data piece : List α}
    (h : piece ∈ (piecesOf size data).dropLast) : piece.length = size + 1 := by
  fun_induction piecesOf size data with
  | case1 => cases h
  | case2 a rest ih =>
      cases hlater : piecesOf size (rest.drop size) with
      | nil =>
          rw [hlater] at h
          cases h
      | cons next pieces =>
          rw [hlater, List.dropLast_cons_cons] at h
          rcases List.mem_cons.1 h with rfl | hmem
          · have hlonger : rest.drop size ≠ [] := by
              intro hnil
              rw [hnil, piecesOf] at hlater
              cases hlater
            have hlength := List.length_pos_iff.2 hlonger
            rw [List.length_drop] at hlength
            rw [List.length_cons, List.length_take]
            omega
          · rw [hlater] at ih
            exact ih hmem

/-! ### Reads that fill a buffer -/

/-- Reads fill a buffer until there is no room in it or nothing is left to read; they got this and
left this. -/
inductive Fills : (room : Nat) → (data got left : List α) → Prop where
  | full (data : List α) : Fills 0 data [] data
  | ended (room : Nat) : Fills room [] [] []
  | read {room : Nat} {part data got left : List α} (some : part ≠ [])
      (rest : Fills room data got left) :
      Fills (part.length + room) (part ++ data) (part ++ got) left

/-- Data is read by filling a buffer over and over until nothing comes. -/
inductive IsStreamed (room : Nat) : (data : List α) → (pieces : List (List α)) → Prop where
  | ended {data left : List α} (nothing : Fills room data [] left) : IsStreamed room data []
  | piece {data got left : List α} {pieces : List (List α)} (filled : Fills room data got left)
      (some : got ≠ []) (rest : IsStreamed room left pieces) : IsStreamed room data (got :: pieces)

end ManifestRelay.Fetch
