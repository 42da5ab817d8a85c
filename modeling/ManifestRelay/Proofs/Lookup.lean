import Mathlib.Data.List.Nodup

/-!
# Looking names up

In a list of names and what they stand for, the first entry of a name counts.  If no
name has two entries, every entry counts.
-/

namespace ManifestRelay

variable {α β : Type} [DecidableEq α] {entries : List (α × β)} {name : α} {value : β}

theorem mem_of_lookup_eq_some (h : entries.lookup name = some value) : (name, value) ∈ entries := by
  obtain ⟨before, after, rfl, -⟩ := List.lookup_eq_some_iff.1 h
  exact List.mem_append_right before List.mem_cons_self

/-- What is found under a name is what stands beside the name, if no other entry has it. -/
theorem lookup_eq_some_iff_mem (distinct : (entries.map Prod.fst).Nodup) :
    entries.lookup name = some value ↔ (name, value) ∈ entries := by
  constructor
  · exact mem_of_lookup_eq_some
  · intro h
    obtain ⟨before, after, rfl⟩ := List.append_of_mem h
    refine List.lookup_eq_some_iff.2 ⟨before, after, rfl, fun entry hentry => ?_⟩
    rw [List.map_append, List.nodup_append] at distinct
    rw [bne_iff_ne]
    exact (distinct.2.2 entry.1 (List.mem_map_of_mem hentry) name (by simp)).symm

theorem lookup_filter {kept : α × β → Bool} (found : entries.lookup name = some value)
    (stays : kept (name, value) = true) : (entries.filter kept).lookup name = some value := by
  induction entries with
  | nil => cases found
  | cons entry rest ih =>
      obtain ⟨other, first⟩ := entry
      rw [List.lookup_cons] at found
      cases hname : name == other with
      | true =>
          rw [hname] at found
          obtain rfl := eq_of_beq hname
          obtain rfl := Option.some.inj found
          rw [List.filter_cons_of_pos stays, List.lookup_cons_self]
      | false =>
          rw [hname] at found
          rw [List.filter_cons]
          split
          · rw [List.lookup_cons, hname]
            exact ih found
          · exact ih found

end ManifestRelay
