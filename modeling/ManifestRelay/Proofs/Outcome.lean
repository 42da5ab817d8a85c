/-!
# Computations that succeed

A computation made of parts succeeds exactly if its parts do; what they yield
can then be named.
-/

namespace ManifestRelay.Outcome

variable {ε α β : Type}

theorem ok_bind (a : α) (f : α → Except ε β) : (Except.ok a >>= f) = f a := rfl

theorem error_bind (e : ε) (f : α → Except ε β) : (Except.error e >>= f) = .error e := rfl

theorem map_eq_ok {f : α → β} {x : Except ε α} {b : β} :
    x.map f = .ok b ↔ ∃ a, x = .ok a ∧ f a = b := by
  cases x <;> simp [Except.map]

theorem bind_eq_ok {x : Except ε α} {f : α → Except ε β} {b : β} :
    (x >>= f) = .ok b ↔ ∃ a, x = .ok a ∧ f a = .ok b := by
  cases x <;> simp [bind, Except.bind]

theorem mapError_eq_ok {ε' : Type} {f : ε → ε'} {x : Except ε α} {a : α} :
    x.mapError f = .ok a ↔ x = .ok a := by
  cases x with
  | ok b =>
      constructor
      · intro h
        cases h
        rfl
      · intro h
        cases h
        rfl
  | error e =>
      constructor
      · intro h
        cases h
      · intro h
        cases h

/-- A step carried out for every member of a list succeeds for each of them and yields what the
steps yield. -/
theorem mapM_eq_ok {f : α → Except ε β} {as : List α} {bs : List β} (h : as.mapM f = .ok bs) :
    (∀ a ∈ as, ∃ b, f a = .ok b) ∧ ∀ b, b ∈ bs ↔ ∃ a ∈ as, f a = .ok b := by
  induction as generalizing bs with
  | nil =>
      cases h
      exact ⟨nofun, by simp⟩
  | cons a rest ih =>
      rw [List.mapM_cons] at h
      obtain ⟨first, hfirst, hmore⟩ := bind_eq_ok.1 h
      obtain ⟨more, hrest, heq⟩ := bind_eq_ok.1 hmore
      cases heq
      obtain ⟨hall, hmem⟩ := ih hrest
      refine ⟨List.forall_mem_cons.2 ⟨⟨first, hfirst⟩, hall⟩, fun b => ?_⟩
      rw [List.mem_cons, hmem]
      simp [hfirst, eq_comm]

end ManifestRelay.Outcome
