import ManifestRelay.Text.Utf8

/-!
# The order of bytes

Texts in the order of their characters are in the order of their bytes: where
two texts differ first, the bytes of the lesser character differ first from
those of the greater one in a byte that is less.
-/

namespace ManifestRelay.Text.Utf8

/-- Of two lists of bytes the first is less where they differ first, and neither begins with the
other. -/
inductive Below : List UInt8 → List UInt8 → Prop where
  | here {a b : UInt8} {s t : List UInt8} (less : a < b) : Below (a :: s) (b :: t)
  | later {a : UInt8} {s t : List UInt8} (below : Below s t) : Below (a :: s) (a :: t)

namespace Below

theorem append {s t : List UInt8} (below : Below s t) (u v : List UInt8) : s ++ u < t ++ v := by
  induction below with
  | here less => exact List.cons_lt_cons_iff.2 (.inl less)
  | later _ ih => exact List.cons_lt_cons_iff.2 (.inr ⟨rfl, ih⟩)

theorem ofNat {m n : Nat} {s t : List UInt8} (size : n < 256) (le : m ≤ n)
    (rest : m = n → Below s t) : Below (UInt8.ofNat m :: s) (UInt8.ofNat n :: t) := by
  rcases Nat.lt_or_eq_of_le le with hless | rfl
  · refine .here (UInt8.lt_iff_toNat_lt.2 ?_)
    rw [UInt8.toNat_ofNat', UInt8.toNat_ofNat']
    omega
  · exact .later (rest rfl)

theorem ofNat_lt {m n : Nat} {s t : List UInt8} (size : n < 256) (less : m < n) :
    Below (UInt8.ofNat m :: s) (UInt8.ofNat n :: t) :=
  ofNat size (Nat.le_of_lt less) fun same => absurd same (Nat.ne_of_lt less)

/-! Bytes that continue a character are in the order of the bits they add. -/

variable {m n : Nat}

theorem lastTail (h : m % 64 < n % 64) :
    Below [UInt8.ofNat (0x80 + m % 64)] [UInt8.ofNat (0x80 + n % 64)] :=
  ofNat_lt (by omega) (by omega)

theorem lastTwoTails (h : m % 4096 < n % 4096) :
    Below [UInt8.ofNat (0x80 + m / 64 % 64), UInt8.ofNat (0x80 + m % 64)]
      [UInt8.ofNat (0x80 + n / 64 % 64), UInt8.ofNat (0x80 + n % 64)] :=
  ofNat (by omega) (by omega) fun _ => lastTail (by omega)

theorem lastThreeTails (h : m % 262144 < n % 262144) :
    Below [UInt8.ofNat (0x80 + m / 4096 % 64), UInt8.ofNat (0x80 + m / 64 % 64),
        UInt8.ofNat (0x80 + m % 64)]
      [UInt8.ofNat (0x80 + n / 4096 % 64), UInt8.ofNat (0x80 + n / 64 % 64),
        UInt8.ofNat (0x80 + n % 64)] :=
  ofNat (by omega) (by omega) fun _ => lastTwoTails (by omega)

end Below

theorem below_encodeChar {c d : Char} (h : c < d) : Below (encodeChar c) (encodeChar d) := by
  have hless : c.toNat < d.toNat := h
  have hsize : d.toNat < 0x110000 := by
    rcases d.valid with hlow | ⟨-, hhigh⟩
    · exact Nat.lt_trans hlow (by decide)
    · exact hhigh
  unfold encodeChar
  generalize c.toNat = m at hless
  generalize d.toNat = n at hless hsize
  dsimp only
  by_cases hone : m < 0x80
  · rw [if_pos hone]
    split
    · exact .ofNat_lt (by omega) hless
    · split
      · exact .ofNat_lt (by omega) (by omega)
      · split <;> exact .ofNat_lt (by omega) (by omega)
  rw [if_neg hone, if_neg (by omega : ¬ n < 0x80)]
  by_cases htwo : m < 0x800
  · rw [if_pos htwo]
    split
    · exact .ofNat (by omega) (by omega) fun _ => .lastTail (by omega)
    · split <;> exact .ofNat_lt (by omega) (by omega)
  rw [if_neg htwo, if_neg (by omega : ¬ n < 0x800)]
  by_cases hthree : m < 0x10000
  · rw [if_pos hthree]
    split
    · exact .ofNat (by omega) (by omega) fun _ => .lastTwoTails (by omega)
    · exact .ofNat_lt (by omega) (by omega)
  rw [if_neg hthree, if_neg (by omega : ¬ n < 0x10000)]
  exact .ofNat (by omega) (by omega) fun _ => .lastThreeTails (by omega)

theorem encodeChar_ne_nil (c : Char) : encodeChar c ≠ [] := by
  unfold encodeChar
  extract_lets n
  split
  · exact List.cons_ne_nil _ _
  · split
    · exact List.cons_ne_nil _ _
    · split <;> exact List.cons_ne_nil _ _

/-- The bytes of texts are in the order of the texts. -/
theorem encode_lt_encode {a b : List Char} (h : a < b) : encode a < encode b := by
  induction a generalizing b with
  | nil =>
      cases b with
      | nil => exact absurd h (List.lt_irrefl [])
      | cons d rest =>
          rw [encode, encode, List.flatMap_nil, List.flatMap_cons]
          obtain ⟨byte, more, hbytes⟩ := List.exists_cons_of_ne_nil (encodeChar_ne_nil d)
          rw [hbytes]
          exact List.nil_lt_cons _ _
  | cons c first ih =>
      cases b with
      | nil => exact absurd h (List.not_lt_nil _)
      | cons d second =>
          rw [encode, encode, List.flatMap_cons, List.flatMap_cons]
          rcases List.cons_lt_cons_iff.1 h with hless | ⟨rfl, hrest⟩
          · exact (below_encodeChar hless).append _ _
          · exact List.append_left_lt (ih hrest)

end ManifestRelay.Text.Utf8
