import ManifestRelay.Text.Utf8

/-!
# Reading back what was written

Whatever text is written as bytes is read back from them: a character of each length is read as
the number that its bytes were made of, and reading goes on behind it.
-/

namespace ManifestRelay.Text.Utf8

/-- A byte that continues a character, by the bits that it adds. -/
theorem isTail_of_toNat {b : UInt8} {bits : Nat} (h : b.toNat = 0x80 + bits) (small : bits < 64) :
    isTail b = true ∧ tailBits b = bits := by
  simp only [isTail, tailBits, Bool.and_eq_true, decide_eq_true_eq, UInt8.le_iff_toNat_le,
    UInt8.lt_iff_toNat_lt, h, UInt8.toNat_ofNat]
  omega

section OneCharacter

variable (index : Nat) (done : List Char) (rest : List UInt8) {a b c d : UInt8} {n : Nat}

theorem decodeFrom_one (ha : a.toNat = n) (small : n < 0x80) :
    decodeFrom index done (a :: rest) = decodeFrom (index + 1) (Char.ofNat n :: done) rest := by
  have hone : a < 0x80 := UInt8.lt_iff_toNat_lt.2 (ha ▸ small)
  rw [decodeFrom.eq_def]
  simp only [hone, if_true, ha]

theorem decodeFrom_two (ha : a.toNat = 0xC0 + n / 64) (hb : b.toNat = 0x80 + n % 64)
    (large : 0x80 ≤ n) (small : n < 0x800) :
    decodeFrom index done (a :: b :: rest) =
      decodeFrom (index + 2) (Char.ofNat n :: done) rest := by
  obtain ⟨htail, hbits⟩ := isTail_of_toNat hb (by omega)
  have hlead : ¬ a < 0x80 ∧ ¬ (a < 0xC2 ∨ 0xF4 < a) ∧ a < 0xE0 := by
    simp only [UInt8.lt_iff_toNat_lt, ha, UInt8.toNat_ofNat]
    omega
  have hvalue : a.toNat % 32 * 64 + n % 64 = n := by omega
  rw [decodeFrom.eq_def]
  simp [hlead, htail, hbits, hvalue]

theorem decodeFrom_three (ha : a.toNat = 0xE0 + n / 4096) (hb : b.toNat = 0x80 + n / 64 % 64)
    (hc : c.toNat = 0x80 + n % 64) (large : 0x800 ≤ n) (small : n < 0x10000)
    (plain : n < 0xD800 ∨ 0xDFFF < n) :
    decodeFrom index done (a :: b :: c :: rest) =
      decodeFrom (index + 3) (Char.ofNat n :: done) rest := by
  obtain ⟨htail, hbits⟩ := isTail_of_toNat hc (by omega)
  obtain ⟨htailb, hbitsb⟩ := isTail_of_toNat hb (by omega)
  have hlead : ¬ a < 0x80 ∧ ¬ (a < 0xC2 ∨ 0xF4 < a) ∧ ¬ a < 0xE0 ∧ a < 0xF0 := by
    simp only [UInt8.lt_iff_toNat_lt, ha, UInt8.toNat_ofNat]
    omega
  have hsecond : second3 a b = true := by
    simp only [second3, UInt8.lt_iff_toNat_lt, UInt8.le_iff_toNat_le, ← UInt8.toNat_inj, ha, hb,
      htailb, UInt8.toNat_ofNat]
    split
    · simp; omega
    · split
      · simp; omega
      · rfl
  have hvalue : a.toNat % 16 * 4096 + n / 64 % 64 * 64 + n % 64 = n := by omega
  rw [decodeFrom.eq_def]
  simp [hlead, hsecond, htail, hbits, hbitsb, hvalue]

theorem decodeFrom_four (ha : a.toNat = 0xF0 + n / 262144) (hb : b.toNat = 0x80 + n / 4096 % 64)
    (hc : c.toNat = 0x80 + n / 64 % 64) (hd : d.toNat = 0x80 + n % 64) (large : 0x10000 ≤ n)
    (small : n < 0x110000) :
    decodeFrom index done (a :: b :: c :: d :: rest) =
      decodeFrom (index + 4) (Char.ofNat n :: done) rest := by
  obtain ⟨htaild, hbitsd⟩ := isTail_of_toNat hd (by omega)
  obtain ⟨htailc, hbitsc⟩ := isTail_of_toNat hc (by omega)
  obtain ⟨htailb, hbitsb⟩ := isTail_of_toNat hb (by omega)
  have hlead : ¬ a < 0x80 ∧ ¬ (a < 0xC2 ∨ 0xF4 < a) ∧ ¬ a < 0xE0 ∧ ¬ a < 0xF0 := by
    simp only [UInt8.lt_iff_toNat_lt, ha, UInt8.toNat_ofNat]
    omega
  have hsecond : second4 a b = true := by
    simp only [second4, UInt8.lt_iff_toNat_lt, UInt8.le_iff_toNat_le, ← UInt8.toNat_inj, ha, hb,
      htailb, UInt8.toNat_ofNat]
    split
    · simp; omega
    · split
      · simp; omega
      · rfl
  have hvalue : a.toNat % 8 * 262144 + n / 4096 % 64 * 4096 + n / 64 % 64 * 64 + n % 64 = n := by
    omega
  rw [decodeFrom.eq_def]
  simp [hlead, hsecond, htailc, htaild, hbitsb, hbitsc, hbitsd, hvalue]

end OneCharacter

/-- One character is read, and reading goes on behind it. -/
theorem decodeFrom_encodeChar (index : Nat) (done : List Char) (c : Char) (rest : List UInt8) :
    decodeFrom index done (encodeChar c ++ rest) =
      decodeFrom (index + (encodeChar c).length) (c :: done) rest := by
  have hbyte : ∀ {m : Nat}, m < 256 → (UInt8.ofNat m).toNat = m := UInt8.toNat_ofNat_of_lt'
  have hplain : c.toNat < 0xD800 ∨ 0xDFFF < c.toNat ∧ c.toNat < 0x110000 := c.valid
  have hchar : Char.ofNat c.toNat = c := Char.ofNat_toNat c
  unfold encodeChar
  generalize c.toNat = n at hplain hchar
  subst hchar
  dsimp only
  by_cases hone : n < 0x80
  · rw [if_pos hone]
    exact decodeFrom_one index done rest (hbyte (by omega)) hone
  rw [if_neg hone]
  by_cases htwo : n < 0x800
  · rw [if_pos htwo]
    exact decodeFrom_two index done rest (hbyte (by omega)) (hbyte (by omega)) (by omega) htwo
  rw [if_neg htwo]
  by_cases hthree : n < 0x10000
  · rw [if_pos hthree]
    exact decodeFrom_three index done rest (hbyte (by omega)) (hbyte (by omega))
      (hbyte (by omega)) (by omega) hthree (by omega)
  rw [if_neg hthree]
  exact decodeFrom_four index done rest (hbyte (by omega)) (hbyte (by omega)) (hbyte (by omega))
    (hbyte (by omega)) (by omega) (by omega)

theorem decodeFrom_encode (index : Nat) (done text : List Char) :
    decodeFrom index done (encode text) = .ok (done.reverse ++ text) := by
  induction text generalizing index done with
  | nil => rw [encode, List.flatMap_nil, decodeFrom, List.append_nil]
  | cons c rest ih =>
      rw [encode, List.flatMap_cons, decodeFrom_encodeChar]
      exact (ih _ _).trans (by simp)

theorem decode?_encode (text : List Char) : decode? (encode text) = some text := by
  rw [decode?, decode, decodeFrom_encode]
  rfl

end ManifestRelay.Text.Utf8
