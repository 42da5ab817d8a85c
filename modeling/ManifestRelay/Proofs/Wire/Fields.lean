import ManifestRelay.Wire.Message

/-!
# Fields are read back

A number is read back from its digits whatever comes behind it, if it has no more than 64 bits; so
is a field whose value is a sequence of bytes, and so are all the fields of a message.  How deep
a message lies in others makes no difference, as what is written has no groups.
-/

namespace ManifestRelay.Wire

/-! ## Numbers -/

theorem toNat_ofNat {n : Nat} (h : n < 256) : (UInt8.ofNat n).toNat = n :=
  UInt8.toNat_ofNat_of_lt' h

theorem patterns_64 : Binary.patterns 64 = 2 * Nat.pow 128 9 := rfl

/-- Digits are read as what they are worth at their position. -/
theorem readDigits_writeVarint (n position read : Nat) (rest : List UInt8)
    (fits : n * Nat.pow 128 position < Binary.patterns 64) :
    readDigits position read (writeVarint n ++ rest) =
      some (read + n * Nat.pow 128 position, rest) := by
  induction n using writeVarint.induct generalizing position read with
  | case1 n small =>
      have hvalue : (UInt8.ofNat n).toNat = n := toNat_ofNat (by omega)
      have hlast : UInt8.ofNat n < 128 := UInt8.lt_iff_toNat_lt.2 (by rw [hvalue]; exact small)
      have hroom : ¬ (position = 9 ∧ 2 ≤ UInt8.ofNat n) := by
        rintro ⟨rfl, hlarge⟩
        have hlarge : 2 ≤ n := by
          rw [← hvalue]
          exact UInt8.le_iff_toNat_le.1 hlarge
        rw [patterns_64] at fits
        exact Nat.not_lt.2 (Nat.mul_le_mul_right _ hlarge) fits
      rw [writeVarint, if_pos small, List.singleton_append, readDigits, if_pos hlast, hvalue]
      exact if_neg (by simpa using hroom)
  | case2 n large ih =>
      have hvalue : (UInt8.ofNat (128 + n % 128)).toNat = 128 + n % 128 := toNat_ofNat (by omega)
      have hmore : ¬ UInt8.ofNat (128 + n % 128) < 128 := by
        rw [UInt8.lt_iff_toNat_lt, hvalue]
        exact Nat.not_lt.2 (Nat.le_add_right 128 _)
      have hroom : position ≠ 9 := by
        rintro rfl
        rw [patterns_64] at fits
        exact Nat.not_lt.2 (Nat.mul_le_mul_right _ (by omega : 2 ≤ n)) fits
      have hsplit : n % 128 * Nat.pow 128 position + n / 128 * Nat.pow 128 (position + 1) =
          n * Nat.pow 128 position := by
        rw [show Nat.pow 128 (position + 1) = 128 * Nat.pow 128 position from Nat.mul_comm _ _,
          ← Nat.mul_assoc, ← Nat.add_mul, Nat.mul_comm (n / 128), Nat.mod_add_div]
      rw [writeVarint, if_neg large, List.cons_append, readDigits, if_neg hmore, if_neg hroom,
        ih _ _ (by omega), hvalue, Nat.add_mod_left, Nat.mod_mod, Nat.add_assoc]
      exact congrArg (fun value => some (read + value, rest)) hsplit

theorem readVarint_writeVarint {n : Nat} (fits : n < Binary.patterns 64) (rest : List UInt8) :
    readVarint (writeVarint n ++ rest) = some (n, rest) := by
  rw [readVarint, readDigits_writeVarint n 0 0 rest (by rwa [Nat.mul_one])]
  simp

theorem writeVarint_ne_nil (n : Nat) : writeVarint n ≠ [] := by
  rw [writeVarint]
  split <;> exact List.cons_ne_nil _ _

/-! ## Fields -/

/-- The length of a sequence of bytes can be written before it. -/
def IsWritable (data : List UInt8) : Prop := data.length < Binary.patterns 64

instance (data : List UInt8) : Decidable (IsWritable data) :=
  inferInstanceAs (Decidable (data.length < Binary.patterns 64))

def field (entry : Nat × List UInt8) : Field := ⟨entry.1, .bytes entry.2⟩

def IsNumber (number : Nat) : Prop := 0 < number ∧ number < Binary.patterns 29

theorem readKey_writeVarint {number : Nat} (h : IsNumber number) (rest : List UInt8) :
    readKey (writeVarint (number * 8 + 2) ++ rest) = some (number, 2, rest) := by
  obtain ⟨hpositive, hsmall⟩ := h
  have hkey : number * 8 + 2 < Binary.patterns 32 := by
    have hpatterns : Binary.patterns 32 = Binary.patterns 29 * 8 := rfl
    omega
  have hwide : Binary.patterns 32 ≤ Binary.patterns 64 := by decide
  have hheld : Binary.holdsNatural 32 (number * 8 + 2) = true := decide_eq_true hkey
  have hnumber : (number * 8 + 2) / 8 = number := by omega
  have hkind : (number * 8 + 2) % 8 = 2 := by omega
  rw [readKey, readVarint_writeVarint (Nat.lt_of_lt_of_le hkey hwide), Option.bind_eq_bind,
    Option.bind_some]
  simp [hheld, hnumber, hkind, hpositive]

theorem takeBytes_append (data rest : List UInt8) :
    takeBytes data.length (data ++ rest) = some (data, rest) := by
  simp [takeBytes]

theorem readField_writeBytes (depth : Nat) {number : Nat} (h : IsNumber number)
    {data : List UInt8} (fits : IsWritable data) (rest : List UInt8) :
    readField depth (writeBytes number data ++ rest) = some (⟨number, .bytes data⟩, rest) := by
  rw [writeBytes, List.append_assoc, List.append_assoc, readField, readKey_writeVarint h]
  simp [readPlain, readVarint_writeVarint fits, takeBytes_append]

theorem writeFields_cons (entry : Nat × List UInt8) (fields : List (Nat × List UInt8)) :
    writeFields (entry :: fields) = writeBytes entry.1 entry.2 ++ writeFields fields :=
  List.flatMap_cons

theorem length_lt_length_writeBytes (number : Nat) (data : List UInt8) :
    data.length < (writeBytes number data).length := by
  have hkey : 0 < (writeVarint (number * 8 + 2)).length :=
    List.length_pos_iff.2 (writeVarint_ne_nil _)
  rw [writeBytes, List.length_append, List.length_append]
  omega

theorem length_lt_length_writeFields {fields : List (Nat × List UInt8)}
    {entry : Nat × List UInt8} (h : entry ∈ fields) :
    entry.2.length < (writeFields fields).length := by
  induction fields with
  | nil => cases h
  | cons first rest ih =>
      rw [writeFields_cons, List.length_append]
      rcases List.mem_cons.1 h with rfl | hrest
      · have hfirst := length_lt_length_writeBytes entry.1 entry.2
        omega
      · have hlater := ih hrest
        omega

theorem IsWritable.of_mem {fields : List (Nat × List UInt8)}
    (fits : IsWritable (writeFields fields)) {entry : Nat × List UInt8} (h : entry ∈ fields) : IsWritable entry.2 :=
  Nat.lt_trans (length_lt_length_writeFields h) fits

theorem readFieldsFor_writeFields (depth : Nat) {fuel : Nat} {fields : List (Nat × List UInt8)}
    (enough : (writeFields fields).length ≤ fuel) (numbers : ∀ entry ∈ fields, IsNumber entry.1)
    (fits : ∀ entry ∈ fields, IsWritable entry.2) :
    readFieldsFor depth fuel (writeFields fields) = some (fields.map field) := by
  induction fields generalizing fuel with
  | nil =>
      cases fuel <;> rfl
  | cons entry rest ih =>
      have hlonger := length_lt_length_writeBytes entry.1 entry.2
      rw [writeFields_cons, List.length_append] at enough
      rw [writeFields_cons]
      cases fuel with
      | zero => omega
      | succ fuel =>
          have hne : writeBytes entry.1 entry.2 ++ writeFields rest ≠ [] := by
            intro h
            rw [List.append_eq_nil_iff] at h
            rw [h.1] at hlonger
            exact Nat.not_lt_zero _ hlonger
          have hrest : readFieldsFor depth fuel (writeFields rest) = some (rest.map field) :=
            ih (by omega) (fun other hother => numbers other (List.mem_cons_of_mem _ hother))
            (fun other hother => fits other (List.mem_cons_of_mem _ hother))
          have hfirst := readField_writeBytes depth (numbers entry List.mem_cons_self)
            (fits entry List.mem_cons_self) (writeFields rest)
          rw [readFieldsFor, hfirst]
          · simp [hrest, field]
          · exact hne

/-- All that is written of a message is read back, as deep as it may lie in others. -/
theorem mergeFields_writeFields {α : Type} (step : α → Field → Option α) (level : Nat) (known : α)
    {fields : List (Nat × List UInt8)} (numbers : ∀ entry ∈ fields, IsNumber entry.1)
    (fits : IsWritable (writeFields fields)) :
    mergeFields step level known (writeFields fields) = (fields.map field).foldlM step known := by
  have hread := readFieldsFor_writeFields (maxDepth - 1 - level) (Nat.le_refl _) numbers
    fun _ => fits.of_mem
  rw [mergeFields, readFields, hread]
  rfl

end ManifestRelay.Wire
