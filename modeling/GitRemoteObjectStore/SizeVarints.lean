import GitRemoteObjectStore.Delta

/-!
# Sizes that do not fit

`read_size_varint` checks how far a group is shifted, but not which of its
bits the shift loses.  Only the tenth byte can lose any: it has room for one.
-/

namespace GitRemoteObjectStore

open DeltaFormat

/--
What is read is the number that is there, and the standard encoding of every
64-bit value is read back.
-/
structure SizeExact (data : Bytes) (cursor : Nat) : Prop where
  accepted :
    ∀ read,
      readSizeVarint data cursor = some read →
        ∃ bytes,
          Size bytes read.1.toNat ∧
            data.drop cursor = bytes ++ data.drop (cursor + read.2) ∧
            read.2 = bytes.length
  standard :
    ∀ (value : UInt64) (rest : Bytes),
      data.drop cursor = sizeBytes value.toNat ++ rest →
        readSizeVarint data cursor =
          some (value, (sizeBytes value.toNat).length)

/-- A tenth byte with more than one bit ends the number. -/
def Overflows (bytes : Bytes) : Prop :=
  ∃ leading last rest,
    bytes = leading ++ [last] ++ rest ∧
      leading.length = 9 ∧
      (∀ byte ∈ leading, 128 ≤ byte.toNat) ∧
      2 ≤ last.toNat ∧ last.toNat < 128

/-- Up to ten bytes fit 64 bits unless the tenth has too many. -/
theorem lt_of_not_overflows
    {bytes rest : Bytes}
    {value : Nat}
    (size : Size bytes value)
    (short : bytes.length ≤ 10)
    (fits : ¬ Overflows (bytes ++ rest)) :
    value < 2 ^ 64 := by
  rcases size.split with ⟨leading, last, low, rfl, high, final, small, rfl⟩
  rw [List.length_append, List.length_singleton] at short
  rcases Nat.lt_or_ge leading.length 9 with fewer | nine
  · have room : 128 ^ (leading.length + 1) ≤ 128 ^ 9 :=
      Nat.pow_le_pow_right (by decide) fewer
    have group :
        128 ^ leading.length * last.toNat ≤ 128 ^ leading.length * 127 :=
      Nat.mul_le_mul_left _ (Nat.le_of_lt_succ final)
    rw [Nat.pow_succ] at room
    have wide : (128 : Nat) ^ 9 = 2 ^ 63 := by decide
    omega
  · have nine : leading.length = 9 := by omega
    have last_small : last.toNat < 2 := by
      by_contra large
      apply fits
      exact ⟨leading, last, rest, rfl, nine, high, by omega, final⟩
    have wide : (128 : Nat) ^ 9 = 2 ^ 63 := by decide
    rw [nine, wide] at small ⊢
    omega

/-- What is read there lost its high bits. -/
theorem not_accepted_of_overflows
    {data : Bytes}
    {cursor : Nat}
    (overflows : Overflows (data.drop cursor)) :
    ¬ SizeExact data cursor := by
  intro reads
  rcases overflows with ⟨leading, last, rest, front, nine, high, two, final⟩
  rcases exists_size high final with ⟨low, size⟩
  rw [nine] at size
  have varint :
      SizeVarint (leading ++ [last])
        ((low + 128 ^ 9 * last.toNat) % 2 ^ 64) :=
    ⟨_, size, by simp [nine], rfl⟩
  rcases reads.accepted _ (readSizeVarint_of_bytes varint front) with
    ⟨bytes, found, stands, -⟩
  rw [toNat_ofNat_of_sizeVarint varint] at found
  rw [front] at stands
  have same := (size.unique found stands).2
  have bound : (low + 128 ^ 9 * last.toNat) % 2 ^ 64 < 2 ^ 64 :=
    Nat.mod_lt _ (by decide)
  rw [← same] at bound
  have wide : (128 : Nat) ^ 9 = 2 ^ 63 := by decide
  rw [wide] at bound
  omega

theorem standard_read
    {data rest : Bytes}
    {cursor : Nat}
    (value : UInt64)
    (front : data.drop cursor = sizeBytes value.toNat ++ rest) :
    readSizeVarint data cursor =
      some (value, (sizeBytes value.toNat).length) := by
  have short : (sizeBytes value.toNat).length ≤ 9 + 1 := by
    apply length_sizeBytes_le
    exact Nat.lt_of_lt_of_le value.toNat_lt (by decide)
  have varint : SizeVarint (sizeBytes value.toNat) value.toNat :=
    ⟨_, size_sizeBytes _, short,
      (Nat.mod_eq_of_lt value.toNat_lt).symm⟩
  rw [readSizeVarint_of_bytes varint front, UInt64.ofNat_toNat]

/--
`read_size_varint` is exact at a place unless a number of ten bytes stands
there whose last byte is two or more.
-/
theorem sizeExact_iff (data : Bytes) (cursor : Nat) :
    SizeExact data cursor ↔ ¬ Overflows (data.drop cursor) := by
  constructor
  · intro reads overflows
    exact not_accepted_of_overflows overflows reads
  · intro fits
    constructor
    · intro read found
      rcases (readSizeVarint_eq_some data).1 found with
        ⟨bytes, ⟨total, size, short, value⟩, front, taken⟩
      rw [front] at fits
      rw [Nat.mod_eq_of_lt (lt_of_not_overflows size short fits)] at value
      exact ⟨bytes, by rw [value]; exact size, front, taken⟩
    · intro value rest front
      exact standard_read value front

/-- The standard encoding of `2 ^ 64` is read as zero. -/
theorem not_sizeExact :
    Size (List.replicate 9 128 ++ [2]) (2 ^ 64) ∧
      readSizeVarint (List.replicate 9 128 ++ [2]) 0 = some (0, 10) ∧
      ¬ SizeExact (List.replicate 9 128 ++ [2]) 0 := by
  have standard : sizeBytes (2 ^ 64) = List.replicate 9 128 ++ [2] := by
    decide +kernel
  refine ⟨?_, by decide +kernel, ?_⟩
  · rw [← standard]
    exact size_sizeBytes (2 ^ 64)
  · apply not_accepted_of_overflows
    refine
      ⟨List.replicate 9 128, 2, [], rfl, rfl, ?_, by decide, by decide⟩
    intro byte member
    rw [List.eq_of_mem_replicate member]
    decide

end GitRemoteObjectStore
