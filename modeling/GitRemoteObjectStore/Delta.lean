import Mathlib.Data.Nat.Bitwise
import Mathlib.Tactic.Ring
import GitRemoteObjectStore.ObjectGraph
import GitRemoteObjectStore.Library.DeltaFormat

/-!
# Applying pack deltas

`apply_delta` of the pack reader, on byte strings an adversary may have
chosen.  Indexing and slicing are partial operations here, so that reading
out of range is an outcome of its own, apart from every error the source
returns.  The results are compared with the grammar of deltas.
-/

namespace GitRemoteObjectStore

open DeltaFormat

/-! ## Indices and byte strings -/

/-- The target's pointer width: at least 32 bits, at most 64. -/
class Target where
  isizeMax : Nat
  wide : 2 ^ 31 - 1 ≤ isizeMax
  narrow : isizeMax ≤ 2 ^ 63 - 1

/-- `usize::MAX`. -/
def usizeMax [Target] : Nat := 2 * Target.isizeMax + 1

/-- A byte slice or vector; none is longer than `isize::MAX`. -/
structure Slice [Target] where
  bytes : Bytes
  fits : bytes.length ≤ Target.isizeMax

/-- Why a computation ends early: with an error, or by a panic. -/
inductive Halt where
  | error (error : PackchainError)
  | panic
deriving DecidableEq

/-- `xs[i]`. -/
def index (bytes : Bytes) (position : Nat) : Except Halt UInt8 :=
  match bytes[position]? with
  | some byte => .ok byte
  | none => .error .panic

/-- `&xs[start..stop]`. -/
def subslice (bytes : Bytes) (start stop : Nat) : Except Halt Bytes :=
  if start ≤ stop ∧ stop ≤ bytes.length then
    .ok ((bytes.drop start).take (stop - start))
  else .error .panic

/-- `usize::checked_add`. -/
def checkedAdd [Target] (left right : Nat) : Option Nat :=
  if left + right ≤ usizeMax then some (left + right) else none

/-- `u64::checked_shl`. -/
def checkedShl (value : UInt64) (shift : Nat) : Option UInt64 :=
  if shift < 64 then some (value <<< UInt64.ofNat shift) else none

/-- `PackchainError::MalformedDelta`. -/
def malformedDelta (reason : String) : Halt :=
  .error (.malformedDelta (lit reason))

/-! ## Operands -/

/-- The values `shift` takes while a size has room in 64 bits. -/
def sizeShifts : List Nat := [0, 7, 14, 21, 28, 35, 42, 49, 56, 63]

/-- The loop of `read_size_varint`; no shift is left once 64 is reached. -/
def readSizeFrom (data : Bytes) :
    List Nat → Nat → UInt64 → Option (UInt64 × Nat)
  | [], _, _ => none
  | shift :: shifts, cursor, value =>
      match data[cursor]? with
      | none => none
      | some byte =>
          match checkedShl (byte &&& 0x7f).toUInt64 shift with
          | none => none
          | some part =>
              if byte &&& 0x80 = 0 then some (value ||| part, cursor + 1)
              else readSizeFrom data shifts (cursor + 1) (value ||| part)

/-- `read_size_varint`: the size and how many bytes it took. -/
def readSizeVarint (data : Bytes) (cursor : Nat) : Option (UInt64 × Nat) :=
  (readSizeFrom data sizeShifts cursor 0).map fun read =>
    (read.1, read.2 - cursor)

/-- One turn of the loop of `read_packed_operand`. -/
def readOperandByte
    (delta : Bytes)
    (bitmask : UInt8)
    (truncatedReason : String)
    (read : UInt32 × Nat)
    (shift : Nat) : Except Halt (UInt32 × Nat) :=
  if bitmask &&& (1 <<< UInt8.ofNat shift) ≠ 0 then
    match delta[read.2]? with
    | none => .error (malformedDelta truncatedReason)
    | some byte =>
        .ok
          (read.1 ||| (byte.toUInt32 <<< UInt32.ofNat (shift * 8)),
            read.2 + 1)
  else .ok read

/-- `read_packed_operand`: the operand and the cursor behind it. -/
def readPackedOperand
    (delta : Bytes)
    (cursor : Nat)
    (bitmask : UInt8)
    (bits : Nat)
    (truncatedReason : String) : Except Halt (UInt32 × Nat) :=
  (List.range bits).foldlM
    (readOperandByte delta bitmask truncatedReason) (0, cursor)

theorem bind_ok_iff
    {ε α β : Type}
    {first : Except ε α}
    {next : α → Except ε β}
    {result : β} :
    (first >>= next) = .ok result ↔
      ∃ value, first = .ok value ∧ next value = .ok result := by
  cases first with
  | ok value =>
      constructor
      · exact fun ran => ⟨value, rfl, ran⟩
      · rintro ⟨found, same, ran⟩
        cases same
        exact ran
  | error error =>
      constructor
      · exact fun ran => by cases ran
      · rintro ⟨found, same, -⟩
        cases same

/-- A digit is or-ed in above the digits below it. -/
theorem or_shiftLeft_mod
    {value shift width : Nat}
    (small : value < 2 ^ shift)
    (fits : shift ≤ width)
    (digit : Nat) :
    value ||| ((digit <<< shift) % 2 ^ width) =
      (value + 2 ^ shift * digit) % 2 ^ width := by
  have split : 2 ^ width = 2 ^ shift * 2 ^ (width - shift) := by
    rw [← Nat.pow_add, Nat.add_sub_cancel' fits]
  have positive : 0 < 2 ^ shift := Nat.two_pow_pos shift
  have low : (value + 2 ^ shift * digit) % 2 ^ shift = value := by
    rw [Nat.add_mul_mod_self_left, Nat.mod_eq_of_lt small]
  have high : (value + 2 ^ shift * digit) / 2 ^ shift = digit := by
    rw [Nat.add_mul_div_left _ _ positive, Nat.div_eq_of_lt small,
      Nat.zero_add]
  rw [split, Nat.shiftLeft_eq, Nat.mul_comm digit, Nat.mul_mod_mul_left,
    Nat.mod_mul, low, high, Nat.or_comm,
    ← Nat.two_pow_add_eq_or_of_lt small, Nat.add_comm]

/-- The test of one bit of a byte. -/
theorem bit_ne_zero_iff
    {shift : Nat}
    (inside : shift < 8)
    (bitmask : UInt8) :
    bitmask &&& (1 <<< UInt8.ofNat shift) ≠ 0 ↔
      bitmask.toNat / 2 ^ shift % 2 = 1 := by
  have small : 2 ^ shift < 256 := Nat.pow_lt_pow_right (by decide) inside
  have mask : ((1 : UInt8) <<< UInt8.ofNat shift).toNat = 2 ^ shift := by
    rw [UInt8.toNat_shiftLeft, UInt8.toNat_ofNat', UInt8.toNat_one,
      Nat.one_shiftLeft]
    have first : shift % 2 ^ 8 % 8 = shift := by omega
    rw [first]
    exact Nat.mod_eq_of_lt small
  rw [ne_eq, ← UInt8.toNat_inj, UInt8.toNat_and, mask, Nat.and_two_pow,
    UInt8.toNat_zero, Nat.testBit_eq_decide_div_mod_eq]
  by_cases set : bitmask.toNat / 2 ^ shift % 2 = 1
  · simp [set]
  · simp [set]

/-- A byte of an operand is or-ed in at its place. -/
theorem toNat_or_operandByte
    {shift : Nat}
    (inside : shift < 4)
    {value : UInt32}
    (small : value.toNat < 256 ^ shift)
    (byte : UInt8) :
    (value ||| (byte.toUInt32 <<< UInt32.ofNat (shift * 8))).toNat =
      value.toNat + 256 ^ shift * byte.toNat := by
  have power : 256 ^ shift = 2 ^ (shift * 8) := by
    rw [Nat.mul_comm, Nat.pow_mul]
  rw [power] at small
  rw [power, UInt32.toNat_or, UInt32.toNat_shiftLeft, UInt32.toNat_ofNat',
    UInt8.toNat_toUInt32]
  have place : shift * 8 % 2 ^ 32 % 32 = shift * 8 := by omega
  have bound : 2 ^ (shift * 8) * 256 ≤ 2 ^ 32 := by
    calc
      2 ^ (shift * 8) * 256 = 2 ^ (shift * 8 + 8) := by rw [Nat.pow_add]
      _ ≤ 2 ^ 32 := Nat.pow_le_pow_right (by decide) (by omega)
  rw [place, or_shiftLeft_mod small (by omega)]
  apply Nat.mod_eq_of_lt
  have digit := byte.toNat_lt
  calc
    value.toNat + 2 ^ (shift * 8) * byte.toNat
        < 2 ^ (shift * 8) * (byte.toNat + 1) := by
          rw [Nat.mul_add, Nat.mul_one]
          omega
    _ ≤ 2 ^ (shift * 8) * 256 := Nat.mul_le_mul_left _ digit
    _ ≤ 2 ^ 32 := bound

theorem drop_cons_of_getElem?
    {bytes : Bytes}
    {cursor : Nat}
    {byte : UInt8}
    (found : bytes[cursor]? = some byte) :
    bytes.drop cursor = byte :: bytes.drop (cursor + 1) := by
  rcases List.getElem?_eq_some_iff.1 found with ⟨inside, rfl⟩
  exact List.drop_eq_getElem_cons inside

theorem getElem?_of_drop_cons
    {bytes rest : Bytes}
    {cursor : Nat}
    {byte : UInt8}
    (front : bytes.drop cursor = byte :: rest) :
    bytes[cursor]? = some byte ∧ bytes.drop (cursor + 1) = rest := by
  constructor
  · have head := congrArg List.head? front
    rwa [List.head?_drop, List.head?_cons] at head
  · have tail := congrArg List.tail front
    rwa [List.tail_drop, List.tail_cons] at tail

theorem drop_behind
    {bytes front rest : Bytes}
    {cursor : Nat}
    (split : bytes.drop cursor = front ++ rest) :
    bytes.drop (cursor + front.length) = rest := by
  rw [← List.drop_drop, split, List.drop_left]

/-- A further digit keeps a number below the next power. -/
theorem digit_sum_lt
    {value shift : Nat}
    (small : value < 256 ^ shift)
    (digit : Option UInt8) :
    value + 256 ^ shift * Sparse.value [digit] < 256 ^ (shift + 1) := by
  have below : Sparse.value [digit] < 256 := Sparse.value_single_lt digit
  calc
    value + 256 ^ shift * Sparse.value [digit]
        < 256 ^ shift * (Sparse.value [digit] + 1) := by
          rw [Nat.mul_add, Nat.mul_one]
          omega
    _ ≤ 256 ^ shift * 256 := Nat.mul_le_mul_left _ below
    _ = 256 ^ (shift + 1) := (Nat.pow_succ 256 shift).symm

/-- One byte of an operand, there or left out. -/
theorem readOperandByte_ok
    (delta : Bytes)
    (bitmask : UInt8)
    (truncatedReason : String)
    {value next : UInt32 × Nat}
    {shift : Nat}
    (inside : shift < 4)
    (small : value.1.toNat < 256 ^ shift) :
    readOperandByte delta bitmask truncatedReason value shift = .ok next ↔
      ∃ digit : Option UInt8,
        Sparse.flags [digit] = bitmask.toNat / 2 ^ shift % 2 ∧
          next.1.toNat =
            value.1.toNat + 256 ^ shift * Sparse.value [digit] ∧
          delta.drop value.2 =
            Sparse.bytes [digit] ++ delta.drop next.2 ∧
          next.2 = value.2 + (Sparse.bytes [digit]).length := by
  have bit := bit_ne_zero_iff (show shift < 8 by omega) bitmask
  unfold readOperandByte
  by_cases set : bitmask &&& (1 <<< UInt8.ofNat shift) ≠ 0
  · have odd := bit.1 set
    rw [if_pos set, odd]
    constructor
    · intro read
      cases found : delta[value.2]? with
      | none =>
          rw [found] at read
          cases read
      | some byte =>
          rw [found] at read
          cases read
          exact
            ⟨some byte, rfl, toNat_or_operandByte inside small byte,
              drop_cons_of_getElem? found, rfl⟩
    · rintro ⟨digit, flagged, sum, front, cursor⟩
      cases digit with
      | none => cases flagged
      | some byte =>
          rw [(getElem?_of_drop_cons front).1]
          apply congrArg Except.ok
          apply Prod.ext
          · apply UInt32.toNat_inj.1
            exact (toNat_or_operandByte inside small byte).trans sum.symm
          · exact cursor.symm
  · have even : bitmask.toNat / 2 ^ shift % 2 = 0 := by
      have odd := mt bit.2 set
      omega
    rw [if_neg set, even]
    constructor
    · intro read
      cases read
      exact ⟨none, rfl, rfl, rfl, rfl⟩
    · rintro ⟨digit, flagged, sum, front, cursor⟩
      cases digit with
      | none =>
          apply congrArg
          apply Prod.ext
          · exact UInt32.toNat_inj.1 sum.symm
          · exact cursor.symm
      | some byte => cases flagged

/-- The loop over the bytes of an operand reads a sparse number. -/
theorem foldlM_readOperandByte
    (delta : Bytes)
    (bitmask : UInt8)
    (truncatedReason : String)
    {value after : UInt32 × Nat}
    {shift bits : Nat}
    (inside : shift + bits ≤ 4)
    (small : value.1.toNat < 256 ^ shift) :
    (List.range' shift bits).foldlM
        (readOperandByte delta bitmask truncatedReason) value = .ok after ↔
      ∃ digits : Sparse,
        digits.length = bits ∧
          digits.flags = bitmask.toNat / 2 ^ shift % 2 ^ bits ∧
          after.1.toNat = value.1.toNat + 256 ^ shift * digits.value ∧
          delta.drop value.2 = digits.bytes ++ delta.drop after.2 ∧
          after.2 = value.2 + digits.bytes.length := by
  induction bits generalizing shift value with
  | zero =>
      simp only [List.range'_zero, List.foldlM_nil, pure, Except.pure,
        Except.ok.injEq, Nat.pow_zero, Nat.mod_one, List.length_eq_zero_iff]
      constructor
      · rintro rfl
        exact ⟨[], rfl, rfl, by simp [Sparse.value], rfl, rfl⟩
      · rintro ⟨digits, rfl, -, same, -, cursor⟩
        apply Prod.ext
        · apply UInt32.toNat_inj.1
          simpa [Sparse.value] using same.symm
        · exact cursor.symm
  | succ bits hypothesis =>
      have mask :
          bitmask.toNat / 2 ^ shift % 2 ^ (bits + 1) =
            bitmask.toNat / 2 ^ shift % 2 +
              2 * (bitmask.toNat / 2 ^ (shift + 1) % 2 ^ bits) := by
        rw [Nat.pow_succ', Nat.mod_mul, Nat.div_div_eq_div_mul,
          ← Nat.pow_succ]
      have place : 256 ^ (shift + 1) = 256 ^ shift * 256 := Nat.pow_succ 256 shift
      have here : shift < 4 := by omega
      have room : shift + 1 + bits ≤ 4 := by omega
      rw [List.range'_succ, List.foldlM_cons, bind_ok_iff, mask]
      constructor
      · rintro ⟨next, read, rest⟩
        rcases
          (readOperandByte_ok delta bitmask truncatedReason here small).1
            read with ⟨digit, flagged, sum, front, cursor⟩
        have larger : next.1.toNat < 256 ^ (shift + 1) := by
          rw [sum]
          exact digit_sum_lt small digit
        rcases (hypothesis room larger).1 rest with
          ⟨digits, length, flags, total, behind, cursors⟩
        refine ⟨digit :: digits, by simp [length], ?_, ?_, ?_, ?_⟩
        · rw [Sparse.flags_cons digit digits, flagged, flags]
        · rw [total, sum, place, Sparse.value_cons digit digits]
          ring
        · rw [front, behind, Sparse.bytes_cons digit digits,
            List.append_assoc]
        · rw [cursors, cursor, Sparse.bytes_cons digit digits,
            List.length_append,
            Nat.add_assoc]
      · rintro ⟨digits, length, flags, total, front, cursor⟩
        cases digits with
        | nil => cases length
        | cons digit digits =>
            rw [Sparse.flags_cons digit digits] at flags
            rw [Sparse.value_cons digit digits] at total
            rw [Sparse.bytes_cons digit digits, List.append_assoc] at front
            rw [Sparse.bytes_cons digit digits, List.length_append] at cursor
            have bit := Sparse.flags_single_lt digit
            have larger := digit_sum_lt small digit
            have word :
                value.1.toNat + 256 ^ shift * Sparse.value [digit] <
                  2 ^ 32 :=
              lt_of_lt_of_le larger
                (Nat.pow_le_pow_right (show 0 < 256 by decide)
                  (show shift + 1 ≤ 4 by omega))
            have sum :
                (UInt32.ofNat
                  (value.1.toNat +
                    256 ^ shift * Sparse.value [digit])).toNat =
                  value.1.toNat + 256 ^ shift * Sparse.value [digit] :=
              UInt32.toNat_ofNat_of_lt' word
            have behind := drop_behind front
            refine
              ⟨(UInt32.ofNat
                  (value.1.toNat + 256 ^ shift * Sparse.value [digit]),
                  value.2 + (Sparse.bytes [digit]).length), ?_, ?_⟩
            · apply
                (readOperandByte_ok delta bitmask truncatedReason here
                  small).2
              refine ⟨digit, by omega, sum, ?_, rfl⟩
              rw [behind, front]
            · apply (hypothesis room (by rw [sum]; exact larger)).2
              refine
                ⟨digits, Nat.succ.inj length, by omega, ?_, behind, ?_⟩
              · rw [total, sum, place]
                ring
              · rw [cursor, Nat.add_assoc]

/-- An operand is the sparse number whose bytes the mask announces. -/
theorem readPackedOperand_ok
    (delta : Bytes)
    {cursor : Nat}
    {bitmask : UInt8}
    {bits : Nat}
    (truncatedReason : String)
    {read : UInt32 × Nat}
    (inside : bits ≤ 4) :
    readPackedOperand delta cursor bitmask bits truncatedReason =
        .ok read ↔
      ∃ digits : Sparse,
        digits.length = bits ∧
          digits.flags = bitmask.toNat % 2 ^ bits ∧
          read.1.toNat = digits.value ∧
          delta.drop cursor = digits.bytes ++ delta.drop read.2 ∧
          read.2 = cursor + digits.bytes.length := by
  unfold readPackedOperand
  rw [List.range_eq_range',
    foldlM_readOperandByte delta bitmask truncatedReason
      (by omega) (Nat.zero_lt_one)]
  simp

/-- An operand that is there is read. -/
theorem readPackedOperand_of_digits
    {delta rest : Bytes}
    {cursor : Nat}
    {bitmask : UInt8}
    {bits : Nat}
    (truncatedReason : String)
    (inside : bits ≤ 4)
    {digits : Sparse}
    (length : digits.length = bits)
    (flags : digits.flags = bitmask.toNat % 2 ^ bits)
    (front : delta.drop cursor = digits.bytes ++ rest) :
    ∃ value : UInt32,
      value.toNat = digits.value ∧
        readPackedOperand delta cursor bitmask bits truncatedReason =
          .ok (value, cursor + digits.bytes.length) := by
  have small : digits.value < 2 ^ 32 := by
    apply Nat.lt_of_lt_of_le digits.value_lt
    rw [length]
    exact Nat.pow_le_pow_right (show 0 < 256 by decide) inside
  have value : (UInt32.ofNat digits.value).toNat = digits.value :=
    UInt32.toNat_ofNat_of_lt' small
  refine ⟨UInt32.ofNat digits.value, value, ?_⟩
  apply (readPackedOperand_ok delta truncatedReason inside).2
  exact
    ⟨digits, length, flags, value,
      by rw [drop_behind front, front], rfl⟩

theorem subslice_of_le
    {bytes : Bytes}
    {start size : Nat}
    (inside : start + size ≤ bytes.length) :
    subslice bytes start (start + size) =
      .ok ((bytes.drop start).take size) := by
  unfold subslice
  rw [if_pos ⟨Nat.le_add_right start size, inside⟩, Nat.add_sub_cancel_left]

/-- What a byte with its high bit set announces. -/
theorem copyOpcode_iff
    {op : UInt8}
    (copies : 128 ≤ op.toNat)
    {offset size : Nat}
    (four : offset < 16)
    (three : size < 8) :
    op.toNat = 128 + 16 * size + offset ↔
      offset = op.toNat % 2 ^ 4 ∧ size = (op >>> 4).toNat % 2 ^ 3 := by
  have byte := op.toNat_lt
  have shifted : (op >>> 4).toNat = op.toNat / 16 := by
    rw [UInt8.toNat_shiftRight, Nat.shiftRight_eq_div_pow]
    rfl
  rw [shifted]
  omega

/-- The high bit of an opcode. -/
theorem copies_iff (op : UInt8) : op &&& 0x80 ≠ 0 ↔ 128 ≤ op.toNat := by
  have bit := bit_ne_zero_iff (show 7 < 8 by decide) op
  have byte := op.toNat_lt
  rw [show (0x80 : UInt8) = 1 <<< UInt8.ofNat 7 from rfl, bit]
  omega

/-! ## Sizes read back -/

/-- A group of seven bits is or-ed in at its place. -/
theorem toNat_or_sizeByte
    {shift : Nat}
    (inside : shift < 64)
    {value : UInt64}
    (small : value.toNat < 2 ^ shift)
    (byte : UInt8) :
    (value ||| ((byte &&& 0x7f).toUInt64 <<< UInt64.ofNat shift)).toNat =
      (value.toNat + 2 ^ shift * (byte.toNat % 128)) % 2 ^ 64 := by
  have place : shift % 2 ^ 64 % 64 = shift := by omega
  have group : (byte &&& 0x7f).toNat = byte.toNat % 128 := by
    rw [UInt8.toNat_and]
    exact Nat.and_two_pow_sub_one_eq_mod byte.toNat 7
  rw [UInt64.toNat_or, UInt64.toNat_shiftLeft, UInt64.toNat_ofNat',
    UInt8.toNat_toUInt64, place, group,
    or_shiftLeft_mod small (by omega)]

/-- The size varint of the source: at most ten bytes, taken modulo 2⁶⁴. -/
def SizeVarint (bytes : Bytes) (size : Nat) : Prop :=
  ∃ total, Size bytes total ∧ bytes.length ≤ 10 ∧ size = total % 2 ^ 64

theorem continues_iff (byte : UInt8) :
    byte &&& 0x80 = 0 ↔ byte.toNat < 128 := by
  have high := copies_iff byte
  constructor
  · intro zero
    by_contra large
    exact high.2 (Nat.not_lt.1 large) zero
  · intro small
    by_contra set
    exact Nat.not_lt.2 (high.1 set) small

/-- The loop over the groups of a size. -/
theorem readSizeFrom_eq_some
    (data : Bytes)
    {count shift cursor : Nat}
    (inside : shift + 7 * count ≤ 70)
    {value : UInt64}
    (small : value.toNat < 2 ^ shift)
    {read : UInt64 × Nat} :
    readSizeFrom data (List.range' shift count 7) cursor value =
        some read ↔
      ∃ bytes total,
        Size bytes total ∧
          bytes.length ≤ count ∧
          read.1.toNat = (value.toNat + 2 ^ shift * total) % 2 ^ 64 ∧
          data.drop cursor = bytes ++ data.drop read.2 ∧
          read.2 = cursor + bytes.length := by
  induction count generalizing shift cursor value with
  | zero =>
      constructor
      · intro found
        cases found
      · rintro ⟨bytes, total, size, short, -⟩
        exact absurd (List.length_eq_zero_iff.1 (Nat.le_zero.1 short))
          size.ne_nil
  | succ count hypothesis =>
      have here : shift < 64 := by omega
      rw [List.range'_succ, readSizeFrom]
      cases found : data[cursor]? with
      | none =>
          simp only [reduceCtorEq, false_iff]
          rintro ⟨bytes, total, size, -, -, front, -⟩
          rw [List.drop_eq_nil_iff.2 (List.getElem?_eq_none_iff.1 found)]
            at front
          exact size.ne_nil (List.append_eq_nil_iff.1 front.symm).1
      | some byte =>
          have sum := toNat_or_sizeByte here small byte
          have part :
              checkedShl (byte &&& 0x7f).toUInt64 shift =
                some ((byte &&& 0x7f).toUInt64 <<< UInt64.ofNat shift) :=
            if_pos here
          simp only [part]
          by_cases final : byte &&& 0x80 = 0
          · have low := (continues_iff byte).1 final
            rw [if_pos final]
            constructor
            · intro done
              cases done
              refine
                ⟨[byte], byte.toNat, .last low,
                  Nat.succ_le_succ (Nat.zero_le count), ?_,
                  drop_cons_of_getElem? found, rfl⟩
              rw [sum, Nat.mod_eq_of_lt low]
            · rintro ⟨bytes, total, size, -, result, front, behind⟩
              cases size with
              | @last last small =>
                  have same :=
                    Option.some.inj
                      ((getElem?_of_drop_cons front).1.symm.trans found)
                  subst same
                  apply congrArg some
                  apply Prod.ext
                  · apply UInt64.toNat_inj.1
                    rw [sum, result, Nat.mod_eq_of_lt low]
                  · exact behind.symm
              | @more first rest value continues following =>
                  have same :=
                    Option.some.inj
                      ((getElem?_of_drop_cons front).1.symm.trans found)
                  subst same
                  exact absurd low (Nat.not_lt.2 continues)
          · have high : 128 ≤ byte.toNat :=
              Nat.not_lt.1 (mt (continues_iff byte).2 final)
            have group : byte.toNat % 128 < 2 ^ 7 :=
              Nat.mod_lt _ (by decide)
            have digit : byte.toNat % 128 = byte.toNat - 128 := by
              have bound := byte.toNat_lt
              omega
            have larger :
                (value ||| ((byte &&& 0x7f).toUInt64 <<<
                  UInt64.ofNat shift)).toNat < 2 ^ (shift + 7) := by
              rw [sum, Nat.pow_add]
              apply Nat.lt_of_le_of_lt (Nat.mod_le _ _)
              calc
                value.toNat + 2 ^ shift * (byte.toNat % 128)
                    < 2 ^ shift * (byte.toNat % 128 + 1) := by
                      rw [Nat.mul_add, Nat.mul_one]
                      omega
                _ ≤ 2 ^ shift * 2 ^ 7 := Nat.mul_le_mul_left _ group
            have merged (total : Nat) :
                ((value.toNat + 2 ^ shift * (byte.toNat % 128)) % 2 ^ 64 +
                    2 ^ (shift + 7) * total) % 2 ^ 64 =
                  (value.toNat +
                    2 ^ shift * (byte.toNat - 128 + 128 * total)) %
                      2 ^ 64 := by
              rw [Nat.mod_add_mod, digit, Nat.pow_add]
              ring_nf
            rw [if_neg final, hypothesis (by omega) larger, sum]
            constructor
            · rintro ⟨bytes, total, size, short, result, front, behind⟩
              refine
                ⟨byte :: bytes, _, .more high size,
                  Nat.succ_le_succ short, result.trans (merged total), ?_,
                  ?_⟩
              · rw [drop_cons_of_getElem? found, front, List.cons_append]
              · rw [behind, List.length_cons]
                omega
            · rintro ⟨bytes, total, size, short, result, front, behind⟩
              cases size with
              | @last last small =>
                  have same :=
                    Option.some.inj
                      ((getElem?_of_drop_cons front).1.symm.trans found)
                  subst same
                  exact absurd small (Nat.not_lt.2 high)
              | @more first rest total continues following =>
                  rcases getElem?_of_drop_cons front with ⟨first, tail⟩
                  have same := Option.some.inj (first.symm.trans found)
                  subst same
                  refine
                    ⟨rest, total, following, Nat.le_of_succ_le_succ short,
                      result.trans (merged total).symm, tail, ?_⟩
                  rw [behind, List.length_cons]
                  omega

/-- A size stands at the cursor, and that is how many bytes it takes. -/
theorem readSizeVarint_eq_some
    (data : Bytes)
    {cursor : Nat}
    {read : UInt64 × Nat} :
    readSizeVarint data cursor = some read ↔
      ∃ bytes,
        SizeVarint bytes read.1.toNat ∧
          data.drop cursor = bytes ++ data.drop (cursor + read.2) ∧
          read.2 = bytes.length := by
  have loop {found : UInt64 × Nat} :
      readSizeFrom data sizeShifts cursor 0 = some found ↔
        ∃ bytes total,
          Size bytes total ∧
            bytes.length ≤ 10 ∧
            found.1.toNat = (0 + 2 ^ 0 * total) % 2 ^ 64 ∧
            data.drop cursor = bytes ++ data.drop found.2 ∧
            found.2 = cursor + bytes.length := by
    have shifts : sizeShifts = List.range' 0 10 7 := rfl
    rw [shifts]
    exact
      readSizeFrom_eq_some data (show 0 + 7 * 10 ≤ 70 by decide)
        (show (0 : UInt64).toNat < 2 ^ 0 by decide)
  unfold readSizeVarint
  rw [Option.map_eq_some_iff]
  constructor
  · rintro ⟨found, reads, rfl⟩
    rcases loop.1 reads with ⟨bytes, total, size, short, value, front, behind⟩
    refine ⟨bytes, ⟨total, size, short, by simpa using value⟩, ?_, ?_⟩
    · rw [front, behind]
      simp
    · rw [behind]
      simp
  · rintro ⟨bytes, ⟨total, size, short, value⟩, front, taken⟩
    refine ⟨(read.1, cursor + read.2), loop.2 ?_, by simp⟩
    exact ⟨bytes, total, size, short, by simpa using value, front, by rw [taken]⟩

theorem toNat_ofNat_of_sizeVarint
    {bytes : Bytes}
    {size : Nat}
    (written : SizeVarint bytes size) :
    (UInt64.ofNat size).toNat = size := by
  rcases written with ⟨total, -, -, rfl⟩
  exact UInt64.toNat_ofNat_of_lt' (Nat.mod_lt _ (by decide))

/-- A size that is there is read. -/
theorem readSizeVarint_of_bytes
    {data bytes rest : Bytes}
    {size cursor : Nat}
    (written : SizeVarint bytes size)
    (front : data.drop cursor = bytes ++ rest) :
    readSizeVarint data cursor =
      some (UInt64.ofNat size, bytes.length) := by
  apply (readSizeVarint_eq_some data).2
  refine ⟨bytes, ?_, by rw [drop_behind front, front], rfl⟩
  rw [toNat_ofNat_of_sizeVarint written]
  exact written

/-! ## Refusals -/

/-- Whatever stops a computation is a refusal of the delta. -/
def Refuses {α : Type} (result : Except Halt α) : Prop :=
  ∀ halt,
    result = .error halt → ∃ reason, halt = .error (.malformedDelta reason)

namespace Refuses

variable {α β : Type}

theorem ok (value : α) : Refuses (.ok value) := by
  intro halt stopped
  cases stopped

theorem refusal (reason : String) :
    Refuses (.error (malformedDelta reason) : Except Halt α) := by
  intro halt stopped
  cases stopped
  exact ⟨lit reason, rfl⟩

theorem bind
    {first : Except Halt α}
    {next : α → Except Halt β}
    (begins : Refuses first)
    (continues : ∀ value, first = .ok value → Refuses (next value)) :
    Refuses (first >>= next) := by
  cases first with
  | ok value => exact continues value rfl
  | error halt =>
      intro stopped same
      cases same
      exact begins halt rfl

theorem foldlM
    {step : α → β → Except Halt α}
    (each : ∀ value item, Refuses (step value item))
    (value : α)
    (items : List β) :
    Refuses (items.foldlM step value) := by
  induction items generalizing value with
  | nil => exact ok value
  | cons item rest hypothesis =>
      rw [List.foldlM_cons]
      exact (each value item).bind fun next _ => hypothesis next

end Refuses

theorem refuses_readPackedOperand
    (delta : Bytes)
    (cursor : Nat)
    (bitmask : UInt8)
    (bits : Nat)
    (truncatedReason : String) :
    Refuses
      (readPackedOperand delta cursor bitmask bits truncatedReason) := by
  apply Refuses.foldlM
  intro value shift
  unfold readOperandByte
  split
  · split
    · exact Refuses.refusal truncatedReason
    · exact Refuses.ok _
  · exact Refuses.ok _

/-! ## Instructions -/

/-- `GIT_DELTA_DEFAULT_COPY_SIZE`. -/
def gitDeltaDefaultCopySize : UInt32 := 0x10000

variable [Target]

/-- The end of a span, which must lie within the given number of bytes. -/
def checkedSpan
    (start size available : Nat)
    (overflow exceeds : String) : Except Halt Nat :=
  match checkedAdd start size with
  | none => .error (malformedDelta overflow)
  | some stop =>
      if available < stop then .error (malformedDelta exceeds)
      else .ok stop

/-- `apply_delta_copy_op`: the cursor behind it and the longer output. -/
def applyDeltaCopyOp
    (op : UInt8)
    (delta : Bytes)
    (cursor : Nat)
    (base out : Bytes) : Except Halt (Nat × Bytes) := do
  let offset ←
    readPackedOperand delta cursor op 4 "truncated delta copy offset"
  let size ←
    readPackedOperand delta offset.2 (op >>> 4) 3
      "truncated delta copy size"
  let copySize :=
    if size.1 = 0 then gitDeltaDefaultCopySize else size.1
  let stop ←
    checkedSpan offset.1.toNat copySize.toNat base.length
      "copy span overflow" "copy span exceeds base object"
  let span ← subslice base offset.1.toNat stop
  return (size.2, out ++ span)

/-- `apply_delta_insert_op`. -/
def applyDeltaInsertOp
    (op : UInt8)
    (delta : Bytes)
    (cursor : Nat)
    (out : Bytes) : Except Halt (Nat × Bytes) := do
  let stop ←
    checkedSpan cursor op.toNat delta.length
      "insert span overflow" "insert span exceeds delta payload"
  let span ← subslice delta cursor stop
  return (stop, out ++ span)

/-- The instruction at the cursor, by its opcode. -/
def applyDeltaOp
    (op : UInt8)
    (delta : Bytes)
    (cursor : Nat)
    (base out : Bytes) : Except Halt (Nat × Bytes) :=
  if op &&& 0x80 ≠ 0 then applyDeltaCopyOp op delta cursor base out
  else if op = 0 then .error (malformedDelta "reserved zero opcode")
  else applyDeltaInsertOp op delta cursor out

/-- One turn of the loop of `apply_delta`. -/
def applyDeltaTurn
    (base delta : Bytes)
    (dstSize : Nat)
    (cursor : Nat)
    (out : Bytes) : Except Halt (Nat × Bytes) := do
  let op ← index delta cursor
  let next ← applyDeltaOp op delta (cursor + 1) base out
  if dstSize < next.2.length then
    .error
      (malformedDelta
        "produced object exceeds announced destination size")
  else return next

/-! ## Instructions read back -/

theorem checkedSpan_ok
    {start size available stop : Nat}
    (fits : available ≤ Target.isizeMax)
    (overflow exceeds : String) :
    checkedSpan start size available overflow exceeds = .ok stop ↔
      stop = start + size ∧ start + size ≤ available := by
  unfold checkedSpan checkedAdd usizeMax
  by_cases inside : start + size ≤ available
  · have room : start + size ≤ 2 * Target.isizeMax + 1 := by omega
    rw [if_pos room]
    simp only [Nat.not_lt.2 inside, if_false, Except.ok.injEq, inside,
      and_true, eq_comm]
  · have beyond : available < start + size := by omega
    constructor
    · intro found
      split at found
      · cases found
      next stop sum =>
          split at sum
          · cases sum
            rw [if_pos beyond] at found
            cases found
          · cases sum
    · exact fun found => absurd found.2 inside

/-- A copy appends the range its operands name. -/
theorem applyDeltaCopyOp_ok
    {op : UInt8}
    (copies : 128 ≤ op.toNat)
    {delta base : Bytes}
    (fits : base.length ≤ Target.isizeMax)
    {cursor : Nat}
    {out : Bytes}
    {next : Nat × Bytes} :
    applyDeltaCopyOp op delta cursor base out = .ok next ↔
      ∃ (instruction : Instruction) (bytes : Bytes),
        instruction.Encodes (op :: bytes) ∧
          instruction.Within base ∧
          delta.drop cursor = bytes ++ delta.drop next.1 ∧
          next.1 = cursor + bytes.length ∧
          next.2 = out ++ instruction.produces base := by
  have chosen (size : UInt32) (digits : Sparse)
      (same : size.toNat = digits.value) :
      (if size = 0 then gitDeltaDefaultCopySize else size).toNat =
        if digits.value = 0 then defaultCopySize else digits.value := by
    by_cases zero : size = 0
    · have none : digits.value = 0 := by
        rw [← same, zero]
        rfl
      rw [if_pos zero, if_pos none]
      rfl
    · have some : digits.value ≠ 0 := by
        intro none
        exact zero (UInt32.toNat_inj.1 (same.trans none))
      rw [if_neg zero, if_neg some, same]
  unfold applyDeltaCopyOp
  simp only [bind_ok_iff, pure, Except.pure, Except.ok.injEq]
  constructor
  · rintro ⟨offset, offsetRead, size, sizeRead, stop, spanned, span, taken,
      rfl⟩
    rcases (readPackedOperand_ok delta _ (by decide)).1 offsetRead with
      ⟨offsets, four, offsetFlags, offsetValue, offsetBytes, offsetCursor⟩
    rcases (readPackedOperand_ok delta _ (by decide)).1 sizeRead with
      ⟨sizes, three, sizeFlags, sizeValue, sizeBytes, sizeCursor⟩
    rcases (checkedSpan_ok fits _ _).1 spanned with ⟨rfl, within⟩
    rw [subslice_of_le within, chosen size.1 sizes sizeValue,
      offsetValue] at taken
    rw [chosen size.1 sizes sizeValue, offsetValue] at within
    cases taken
    have lowFlags := offsets.flags_lt
    have highFlags := sizes.flags_lt
    rw [four] at lowFlags
    rw [three] at highFlags
    refine ⟨_, offsets.bytes ++ sizes.bytes,
      .copy four three
        ((copyOpcode_iff copies lowFlags highFlags).2
          ⟨offsetFlags, sizeFlags⟩), within, ?_, ?_, rfl⟩
    · rw [offsetBytes, sizeBytes, List.append_assoc]
    · rw [sizeCursor, offsetCursor, List.length_append, Nat.add_assoc]
  · rintro ⟨instruction, bytes, encodes, within, front, behind, appended⟩
    cases encodes with
    | @copy _ offsets sizes four three flagged =>
        have lowFlags := offsets.flags_lt
        have highFlags := sizes.flags_lt
        rw [four] at lowFlags
        rw [three] at highFlags
        rcases (copyOpcode_iff copies lowFlags highFlags).1 flagged with
          ⟨offsetFlags, sizeFlags⟩
        rw [List.append_assoc] at front
        rcases
          readPackedOperand_of_digits "truncated delta copy offset"
            (by decide) four offsetFlags front with
          ⟨offset, offsetValue, offsetRead⟩
        rcases
          readPackedOperand_of_digits "truncated delta copy size"
            (by decide) three sizeFlags (drop_behind front) with
          ⟨size, sizeValue, sizeRead⟩
        have range :
            offset.toNat +
                (if size = 0 then gitDeltaDefaultCopySize
                  else size).toNat ≤ base.length := by
          rw [chosen size sizes sizeValue, offsetValue]
          exact within
        refine
          ⟨_, offsetRead, _, sizeRead, _,
            (checkedSpan_ok fits _ _).2 ⟨rfl, range⟩, _,
            subslice_of_le range, ?_⟩
        apply Prod.ext
        · rw [behind, List.length_append, Nat.add_assoc]
        · rw [appended, chosen size sizes sizeValue, offsetValue]
          rfl
    | insert counted short present => exact absurd copies (by omega)

/-- An insert appends the bytes behind its opcode. -/
theorem applyDeltaInsertOp_ok
    {op : UInt8}
    (short : op.toNat < 128)
    (present : op.toNat ≠ 0)
    {delta : Bytes}
    (fits : delta.length ≤ Target.isizeMax)
    (base : Bytes)
    {cursor : Nat}
    (inside : cursor ≤ delta.length)
    {out : Bytes}
    {next : Nat × Bytes} :
    applyDeltaInsertOp op delta cursor out = .ok next ↔
      ∃ (instruction : Instruction) (bytes : Bytes),
        instruction.Encodes (op :: bytes) ∧
          instruction.Within base ∧
          delta.drop cursor = bytes ++ delta.drop next.1 ∧
          next.1 = cursor + bytes.length ∧
          next.2 = out ++ instruction.produces base := by
  unfold applyDeltaInsertOp
  simp only [bind_ok_iff, pure, Except.pure, Except.ok.injEq]
  constructor
  · rintro ⟨stop, spanned, span, taken, rfl⟩
    rcases (checkedSpan_ok fits _ _).1 spanned with ⟨rfl, within⟩
    rw [subslice_of_le within] at taken
    cases taken
    have length :
        ((delta.drop cursor).take op.toNat).length = op.toNat := by
      rw [List.length_take, List.length_drop]
      omega
    refine ⟨_, _, .insert length.symm short present, trivial, ?_, ?_, rfl⟩
    · rw [← List.drop_drop, List.take_append_drop]
    · rw [length]
  · rintro ⟨instruction, bytes, encodes, -, front, behind, appended⟩
    cases encodes with
    | copy four three flagged => exact absurd short (by omega)
    | insert counted _ _ =>
        have within : cursor + op.toNat ≤ delta.length := by
          have lengths := congrArg List.length front
          rw [List.length_append, List.length_drop] at lengths
          omega
        refine
          ⟨_, (checkedSpan_ok fits _ _).2 ⟨rfl, within⟩, _,
            subslice_of_le within, ?_⟩
        apply Prod.ext
        · exact (behind.trans (by rw [counted])).symm
        · rw [appended, front, counted, List.take_left]
          rfl

/-- The instruction behind an opcode. -/
theorem applyDeltaOp_ok
    {op : UInt8}
    {base delta : Bytes}
    (baseFits : base.length ≤ Target.isizeMax)
    (deltaFits : delta.length ≤ Target.isizeMax)
    {cursor : Nat}
    (inside : cursor ≤ delta.length)
    {out : Bytes}
    {next : Nat × Bytes} :
    applyDeltaOp op delta cursor base out = .ok next ↔
      ∃ (instruction : Instruction) (bytes : Bytes),
        instruction.Encodes (op :: bytes) ∧
          instruction.Within base ∧
          delta.drop cursor = bytes ++ delta.drop next.1 ∧
          next.1 = cursor + bytes.length ∧
          next.2 = out ++ instruction.produces base := by
  unfold applyDeltaOp
  by_cases copies : op &&& 0x80 ≠ 0
  · rw [if_pos copies]
    exact applyDeltaCopyOp_ok ((copies_iff op).1 copies) baseFits
  · have short : op.toNat < 128 := by
      have high := mt (copies_iff op).2 copies
      omega
    rw [if_neg copies]
    by_cases reserved : op = 0
    · subst reserved
      rw [if_pos rfl]
      simp only [reduceCtorEq, false_iff]
      rintro ⟨instruction, bytes, encodes, -⟩
      cases encodes with
      | copy four three flagged =>
          rw [UInt8.toNat_zero] at flagged
          omega
      | insert counted short present => exact present rfl
    · have present : op.toNat ≠ 0 := by
        intro zero
        exact reserved (UInt8.toNat_inj.1 zero)
      rw [if_neg reserved]
      exact applyDeltaInsertOp_ok short present deltaFits base inside

/-- One turn of the loop reads one instruction. -/
theorem applyDeltaTurn_ok
    {base delta : Bytes}
    (baseFits : base.length ≤ Target.isizeMax)
    (deltaFits : delta.length ≤ Target.isizeMax)
    {dstSize cursor : Nat}
    {out : Bytes}
    {next : Nat × Bytes} :
    applyDeltaTurn base delta dstSize cursor out = .ok next ↔
      ∃ (instruction : Instruction) (bytes : Bytes),
        instruction.Encodes bytes ∧
          instruction.Within base ∧
          delta.drop cursor = bytes ++ delta.drop next.1 ∧
          next.1 = cursor + bytes.length ∧
          next.2 = out ++ instruction.produces base ∧
          next.2.length ≤ dstSize := by
  unfold applyDeltaTurn index
  rw [bind_ok_iff]
  constructor
  · rintro ⟨op, indexed, rest⟩
    rcases bind_ok_iff.1 rest with ⟨after, applied, bounded⟩
    split at indexed
    next byte found =>
        cases indexed
        split at bounded
        · cases bounded
        next small =>
            cases bounded
            have here : cursor < delta.length :=
              (List.getElem?_eq_some_iff.1 found).1
            rcases
              (applyDeltaOp_ok baseFits deltaFits here).1 applied with
              ⟨instruction, bytes, encodes, within, front, behind,
                appended⟩
            refine
              ⟨instruction, op :: bytes, encodes, within, ?_, ?_,
                appended, Nat.not_lt.1 small⟩
            · rw [drop_cons_of_getElem? found, front, List.cons_append]
            · rw [behind, List.length_cons]
              omega
    next missing => cases indexed
  · rintro ⟨instruction, bytes, encodes, within, front, behind, appended,
      small⟩
    rcases encodes.exists_cons with ⟨op, rest, rfl⟩
    rcases getElem?_of_drop_cons front with ⟨found, tail⟩
    have here : cursor < delta.length :=
      (List.getElem?_eq_some_iff.1 found).1
    refine ⟨op, by rw [found], ?_⟩
    refine bind_ok_iff.2 ⟨next, ?_, if_neg (Nat.not_lt.2 small)⟩
    apply (applyDeltaOp_ok baseFits deltaFits here).2
    refine ⟨instruction, rest, encodes, within, tail, ?_, appended⟩
    rw [behind, List.length_cons]
    omega

/-! ## The whole delta -/

theorem applyDeltaTurn_advances
    {base delta : Slice}
    {dstSize cursor : Nat}
    {out : Bytes}
    {next : Nat × Bytes}
    (turn :
      applyDeltaTurn base.bytes delta.bytes dstSize cursor out =
        .ok next) :
    cursor < next.1 := by
  rcases (applyDeltaTurn_ok base.fits delta.fits).1 turn with
    ⟨instruction, bytes, encodes, -, -, behind, -⟩
  rcases encodes.exists_cons with ⟨opcode, rest, rfl⟩
  rw [behind, List.length_cons]
  omega

/-- The loop of `apply_delta`. -/
def applyDeltaFrom
    (base delta : Slice)
    (dstSize cursor : Nat)
    (out : Bytes) : Except Halt Bytes :=
  if cursor < delta.bytes.length then
    match _ :
        applyDeltaTurn base.bytes delta.bytes dstSize cursor out with
    | .error halt => .error halt
    | .ok next => applyDeltaFrom base delta dstSize next.1 next.2
  else .ok out
termination_by delta.bytes.length - cursor
decreasing_by
  have advances := applyDeltaTurn_advances (by assumption)
  omega

/-- `MAX_DECOMPRESSED_BYTES`. -/
def maxDecompressedBytes : UInt64 := 1024 * 1024 * 1024

/-- A decoded pack object. -/
structure ResolvedObject where
  payload : Slice
  kind : ObjectKind

/-- What stays under the cap is a vector. -/
theorem fits_of_capped
    {dstSize : UInt64}
    (capped : ¬ maxDecompressedBytes < dstSize)
    {out : Bytes}
    (produced : out.length = dstSize.toNat) :
    out.length ≤ Target.isizeMax := by
  have wide := Target.wide
  have cap : dstSize.toNat ≤ maxDecompressedBytes.toNat :=
    UInt64.le_iff_toNat_le.1 (UInt64.not_lt.1 capped)
  have gibibyte : maxDecompressedBytes.toNat = 2 ^ 30 := rfl
  omega

/--
`apply_delta` behind its two size headers.  The casts between `usize` and
`u64` lose nothing, so sizes are compared as numbers.
-/
def applyDeltaSized
    (base : ResolvedObject)
    (delta : Slice)
    (srcSize dstSize : UInt64)
    (cursor : Nat) : Except Halt ResolvedObject :=
  if srcSize.toNat ≠ base.payload.bytes.length then
    .error
      (malformedDelta "delta source size does not match base object size")
  else if capped : maxDecompressedBytes < dstSize then
    .error (malformedDelta "delta destination size exceeds 1 GiB cap")
  else if usizeMax < dstSize.toNat then
    .error (malformedDelta "delta destination size exceeds usize")
  else
    match
      applyDeltaFrom base.payload delta dstSize.toNat cursor [] with
    | .error halt => .error halt
    | .ok out =>
        if produced : out.length = dstSize.toNat then
          .ok ⟨⟨out, fits_of_capped capped produced⟩, base.kind⟩
        else
          .error
            (malformedDelta
              "produced object does not match announced destination size")

/-- `apply_delta`. -/
def applyDelta (base : ResolvedObject) (delta : Slice) :
    Except Halt ResolvedObject :=
  match readSizeVarint delta.bytes 0 with
  | none => .error (malformedDelta "truncated source size header")
  | some source =>
      match readSizeVarint delta.bytes source.2 with
      | none => .error (malformedDelta "truncated destination size header")
      | some target =>
          applyDeltaSized base delta source.1 target.1
            (source.2 + target.2)

/-- A turn of the loop, from the instruction that stands there. -/
theorem applyDeltaTurn_of_encodes
    {base delta : Slice}
    {instruction : Instruction}
    {bytes following : Bytes}
    (encodes : instruction.Encodes bytes)
    (within : instruction.Within base.bytes)
    {cursor : Nat}
    (front : delta.bytes.drop cursor = bytes ++ following)
    {dstSize : Nat}
    {out : Bytes}
    (small : (out ++ instruction.produces base.bytes).length ≤ dstSize) :
    applyDeltaTurn base.bytes delta.bytes dstSize cursor out =
      .ok (cursor + bytes.length, out ++ instruction.produces base.bytes) :=
  (applyDeltaTurn_ok base.fits delta.fits).2
    ⟨instruction, bytes, encodes, within,
      by rw [drop_behind front, front], rfl, rfl, small⟩

/-- The loop reads the instructions up to the end of the delta. -/
theorem applyDeltaFrom_ok
    (base delta : Slice)
    {dstSize cursor : Nat}
    {out result : Bytes}
    (room : out.length ≤ dstSize) :
    applyDeltaFrom base delta dstSize cursor out = .ok result ↔
      ∃ instructions,
        Stream instructions (delta.bytes.drop cursor) ∧
          (∀ instruction ∈ instructions,
            instruction.Within base.bytes) ∧
          result = out ++ produced base.bytes instructions ∧
          result.length ≤ dstSize := by
  fun_induction applyDeltaFrom base delta dstSize cursor out with
  | case1 cursor out inside halt turn =>
      simp only [reduceCtorEq, false_iff]
      rintro ⟨instructions, stream, within, rfl, small⟩
      generalize front : delta.bytes.drop cursor = rest at stream
      cases stream with
      | nil => exact absurd (List.drop_eq_nil_iff.1 front) (by omega)
      | cons first following =>
          rw [applyDeltaTurn_of_encodes first
            (within _ List.mem_cons_self) front] at turn
          · cases turn
          · simp only [produced_cons, List.length_append] at small ⊢
            omega
  | case2 cursor out inside next turn hypothesis =>
      rcases (applyDeltaTurn_ok base.fits delta.fits).1 turn with
        ⟨instruction, bytes, encodes, stays, front, behind, longer, room⟩
      rw [hypothesis room]
      constructor
      · rintro ⟨instructions, stream, within, rfl, small⟩
        refine ⟨instruction :: instructions, ?_, ?_, ?_, small⟩
        · rw [front]
          exact .cons encodes stream
        · exact List.forall_mem_cons.2 ⟨stays, within⟩
        · rw [longer, produced_cons, List.append_assoc]
      · rintro ⟨instructions, stream, within, rfl, small⟩
        generalize begins : delta.bytes.drop cursor = rest at stream
        cases stream with
        | nil => exact absurd (List.drop_eq_nil_iff.1 begins) (by omega)
        | @cons read instructions bytes _ first following =>
            have enough :
                (out ++ read.produces base.bytes).length ≤ dstSize := by
              simp only [produced_cons, List.length_append] at small ⊢
              omega
            rw [applyDeltaTurn_of_encodes first
              (within _ List.mem_cons_self) begins enough] at turn
            cases turn
            refine
              ⟨instructions, ?_,
                fun instruction member =>
                  within instruction (List.mem_cons_of_mem read member),
                ?_, small⟩
            · rw [drop_behind begins]
              exact following
            · rw [produced_cons, List.append_assoc]
  | case3 cursor out beyond =>
      have empty : delta.bytes.drop cursor = [] :=
        List.drop_eq_nil_iff.2 (Nat.not_lt.1 beyond)
      rw [empty, Except.ok.injEq]
      constructor
      · rintro rfl
        exact ⟨[], .nil, by simp, by simp, room⟩
      · rintro ⟨instructions, stream, -, rfl, -⟩
        generalize nothing : ([] : Bytes) = rest at stream
        cases stream with
        | nil => simp
        | cons first following =>
            rcases first.exists_cons with ⟨opcode, bytes, rfl⟩
            cases nothing

theorem applyDeltaSized_ok
    {base result : ResolvedObject}
    {delta : Slice}
    {srcSize dstSize : UInt64}
    {cursor : Nat} :
    applyDeltaSized base delta srcSize dstSize cursor = .ok result ↔
      ∃ instructions,
        Stream instructions (delta.bytes.drop cursor) ∧
          dstSize.toNat ≤ maxDecompressedBytes.toNat ∧
          (Delta.mk srcSize.toNat dstSize.toNat instructions).Applies
            base.payload.bytes result.payload.bytes ∧
          result.kind = base.kind := by
  have loop (out : Bytes) :
      applyDeltaFrom base.payload delta dstSize.toNat cursor [] = .ok out ↔
        ∃ instructions,
          Stream instructions (delta.bytes.drop cursor) ∧
            (∀ instruction ∈ instructions,
              instruction.Within base.payload.bytes) ∧
            out = [] ++ produced base.payload.bytes instructions ∧
            out.length ≤ dstSize.toNat :=
    applyDeltaFrom_ok base.payload delta (Nat.zero_le _)
  unfold applyDeltaSized
  split
  next differs =>
      simp only [reduceCtorEq, false_iff]
      rintro ⟨instructions, -, -, applies, -⟩
      exact differs applies.source
  next source =>
  split
  next capped =>
      simp only [reduceCtorEq, false_iff]
      rintro ⟨instructions, -, small, -⟩
      exact Nat.not_lt.2 small (UInt64.lt_iff_toNat_lt.1 capped)
  next capped =>
  have small : dstSize.toNat ≤ maxDecompressedBytes.toNat :=
    UInt64.le_iff_toNat_le.1 (UInt64.not_lt.1 capped)
  have addressable : ¬ usizeMax < dstSize.toNat := by
    have wide := Target.wide
    have gibibyte : maxDecompressedBytes.toNat = 2 ^ 30 := rfl
    unfold usizeMax
    omega
  rw [if_neg addressable]
  constructor
  · intro applied
    split at applied
    · cases applied
    next out ran =>
    split at applied
    next size =>
        cases applied
        rcases (loop out).1 ran with ⟨instructions, stream, within, rfl, -⟩
        exact
          ⟨instructions, stream, small,
            ⟨not_not.1 source, within, rfl, size⟩, rfl⟩
    · cases applied
  · rintro ⟨instructions, stream, -, applies, kind⟩
    have ran := (loop result.payload.bytes).2
      ⟨instructions, stream, applies.within, applies.denotes,
        Nat.le_of_eq applies.size⟩
    split
    next halt stopped => cases ran.symm.trans stopped
    next out again =>
        cases ran.symm.trans again
        rw [dif_pos applies.size]
        cases result
        cases kind
        rfl

/--
`apply_delta` returns an object exactly when the delta is well formed, is of
the base, stays within the cap and produces what it announces.
-/
theorem applyDelta_ok
    {base : ResolvedObject}
    {delta : Slice}
    {result : ResolvedObject} :
    applyDelta base delta = .ok result ↔
      ∃ written : Delta,
        written.Encodes SizeVarint delta.bytes ∧
          written.target ≤ maxDecompressedBytes.toNat ∧
          written.Applies base.payload.bytes result.payload.bytes ∧
          result.kind = base.kind := by
  unfold applyDelta
  constructor
  · intro applied
    split at applied
    · cases applied
    next source sourceRead =>
    split at applied
    · cases applied
    next target targetRead =>
    rcases applyDeltaSized_ok.1 applied with
      ⟨instructions, stream, small, applies, kind⟩
    rcases (readSizeVarint_eq_some delta.bytes).1 sourceRead with
      ⟨sourceBytes, sourceSize, sourceFront, sourceTaken⟩
    rcases (readSizeVarint_eq_some delta.bytes).1 targetRead with
      ⟨targetBytes, targetSize, targetFront, targetTaken⟩
    refine ⟨_, ?_, small, applies, kind⟩
    have whole :
        delta.bytes =
          sourceBytes ++ (targetBytes ++
            delta.bytes.drop (source.2 + target.2)) := by
      rw [← targetFront]
      simpa using sourceFront
    rw [whole]
    exact .intro sourceSize targetSize stream
  · rintro ⟨written, encodes, small, applies, kind⟩
    generalize whole : delta.bytes = bytes at encodes
    cases encodes with
    | @intro sourceBytes targetBytes rest sourceSize targetSize stream =>
        have sourceFront :
            delta.bytes.drop 0 = sourceBytes ++ (targetBytes ++ rest) :=
          whole
        have targetFront := drop_behind sourceFront
        rw [Nat.zero_add] at targetFront
        have behind := drop_behind targetFront
        have sourceRead :=
          readSizeVarint_of_bytes sourceSize sourceFront
        have targetRead :=
          readSizeVarint_of_bytes targetSize targetFront
        have sourceWord := toNat_ofNat_of_sizeVarint sourceSize
        have targetWord := toNat_ofNat_of_sizeVarint targetSize
        rw [← whole]
        simp only [sourceRead, targetRead]
        apply applyDeltaSized_ok.2
        rw [sourceWord, targetWord, behind]
        exact ⟨written.instructions, stream, small, applies, kind⟩

theorem refuses_checkedSpan
    (start size available : Nat)
    (overflow exceeds : String) :
    Refuses (checkedSpan start size available overflow exceeds) := by
  unfold checkedSpan
  split
  · exact Refuses.refusal overflow
  · split
    · exact Refuses.refusal exceeds
    · exact Refuses.ok _

/-- A span that has been checked can be taken. -/
theorem refuses_spanned
    {bytes : Bytes}
    (fits : bytes.length ≤ Target.isizeMax)
    {start size : Nat}
    {overflow exceeds : String}
    {α : Type}
    {next : Nat → Bytes → Except Halt α}
    (continues : ∀ stop span, Refuses (next stop span)) :
    Refuses
      (checkedSpan start size bytes.length overflow exceeds >>=
        fun stop => subslice bytes start stop >>= next stop) := by
  apply (refuses_checkedSpan _ _ _ _ _).bind
  intro stop spanned
  rcases (checkedSpan_ok fits _ _).1 spanned with ⟨rfl, within⟩
  rw [subslice_of_le within]
  exact continues _ _

theorem refuses_applyDeltaTurn
    (base delta : Slice)
    (dstSize : Nat)
    {cursor : Nat}
    (inside : cursor < delta.bytes.length)
    (out : Bytes) :
    Refuses
      (applyDeltaTurn base.bytes delta.bytes dstSize cursor out) := by
  unfold applyDeltaTurn index
  rw [List.getElem?_eq_getElem inside]
  apply Refuses.bind (Refuses.ok _)
  intro op _
  apply Refuses.bind
  · unfold applyDeltaOp
    split
    · unfold applyDeltaCopyOp
      apply (refuses_readPackedOperand _ _ _ _ _).bind
      intro offset _
      apply (refuses_readPackedOperand _ _ _ _ _).bind
      intro size _
      exact refuses_spanned base.fits fun _ _ => Refuses.ok _
    · split
      · exact Refuses.refusal _
      · exact refuses_spanned delta.fits fun _ _ => Refuses.ok _
  · intro next _
    split
    · exact Refuses.refusal _
    · exact Refuses.ok _

theorem refuses_applyDeltaFrom
    (base delta : Slice)
    (dstSize cursor : Nat)
    (out : Bytes) :
    Refuses (applyDeltaFrom base delta dstSize cursor out) := by
  fun_induction applyDeltaFrom base delta dstSize cursor out with
  | case1 cursor out inside halt turn =>
      have refuses :=
        refuses_applyDeltaTurn base delta dstSize inside out
      rw [turn] at refuses
      exact fun stopped same => by
        cases same
        exact refuses halt rfl
  | case2 cursor out inside next turn hypothesis => exact hypothesis
  | case3 cursor out beyond => exact Refuses.ok out

theorem refuses_applyDelta (base : ResolvedObject) (delta : Slice) :
    Refuses (applyDelta base delta) := by
  unfold applyDelta
  split
  · exact Refuses.refusal _
  · split
    · exact Refuses.refusal _
    next target _ =>
        unfold applyDeltaSized
        split
        · exact Refuses.refusal _
        split
        · exact Refuses.refusal _
        split
        · exact Refuses.refusal _
        split
        next halt stopped =>
            intro again same
            cases same
            exact refuses_applyDeltaFrom _ _ _ _ _ halt stopped
        · split
          · exact Refuses.ok _
          · exact Refuses.refusal _

/--
On every base and every delta, `apply_delta` returns the object a well-formed
delta denotes and refuses everything else; it never reads out of range.
-/
theorem applyDelta_correct (base : ResolvedObject) (delta : Slice) :
    (∀ result,
      applyDelta base delta = .ok result ↔
        ∃ written : Delta,
          written.Encodes SizeVarint delta.bytes ∧
            written.target ≤ maxDecompressedBytes.toNat ∧
            written.Applies base.payload.bytes result.payload.bytes ∧
            result.kind = base.kind) ∧
      ((∃ result, applyDelta base delta = .ok result) ∨
        ∃ reason,
          applyDelta base delta = .error (.error (.malformedDelta reason)))
    := by
  constructor
  · intro result
    exact applyDelta_ok
  · cases applied : applyDelta base delta with
    | ok result => exact Or.inl ⟨result, rfl⟩
    | error halt =>
        rcases refuses_applyDelta base delta halt applied with
          ⟨reason, rfl⟩
        exact Or.inr ⟨reason, rfl⟩

end GitRemoteObjectStore
