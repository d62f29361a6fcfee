import Mathlib.Data.List.Basic
import Mathlib.Tactic.Ring

/-!
# Copy-and-insert deltas

A delta rebuilds one byte string out of another.  It declares the sizes of
the two and lists instructions: a copy takes a range of the base, an insert
carries its bytes along.  This module is the grammar alone: which byte
strings are deltas, and what they denote.
-/

namespace DeltaFormat

abbrev Bytes := List UInt8

/-! ## Sizes -/

/--
A size in groups of seven bits, the lowest first.  Every byte but the last
has its high bit set.
-/
inductive Size : Bytes → Nat → Prop where
  | last {byte : UInt8} (final : byte.toNat < 128) :
      Size [byte] byte.toNat
  | more {byte : UInt8} {rest : Bytes} {value : Nat}
      (continues : 128 ≤ byte.toNat)
      (following : Size rest value) :
      Size (byte :: rest) (byte.toNat - 128 + 128 * value)

theorem Size.ne_nil
    {bytes : Bytes}
    {value : Nat}
    (size : Size bytes value) :
    bytes ≠ [] := by
  cases size <;> simp

/-- Where a size ends, and what it is, shows while it is read. -/
theorem Size.unique
    {left right leftRest rightRest : Bytes}
    {leftValue rightValue : Nat}
    (leftSize : Size left leftValue)
    (rightSize : Size right rightValue)
    (same : left ++ leftRest = right ++ rightRest) :
    left = right ∧ leftValue = rightValue := by
  induction leftSize generalizing right rightValue with
  | last final =>
      cases rightSize with
      | last other =>
          cases same
          exact ⟨rfl, rfl⟩
      | more continues following =>
          cases same
          exact absurd final (Nat.not_lt.2 continues)
  | more continues following hypothesis =>
      cases rightSize with
      | last other =>
          cases same
          exact absurd other (Nat.not_lt.2 continues)
      | more otherContinues otherFollowing =>
          rw [List.cons_append, List.cons_append, List.cons.injEq] at same
          rcases same with ⟨rfl, rest⟩
          rcases hypothesis otherFollowing rest with ⟨rfl, rfl⟩
          exact ⟨rfl, rfl⟩

/-- A size is its last group above all the others. -/
theorem Size.split
    {bytes : Bytes}
    {value : Nat}
    (size : Size bytes value) :
    ∃ leading last low,
      bytes = leading ++ [last] ∧
        (∀ byte ∈ leading, 128 ≤ byte.toNat) ∧
        last.toNat < 128 ∧
        low < 128 ^ leading.length ∧
        value = low + 128 ^ leading.length * last.toNat := by
  induction size with
  | @last byte final =>
      exact
        ⟨[], byte, 0, rfl, fun _ member => absurd member List.not_mem_nil,
          final, Nat.one_pos, by simp⟩
  | @more byte rest value continues following hypothesis =>
      rcases hypothesis with
        ⟨leading, last, low, rfl, high, final, small, rfl⟩
      have bound := byte.toNat_lt
      refine
        ⟨byte :: leading, last, byte.toNat - 128 + 128 * low, rfl, ?_,
          final, ?_, ?_⟩
      · intro other member
        rcases List.mem_cons.1 member with rfl | member
        · exact continues
        · exact high other member
      · rw [List.length_cons, Nat.pow_succ]
        omega
      · rw [List.length_cons, Nat.pow_succ]
        ring

/-- The bytes of a size, read off from both sides. -/
theorem exists_size
    {leading : Bytes}
    {last : UInt8}
    (high : ∀ byte ∈ leading, 128 ≤ byte.toNat)
    (final : last.toNat < 128) :
    ∃ low, Size (leading ++ [last])
      (low + 128 ^ leading.length * last.toNat) := by
  induction leading with
  | nil => exact ⟨0, by simpa using Size.last final⟩
  | cons byte rest hypothesis =>
      rcases
          hypothesis fun other member =>
            high other (List.mem_cons_of_mem _ member) with
        ⟨low, size⟩
      refine ⟨byte.toNat - 128 + 128 * low, ?_⟩
      have whole := Size.more (high byte List.mem_cons_self) size
      have value :
          byte.toNat - 128 +
              128 * (low + 128 ^ rest.length * last.toNat) =
            byte.toNat - 128 + 128 * low +
              128 ^ (byte :: rest).length * last.toNat := by
        rw [List.length_cons, Nat.pow_succ]
        ring
      rw [value] at whole
      exact whole

/-- The shortest way to write a size. -/
def sizeBytes (value : Nat) : Bytes :=
  if value < 128 then [UInt8.ofNat value]
  else UInt8.ofNat (value % 128 + 128) :: sizeBytes (value / 128)

theorem size_sizeBytes (value : Nat) : Size (sizeBytes value) value := by
  induction value using sizeBytes.induct with
  | case1 value small =>
      rw [sizeBytes, if_pos small]
      have byte : (UInt8.ofNat value).toNat = value :=
        UInt8.toNat_ofNat_of_lt' (Nat.lt_trans small (by decide))
      have size : Size [UInt8.ofNat value] (UInt8.ofNat value).toNat :=
        .last (by rw [byte]; exact small)
      rw [byte] at size
      exact size
  | case2 value large hypothesis =>
      rw [sizeBytes, if_neg large]
      have byte :
          (UInt8.ofNat (value % 128 + 128)).toNat = value % 128 + 128 :=
        UInt8.toNat_ofNat_of_lt'
          (Nat.add_lt_add_right (Nat.mod_lt value (by decide)) 128)
      have size :=
        Size.more
          (show 128 ≤ (UInt8.ofNat (value % 128 + 128)).toNat by
            rw [byte]
            exact Nat.le_add_left 128 _)
          hypothesis
      rw [byte, Nat.add_sub_cancel, Nat.mod_add_div] at size
      exact size

theorem length_sizeBytes_le
    {count value : Nat}
    (small : value < 128 ^ (count + 1)) :
    (sizeBytes value).length ≤ count + 1 := by
  induction count generalizing value with
  | zero => rw [sizeBytes, if_pos (by simpa using small)]; simp
  | succ count hypothesis =>
      rw [sizeBytes]
      split
      · simp
      · rw [List.length_cons]
        exact
          Nat.succ_le_succ
            (hypothesis
              (Nat.div_lt_of_lt_mul (by rw [Nat.mul_comm]; exact small)))

/-! ## Sparse numbers -/

/-- A little-endian number some of whose bytes are left out as zero. -/
abbrev Sparse := List (Option UInt8)

namespace Sparse

/-- Bit `i` is set when byte `i` is there. -/
def flags : Sparse → Nat
  | [] => 0
  | none :: rest => 2 * flags rest
  | some _ :: rest => 1 + 2 * flags rest

/-- The bytes that are there. -/
def bytes : Sparse → Bytes
  | [] => []
  | none :: rest => bytes rest
  | some byte :: rest => byte :: bytes rest

def value : Sparse → Nat
  | [] => 0
  | none :: rest => 256 * value rest
  | some byte :: rest => byte.toNat + 256 * value rest

theorem flags_cons (digit : Option UInt8) (digits : Sparse) :
    flags (digit :: digits) = flags [digit] + 2 * flags digits := by
  cases digit with
  | none => exact (Nat.zero_add _).symm
  | some byte => rfl

theorem bytes_cons (digit : Option UInt8) (digits : Sparse) :
    bytes (digit :: digits) = bytes [digit] ++ bytes digits := by
  cases digit <;> rfl

theorem value_cons (digit : Option UInt8) (digits : Sparse) :
    value (digit :: digits) = value [digit] + 256 * value digits := by
  cases digit with
  | none => exact (Nat.zero_add _).symm
  | some byte => rfl

theorem flags_single_lt (digit : Option UInt8) : flags [digit] < 2 := by
  cases digit with
  | none => exact Nat.two_pos
  | some byte => exact Nat.one_lt_two

theorem value_single_lt (digit : Option UInt8) : value [digit] < 256 := by
  cases digit with
  | none => decide
  | some byte => exact byte.toNat_lt

theorem flags_lt (digits : Sparse) : digits.flags < 2 ^ digits.length := by
  induction digits with
  | nil => decide
  | cons digit rest hypothesis =>
      rw [List.length_cons, Nat.pow_succ, flags_cons]
      have bit : flags [digit] < 2 := flags_single_lt digit
      omega

theorem value_lt (digits : Sparse) :
    digits.value < 256 ^ digits.length := by
  induction digits with
  | nil => decide
  | cons digit rest hypothesis =>
      rw [List.length_cons, Nat.pow_succ, value_cons]
      have small : value [digit] < 256 := value_single_lt digit
      omega

end Sparse

/-! ## Instructions -/

/-- What a copy of size zero stands for. -/
def defaultCopySize : Nat := 0x10000

/-- One instruction of a delta. -/
inductive Instruction where
  | copy (offset size : Nat)
  | insert (literal : Bytes)

namespace Instruction

/-- The range that is read lies inside the base. -/
def Within (base : Bytes) : Instruction → Prop
  | copy offset size => offset + size ≤ base.length
  | insert _ => True

/-- What an instruction contributes. -/
def produces (base : Bytes) : Instruction → Bytes
  | copy offset size => (base.drop offset).take size
  | insert literal => literal

/--
How an instruction is written.  A copy begins with a byte whose high bit is
set and whose other bits say which bytes of offset and size follow; an insert
begins with the number of bytes that follow, which is not zero.
-/
inductive Encodes : Instruction → Bytes → Prop where
  | copy {opcode : UInt8} {offset size : Sparse}
      (four : offset.length = 4)
      (three : size.length = 3)
      (flagged :
        opcode.toNat = 128 + 16 * size.flags + offset.flags) :
      Encodes
        (.copy offset.value
          (if size.value = 0 then defaultCopySize else size.value))
        (opcode :: (offset.bytes ++ size.bytes))
  | insert {opcode : UInt8} {literal : Bytes}
      (counted : opcode.toNat = literal.length)
      (short : opcode.toNat < 128)
      (present : opcode.toNat ≠ 0) :
      Encodes (.insert literal) (opcode :: literal)

/-- An instruction is written with at least its opcode. -/
theorem Encodes.exists_cons
    {instruction : Instruction}
    {bytes : Bytes}
    (encodes : instruction.Encodes bytes) :
    ∃ opcode rest, bytes = opcode :: rest := by
  cases encodes with
  | copy four three flagged => exact ⟨_, _, rfl⟩
  | insert counted short present => exact ⟨_, _, rfl⟩

end Instruction

/-- Instructions written one after the other. -/
inductive Stream : List Instruction → Bytes → Prop where
  | nil : Stream [] []
  | cons {instruction : Instruction} {instructions : List Instruction}
      {bytes following : Bytes}
      (first : instruction.Encodes bytes)
      (rest : Stream instructions following) :
      Stream (instruction :: instructions) (bytes ++ following)

/-- What instructions denote, all together. -/
def produced (base : Bytes) (instructions : List Instruction) : Bytes :=
  instructions.flatMap (Instruction.produces base)

@[simp]
theorem produced_nil (base : Bytes) : produced base [] = [] := rfl

@[simp]
theorem produced_cons
    (base : Bytes)
    (instruction : Instruction)
    (instructions : List Instruction) :
    produced base (instruction :: instructions) =
      instruction.produces base ++ produced base instructions := rfl

/-- A delta: the two sizes it declares and its instructions. -/
structure Delta where
  source : Nat
  target : Nat
  instructions : List Instruction

/-- How a delta is written, its sizes in the given encoding. -/
inductive Delta.Encodes (size : Bytes → Nat → Prop) : Delta → Bytes → Prop
  where
  | intro {delta : Delta} {source target rest : Bytes}
      (sourceSize : size source delta.source)
      (targetSize : size target delta.target)
      (stream : Stream delta.instructions rest) :
      Encodes size delta (source ++ (target ++ rest))

/--
A delta applies to a base: the sizes are those it declares and every copy
stays inside the base.
-/
structure Delta.Applies (delta : Delta) (base target : Bytes) : Prop where
  source : delta.source = base.length
  within : ∀ instruction ∈ delta.instructions, instruction.Within base
  denotes : target = produced base delta.instructions
  size : target.length = delta.target

end DeltaFormat
