import Mathlib.Data.List.Basic
import GitRemoteObjectStore.Schema
import GitRemoteObjectStore.Library.PercentEncoding

/-!
# Object names as bytes

An object name is written as 40 lowercase hex digits and read from 40 hex
digits of either case.
-/

namespace GitRemoteObjectStore

open PercentEncoding (utf8)

/-- A hex digit of either case, in lower case. -/
def lowerHex? (character : Char) : Option Char :=
  if isLowerHex character then some character
  else if 'A' ≤ character ∧ character ≤ 'F' then
    some (Char.ofNat (character.toNat + 32))
  else none

/-- A byte that is a hex digit. -/
def hexDigit? (byte : UInt8) : Option Char :=
  lowerHex? (Char.ofNat byte.toNat)

/-- `ObjectId::from_hex` -/
def fromHex? (bytes : List UInt8) : Option Sha :=
  (bytes.mapM hexDigit?).bind Sha40.tryNew

/-- `to_hex` -/
def toHex (sha : Sha) : List UInt8 :=
  utf8 sha.text

/-- The byte that ends a line. -/
def lineFeed : UInt8 := 0x0A

/-! ## Hex digits and their bytes -/

theorem utf8EncodeChar_of_ascii
    {character : Char}
    (ascii : character.toNat < 128) :
    String.utf8EncodeChar character = [UInt8.ofNat character.toNat] := by
  have small : character.val.toNat ≤ 127 := Nat.le_of_lt_succ ascii
  have size : character.utf8Size = 1 := by
    rw [Char.utf8Size_eq_one_iff, UInt32.le_iff_toNat_le]
    exact small
  rw [String.utf8EncodeChar_eq_singleton size]
  rfl

theorem hexDigit?_of_ascii
    {character : Char}
    (ascii : character.toNat < 128) :
    hexDigit? (UInt8.ofNat character.toNat) = lowerHex? character := by
  have same : (UInt8.ofNat character.toNat).toNat = character.toNat := by
    rw [UInt8.toNat_ofNat', Nat.mod_eq_of_lt (by omega)]
  rw [hexDigit?, same, Char.ofNat_toNat]

theorem toNat_lt_of_isLowerHex
    {character : Char}
    (hex : isLowerHex character = true) :
    character.toNat < 128 := by
  simp only [isLowerHex, Bool.or_eq_true, Bool.and_eq_true,
    decide_eq_true_eq] at hex
  rcases hex with ⟨-, upper⟩ | ⟨-, upper⟩
  · have bound : character.toNat ≤ '9'.toNat := upper
    exact Nat.lt_of_le_of_lt bound (by decide)
  · have bound : character.toNat ≤ 'f'.toNat := upper
    exact Nat.lt_of_le_of_lt bound (by decide)

theorem lowerHex?_of_isLowerHex
    {character : Char}
    (hex : isLowerHex character = true) :
    lowerHex? character = some character := by
  rw [lowerHex?, if_pos hex]

theorem toNat_lt_of_lowerHex?
    {character lower : Char}
    (digit : lowerHex? character = some lower) :
    character.toNat < 128 := by
  unfold lowerHex? at digit
  split at digit
  next hex => exact toNat_lt_of_isLowerHex hex
  · split at digit
    next upper =>
        have bound : character.toNat ≤ 'F'.toNat := upper.2
        exact Nat.lt_of_le_of_lt bound (by decide)
    · cases digit

/-- No byte past ASCII is a hex digit. -/
theorem hexDigit?_of_first
    {byte : UInt8}
    (past : 128 ≤ byte.toNat) :
    hexDigit? byte = none := by
  cases digit : hexDigit? byte with
  | none => rfl
  | some lower =>
      have ascii := toNat_lt_of_lowerHex? digit
      have valid : Nat.isValidChar byte.toNat :=
        Or.inl (by have := byte.toNat_lt; omega)
      rw [Char.ofNat, dif_pos valid] at ascii
      have same : (Char.ofNatAux byte.toNat valid).toNat = byte.toNat :=
        rfl
      omega

/-- A character past ASCII is written with bytes past ASCII. -/
theorem not_ascii_of_mem
    {character : Char}
    (past : 128 ≤ character.toNat)
    {byte : UInt8}
    (member : byte ∈ String.utf8EncodeChar character) :
    128 ≤ byte.toNat := by
  have marked (low mark : UInt8) (high : 128 ≤ mark.toNat) :
      128 ≤ (low ||| mark).toNat := by
    rw [UInt8.toNat_or]
    exact Nat.le_trans high Nat.right_le_or
  rcases Char.utf8Size_eq character with size | size | size | size
  · rw [Char.utf8Size_eq_one_iff, UInt32.le_iff_toNat_le] at size
    have small : character.toNat ≤ 127 := size
    omega
  · rw [String.utf8EncodeChar_eq_cons_cons size] at member
    simp only [List.mem_cons, List.not_mem_nil, or_false] at member
    rcases member with rfl | rfl <;> exact marked _ _ (by decide)
  · rw [String.utf8EncodeChar_eq_cons_cons_cons size] at member
    simp only [List.mem_cons, List.not_mem_nil, or_false] at member
    rcases member with rfl | rfl | rfl <;> exact marked _ _ (by decide)
  · rw [String.utf8EncodeChar_eq_cons_cons_cons_cons size] at member
    simp only [List.mem_cons, List.not_mem_nil, or_false] at member
    rcases member with rfl | rfl | rfl | rfl <;>
      exact marked _ _ (by decide)

/-- An ASCII byte in a text's UTF-8 is one of the text's characters. -/
theorem mem_utf8_of_ascii
    {character : Char}
    (ascii : character.toNat < 128)
    {text : Text} :
    UInt8.ofNat character.toNat ∈ utf8 text ↔ character ∈ text := by
  unfold utf8
  rw [List.mem_flatMap]
  constructor
  · rintro ⟨other, inside, member⟩
    have small : (UInt8.ofNat character.toNat).toNat = character.toNat := by
      rw [UInt8.toNat_ofNat', Nat.mod_eq_of_lt (by omega)]
    rcases Nat.lt_or_ge other.toNat 128 with low | past
    · rw [utf8EncodeChar_of_ascii low, List.mem_singleton] at member
      have same := congrArg UInt8.toNat member
      rw [small, UInt8.toNat_ofNat', Nat.mod_eq_of_lt (by omega)] at same
      have equal : character = other := Char.toNat_inj.1 same
      rw [equal]
      exact inside
    · have high := not_ascii_of_mem past member
      omega
  · intro inside
    refine ⟨character, inside, ?_⟩
    rw [utf8EncodeChar_of_ascii ascii]
    exact List.mem_singleton_self _

/-! ## Reading what was written -/

/-- The bytes of a text are hex digits exactly when its characters are. -/
theorem mapM_hexDigit?_utf8 (text : Text) :
    (utf8 text).mapM hexDigit? = text.mapM lowerHex? := by
  induction text with
  | nil => rfl
  | cons character rest hypothesis =>
      rw [PercentEncoding.utf8_cons]
      rcases Nat.lt_or_ge character.toNat 128 with ascii | past
      · rw [utf8EncodeChar_of_ascii ascii, List.singleton_append,
          List.mapM_cons, List.mapM_cons, hexDigit?_of_ascii ascii,
          hypothesis]
      · rcases List.exists_cons_of_ne_nil
            (@String.utf8EncodeChar_ne_nil character) with
          ⟨byte, others, bytes⟩
        have first : 128 ≤ byte.toNat := by
          apply not_ascii_of_mem past
          rw [bytes]
          exact List.mem_cons_self
        have none : lowerHex? character = none := by
          cases digit : lowerHex? character with
          | none => rfl
          | some lower =>
              have := toNat_lt_of_lowerHex? digit
              omega
        rw [bytes, List.cons_append, List.mapM_cons, List.mapM_cons,
          hexDigit?_of_first first, none]
        rfl

theorem fromHex?_utf8 (text : Text) :
    fromHex? (utf8 text) = (text.mapM lowerHex?).bind Sha40.tryNew := by
  rw [fromHex?, mapM_hexDigit?_utf8]

theorem mapM_lowerHex?_of_all
    {text : Text}
    (hex : text.all isLowerHex = true) :
    text.mapM lowerHex? = some text := by
  induction text with
  | nil => rfl
  | cons character rest hypothesis =>
      rw [List.all_cons, Bool.and_eq_true] at hex
      rw [List.mapM_cons, lowerHex?_of_isLowerHex hex.1,
        hypothesis hex.2]
      rfl

theorem Sha40.all_isLowerHex (sha : Sha40) :
    sha.text.all isLowerHex = true :=
  (Bool.and_eq_true_iff.1 sha.valid).2

@[simp]
theorem fromHex?_toHex (sha : Sha) : fromHex? (toHex sha) = some sha := by
  rw [toHex, fromHex?_utf8, mapM_lowerHex?_of_all sha.all_isLowerHex,
    Option.bind_some, Sha40.tryNew_text]

theorem utf8_of_all
    {text : Text}
    (hex : text.all isLowerHex = true) :
    utf8 text =
      text.map fun character => UInt8.ofNat character.toNat := by
  induction text with
  | nil => rfl
  | cons character rest hypothesis =>
      rw [List.all_cons, Bool.and_eq_true] at hex
      rw [PercentEncoding.utf8_cons, List.map_cons,
        utf8EncodeChar_of_ascii (toNat_lt_of_isLowerHex hex.1),
        hypothesis hex.2]
      rfl

/-- The bytes of a name are its digits. -/
theorem toHex_eq (sha : Sha) :
    toHex sha =
      sha.text.map fun character => UInt8.ofNat character.toNat :=
  utf8_of_all sha.all_isLowerHex

@[simp]
theorem length_toHex (sha : Sha) : (toHex sha).length = 40 := by
  rw [toHex_eq, List.length_map, sha.length_text]

end GitRemoteObjectStore
