import Mathlib.Data.List.Basic

/-!
# Percent-encoding

Decoding a text turns every `%` with two hex digits into the byte they name
and every other character into its UTF-8.  A text is its own decoding exactly
when it holds no such escape.
-/

namespace PercentEncoding

/-- The bytes of a text. -/
def utf8 (text : List Char) : List UInt8 :=
  text.flatMap String.utf8EncodeChar

/-- The text some bytes are the UTF-8 of. -/
def fromUtf8? (bytes : List UInt8) : Option (List Char) :=
  bytes.toByteArray.utf8Decode?.map Array.toList

/-- The value of a hex digit of either case. -/
def hexValue (digit : Char) : Option Nat :=
  if '0' ≤ digit ∧ digit ≤ '9' then some (digit.toNat - '0'.toNat)
  else if 'a' ≤ digit ∧ digit ≤ 'f' then
    some (digit.toNat - 'a'.toNat + 10)
  else if 'A' ≤ digit ∧ digit ≤ 'F' then
    some (digit.toNat - 'A'.toNat + 10)
  else none

/-- The byte of an escape, if the characters after `%` begin with one. -/
def escape? : List Char → Option UInt8
  | high :: low :: _ =>
      match hexValue high, hexValue low with
      | some first, some second => some (UInt8.ofNat (16 * first + second))
      | _, _ => none
  | _ => none

/-- Percent-decoding; what is no escape stands for itself. -/
def decode : List Char → List UInt8
  | [] => []
  | [character] => String.utf8EncodeChar character
  | [first, second] =>
      String.utf8EncodeChar first ++ String.utf8EncodeChar second
  | first :: high :: low :: rest =>
      if first = '%' then
        match escape? (high :: low :: rest) with
        | some byte => byte :: decode rest
        | none => String.utf8EncodeChar first ++ decode (high :: low :: rest)
      else String.utf8EncodeChar first ++ decode (high :: low :: rest)

/-- A text with an escape in it. -/
def HasEscape (text : List Char) : Prop :=
  ∃ front rest,
    text = front ++ '%' :: rest ∧ (escape? rest).isSome

section Lemmas

variable {text front rest : List Char} {character separator : Char}

@[simp]
theorem utf8_cons :
    utf8 (character :: rest) =
      String.utf8EncodeChar character ++ utf8 rest :=
  List.flatMap_cons

@[simp]
theorem utf8_append (front rest : List Char) :
    utf8 (front ++ rest) = utf8 front ++ utf8 rest :=
  List.flatMap_append

theorem fromUtf8?_utf8 (text : List Char) :
    fromUtf8? (utf8 text) = some text := by
  have encoded : (utf8 text).toByteArray = text.utf8Encode := rfl
  rw [fromUtf8?, encoded, List.utf8Decode?_utf8Encode]
  rfl

/-- Reading UTF-8 is the inverse of writing it. -/
theorem fromUtf8?_eq_some {bytes : List UInt8} :
    fromUtf8? bytes = some text ↔ bytes = utf8 text := by
  constructor
  · intro decoded
    rcases Option.map_eq_some_iff.1 decoded with ⟨characters, found, rfl⟩
    have valid : bytes.toByteArray.utf8Decode?.isSome := by
      rw [found]
      rfl
    have encoded := @ByteArray.utf8Encode_get_utf8Decode? _ valid
    have same := Option.get_of_eq_some valid found
    rw [same] at encoded
    exact (List.toByteArray_inj.1 encoded).symm
  · rintro rfl
    exact fromUtf8?_utf8 text

theorem utf8_injective : Function.Injective utf8 := by
  intro left right same
  have decoded := congrArg fromUtf8? same
  rw [fromUtf8?_utf8, fromUtf8?_utf8] at decoded
  exact Option.some.inj decoded

theorem not_hasEscape_nil : ¬ HasEscape [] := by
  rintro ⟨front, rest, same, -⟩
  cases front <;> cases same

theorem hasEscape_cons :
    HasEscape (character :: rest) ↔
      (character = '%' ∧ (escape? rest).isSome) ∨ HasEscape rest := by
  constructor
  · rintro ⟨front, tail, same, escapes⟩
    cases front with
    | nil =>
        cases same
        exact Or.inl ⟨rfl, escapes⟩
    | cons first others =>
        cases same
        exact Or.inr ⟨others, tail, rfl, escapes⟩
  · rintro (⟨rfl, escapes⟩ | ⟨front, tail, rfl, escapes⟩)
    · exact ⟨[], rest, rfl, escapes⟩
    · exact ⟨character :: front, tail, rfl, escapes⟩

/-- Without a percent sign there is no escape. -/
theorem not_hasEscape_of_notMem (absent : '%' ∉ text) :
    ¬ HasEscape text := by
  rintro ⟨front, rest, rfl, -⟩
  simp at absent

/-- An escape does not reach over a character that is no hex digit. -/
theorem escape?_append
    (plain : hexValue separator = none) :
    escape? (front ++ separator :: rest) = escape? front := by
  match front with
  | [] =>
      cases rest with
      | nil => rfl
      | cons next others => simp [escape?, plain]
  | [high] => simp [escape?, plain]
  | high :: low :: others => rfl

/-- Between two parts there is no escape, only in them. -/
theorem hasEscape_append
    (plain : hexValue separator = none)
    (different : separator ≠ '%') :
    HasEscape (front ++ separator :: rest) ↔
      HasEscape front ∨ HasEscape rest := by
  induction front with
  | nil =>
      rw [List.nil_append, hasEscape_cons]
      simp [different, not_hasEscape_nil]
  | cons first others hypothesis =>
      rw [List.cons_append, hasEscape_cons, hypothesis, hasEscape_cons,
        escape?_append plain, or_assoc]

theorem decode_cons :
    decode (character :: rest) =
      if character = '%' then
        match escape? rest with
        | some byte => byte :: decode (rest.drop 2)
        | none => String.utf8EncodeChar character ++ decode rest
      else String.utf8EncodeChar character ++ decode rest := by
  match rest with
  | [] => simp [decode, escape?]
  | [second] => simp [decode, escape?]
  | high :: low :: others =>
      rw [decode]
      split
      · split <;> simp_all
      · rfl

/-- The step that is no escape. -/
theorem decode_cons_plain
    (plain : character = '%' → escape? rest = none) :
    decode (character :: rest) =
      String.utf8EncodeChar character ++ decode rest := by
  rw [decode_cons]
  split
  next percent => rw [plain percent]
  next => rfl

theorem length_utf8EncodeChar_pos (character : Char) :
    0 < (String.utf8EncodeChar character).length := by
  rw [String.length_utf8EncodeChar]
  exact Char.utf8Size_pos character

/-- Two characters fewer are at least two bytes fewer. -/
theorem length_utf8_drop
    {byte : UInt8}
    (escapes : escape? rest = some byte) :
    (utf8 (rest.drop 2)).length + 2 ≤ (utf8 rest).length := by
  match rest with
  | [] => cases escapes
  | [_] => cases escapes
  | high :: low :: others =>
      have first := length_utf8EncodeChar_pos high
      have second := length_utf8EncodeChar_pos low
      simp only [List.drop_succ_cons, List.drop_zero, utf8_cons,
        List.length_append]
      omega

/-- Decoding never makes a text longer. -/
theorem length_decode_le (text : List Char) :
    (decode text).length ≤ (utf8 text).length := by
  induction sized : text.length using Nat.strongRecOn
    generalizing text with
  | ind size hypothesis =>
      cases text with
      | nil => exact Nat.le_refl _
      | cons character rest =>
          have shorter :
              (decode rest).length ≤ (utf8 rest).length :=
            hypothesis rest.length (by simp [← sized]) rest rfl
          rw [decode_cons, utf8_cons, List.length_append]
          split
          · split
            next byte escapes =>
                have left := length_utf8_drop escapes
                have inner :=
                  hypothesis (rest.drop 2).length
                    (by
                      rw [← sized, List.length_drop, List.length_cons]
                      omega)
                    (rest.drop 2) rfl
                rw [List.length_cons]
                omega
            next => simpa using shorter
          · simpa using shorter

/-- An escape makes its decoding shorter. -/
theorem length_decode_lt (escaped : HasEscape text) :
    (decode text).length < (utf8 text).length := by
  induction text with
  | nil => exact (not_hasEscape_nil escaped).elim
  | cons character rest hypothesis =>
      rw [utf8_cons, List.length_append]
      cases found : escape? rest with
      | none =>
          rw [decode_cons_plain fun _ => found, List.length_append]
          rcases hasEscape_cons.1 escaped with ⟨-, some⟩ | later
          · rw [found] at some
            cases some
          · exact Nat.add_lt_add_left (hypothesis later) _
      | some byte =>
          by_cases percent : character = '%'
          · have left := length_utf8_drop found
            have inner := length_decode_le (rest.drop 2)
            rw [decode_cons, if_pos percent, found]
            simp only [List.length_cons]
            omega
          · rw [decode_cons, if_neg percent, List.length_append]
            rcases hasEscape_cons.1 escaped with ⟨same, -⟩ | later
            · exact (percent same).elim
            · exact Nat.add_lt_add_left (hypothesis later) _

/-- A text is its own decoding exactly when it holds no escape. -/
theorem decode_eq_utf8_iff :
    decode text = utf8 text ↔ ¬ HasEscape text := by
  constructor
  · intro same escaped
    have shorter := length_decode_lt escaped
    rw [same] at shorter
    exact Nat.lt_irrefl _ shorter
  · intro plain
    induction text with
    | nil => rfl
    | cons character rest hypothesis =>
        rw [hasEscape_cons, not_or] at plain
        have first (percent : character = '%') : escape? rest = none := by
          by_contra escapes
          exact
            plain.1 ⟨percent, Option.isSome_iff_ne_none.2 escapes⟩
        rw [decode_cons_plain first, utf8_cons, hypothesis plain.2]

end Lemmas

end PercentEncoding
