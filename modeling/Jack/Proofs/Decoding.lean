import Jack.Text.Utf8
import Mathlib.Data.List.Forall2

namespace Jack.Text.Utf8

section Leads

variable {byte : Nat}

theorem lead?_one (last : byte ≤ 0x7F) : lead? byte = some (byte, []) := by
  rw [lead?, if_pos last]

theorem lead?_two (first : 0xC2 ≤ byte) (last : byte ≤ 0xDF) :
    lead? byte = some (byte - 0xC0, [tail]) := by
  rw [lead?, if_neg (by omega), if_neg (by omega), if_pos last]

theorem lead?_three (first : 0xE0 ≤ byte) (last : byte ≤ 0xEF) :
    lead? byte = some (byte - 0xE0,
      [(if byte = 0xE0 then 0xA0 else 0x80, if byte = 0xED then 0x9F else 0xBF), tail]) := by
  rw [lead?, if_neg (by omega), if_neg (by omega), if_neg (by omega)]
  split
  · subst byte
    rfl
  · split
    · subst byte
      rfl
    · rfl

theorem lead?_four (first : 0xF0 ≤ byte) (last : byte ≤ 0xF4) :
    lead? byte = some (byte - 0xF0,
      [(if byte = 0xF0 then 0x90 else 0x80, if byte = 0xF4 then 0x8F else 0xBF), tail, tail]) := by
  rw [lead?, if_neg (by omega), if_neg (by omega), if_neg (by omega), if_neg (by omega),
    if_neg (by omega), if_neg (by omega)]
  split
  · subst byte
    rfl
  · split
    · have notLast : ¬byte = 0xF4 := by omega
      rw [if_neg notLast]
      rfl
    · have isLast : byte = 0xF4 := by omega
      subst byte
      rfl

/-- No other byte begins a character. -/
theorem lead?_cases {value : Nat} {ranges : List Range} (lead : lead? byte = some (value, ranges)) :
    byte ≤ 0x7F ∨ 0xC2 ≤ byte ∧ byte ≤ 0xDF ∨ 0xE0 ≤ byte ∧ byte ≤ 0xEF ∨
      0xF0 ≤ byte ∧ byte ≤ 0xF4 := by
  by_contra other
  have none : lead? byte = none := by
    unfold lead?
    split_ifs <;> first | rfl | omega
  rw [none] at lead
  cases lead

end Leads

/-- Whether a byte lies in a range. -/
def InRange (range : Range) (byte : UInt8) : Prop :=
  range.1 ≤ byte.toNat ∧ byte.toNat ≤ range.2

/-- The number that later bytes of a character make of what its first byte brings. -/
def extend (value : Nat) (bytes : List UInt8) : Nat :=
  bytes.foldl (fun value byte => value * 64 + (byte.toNat - 0x80)) value

/-- A byte and those behind it are read as the character of a number. -/
def Spells (byte : UInt8) (bytes : List UInt8) (number : Nat) : Prop :=
  ∃ value ranges, lead? byte.toNat = some (value, ranges) ∧
    List.Forall₂ InRange ranges bytes ∧ number = extend value bytes

section Characters

/-- How a character is encoded depends on its number only. -/
theorem utf8EncodeChar_ofNat {number : Nat} (valid : number.isValidChar) :
    String.utf8EncodeChar (Char.ofNat number) =
      if number ≤ 0x7F then [UInt8.ofNat number]
      else if number ≤ 0x7FF then
        [UInt8.ofNat (number / 64 % 0x20 + 0xC0), UInt8.ofNat (number % 0x40 + 0x80)]
      else if number ≤ 0xFFFF then
        [UInt8.ofNat (number / 4096 % 0x10 + 0xE0), UInt8.ofNat (number / 64 % 0x40 + 0x80),
          UInt8.ofNat (number % 0x40 + 0x80)]
      else
        [UInt8.ofNat (number / 262144 % 0x08 + 0xF0), UInt8.ofNat (number / 4096 % 0x40 + 0x80),
          UInt8.ofNat (number / 64 % 0x40 + 0x80), UInt8.ofNat (number % 0x40 + 0x80)] := by
  rw [Char.ofNat, dif_pos valid]
  rfl

theorem ofNat_eq (byte : UInt8) {number : Nat} (same : number = byte.toNat) :
    UInt8.ofNat number = byte := by
  rw [same, UInt8.ofNat_toNat]

/-- What is read as a character is its encoding. -/
theorem Spells.encoded {byte : UInt8} {bytes : List UInt8} {number : Nat}
    (spells : Spells byte bytes number) :
    String.utf8EncodeChar (Char.ofNat number) = byte :: bytes := by
  obtain ⟨value, ranges, lead, within, isNumber⟩ := spells
  obtain last | ⟨first, last⟩ | ⟨first, last⟩ | ⟨first, last⟩ := lead?_cases lead
  · rw [lead?_one last] at lead
    cases lead
    cases within
    obtain rfl : number = byte.toNat := isNumber
    rw [utf8EncodeChar_ofNat (.inl (by omega)), if_pos last, UInt8.ofNat_toNat]
  · rw [lead?_two first last, Option.some.injEq, Prod.mk.injEq] at lead
    obtain ⟨rfl, rfl⟩ := lead
    rcases within with _ | @⟨_, second, _, _, ⟨low, high⟩, _ | _⟩
    simp only [extend, List.foldl_cons, List.foldl_nil] at isNumber
    simp only [tail] at low high
    rw [utf8EncodeChar_ofNat (.inl (by omega)), if_neg (by omega), if_pos (by omega),
      ofNat_eq byte (by omega), ofNat_eq second (by omega)]
  · rw [lead?_three first last, Option.some.injEq, Prod.mk.injEq] at lead
    obtain ⟨rfl, rfl⟩ := lead
    rcases within with _ | @⟨_, second, _, _, ⟨low, high⟩,
      _ | @⟨_, third, _, _, ⟨low', high'⟩, _ | _⟩⟩
    simp only [extend, List.foldl_cons, List.foldl_nil] at isNumber
    simp only [tail] at low high low' high'
    -- The narrower ranges of the second byte keep the number out of the shorter forms and of the
    -- numbers that no character has.
    have bounds : 0x7FF < number ∧ number ≤ 0xFFFF ∧ number.isValidChar ∧
        0x80 ≤ second.toNat ∧ second.toNat ≤ 0xBF := by
      unfold Nat.isValidChar
      split at low <;> split at high <;> omega
    clear low high
    obtain ⟨above, within, valid, low, high⟩ := bounds
    rw [utf8EncodeChar_ofNat valid, if_neg (by omega), if_neg (by omega), if_pos within,
      ofNat_eq byte (by omega), ofNat_eq second (by omega), ofNat_eq third (by omega)]
  · rw [lead?_four first last, Option.some.injEq, Prod.mk.injEq] at lead
    obtain ⟨rfl, rfl⟩ := lead
    rcases within with _ | @⟨_, second, _, _, ⟨low, high⟩,
      _ | @⟨_, third, _, _, ⟨low', high'⟩, _ | @⟨_, fourth, _, _, ⟨low'', high''⟩, _ | _⟩⟩⟩
    simp only [extend, List.foldl_cons, List.foldl_nil] at isNumber
    simp only [tail] at low high low' high' low'' high''
    have bounds : 0xFFFF < number ∧ number.isValidChar ∧
        0x80 ≤ second.toNat ∧ second.toNat ≤ 0xBF := by
      unfold Nat.isValidChar
      split at low <;> split at high <;> omega
    clear low high
    obtain ⟨above, valid, low, high⟩ := bounds
    rw [utf8EncodeChar_ofNat valid, if_neg (by omega), if_neg (by omega), if_neg (by omega),
      ofNat_eq byte (by omega), ofNat_eq second (by omega), ofNat_eq third (by omega),
      ofNat_eq fourth (by omega)]

/-- A later byte brings the last six bits of a number. -/
theorem toNat_later (number : Nat) :
    (UInt8.ofNat (number % 0x40 + 0x80)).toNat = number % 0x40 + 0x80 :=
  UInt8.toNat_ofNat_of_lt' (show _ < 256 by omega)

theorem inRange_tail (number : Nat) : InRange tail (UInt8.ofNat (number % 0x40 + 0x80)) := by
  rw [InRange, toNat_later, tail]
  omega

/-- Every character is read from its encoding. -/
theorem exists_spells (c : Char) :
    ∃ byte bytes, String.utf8EncodeChar c = byte :: bytes ∧ Spells byte bytes c.toNat := by
  have valid : c.toNat.isValidChar := c.valid
  have encoding := utf8EncodeChar_ofNat valid
  rw [Char.ofNat_toNat] at encoding
  generalize c.toNat = number at *
  unfold Nat.isValidChar at valid
  split at encoding
  · rename_i one
    have first : (UInt8.ofNat number).toNat = number :=
      UInt8.toNat_ofNat_of_lt' (show number < 256 by omega)
    refine ⟨_, _, encoding, number, [], ?_, .nil, rfl⟩
    rw [first]
    exact lead?_one one
  · split at encoding
    · have first : (UInt8.ofNat (number / 64 % 0x20 + 0xC0)).toNat = number / 64 + 0xC0 :=
        (UInt8.toNat_ofNat_of_lt' (show _ < 256 by omega)).trans (by omega)
      refine ⟨_, _, encoding, _, _, lead?_two (by omega) (by omega),
        .cons (inRange_tail _) .nil, ?_⟩
      simp only [extend, List.foldl_cons, List.foldl_nil, toNat_later, first]
      omega
    · split at encoding
      · have first : (UInt8.ofNat (number / 4096 % 0x10 + 0xE0)).toNat = number / 4096 + 0xE0 :=
          (UInt8.toNat_ofNat_of_lt' (show _ < 256 by omega)).trans (by omega)
        refine ⟨_, _, encoding, _, _, lead?_three (by omega) (by omega),
          .cons ⟨?_, ?_⟩ (.cons (inRange_tail _) .nil), ?_⟩
        · simp only [toNat_later, first]
          split <;> omega
        · simp only [toNat_later, first]
          split <;> omega
        · simp only [extend, List.foldl_cons, List.foldl_nil, toNat_later, first]
          omega
      · have first : (UInt8.ofNat (number / 262144 % 0x08 + 0xF0)).toNat = number / 262144 + 0xF0 :=
          (UInt8.toNat_ofNat_of_lt' (show _ < 256 by omega)).trans (by omega)
        refine ⟨_, _, encoding, _, _, lead?_four (by omega) (by omega),
          .cons ⟨?_, ?_⟩ (.cons (inRange_tail _) (.cons (inRange_tail _) .nil)), ?_⟩
        · simp only [toNat_later, first]
          split <;> omega
        · simp only [toNat_later, first]
          split <;> omega
        · simp only [extend, List.foldl_cons, List.foldl_nil, toNat_later, first]
          omega

end Characters

section Reading

variable {text result : String} {start value taken : Nat} {ranges : List Range}
  {bytes rest : List UInt8}

/-- Bytes in the ranges that are still needed end a character. -/
theorem readOnto_ranges (needed : ranges ≠ []) (within : List.Forall₂ InRange ranges bytes) :
    readOnto text start value taken ranges (bytes ++ rest) =
      readOnto (text.push (.ofNat (extend value bytes))) (start + taken + bytes.length) 0 0 []
        rest := by
  induction within generalizing value taken with
  | nil => exact absurd rfl needed
  | @cons range byte ranges bytes inRange within ih =>
    obtain ⟨low, high⟩ := inRange
    rw [List.cons_append, readOnto, if_pos ⟨low, high⟩]
    cases within with
    | nil => rfl
    | @cons next second ranges bytes inRange within =>
      have further := @ih (value * 64 + (byte.toNat - 0x80)) (taken + 1) (List.cons_ne_nil _ _)
      have count : start + (taken + 1) + (second :: bytes).length =
          start + taken + (byte :: second :: bytes).length := by
        simp only [List.length_cons]
        omega
      rw [count] at further
      rw [extend, List.foldl_cons]
      exact further

/-- A text that is read on from the middle of a character has this character next. -/
theorem ranges_of_readOnto (needed : ranges ≠ [])
    (read : readOnto text start value taken ranges bytes = .ok result) :
    ∃ later rest, bytes = later ++ rest ∧ List.Forall₂ InRange ranges later := by
  induction ranges generalizing value taken bytes with
  | nil => exact absurd rfl needed
  | cons range ranges ih =>
    cases bytes with
    | nil =>
      rw [readOnto] at read
      cases read
    | cons byte bytes =>
      rw [readOnto] at read
      split at read
      · rename_i inRange
        cases ranges with
        | nil => exact ⟨[byte], bytes, rfl, .cons inRange .nil⟩
        | cons next ranges =>
          obtain ⟨later, rest, rfl, within⟩ := ih (List.cons_ne_nil _ _) read
          exact ⟨byte :: later, rest, rfl, .cons inRange within⟩
      · cases read

/-- A character is read on its own. -/
theorem readOnto_spells {byte : UInt8} {number : Nat} (spells : Spells byte bytes number) :
    readOnto text start 0 0 [] (byte :: (bytes ++ rest)) =
      readOnto (text.push (.ofNat number)) (start + 1 + bytes.length) 0 0 [] rest := by
  obtain ⟨value, ranges, lead, within, rfl⟩ := spells
  rw [readOnto, lead]
  cases within with
  | nil => rfl
  | cons inRange within => exact readOnto_ranges (List.cons_ne_nil _ _) (.cons inRange within)

theorem readOnto_encoding (chars : List Char) :
    readOnto text start 0 0 [] (chars.flatMap String.utf8EncodeChar) =
      .ok (text ++ String.ofList chars) := by
  induction chars generalizing text start with
  | nil => rw [List.flatMap_nil, readOnto, String.ofList_nil, String.append_empty]
  | cons c chars ih =>
    obtain ⟨byte, bytes, encoding, spells⟩ := exists_spells c
    rw [List.flatMap_cons, encoding, List.cons_append, readOnto_spells spells, ih,
      Char.ofNat_toNat, String.ofList_cons, String.push_eq_append, String.append_assoc]

theorem encoding_of_readOnto (read : readOnto text start 0 0 [] bytes = .ok result) :
    ∃ chars, bytes = chars.flatMap String.utf8EncodeChar ∧
      result = text ++ String.ofList chars := by
  induction size : bytes.length using Nat.strongRecOn generalizing text start bytes with
  | ind n ih =>
    cases bytes with
    | nil =>
      rw [readOnto] at read
      cases read
      exact ⟨[], rfl, by rw [String.ofList_nil, String.append_empty]⟩
    | cons byte bytes =>
      have spells : ∃ later rest number, bytes = later ++ rest ∧ Spells byte later number := by
        rw [readOnto] at read
        split at read
        · cases read
        · exact ⟨[], bytes, _, rfl, _, _, ‹_›, .nil, rfl⟩
        · rename_i value ranges notLast lead
          obtain ⟨later, rest, rfl, within⟩ := ranges_of_readOnto notLast read
          exact ⟨later, rest, _, rfl, value, ranges, lead, within, rfl⟩
      obtain ⟨later, rest, number, rfl, spells⟩ := spells
      rw [readOnto_spells spells] at read
      have shorter : rest.length < n := by
        rw [← size, List.length_cons, List.length_append]
        omega
      obtain ⟨chars, rfl, rfl⟩ := ih _ shorter read rfl
      refine ⟨.ofNat number :: chars, ?_, ?_⟩
      · rw [List.flatMap_cons, spells.encoded, List.cons_append]
      · rw [String.ofList_cons, String.push_eq_append, String.append_assoc]

end Reading

theorem toList_eq (bytes : ByteArray) : bytes.toList = bytes.data.toList := by
  have loop (count : Nat) (done : List UInt8) :
      ByteArray.toList.loop bytes count done = done.reverse ++ bytes.data.toList.drop count := by
    induction left : bytes.size - count generalizing count done with
    | zero =>
      rw [ByteArray.toList.loop, if_neg (by omega), List.drop_of_length_le, List.append_nil]
      simp; omega
    | succ n ih =>
      have inside : count < bytes.data.toList.length := by
        have size : bytes.data.toList.length = bytes.size := rfl
        omega
      have byte : bytes.get! count = bytes.data.toList[count] :=
        getElem!_pos bytes.data count inside
      rw [ByteArray.toList.loop, if_pos (by omega), ih _ _ (by omega), List.reverse_cons,
        List.append_assoc, byte, List.drop_eq_getElem_cons inside]
      rfl
  exact loop 0 []

/-- Bytes are decoded to a text if and only if they are the encoding of this text. -/
theorem decode_eq_ok {bytes : ByteArray} {text : String} :
    decode bytes = .ok text ↔ bytes = text.toUTF8 := by
  have encodes (chars : List Char) :
      (String.ofList chars).toUTF8 = (chars.flatMap String.utf8EncodeChar).toByteArray :=
    String.toByteArray_ofList
  rw [decode, toList_eq]
  constructor
  · intro read
    obtain ⟨chars, isEncoding, rfl⟩ := encoding_of_readOnto read
    rw [String.empty_append, encodes, ← isEncoding]
    exact ByteArray.ext (List.data_toByteArray).symm
  · rintro rfl
    have spelt : text.toUTF8 = (text.toList.flatMap String.utf8EncodeChar).toByteArray := by
      rw [← encodes, String.ofList_toList]
    rw [spelt, List.toList_data_toByteArray, readOnto_encoding, String.empty_append,
      String.ofList_toList]

end Jack.Text.Utf8
