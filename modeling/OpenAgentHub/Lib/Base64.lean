import Mathlib.Data.List.Basic

/-! Base64 with the URL alphabet: encoding without padding, and the lenient decoding that passes over the characters
    outside the alphabet. -/

namespace Base64

def digit (char : Char) : Option Nat :=
  if 'A' ≤ char ∧ char ≤ 'Z' then some (char.toNat - 'A'.toNat)
  else if 'a' ≤ char ∧ char ≤ 'z' then some (char.toNat - 'a'.toNat + 26)
  else if '0' ≤ char ∧ char ≤ '9' then some (char.toNat - '0'.toNat + 52)
  else if char = '+' ∨ char = '-' then some 62
  else if char = '/' ∨ char = '_' then some 63
  else none

def symbol (value : Nat) : Char :=
  if value < 26 then Char.ofNat ('A'.toNat + value)
  else if value < 52 then Char.ofNat ('a'.toNat + (value - 26))
  else if value < 62 then Char.ofNat ('0'.toNat + (value - 52))
  else if value = 62 then '-' else '_'

/-- Three bytes become four symbols; the last group may be shorter. -/
def encode : List UInt8 → List Char
  | [] => []
  | [a] => [symbol (a.toNat / 4), symbol (a.toNat % 4 * 16)]
  | [a, b] => [symbol (a.toNat / 4), symbol (a.toNat % 4 * 16 + b.toNat / 16), symbol (b.toNat % 16 * 4)]
  | a :: b :: c :: rest =>
    symbol (a.toNat / 4) :: symbol (a.toNat % 4 * 16 + b.toNat / 16) :: symbol (b.toNat % 16 * 4 + c.toNat / 64) ::
      symbol (c.toNat % 64) :: encode rest

/-- `place` is that of the next digit in its group of four, `left` what is left over of the digit before it, and
    `pads` counts the padding since that digit. Padding that completes a group ends the text. -/
def decodeFrom : (place left pads : Nat) → List Char → Option (List UInt8)
  | place, _, _, [] => if place = 0 then some [] else none
  | place, left, pads, char :: rest =>
    if char = '=' then
      if place < 2 then decodeFrom place left pads rest
      else if 4 ≤ place + (pads + 1) then some []
      else decodeFrom place left (pads + 1) rest
    else
      match digit char with
      | none => decodeFrom place left pads rest
      | some value =>
        match place with
        | 0 => decodeFrom 1 value 0 rest
        | 1 => (decodeFrom 2 (value % 16) 0 rest).map (UInt8.ofNat (left * 4 + value / 16) :: ·)
        | 2 => (decodeFrom 3 (value % 4) 0 rest).map (UInt8.ofNat (left * 16 + value / 4) :: ·)
        | _ => (decodeFrom 0 0 0 rest).map (UInt8.ofNat (left * 64 + value) :: ·)

def padding (length : Nat) : List Char := List.replicate ((4 - length % 4) % 4) '='

def decode (text : List Char) : Option (List UInt8) := decodeFrom 0 0 0 (text ++ padding text.length)

theorem symbol_ascii : ∀ value < 64, (symbol value).toNat < 128 ∧ symbol value ≠ '.' := by decide +kernel

theorem digit_symbol : ∀ value < 64, digit (symbol value) = some value ∧ symbol value ≠ '=' := by decide +kernel

section Places

variable {value left pads : Nat} {rest : List Char} (small : value < 64)

include small

theorem decodeFrom_first : decodeFrom 0 left pads (symbol value :: rest) = decodeFrom 1 value 0 rest := by
  rw [decodeFrom, if_neg (digit_symbol value small).2, (digit_symbol value small).1]
  rfl

theorem decodeFrom_second : decodeFrom 1 left pads (symbol value :: rest) =
    (decodeFrom 2 (value % 16) 0 rest).map (UInt8.ofNat (left * 4 + value / 16) :: ·) := by
  rw [decodeFrom, if_neg (digit_symbol value small).2, (digit_symbol value small).1]
  rfl

theorem decodeFrom_third : decodeFrom 2 left pads (symbol value :: rest) =
    (decodeFrom 3 (value % 4) 0 rest).map (UInt8.ofNat (left * 16 + value / 4) :: ·) := by
  rw [decodeFrom, if_neg (digit_symbol value small).2, (digit_symbol value small).1]
  rfl

theorem decodeFrom_fourth : decodeFrom 3 left pads (symbol value :: rest) =
    (decodeFrom 0 0 0 rest).map (UInt8.ofNat (left * 64 + value) :: ·) := by
  rw [decodeFrom, if_neg (digit_symbol value small).2, (digit_symbol value small).1]
  rfl

end Places

theorem ofNat_toNat {byte : UInt8} {number : Nat} (same : number = byte.toNat) : UInt8.ofNat number = byte := by
  rw [same, UInt8.ofNat_toNat]

/-- What is decoded after a whole number of groups is encoded text, with its padding. -/
theorem decodeFrom_encode (bytes : List UInt8) :
    decodeFrom 0 0 0 (encode bytes ++ padding (encode bytes).length) = some bytes := by
  induction bytes using encode.induct with
  | case1 => rfl
  | case2 a =>
    have bound := a.toNat_lt
    rw [encode, List.cons_append, decodeFrom_first (by omega), List.cons_append, decodeFrom_second (by omega),
      @ofNat_toNat a _ (by omega)]
    rfl
  | case3 a b =>
    have boundA := a.toNat_lt
    have boundB := b.toNat_lt
    rw [encode, List.cons_append, decodeFrom_first (by omega), List.cons_append, decodeFrom_second (by omega),
      List.cons_append, decodeFrom_third (by omega), @ofNat_toNat a _ (by omega), @ofNat_toNat b _ (by omega)]
    rfl
  | case4 a b c rest ih =>
    have boundA := a.toNat_lt
    have boundB := b.toNat_lt
    have boundC := c.toNat_lt
    have same : padding (encode (a :: b :: c :: rest)).length = padding (encode rest).length := by
      rw [encode]
      simp only [padding, List.length_cons]
      congr 2
      omega
    rw [same, encode, List.cons_append, decodeFrom_first (by omega), List.cons_append, decodeFrom_second (by omega),
      List.cons_append, decodeFrom_third (by omega), List.cons_append, decodeFrom_fourth (by omega), ih,
      @ofNat_toNat a _ (by omega), @ofNat_toNat b _ (by omega), @ofNat_toNat c _ (by omega)]
    rfl

theorem decode_encode (bytes : List UInt8) : decode (encode bytes) = some bytes := decodeFrom_encode bytes

theorem mem_encode {bytes : List UInt8} {char : Char} (present : char ∈ encode bytes) : ∃ value < 64, char = symbol value := by
  induction bytes using encode.induct with
  | case1 => cases present
  | case2 a =>
    have bound := a.toNat_lt
    simp only [encode, List.mem_cons, List.not_mem_nil, or_false] at present
    rcases present with rfl | rfl
    · exact ⟨_, by omega, rfl⟩
    · exact ⟨_, by omega, rfl⟩
  | case3 a b =>
    have boundA := a.toNat_lt
    have boundB := b.toNat_lt
    simp only [encode, List.mem_cons, List.not_mem_nil, or_false] at present
    rcases present with rfl | rfl | rfl
    · exact ⟨_, by omega, rfl⟩
    · exact ⟨_, by omega, rfl⟩
    · exact ⟨_, by omega, rfl⟩
  | case4 a b c rest ih =>
    have boundA := a.toNat_lt
    have boundB := b.toNat_lt
    have boundC := c.toNat_lt
    simp only [encode, List.mem_cons] at present
    rcases present with rfl | rfl | rfl | rfl | later
    · exact ⟨_, by omega, rfl⟩
    · exact ⟨_, by omega, rfl⟩
    · exact ⟨_, by omega, rfl⟩
    · exact ⟨_, by omega, rfl⟩
    · exact ih later

theorem encode_ascii {bytes : List UInt8} {char : Char} (present : char ∈ encode bytes) : char.toNat < 128 ∧ char ≠ '.' := by
  obtain ⟨value, small, rfl⟩ := mem_encode present
  exact symbol_ascii value small

theorem encode_eq_nil {bytes : List UInt8} : encode bytes = [] ↔ bytes = [] := by
  fun_cases encode bytes <;> simp

end Base64
