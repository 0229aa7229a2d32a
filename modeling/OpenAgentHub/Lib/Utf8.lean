import Mathlib.Data.List.Basic

/-! UTF-8, and its decoding where every ill-formed part is replaced by U+FFFD. -/

namespace Utf8

def encode (text : List Char) : List UInt8 := text.flatMap String.utf8EncodeChar

def replacement : Char := '\uFFFD'

structure Begun where
  missing : Nat
  value : Nat
  low : UInt8 := 0x80
  high : UInt8 := 0xBF

def start (byte : UInt8) : List Char × Option Begun :=
  if byte < 0x80 then ([Char.ofNat byte.toNat], none)
  else if byte < 0xC2 ∨ 0xF4 < byte then ([replacement], none)
  else if byte < 0xE0 then ([], some { missing := 1, value := byte.toNat % 32 })
  else if byte < 0xF0 then
    ([], some { missing := 2, value := byte.toNat % 16, low := if byte = 0xE0 then 0xA0 else 0x80,
                high := if byte = 0xED then 0x9F else 0xBF })
  else
    ([], some { missing := 3, value := byte.toNat % 8, low := if byte = 0xF0 then 0x90 else 0x80,
                high := if byte = 0xF4 then 0x8F else 0xBF })

/-- A byte that does not continue the sequence has it replaced and starts over. -/
def step (begun : Option Begun) (byte : UInt8) : List Char × Option Begun :=
  match begun with
  | none => start byte
  | some begun =>
    if begun.low ≤ byte ∧ byte ≤ begun.high then
      let value := begun.value * 64 + byte.toNat % 64
      if begun.missing = 1 then ([Char.ofNat value], none) else ([], some { missing := begun.missing - 1, value := value })
    else (replacement :: (start byte).1, (start byte).2)

def decodeFrom : Option Begun → List UInt8 → List Char
  | none, [] => []
  | some _, [] => [replacement]
  | begun, byte :: rest => (step begun byte).1 ++ decodeFrom (step begun byte).2 rest

def decodeReplace (bytes : List UInt8) : List Char := decodeFrom none bytes

theorem encode_ascii {char : Char} (ascii : char.toNat < 128) : String.utf8EncodeChar char = [UInt8.ofNat char.toNat] := by
  have small : char.val.toNat ≤ 0x7f := Nat.le_of_lt_succ ascii
  rw [String.utf8EncodeChar, if_pos small]
  rfl

theorem toNat_byte {value : Nat} (small : value < 256) : (UInt8.ofNat value).toNat = value := by
  rw [UInt8.toNat_ofNat']
  exact Nat.mod_eq_of_lt small

theorem byte_lt {value : Nat} {bound : UInt8} (small : value < 256) : UInt8.ofNat value < bound ↔ value < bound.toNat := by
  rw [UInt8.lt_iff_toNat_lt, toNat_byte small]

theorem lt_byte {value : Nat} {bound : UInt8} (small : value < 256) : bound < UInt8.ofNat value ↔ bound.toNat < value := by
  rw [UInt8.lt_iff_toNat_lt, toNat_byte small]

theorem byte_eq {value : Nat} {other : UInt8} (small : value < 256) : UInt8.ofNat value = other ↔ value = other.toNat := by
  rw [← UInt8.toNat_inj, toNat_byte small]

theorem start_two {lead : Nat} (low : 2 ≤ lead) (high : lead < 32) :
    start (UInt8.ofNat (lead + 0xC0)) = ([], some { missing := 1, value := lead }) := by
  have small : lead + 0xC0 < 256 := by omega
  rw [start, if_neg, if_neg, if_pos, toNat_byte small, show (lead + 0xC0) % 32 = lead by omega]
  all_goals simp only [byte_lt small, lt_byte small, UInt8.reduceToNat]
  all_goals omega

theorem start_three {lead : Nat} (high : lead < 16) :
    start (UInt8.ofNat (lead + 0xE0)) =
      ([], some { missing := 2, value := lead, low := if lead = 0 then 0xA0 else 0x80,
                  high := if lead = 13 then 0x9F else 0xBF }) := by
  have small : lead + 0xE0 < 256 := by omega
  rw [start, if_neg, if_neg, if_neg, if_pos, toNat_byte small, show (lead + 0xE0) % 16 = lead by omega]
  · simp only [byte_eq small, UInt8.reduceToNat, Nat.reduceEqDiff, Nat.add_eq_right]
  all_goals simp only [byte_lt small, lt_byte small, UInt8.reduceToNat]
  all_goals omega

theorem start_four {lead : Nat} (high : lead ≤ 4) :
    start (UInt8.ofNat (lead + 0xF0)) =
      ([], some { missing := 3, value := lead, low := if lead = 0 then 0x90 else 0x80,
                  high := if lead = 4 then 0x8F else 0xBF }) := by
  have small : lead + 0xF0 < 256 := by omega
  rw [start, if_neg, if_neg, if_neg, if_neg, toNat_byte small, show (lead + 0xF0) % 8 = lead by omega]
  · simp only [byte_eq small, UInt8.reduceToNat, Nat.reduceEqDiff, Nat.add_eq_right]
  all_goals simp only [byte_lt small, lt_byte small, UInt8.reduceToNat]
  all_goals omega

theorem step_continued {begun : Begun} {part : Nat} (small : part < 64) (low : begun.low.toNat ≤ part + 0x80)
    (high : part + 0x80 ≤ begun.high.toNat) :
    step (some begun) (UInt8.ofNat (part + 0x80)) =
      if begun.missing = 1 then ([Char.ofNat (begun.value * 64 + part)], none)
      else ([], some { missing := begun.missing - 1, value := begun.value * 64 + part }) := by
  have byte : part + 0x80 < 256 := by omega
  rw [step]
  dsimp only
  rw [if_pos, toNat_byte byte, show (part + 0x80) % 64 = part by omega]
  rw [UInt8.le_iff_toNat_le, UInt8.le_iff_toNat_le, toNat_byte byte]
  exact ⟨low, high⟩

theorem step_open {missing value part : Nat} (small : part < 64) :
    step (some { missing := missing, value := value }) (UInt8.ofNat (part + 0x80)) =
      if missing = 1 then ([Char.ofNat (value * 64 + part)], none)
      else ([], some { missing := missing - 1, value := value * 64 + part }) := by
  rw [step_continued small]
  · show 0x80 ≤ part + 0x80
    omega
  · show part + 0x80 ≤ 0xBF
    omega

theorem decode_two {lead last : Nat} {rest : List UInt8} (low : 2 ≤ lead) (high : lead < 32) (small : last < 64) :
    decodeFrom none (UInt8.ofNat (lead + 0xC0) :: UInt8.ofNat (last + 0x80) :: rest) =
      Char.ofNat (lead * 64 + last) :: decodeFrom none rest := by
  rw [decodeFrom, step, start_two low high, decodeFrom, step_open small, if_pos rfl]
  rfl

theorem decode_three {lead middle last : Nat} {rest : List UInt8} (high : lead < 16) (inner : middle < 64)
    (small : last < 64) (shortest : lead = 0 → 32 ≤ middle) (scalar : lead = 13 → middle < 32) :
    decodeFrom none (UInt8.ofNat (lead + 0xE0) :: UInt8.ofNat (middle + 0x80) :: UInt8.ofNat (last + 0x80) :: rest) =
      Char.ofNat ((lead * 64 + middle) * 64 + last) :: decodeFrom none rest := by
  rw [decodeFrom, step, start_three high, decodeFrom, step_continued inner]
  · rw [if_neg (show ¬ 2 = 1 by decide), decodeFrom, step_open small]
    rfl
  · dsimp only
    split
    · show 0xA0 ≤ middle + 0x80
      omega
    · show 0x80 ≤ middle + 0x80
      omega
  · dsimp only
    split
    · show middle + 0x80 ≤ 0x9F
      omega
    · show middle + 0x80 ≤ 0xBF
      omega

theorem decode_four {lead second third last : Nat} {rest : List UInt8} (high : lead ≤ 4) (one : second < 64)
    (two : third < 64) (small : last < 64) (shortest : lead = 0 → 16 ≤ second) (scalar : lead = 4 → second < 16) :
    decodeFrom none (UInt8.ofNat (lead + 0xF0) :: UInt8.ofNat (second + 0x80) :: UInt8.ofNat (third + 0x80) ::
        UInt8.ofNat (last + 0x80) :: rest) =
      Char.ofNat (((lead * 64 + second) * 64 + third) * 64 + last) :: decodeFrom none rest := by
  rw [decodeFrom, step, start_four high, decodeFrom, step_continued one]
  · rw [if_neg (show ¬ 3 = 1 by decide), decodeFrom, step_open two]
    dsimp only
    rw [if_neg (show ¬ 3 - 1 = 1 by decide), decodeFrom, step_open small]
    rfl
  · dsimp only
    split
    · show 0x90 ≤ second + 0x80
      omega
    · show 0x80 ≤ second + 0x80
      omega
  · dsimp only
    split
    · show second + 0x80 ≤ 0x8F
      omega
    · show second + 0x80 ≤ 0xBF
      omega

theorem decodeFrom_encodeChar (char : Char) (rest : List UInt8) :
    decodeFrom none (String.utf8EncodeChar char ++ rest) = char :: decodeFrom none rest := by
  have valid : char.val.toNat < 0xD800 ∨ 0xDFFF < char.val.toNat ∧ char.val.toNat < 0x110000 := char.valid
  have same : Char.ofNat char.val.toNat = char := Char.ofNat_toNat char
  unfold String.utf8EncodeChar
  dsimp only
  generalize char.val.toNat = value at valid same
  split
  · rename_i one
    have small : value < 256 := by omega
    have below : UInt8.ofNat value < 0x80 := (byte_lt small).mpr (Nat.lt_succ_of_le one)
    rw [List.singleton_append, decodeFrom, step, start, if_pos below, toNat_byte small, same]
    rfl
  · split
    · exact (decode_two (by omega) (by omega) (by omega)).trans
        (congrArg (· :: decodeFrom none rest) ((congrArg Char.ofNat (by omega)).trans same))
    · split
      · exact (decode_three (by omega) (by omega) (by omega) (by omega) (by omega)).trans
          (congrArg (· :: decodeFrom none rest) ((congrArg Char.ofNat (by omega)).trans same))
      · exact (decode_four (by omega) (by omega) (by omega) (by omega) (by omega) (by omega)).trans
          (congrArg (· :: decodeFrom none rest) ((congrArg Char.ofNat (by omega)).trans same))

theorem decodeReplace_encode (text : List Char) : decodeReplace (encode text) = text := by
  induction text with
  | nil => rfl
  | cons char rest ih =>
    rw [encode, List.flatMap_cons, decodeReplace, decodeFrom_encodeChar]
    exact congrArg (List.cons char) ih

end Utf8
