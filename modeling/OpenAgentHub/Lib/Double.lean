import Mathlib.Order.Lattice
import Mathlib.Order.MinMax
import Mathlib.Algebra.GroupWithZero.Nat
import Mathlib.Algebra.Ring.Int.Defs
import Mathlib.Algebra.BigOperators.Group.List.Basic

/-! Whole numbers as a double holds, adds and writes them. -/

namespace Double

/-- The multiple of `unit` that is closest to `n`; between two, the even one. -/
def nearest (unit n : Nat) : Nat :=
  if 2 * (n % unit) < unit ∨ (2 * (n % unit) = unit ∧ n / unit % 2 = 0) then n / unit * unit
  else (n / unit + 1) * unit

def unit (n : Nat) : Nat := 2 ^ (Nat.log2 n + 1 - 53)

def infinity : Nat := 2 ^ 1024

@[irreducible] def ofNat (n : Nat) : Nat := min infinity (nearest (unit n) n)

def ofInt : Int → Int
  | .ofNat n => ofNat n
  | .negSucc n => -(ofNat (n + 1) : Int)

/-- `left + right` of two doubles that are whole numbers. -/
def add (left right : Int) : Int := ofInt (left + right)

/-- The decimal with the fewest digits that stands for the number. -/
def shortest (number : Nat) : Nat :=
  let digits := (Nat.toDigits 10 number).length
  let found := (List.range digits).findSome? fun place =>
    let step := 10 ^ (digits - (place + 1))
    let below := number / step * step
    [nearest step number, below, below + step].find? (ofNat · == number)
  found.getD number

/-- `String(number)`: positional up to 21 digits, with an exponent from there on. -/
def text (number : Nat) : String :=
  if number = infinity then "Infinity"
  else
    let decimal := shortest number
    if decimal < 10 ^ 21 then toString decimal
    else
      let digits := Nat.toDigits 10 decimal
      let fraction := (digits.drop 1).reverse.dropWhile (· == '0')
      let point := if fraction = [] then "" else "."
      String.ofList (digits.take 1) ++ point ++ String.ofList fraction.reverse ++ "e+" ++ toString (digits.length - 1)

example : text (ofNat 9007199254740993) = "9007199254740992" ∧
    text (ofNat 123456789012345678901) = "123456789012345680000" ∧
    text (ofNat 1234567890123456789012) = "1.2345678901234568e+21" := by decide +kernel

theorem nearest_mono {unit m n : Nat} (below : m ≤ n) : nearest unit m ≤ nearest unit n := by
  have quotients : m / unit ≤ n / unit := Nat.div_le_div_right below
  have left := Nat.div_add_mod m unit
  have right := Nat.div_add_mod n unit
  unfold nearest
  by_cases level : m / unit = n / unit
  · rw [level] at left ⊢
    have rests : m % unit ≤ n % unit := by omega
    have step : n / unit * unit ≤ (n / unit + 1) * unit := Nat.mul_le_mul_right unit (Nat.le_succ _)
    split_ifs with one two two
    · omega
    · exact step
    · omega
    · omega
  · have less : m / unit + 1 ≤ n / unit := by omega
    have scaled : (m / unit + 1) * unit ≤ n / unit * unit := Nat.mul_le_mul_right unit less
    have smaller : m / unit * unit ≤ (m / unit + 1) * unit := Nat.mul_le_mul_right unit (Nat.le_succ _)
    have greater : n / unit * unit ≤ (n / unit + 1) * unit := Nat.mul_le_mul_right unit (Nat.le_succ _)
    split_ifs
    · omega
    · omega
    · omega
    · omega

theorem nearest_of_dvd {unit n : Nat} (positive : 0 < unit) (whole : unit ∣ n) : nearest unit n = n := by
  obtain ⟨count, rfl⟩ := whole
  rw [nearest, Nat.mul_mod_right, if_pos (.inl positive), Nat.mul_div_cancel_left count positive, Nat.mul_comm]

theorem unit_pos (n : Nat) : 0 < unit n := Nat.pow_pos (by decide)

theorem log2_mono {m n : Nat} (below : m ≤ n) : Nat.log2 m ≤ Nat.log2 n := by
  by_cases zero : m = 0
  · rw [zero]
    exact Nat.zero_le _
  · apply (Nat.le_log2 (by omega)).mpr
    exact Nat.le_trans (Nat.log2_self_le zero) below

/-- Rounding keeps the order: between two units lies a power of two, which is held exactly. -/
theorem rounded_mono {m n : Nat} (below : m ≤ n) : nearest (unit m) m ≤ nearest (unit n) n := by
  have logs := log2_mono below
  by_cases level : unit m = unit n
  · rw [level]
    exact nearest_mono below
  · have apart : Nat.log2 m + 1 ≤ Nat.log2 n := by
      by_contra same
      have equal : Nat.log2 m = Nat.log2 n := by omega
      unfold unit at level
      rw [equal] at level
      exact level rfl
    have some : n ≠ 0 := by
      rintro rfl
      cases Nat.le_zero.mp below
      exact level rfl
    have bound : m ≤ 2 ^ (Nat.log2 m + 1) := Nat.le_of_lt Nat.lt_log2_self
    have divides : unit m ∣ 2 ^ (Nat.log2 m + 1) := Nat.pow_dvd_pow 2 (by omega)
    have upper : unit n ∣ 2 ^ Nat.log2 n := Nat.pow_dvd_pow 2 (by omega)
    calc
      nearest (unit m) m ≤ nearest (unit m) (2 ^ (Nat.log2 m + 1)) := nearest_mono bound
      _ = 2 ^ (Nat.log2 m + 1) := nearest_of_dvd (unit_pos m) divides
      _ ≤ 2 ^ Nat.log2 n := Nat.pow_le_pow_right (by decide) apart
      _ = nearest (unit n) (2 ^ Nat.log2 n) := (nearest_of_dvd (unit_pos n) upper).symm
      _ ≤ nearest (unit n) n := nearest_mono (Nat.log2_self_le some)

theorem ofNat_mono {m n : Nat} (below : m ≤ n) : ofNat m ≤ ofNat n := by
  unfold ofNat
  exact min_le_min_left infinity (rounded_mono below)

/-- Up to 2^53 every whole number is a double. -/
theorem ofNat_of_le {n : Nat} (small : n ≤ 2 ^ 53) : ofNat n = n := by
  have finite : n ≤ infinity := Nat.le_trans small (by decide +kernel)
  have whole : unit n ∣ n := by
    rcases Nat.lt_or_eq_of_le small with below | rfl
    · have bits : Nat.log2 n ≤ 52 := by
        by_cases zero : n = 0
        · rw [zero]
          decide
        · exact Nat.le_of_lt_succ ((Nat.log2_lt zero).mpr below)
      have one : unit n = 1 := by
        rw [unit, show Nat.log2 n + 1 - 53 = 0 by omega]
        rfl
      rw [one]
      exact Nat.one_dvd n
    · rw [unit, Nat.log2_two_pow]
      decide
  unfold ofNat
  rw [nearest_of_dvd (unit_pos n) whole, min_eq_right finite]

theorem ofInt_of_le {n : Int} (small : n.natAbs ≤ 2 ^ 53) : ofInt n = n := by
  cases n with
  | ofNat n => exact congrArg Int.ofNat (ofNat_of_le small)
  | negSucc n =>
    rw [ofInt, ofNat_of_le (n := n + 1) small]
    rfl

theorem ofNat_pos {n : Nat} (positive : 0 < n) : 0 < ofNat n := by
  have one : ofNat 1 = 1 := ofNat_of_le (by decide)
  have kept := ofNat_mono (show 1 ≤ n from positive)
  omega

theorem ofInt_nonneg {n : Int} : 0 ≤ ofInt n ↔ 0 ≤ n := by
  cases n with
  | ofNat n => exact iff_of_true (Int.natCast_nonneg _) (Int.natCast_nonneg _)
  | negSucc n =>
    have positive : 0 < ofNat (n + 1) := ofNat_pos (Nat.succ_pos n)
    rw [ofInt]
    omega

theorem ofInt_nonpos {n : Int} : ofInt n ≤ 0 ↔ n ≤ 0 := by
  cases n with
  | ofNat n =>
    rw [ofInt]
    rcases Nat.eq_zero_or_pos n with rfl | some
    · rw [ofNat_of_le (Nat.zero_le _)]
      rfl
    · have positive := ofNat_pos some
      have whole : (0 : Int) < Int.ofNat n := Int.natCast_pos.mpr some
      omega
  | negSucc n =>
    have positive : 0 < ofNat (n + 1) := ofNat_pos (Nat.succ_pos n)
    rw [ofInt]
    omega

theorem ofInt_zero : ofInt 0 = 0 := ofInt_of_le (by decide)

/-- A sum whose terms stay together within 2^53 is exact. -/
theorem foldl_add_of_le {numbers : List Int} : ∀ {start : Int},
    start.natAbs + (numbers.map Int.natAbs).sum ≤ 2 ^ 53 → numbers.foldl add start = start + numbers.sum := by
  induction numbers with
  | nil => exact fun _ => (add_zero _).symm
  | cons number rest ih =>
    intro start small
    rw [List.map_cons, List.sum_cons] at small
    have exact : add start number = start + number := by
      apply ofInt_of_le
      omega
    rw [List.foldl_cons, exact, ih (by omega), List.sum_cons, ← add_assoc]

theorem ofNat_zero : ofNat 0 = 0 := by decide +kernel

/-- Numbers that a double tells apart are in the order of the doubles. -/
theorem ofNat_lt_iff {m n : Nat} (apart : ofNat m ≠ ofNat n) : ofNat m < ofNat n ↔ m < n := by
  constructor
  · intro less
    by_contra above
    have kept := ofNat_mono (Nat.le_of_not_lt above)
    omega
  · intro less
    have kept := ofNat_mono (Nat.le_of_lt less)
    omega

end Double
