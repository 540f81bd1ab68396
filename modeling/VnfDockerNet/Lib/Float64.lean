import Mathlib.Data.Int.Log
import Mathlib.Data.Rat.Floor
import Mathlib.Tactic.NormNum
import Mathlib.Algebra.BigOperators.Group.Finset.Basic

/-!
# Double precision

A number is rounded to 53 bits, or fewer below the normal range, a half to even.
Infinities are left out: a number beyond the range is rounded like one within.
-/

namespace Float64

/-! ## Rounding -/

def roundHalfEven (x : ℚ) : ℤ :=
  if x - ⌊x⌋ < 1 / 2 then ⌊x⌋
  else if 1 / 2 < x - ⌊x⌋ then ⌊x⌋ + 1
  else if ⌊x⌋ % 2 = 0 then ⌊x⌋ else ⌊x⌋ + 1

/-- The place of the last bit that is kept. -/
def lastPlace (x : ℚ) : ℤ := max (Int.log 2 |x| - 52) (-1074)

def round (x : ℚ) : ℚ := roundHalfEven (x / 2 ^ lastPlace x) * 2 ^ lastPlace x

/-- A finite number of the format. -/
def IsFloat (x : ℚ) : Prop := ∃ m e : ℤ, |m| < 2 ^ 53 ∧ -1074 ≤ e ∧ e ≤ 971 ∧ x = m * 2 ^ e

theorem roundHalfEven_intCast (k : ℤ) : roundHalfEven k = k := by
  unfold roundHalfEven
  rw [Int.floor_intCast, sub_self, if_pos (by norm_num)]

/-- The last place of `m * 2 ^ e` is not above `e`, so that no bit is lost. -/
theorem lastPlace_le {x : ℚ} {m e : ℤ} (hm : |m| < 2 ^ 53) (he : -1074 ≤ e) (hx : x = m * 2 ^ e) (hne : x ≠ 0) :
    lastPlace x ≤ e := by
  have hpos : (0 : ℚ) < 2 ^ e := zpow_pos two_pos e
  have hlt : |x| < (2 : ℕ) ^ (53 + e) := by
    rw [hx, abs_mul, abs_of_pos hpos, Nat.cast_ofNat, zpow_add₀ two_ne_zero]
    have hm' : |(m : ℚ)| < 2 ^ (53 : ℤ) := by exact_mod_cast hm
    exact mul_lt_mul_of_pos_right hm' hpos
  have hlog := (Int.lt_zpow_iff_log_lt one_lt_two (abs_pos.mpr hne)).mp hlt
  unfold lastPlace
  omega

theorem round_zero : round 0 = 0 := by
  have h := roundHalfEven_intCast 0
  unfold round
  rw [zero_div, ← Int.cast_zero, h, Int.cast_zero, zero_mul]

theorem round_eq_self {x : ℚ} (h : IsFloat x) : round x = x := by
  by_cases hne : x = 0
  · rw [hne, round_zero]
  · obtain ⟨m, e, hm, he, -, hx⟩ := h
    obtain ⟨d, hd⟩ := Int.eq_ofNat_of_zero_le (sub_nonneg.mpr (lastPlace_le hm he hx hne))
    have hpos : (0 : ℚ) < 2 ^ lastPlace x := zpow_pos two_pos _
    have hshift : x = ((m * 2 ^ d : ℤ) : ℚ) * 2 ^ lastPlace x := by
      have he : e = d + lastPlace x := by omega
      calc x = m * 2 ^ e := hx
        _ = m * 2 ^ (d + lastPlace x : ℤ) := by rw [← he]
        _ = ((m * 2 ^ d : ℤ) : ℚ) * 2 ^ lastPlace x := by
          rw [zpow_add₀ two_ne_zero, zpow_natCast, ← mul_assoc]
          push_cast
          rfl
    have hdiv : x / 2 ^ lastPlace x = ((m * 2 ^ d : ℤ) : ℚ) := (div_eq_iff hpos.ne').mpr hshift
    unfold round
    rw [hdiv, roundHalfEven_intCast, ← hshift]

theorem isFloat_intCast {k : ℤ} (h : |k| < 2 ^ 53) : IsFloat k := ⟨k, 0, h, by decide, by decide, by simp⟩

theorem isFloat_two_pow : IsFloat (2 ^ 53) := ⟨1, 53, by decide, by decide, by decide, by norm_num⟩

/-- The first integer that is no number of the format. -/
theorem round_two_pow_add_one : round (2 ^ 53 + 1) = 2 ^ 53 := by
  have hlog : Int.log 2 |(2 ^ 53 + 1 : ℚ)| = 53 := by
    have hcast : |(2 ^ 53 + 1 : ℚ)| = ((2 ^ 53 + 1 : ℕ) : ℚ) := by norm_num
    rw [hcast, Int.log_natCast]
    exact congrArg Nat.cast (Nat.log_eq_of_pow_le_of_lt_pow (by decide) (by decide))
  have hplace : lastPlace (2 ^ 53 + 1) = 1 := by
    unfold lastPlace
    rw [hlog]
    rfl
  have hfloor : ⌊((2 ^ 53 + 1) / 2 ^ (1 : ℤ) : ℚ)⌋ = 2 ^ 52 := by
    rw [Int.floor_eq_iff]
    norm_num
  unfold round roundHalfEven
  rw [hplace, hfloor]
  norm_num

/-! ## Sums -/

section
variable {m n : ℕ} {w : ℕ → ℕ → ℚ}

theorem foldl_round_eq {x : ℚ} {f : ℕ → ℚ} (h : ∀ i < m, IsFloat (x + ∑ j ∈ Finset.range (i + 1), f j)) :
    (List.range m).foldl (fun sum i => round (sum + f i)) x = x + ∑ j ∈ Finset.range m, f j := by
  induction m with
  | zero => simp
  | succ m ih =>
    rw [List.range_succ, List.foldl_append, ih fun i hi => h i (Nat.lt_succ_of_lt hi), List.foldl_cons, List.foldl_nil,
      add_assoc, ← Finset.sum_range_succ]
    exact round_eq_self (h m (Nat.lt_succ_self m))

/-- A sum that is rounded after every addition is exact when all partial sums are numbers of the format. -/
theorem foldl_foldl_round_eq
    (h : ∀ k < m, ∀ j < n, IsFloat (∑ k' ∈ Finset.range k, ∑ j' ∈ Finset.range n, w k' j' + ∑ j' ∈ Finset.range (j + 1), w k j')) :
    (List.range m).foldl (fun sum k => (List.range n).foldl (fun sum j => round (sum + w k j)) sum) 0 =
      ∑ k ∈ Finset.range m, ∑ j ∈ Finset.range n, w k j := by
  induction m with
  | zero => simp
  | succ m ih =>
    rw [List.range_succ, List.foldl_append, ih fun k hk => h k (Nat.lt_succ_of_lt hk), List.foldl_cons, List.foldl_nil,
      foldl_round_eq (h m (Nat.lt_succ_self m)), Finset.sum_range_succ]

end

end Float64
