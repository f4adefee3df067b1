import Mathlib.Algebra.Order.Round
import Mathlib.Tactic.FieldSimp
import Mathlib.Tactic.Linarith
import Mathlib.Tactic.Positivity

-- The unit interval in n equal steps, rounded half up.
namespace Quantize
variable {K : Type} [Field K] [LinearOrder K]

def clampUnit (v : K) : K := max 0 (min v 1)

variable {v : K} {n : Nat}

theorem clampUnit_below (below : v ≤ 0) : clampUnit v = 0 :=
  max_eq_left ((min_le_left v 1).trans below)

theorem clampUnit_between (low : 0 ≤ v) (high : v ≤ 1) : clampUnit v = v := by
  rw [clampUnit,min_eq_left high]
  exact max_eq_right low

variable [IsStrictOrderedRing K]

theorem clampUnit_above (above : 1 ≤ v) : clampUnit v = 1 := by
  rw [clampUnit,min_eq_right above]
  exact max_eq_right zero_le_one

theorem clampUnit_range (v : K) : 0 ≤ clampUnit v ∧ clampUnit v ≤ 1 :=
  ⟨le_max_left 0 _,max_le zero_le_one (min_le_right v 1)⟩

variable [FloorRing K]

def level (n : Nat) (v : K) : Int := round (clampUnit v * n)

theorem level_between (low : 0 ≤ v) (high : v ≤ 1) : level n v = ⌊v * n + 1/2⌋ := by
  rw [level,clampUnit_between low high,round_eq]

theorem level_clampUnit (n : Nat) (v : K) : level n (clampUnit v) = level n v := by
  obtain ⟨low,high⟩ := clampUnit_range v
  rw [level,clampUnit_between low high,level]

theorem level_below (below : v ≤ 0) : level n v = 0 := by
  rw [level,clampUnit_below below,zero_mul,round_zero]

theorem level_above (above : 1 ≤ v) : level n v = n := by
  rw [level,clampUnit_above above,one_mul,round_natCast]

theorem level_range (n : Nat) (v : K) : 0 ≤ level n v ∧ level n v ≤ n := by
  obtain ⟨low,high⟩ := clampUnit_range v
  have steps : (0 : K) ≤ n := Nat.cast_nonneg n
  have scaled : clampUnit v * n ≤ n := mul_le_of_le_one_left steps high
  rw [level,round_eq]
  constructor
  · apply Int.floor_nonneg.mpr
    have := mul_nonneg low steps
    positivity
  · apply Int.lt_add_one_iff.mp
    apply Int.floor_lt.mpr
    push_cast
    linarith

theorem level_near (positive : 0 < n) (v : K) : |(level n v : K)/n - clampUnit v| ≤ 1/(2*n) := by
  have steps : (0 : K) < n := Nat.cast_pos.mpr positive
  have apart : clampUnit v - (level n v : K)/n = (clampUnit v * n - level n v)/n := by field_simp
  have half : (1 : K)/(2*n) = (1/2)/n := by field_simp
  rw [abs_sub_comm,apart,half,abs_div,abs_of_pos steps]
  exact div_le_div_of_nonneg_right (abs_sub_round _) steps.le

theorem level_value {k : Nat} (step : k ≤ n) (positive : 0 < n) : level n ((k : K)/n) = k := by
  have steps : (0 : K) < n := Nat.cast_pos.mpr positive
  have low : (0 : K) ≤ k/n := by positivity
  have high : (k : K)/n ≤ 1 := (div_le_one steps).mpr (Nat.cast_le.mpr step)
  rw [level,clampUnit_between low high,div_mul_cancel₀ _ steps.ne',round_natCast]

end Quantize
