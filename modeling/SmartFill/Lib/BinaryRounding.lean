import Mathlib.Data.Int.Log
import Mathlib.Data.Rat.Floor
import Mathlib.Tactic.Linarith
import Mathlib.Tactic.Positivity

-- Numbers of so many binary digits after the first, of any exponent; what lies
-- halfway between two of them goes to the even one.
namespace BinaryRounding
variable {K : Type} [Field K] [LinearOrder K] [FloorRing K]

def roundEven (x : K) : Int :=
  if x-⌊x⌋ < ⌊x⌋+1-x then ⌊x⌋
  else if ⌊x⌋+1-x < x-⌊x⌋ then ⌊x⌋+1
  else if ⌊x⌋ % 2 = 0 then ⌊x⌋ else ⌊x⌋+1

def unit (fraction : Nat) (x : K) : K := ((2 : Nat) : K)^(Int.log 2 x - fraction)

def magnitude (fraction : Nat) (x : K) : K := roundEven (x/unit fraction x)*unit fraction x

def nearest (fraction : Nat) (x : K) : K := if 0 ≤ x then magnitude fraction x else -magnitude fraction (-x)

variable {x y : K} {fraction : Nat}

theorem roundEven_floor (x : K) : ⌊x⌋ ≤ roundEven x ∧ roundEven x ≤ ⌊x⌋+1 := by
  unfold roundEven
  split_ifs <;> omega

variable [IsStrictOrderedRing K]

theorem roundEven_int (n : Int) : roundEven (n : K) = n := by
  simp [roundEven]

theorem roundEven_mono (le : x ≤ y) : roundEven x ≤ roundEven y := by
  rcases (Int.floor_mono le).lt_or_eq with less | same
  · exact (roundEven_floor x).2.trans ((Int.add_one_le_iff.mpr less).trans (roundEven_floor y).1)
  · unfold roundEven
    rw [← same]
    -- Between two integers only the offsets decide, and they are in order.
    split_ifs <;> first | omega | (exfalso; linarith)

theorem unit_pos (fraction : Nat) (x : K) : 0 < unit fraction x := zpow_pos (Nat.cast_pos.mpr Nat.two_pos) _

theorem unit_scale (n : Int) : (2 : K)^n*unit fraction x = 2^(n+(Int.log 2 x - fraction)) := by
  have two : (2 : K) ≠ 0 := two_pos.ne'
  rw [unit,Nat.cast_ofNat]
  exact (zpow_add₀ two _ _).symm

theorem log_bounds (positive : 0 < x) : (2 : K)^Int.log 2 x ≤ x ∧ x < 2^(Int.log 2 x + 1) := by
  have below := Int.zpow_log_le_self (R := K) (b := 2) (by decide) positive
  have above := Int.lt_zpow_succ_log_self (R := K) (b := 2) (by decide) x
  exact ⟨by exact_mod_cast below,by exact_mod_cast above⟩

theorem magnitude_whole {n : Int} (whole : x = n*unit fraction x) : magnitude fraction x = x := by
  have quotient : x/unit fraction x = n := (div_eq_iff (unit_pos fraction x).ne').mpr whole
  rw [magnitude,quotient,roundEven_int,← whole]

-- Rounding does not leave the binade.
theorem magnitude_bounds (fraction : Nat) (positive : 0 < x) :
    (2 : K)^Int.log 2 x ≤ magnitude fraction x ∧ magnitude fraction x ≤ 2^(Int.log 2 x + 1) := by
  obtain ⟨below,above⟩ := log_bounds positive
  have step := unit_pos fraction x
  have low : ((2^fraction : Int) : K)*unit fraction x = 2^Int.log 2 x := by
    rw [Int.cast_pow,Int.cast_ofNat,← zpow_natCast,unit_scale]
    congr 1
    omega
  have high : ((2^(fraction+1) : Int) : K)*unit fraction x = 2^(Int.log 2 x + 1) := by
    rw [Int.cast_pow,Int.cast_ofNat,← zpow_natCast,unit_scale]
    congr 1
    push_cast
    omega
  have least : (2^fraction : Int) ≤ roundEven (x/unit fraction x) := by
    rw [← roundEven_int (K := K) (2^fraction)]
    apply roundEven_mono
    rw [le_div_iff₀ step,low]
    exact below
  have most : roundEven (x/unit fraction x) ≤ 2^(fraction+1) := by
    rw [← roundEven_int (K := K) (2^(fraction+1))]
    apply roundEven_mono
    rw [div_le_iff₀ step,high]
    exact above.le
  rw [← low,← high,magnitude]
  exact ⟨mul_le_mul_of_nonneg_right (Int.cast_le.mpr least) step.le,
    mul_le_mul_of_nonneg_right (Int.cast_le.mpr most) step.le⟩

theorem magnitude_zero (fraction : Nat) : magnitude fraction (0 : K) = 0 := magnitude_whole (n := 0) (by simp)

theorem magnitude_nonneg (nonneg : 0 ≤ x) : 0 ≤ magnitude fraction x := by
  rcases nonneg.lt_or_eq with positive | rfl
  · exact (zpow_pos two_pos _).le.trans (magnitude_bounds fraction positive).1
  · exact (magnitude_zero fraction).ge

theorem magnitude_mono (nonneg : 0 ≤ x) (le : x ≤ y) : magnitude fraction x ≤ magnitude fraction y := by
  rcases nonneg.lt_or_eq with positive | rfl
  · rcases (Int.log_mono_right (b := 2) positive le).lt_or_eq with less | same
    · calc
        magnitude fraction x ≤ 2^(Int.log 2 x + 1) := (magnitude_bounds fraction positive).2
        _ ≤ 2^Int.log 2 y := zpow_le_zpow_right₀ one_le_two (Int.add_one_le_iff.mpr less)
        _ ≤ magnitude fraction y := (magnitude_bounds fraction (positive.trans_le le)).1
    · have units : unit fraction x = unit fraction y := by rw [unit,unit,same]
      rw [magnitude,magnitude,units]
      apply mul_le_mul_of_nonneg_right _ (unit_pos fraction y).le
      exact Int.cast_le.mpr (roundEven_mono (div_le_div_of_nonneg_right le (unit_pos fraction y).le))
  · rw [magnitude_zero]
    exact magnitude_nonneg le

theorem nearest_mono (fraction : Nat) (le : x ≤ y) : nearest fraction x ≤ nearest fraction y := by
  unfold nearest
  split_ifs with left right right
  · exact magnitude_mono left le
  · exact absurd (left.trans le) right
  · have negative : 0 ≤ -x := by linarith
    exact (neg_nonpos.mpr (magnitude_nonneg negative)).trans (magnitude_nonneg right)
  · apply neg_le_neg
    exact magnitude_mono (by linarith) (by linarith)

theorem magnitude_exact {m : Nat} (short : m ≤ 2^(fraction+1)) (z : Int) :
    magnitude fraction ((m : K)*2^z) = m*2^z := by
  rcases Nat.eq_zero_or_pos m with rfl | some_
  · rw [Nat.cast_zero,zero_mul,magnitude_zero]
  have positive : (0 : K) < m*2^z := mul_pos (Nat.cast_pos.mpr some_) (zpow_pos two_pos _)
  obtain ⟨below,_⟩ := log_bounds positive
  by_cases fine : Int.log 2 ((m : K)*2^z) - fraction ≤ z
  · -- The last digit of m is worth no less than the unit.
    obtain ⟨k,apart⟩ := Int.le.dest fine
    apply magnitude_whole (n := m*2^k)
    push_cast
    rw [← zpow_natCast,mul_assoc,unit_scale]
    congr 2
    omega
  · -- Only the power of two with one digit more is left.
    have widest : (m : K)*2^z ≤ 2^((fraction+1:Nat)+z) := by
      have cast : (m : K) ≤ 2^(fraction+1) := by exact_mod_cast short
      have split : (2 : K)^((fraction+1:Nat)+z) = 2^(fraction+1)*2^z := by
        rw [zpow_add₀ two_ne_zero,zpow_natCast]
      rw [split]
      exact mul_le_mul_of_nonneg_right cast (zpow_pos two_pos _).le
    have same : Int.log 2 ((m : K)*2^z) = (fraction+1:Nat)+z := by
      have bounded := (zpow_le_zpow_iff_right₀ (one_lt_two (α := K))).mp (below.trans widest)
      omega
    apply magnitude_whole (n := 2^fraction)
    push_cast
    rw [← zpow_natCast,unit_scale]
    have value : (m : K)*2^z = 2^((fraction+1:Nat)+z) := widest.antisymm (same ▸ below)
    rw [value]
    congr 1
    rw [← value,same]
    omega

theorem nearest_exact {n : Int} (short : |n| ≤ 2^(fraction+1)) (z : Int) : nearest fraction ((n : K)*2^z) = n*2^z := by
  have scale : (0 : K) < 2^z := zpow_pos two_pos _
  obtain ⟨m,rfl | rfl⟩ := Int.eq_nat_or_neg n
  · rw [nearest,if_pos (by positivity)]
    rw [Int.cast_natCast]
    exact magnitude_exact (by rw [Nat.abs_cast] at short; exact_mod_cast short) z
  · rw [abs_neg,Nat.abs_cast] at short
    have exact_ := magnitude_exact (K := K) (by exact_mod_cast short) z
    rw [Int.cast_neg,Int.cast_natCast,neg_mul,nearest]
    split_ifs with nonneg
    · have zero : (m : K)*2^z = 0 := by
        have := mul_nonneg (Nat.cast_nonneg (α := K) m) scale.le
        linarith
      rw [zero,neg_zero,magnitude_zero]
    · rw [neg_neg,exact_]

end BinaryRounding
