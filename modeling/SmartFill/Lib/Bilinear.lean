import Mathlib.Algebra.Order.Archimedean.Basic
import Mathlib.Algebra.Order.Floor.Ring
import Mathlib.Data.Finset.Prod
import Mathlib.Tactic.FieldSimp
import Mathlib.Tactic.Linarith
import Mathlib.Tactic.Ring

-- Linear interpolation between values at the integers, and resampling of a row
-- at pixel centres, over any ordered field with a floor.
namespace Bilinear
variable {K : Type} [Field K]

-- The centre of pixel i of a row of `scaled`, in the coordinates of a row of
-- `size` where pixel k is at k.
def center (size scaled i : K) : K := (i + 1/2) * (size/scaled) - 1/2

theorem center_same {scaled : K} (wide : scaled ≠ 0) (i : K) : center scaled scaled i = i := by
  unfold center
  field_simp
  ring

theorem center_mirror [CharZero K] {size scaled i : K} (wide : scaled ≠ 0) :
    center size scaled (scaled - 1 - i) = size - 1 - center size scaled i := by
  unfold center
  field_simp
  ring

variable [LinearOrder K] [FloorRing K] {f g : Int → K} {u lo hi : K}

def interp (f : Int → K) (u : K) : K := f ⌊u⌋ * (1 - Int.fract u) + f (⌊u⌋+1) * Int.fract u

theorem interp_neg (f : Int → K) (u : K) : interp (fun i => -f i) u = -interp f u := by
  unfold interp
  ring

variable [IsStrictOrderedRing K]

-- The integers whose values count at u.
def Near (u : K) (i : Int) : Prop := |u - i| < 1

theorem near_iff {i : Int} : Near u i ↔ i = ⌊u⌋ ∨ i = ⌊u⌋+1 ∧ 0 < Int.fract u := by
  have below := Int.floor_le u
  have above := Int.lt_floor_add_one u
  have rest := Int.floor_add_fract u
  unfold Near
  rw [abs_lt]
  constructor
  · rintro ⟨left,right⟩
    have low : ⌊u⌋ ≤ i := by
      apply Int.floor_le_iff.mpr
      linarith
    have high : i < ⌊u⌋ + 2 := by
      have : (i:K) < (⌊u⌋ + 2 : Int) := by push_cast; linarith
      exact_mod_cast this
    rcases (by omega : i = ⌊u⌋ ∨ i = ⌊u⌋+1) with same | next
    · exact .inl same
    · refine .inr ⟨next,?_⟩
      have cast : (i:K) = ⌊u⌋+1 := by rw [next]; push_cast; ring
      linarith
  · rintro (rfl | ⟨rfl,positive⟩)
    · constructor <;> linarith
    · push_cast
      constructor <;> linarith

theorem near_floor (u : K) : Near u ⌊u⌋ := near_iff.mpr (.inl rfl)

-- Only near values count.
theorem interp_congr (same : ∀ i, Near u i → f i = g i) : interp f u = interp g u := by
  have first := same ⌊u⌋ (near_floor u)
  unfold interp
  rw [first]
  rcases (Int.fract_nonneg u).lt_or_eq with positive | zero
  · rw [same (⌊u⌋+1) (near_iff.mpr (.inr ⟨rfl,positive⟩))]
  · rw [←zero]
    simp

@[simp] theorem interp_int (f : Int → K) (n : Int) : interp f (n:K) = f n := by simp [interp]

theorem interp_ge (above : ∀ i, Near u i → lo ≤ f i) : lo ≤ interp f u := by
  have first := above ⌊u⌋ (near_floor u)
  have nonneg := Int.fract_nonneg u
  have less := Int.fract_lt_one u
  rcases nonneg.lt_or_eq with positive | zero
  · have second := above (⌊u⌋+1) (near_iff.mpr (.inr ⟨rfl,positive⟩))
    have left := mul_le_mul_of_nonneg_right first (by linarith : 0 ≤ 1 - Int.fract u)
    have right := mul_le_mul_of_nonneg_right second nonneg
    unfold interp
    linarith
  · unfold interp
    rw [←zero]
    simpa using first

theorem interp_le (below : ∀ i, Near u i → f i ≤ hi) : interp f u ≤ hi := by
  have flipped : -hi ≤ interp (fun i => -f i) u := interp_ge (fun i near => neg_le_neg (below i near))
  rw [interp_neg] at flipped
  exact neg_le_neg_iff.mp flipped

-- Over values that are not negative, the result is positive where one near
-- value is.
theorem interp_pos_iff (nonneg : ∀ i, Near u i → 0 ≤ f i) : 0 < interp f u ↔ ∃ i, Near u i ∧ 0 < f i := by
  constructor
  · intro positive
    by_contra none
    push Not at none
    have low := interp_le none
    linarith
  · rintro ⟨i,near,positive⟩
    have below := Int.fract_nonneg u
    have less : 0 < 1 - Int.fract u := by linarith [Int.fract_lt_one u]
    have first := nonneg ⌊u⌋ (near_floor u)
    unfold interp
    rcases near_iff.mp near with rfl | ⟨rfl,strict⟩
    · rcases below.lt_or_eq with strict | zero
      · have second := nonneg (⌊u⌋+1) (near_iff.mpr (.inr ⟨rfl,strict⟩))
        have left := mul_pos positive less
        have right := mul_nonneg second below
        linarith
      · rw [←zero]
        simpa using positive
    · have left := mul_nonneg first less.le
      have right := mul_pos positive strict
      linarith

-- Mirroring swaps the two neighbours and turns the fraction round.
theorem interp_mirror (f : Int → K) (n : Int) (u : K) : interp (fun i => f (n - i)) (n - u) = interp f u := by
  have below := Int.floor_le u
  have above := Int.lt_floor_add_one u
  have rest := Int.floor_add_fract u
  rcases (Int.fract_nonneg u).lt_or_eq with positive | zero
  · have floor : ⌊(n:K) - u⌋ = n - ⌊u⌋ - 1 := by
      apply Int.floor_eq_iff.mpr
      push_cast
      constructor <;> linarith
    have fract : Int.fract ((n:K) - u) = 1 - Int.fract u := by
      have split := Int.floor_add_fract ((n:K) - u)
      rw [floor] at split
      push_cast at split
      linarith
    have near : n - (n - ⌊u⌋ - 1) = ⌊u⌋+1 := by omega
    have far : n - (n - ⌊u⌋ - 1 + 1) = ⌊u⌋ := by omega
    simp only [interp,floor,fract,near,far]
    ring
  · have whole : u = (⌊u⌋ : Int) := by linarith
    have mirrored : (n:K) - u = ((n - ⌊u⌋ : Int) : K) := by
      push_cast
      linarith
    rw [mirrored,interp_int,whole,interp_int,Int.floor_intCast]
    congr 1
    omega

-- Two axes, rows outside.
def interp2 (f : Int → Int → K) (v u : K) : K := interp (fun j => interp (f j) u) v

theorem interp2_congr {f g : Int → Int → K} {v : K} (same : ∀ j i, Near v j → Near u i → f j i = g j i) :
    interp2 f v u = interp2 g v u :=
  interp_congr (fun j row => interp_congr (fun i column => same j i row column))

theorem interp2_mem {f : Int → Int → K} {v : K} (within : ∀ j i, Near v j → Near u i → lo ≤ f j i ∧ f j i ≤ hi) :
    lo ≤ interp2 f v u ∧ interp2 f v u ≤ hi := by
  constructor
  · exact interp_ge (fun j row => interp_ge (fun i column => (within j i row column).1))
  · exact interp_le (fun j row => interp_le (fun i column => (within j i row column).2))

theorem interp2_pos_iff {f : Int → Int → K} {v : K} (nonneg : ∀ j i, Near v j → Near u i → 0 ≤ f j i) :
    0 < interp2 f v u ↔ ∃ j i, Near v j ∧ Near u i ∧ 0 < f j i := by
  unfold interp2
  rw [interp_pos_iff (fun j row => interp_ge (fun i column => nonneg j i row column))]
  constructor
  · rintro ⟨j,row,positive⟩
    obtain ⟨i,column,positive⟩ := (interp_pos_iff (fun i column => nonneg j i row column)).mp positive
    exact ⟨j,i,row,column,positive⟩
  · rintro ⟨j,i,row,column,positive⟩
    exact ⟨j,row,(interp_pos_iff (fun i column => nonneg j i row column)).mpr ⟨i,column,positive⟩⟩

theorem interp2_mirror_columns (f : Int → Int → K) (n : Int) (v u : K) :
    interp2 (fun j i => f j (n - i)) v (n - u) = interp2 f v u := by
  unfold interp2
  simp only [interp_mirror]

theorem interp2_mirror_rows (f : Int → Int → K) (n : Int) (v u : K) :
    interp2 (fun j i => f (n - j) i) (n - v) u = interp2 f v u :=
  interp_mirror (fun j => interp (f j) u) n v

theorem center_bounds {size scaled i : K} (positive : 0 < size) (left : 0 ≤ i) (right : i + 1 ≤ scaled) :
    -(1/2) < center size scaled i ∧ center size scaled i < size - 1/2 := by
  have wide : 0 < scaled := by linarith
  have scale : 0 < size/scaled := div_pos positive wide
  unfold center
  constructor
  · have : 0 < (i + 1/2) * (size/scaled) := mul_pos (by linarith) scale
    linarith
  · have less : (i + 1/2) * (size/scaled) < scaled * (size/scaled) := mul_lt_mul_of_pos_right (by linarith) scale
    rw [mul_div_cancel₀ _ wide.ne'] at less
    linarith

def clamp (size i : Int) : Int := max 0 (min i (size-1))

section Clamp
variable {size i : Int}

theorem clamp_bounds (positive : 0 < size) : 0 ≤ clamp size i ∧ clamp size i < size := by
  unfold clamp
  omega

theorem clamp_inside (left : 0 ≤ i) (right : i < size) : clamp size i = i := by
  unfold clamp
  omega

theorem clamp_mirror (positive : 0 < size) : clamp size (size - 1 - i) = size - 1 - clamp size i := by
  unfold clamp
  omega

-- Clamping adds no source pixel at a centre: what it leads to was near already.
theorem clamp_near (positive : 0 < size) (left : -(1/2) < u) (right : u < size - 1/2) :
    (∃ i, Near u i ∧ clamp size i = k) ↔ Near u k ∧ 0 ≤ k ∧ k < size := by
  constructor
  · rintro ⟨i,near,rfl⟩
    have inside := clamp_bounds (i := i) positive
    refine ⟨?_,inside⟩
    by_cases low : i < 0
    · have zero : clamp size i = 0 := by unfold clamp; omega
      rw [zero]
      obtain ⟨_,high⟩ := abs_lt.mp near
      have negative : (i:K) ≤ -1 := by exact_mod_cast (by omega : i ≤ -1)
      apply abs_lt.mpr
      constructor <;> push_cast <;> linarith
    · by_cases high : size ≤ i
      · have last : clamp size i = size-1 := by unfold clamp; omega
        rw [last]
        obtain ⟨low,_⟩ := abs_lt.mp near
        have beyond : (size:K) ≤ i := by exact_mod_cast high
        apply abs_lt.mpr
        constructor <;> push_cast <;> linarith
      · rw [clamp_inside (by omega) (by omega)]
        exact near
  · rintro ⟨near,low,high⟩
    exact ⟨k,near,clamp_inside low high⟩

end Clamp

section ThereAndBack
variable {size scaled i j : Nat}

-- Whether the value at j counts at the centre of pixel i, in whole numbers.
theorem near_center (positive : 0 < scaled) : Near (center (size:K) scaled i) j ↔
    |((2*i+1)*size - (2*j+1)*scaled : Int)| < 2*scaled := by
  have wide : (0:K) < scaled := by exact_mod_cast positive
  have distance : (2*scaled:K) * (center (size:K) scaled i - ((j:Int):K)) =
      (((2*i+1)*size - (2*j+1)*scaled : Int) : K) := by
    unfold center
    push_cast
    field_simp
    ring
  unfold Near
  constructor
  · intro near
    have : |(((2*i+1)*size - (2*j+1)*scaled : Int) : K)| < 2*scaled := by
      rw [←distance,abs_mul,abs_of_pos (by linarith : (0:K) < 2*scaled)]
      exact mul_lt_of_lt_one_right (by linarith) near
    exact_mod_cast this
  · intro near
    have : |(((2*i+1)*size - (2*j+1)*scaled : Int) : K)| < 2*scaled := by exact_mod_cast near
    rw [←distance,abs_mul,abs_of_pos (by linarith : (0:K) < 2*scaled)] at this
    exact (mul_lt_iff_lt_one_right (by linarith)).mp this

-- Some pixel of the scaled row counts at j, and i counts at it.
def Reaches (size scaled j i : Nat) : Prop := ∃ k < scaled,
  |((2*j+1)*scaled - (2*k+1)*size : Int)| < 2*size ∧ |((2*k+1)*size - (2*i+1)*scaled : Int)| < 2*scaled

-- Down to no less than half and back, each pixel sees itself.
theorem reaches_self (smaller : scaled ≤ size) (half : size ≤ 2*scaled) (inside : i < size) : Reaches size scaled i i := by
  have low := Nat.div_mul_le_self ((2*i+1)*scaled) (2*size)
  have high := @Nat.lt_div_mul_add ((2*i+1)*scaled) (2*size) (by omega)
  have column : (2*i+1)*scaled/(2*size) < scaled := by
    apply Nat.div_lt_of_lt_mul
    apply Nat.mul_lt_mul_of_pos_right
    · omega
    · omega
  generalize (2*i+1)*scaled/(2*size) = k at low high column
  have left : (2*k*size:Int) ≤ (2*i+1)*scaled := by
    have : (k*(2*size):Int) ≤ (2*i+1)*scaled := by exact_mod_cast low
    linarith
  have right : ((2*i+1)*scaled:Int) < 2*k*size + 2*size := by
    have : ((2*i+1)*scaled:Int) < k*(2*size) + 2*size := by exact_mod_cast high
    linarith
  have centre : ((2*k+1)*size:Int) = 2*k*size + size := by ring
  refine ⟨k,column,abs_lt.mpr ⟨by omega,by omega⟩,abs_lt.mpr ⟨by omega,?_⟩⟩
  -- Only at exactly half could the distance be a whole pixel; then it is odd.
  by_contra far
  have exactly : (size:Int) = 2*scaled := by omega
  have meets : ((2*i+1)*scaled:Int) = (4*k)*scaled := by
    rw [exactly] at left far centre
    linarith
  have : (2*i+1:Int) = 4*k := mul_right_cancel₀ (by omega) meets
  omega

-- Below half, two pixels seen at each centre are too few for the row.
theorem unreached (less : 2*scaled < size) : ∃ i < size, ∀ k < scaled, ¬ Near (center (size:K) scaled k) (i:Int) := by
  let seen := (Finset.range scaled ×ˢ Finset.range 2).image (fun p => (⌊center (size:K) scaled p.1⌋ + p.2).toNat)
  have few : seen.card < (Finset.range size).card := by
    have bound : seen.card ≤ (Finset.range scaled ×ˢ Finset.range 2).card := Finset.card_image_le
    rw [Finset.card_product,Finset.card_range,Finset.card_range] at bound
    rw [Finset.card_range]
    omega
  obtain ⟨i,inside,missed⟩ := Finset.exists_mem_notMem_of_card_lt_card few
  refine ⟨i,Finset.mem_range.mp inside,?_⟩
  intro k column near
  apply missed
  apply Finset.mem_image.mpr
  rcases near_iff.mp near with same | ⟨next,_⟩
  · exact ⟨(k,0),by simp [column],by simp [←same]⟩
  · exact ⟨(k,1),by simp [column],by simp [←next]⟩

end ThereAndBack

end Bilinear
