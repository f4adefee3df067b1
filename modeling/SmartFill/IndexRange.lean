import SmartFill.Exact
import SmartFill.LamaTiler
import SmartFill.Lib.BinaryRounding
import Mathlib.Algebra.Order.AbsoluteValue.Basic
import Mathlib.Tactic.Linarith
import Mathlib.Tactic.Positivity

namespace SmartFill
variable {F : Type}

-- binary32 arithmetic as IEEE 754 has it: `holds a q` where a is finite and of
-- value q, and `nearest` rounds to 24 significant bits.
structure Rounded (ops : FloatOps F) (holds : F → Rat → Prop) (nearest : Rat → Rat) : Prop where
  monotone : ∀ p q, p ≤ q → nearest p ≤ nearest q
  exact : ∀ (n : Int) (k : Nat), |n| ≤ 2^24 → k ≤ 100 → nearest (n*2^k) = n*2^k ∧ nearest (n/2^k) = n/2^k
  half : holds ops.half (1/2)
  ofInt : ∀ n : Int, |n| ≤ 2^31 → holds (ops.ofInt n) (nearest n)
  add : ∀ a b p q, holds a p → holds b q → |p+q| ≤ 2^100 → holds (ops.add a b) (nearest (p+q))
  sub : ∀ a b p q, holds a p → holds b q → |p-q| ≤ 2^100 → holds (ops.sub a b) (nearest (p-q))
  mul : ∀ a b p q, holds a p → holds b q → |p*q| ≤ 2^100 → holds (ops.mul a b) (nearest (p*q))
  div : ∀ a b p q, holds a p → holds b q → q ≠ 0 → |p/q| ≤ 2^100 → holds (ops.div a b) (nearest (p/q))
  floor : ∀ a q, holds a q → ops.floor a = ⌊q⌋
  round : ∀ a q, holds a q → ops.round a = roundHalfAway q

-- Each operation made exactly and then rounded.
def roundedOps (nearest : Rat → Rat) : FloatOps Rat :=
  {exactOps with
    ofInt := fun n => nearest n
    add := fun a b => nearest (a+b)
    sub := fun a b => nearest (a-b)
    mul := fun a b => nearest (a*b)
    div := fun a b => nearest (a/b)}

theorem roundedOps_rounded {nearest : Rat → Rat} (monotone : ∀ p q, p ≤ q → nearest p ≤ nearest q)
    (exact_ : ∀ (n : Int) (k : Nat), |n| ≤ 2^24 → k ≤ 100 → nearest (n*2^k) = n*2^k ∧ nearest (n/2^k) = n/2^k) :
    Rounded (roundedOps nearest) (fun a q => a = q) nearest := by
  refine ⟨monotone,exact_,rfl,fun _ _ => rfl,?_,?_,?_,?_,?_,?_⟩
  · rintro a b _ _ rfl rfl _
    rfl
  · rintro a b _ _ rfl rfl _
    rfl
  · rintro a b _ _ rfl rfl _
    rfl
  · rintro a b _ _ rfl rfl _ _
    rfl
  · rintro a _ rfl
    rfl
  · rintro a _ rfl
    rfl

theorem exact_rounded : Rounded exactOps (fun a q => a = q) id :=
  @roundedOps_rounded id (fun _ _ le => le) (fun _ _ _ _ => ⟨rfl,rfl⟩)

-- The significand of binary32, to the nearest and ties to even.
def singleOps : FloatOps Rat := roundedOps (BinaryRounding.nearest 23)

theorem single_rounded : Rounded singleOps (fun a q => a = q) (BinaryRounding.nearest 23) := by
  refine roundedOps_rounded (fun _ _ => BinaryRounding.nearest_mono 23) ?_
  intro n k short _
  have wide : BinaryRounding.nearest 23 ((n : Rat)*2^(k : Int)) = n*2^(k : Int) :=
    BinaryRounding.nearest_exact short k
  have narrow : BinaryRounding.nearest 23 ((n : Rat)*2^(-k : Int)) = n*2^(-k : Int) :=
    BinaryRounding.nearest_exact short (-k)
  rw [zpow_natCast] at wide
  rw [zpow_neg,zpow_natCast,← div_eq_mul_inv] at narrow
  exact ⟨wide,narrow⟩

example : singleOps.ofInt (2^24+1) = 2^24 := by decide +kernel

namespace Rounded
variable {ops : FloatOps F} {holds : F → Rat → Prop} {nearest : Rat → Rat}

theorem int (ieee : Rounded ops holds nearest) {n : Int} (small : |n| ≤ 2^24) : nearest n = n := by
  have exact := (ieee.exact n 0 small (Nat.zero_le _)).1
  simpa using exact

theorem holds_int (ieee : Rounded ops holds nearest) {n : Int} (small : |n| ≤ 2^24) : holds (ops.ofInt n) n := by
  have rounded := ieee.ofInt n (small.trans (by norm_num))
  rwa [ieee.int small] at rounded

theorem size (ieee : Rounded ops holds nearest) {n : Nat} (small : n ≤ 32768) : holds (ops.ofInt n) n := by
  have bound : |(n:Int)| ≤ 2^24 := by
    rw [abs_of_nonneg (by omega)]
    omega
  have held := ieee.holds_int bound
  simpa using held

-- A real between two values of the format rounds to between them.
theorem between (ieee : Rounded ops holds nearest) {lo hi q : Rat} (low : nearest lo = lo) (high : nearest hi = hi)
    (inside : lo ≤ q ∧ q ≤ hi) : lo ≤ nearest q ∧ nearest q ≤ hi := by
  have left := ieee.monotone _ _ inside.1
  have right := ieee.monotone _ _ inside.2
  rw [low] at left
  rw [high] at right
  exact ⟨left,right⟩

theorem zero (ieee : Rounded ops holds nearest) : nearest 0 = 0 := by
  have exact := (ieee.exact 0 0 (by norm_num) (Nat.zero_le _)).1
  simpa using exact

theorem power (ieee : Rounded ops holds nearest) {k : Nat} (small : k ≤ 100) : nearest (2^k) = 2^k := by
  have exact := (ieee.exact 1 k (by norm_num) small).1
  simpa using exact

theorem minus_half (ieee : Rounded ops holds nearest) : nearest (-(1/2)) = -(1/2) := by
  have exact := (ieee.exact (-1) 1 (by norm_num) (by norm_num)).2
  norm_num at exact ⊢
  exact exact

end Rounded

namespace LamaTiler
open RowMajor
variable {ops : FloatOps F} {holds : F → Rat → Prop} {nearest : Rat → Rat}

theorem small_abs {lo hi q : Rat} (inside : lo ≤ q ∧ q ≤ hi) (low : -2^100 ≤ lo) (high : hi ≤ 2^100) : |q| ≤ 2^100 := by
  apply abs_le.mpr
  constructor
  · exact low.trans inside.1
  · exact inside.2.trans high

-- Before clamping a tap is at most one row outside on the left and below 2^30.
theorem axis_floor (ieee : Rounded ops holds nearest) {size scaled i : Nat} (source : 1 ≤ size ∧ size ≤ 32768)
    (target : scaled ≤ 32768) (inside : i < scaled) :
    -1 ≤ (axis ops size scaled i).floor ∧ (axis ops size scaled i).floor ≤ 2^30 := by
  have one : (1:Rat) ≤ scaled := by exact_mod_cast (by omega : 1 ≤ scaled)
  have wide : (size:Rat) ≤ 2^15 := by
    norm_num
    exact_mod_cast source.2
  have index : (i:Rat) + 1/2 ≤ 2^15 := by
    have : (i:Rat) + 1 ≤ 32768 := by exact_mod_cast (by omega : i+1 ≤ 32768)
    norm_num
    linarith
  have low : nearest 0 = 0 := ieee.zero
  have ratio : 0 ≤ (size:Rat)/scaled ∧ (size:Rat)/scaled ≤ 2^15 := by
    constructor
    · positivity
    · exact (div_le_self (by positivity) one).trans wide
  have scale := ieee.div _ _ _ _ (ieee.size source.2) (ieee.size target) (by positivity)
    (small_abs ratio (by norm_num) (by norm_num))
  have scaleRange := ieee.between low (ieee.power (by norm_num)) ratio
  have middle : 0 ≤ (i:Rat) + 1/2 ∧ (i:Rat) + 1/2 ≤ 2^15 := ⟨by positivity,index⟩
  have centre := ieee.add _ _ _ _ (ieee.size (by omega : i ≤ 32768)) ieee.half
    (small_abs middle (by norm_num) (by norm_num))
  have centreRange := ieee.between low (ieee.power (by norm_num)) middle
  have product : 0 ≤ nearest ((i:Rat)+1/2) * nearest ((size:Rat)/scaled) ∧
      nearest ((i:Rat)+1/2) * nearest ((size:Rat)/scaled) ≤ 2^30 := by
    constructor
    · exact mul_nonneg centreRange.1 scaleRange.1
    · calc nearest ((i:Rat)+1/2) * nearest ((size:Rat)/scaled)
          ≤ 2^15 * 2^15 := mul_le_mul centreRange.2 scaleRange.2 scaleRange.1 (by norm_num)
        _ = 2^30 := by norm_num
  have scaledUp := ieee.mul _ _ _ _ centre scale (small_abs product (by norm_num) (by norm_num))
  have productRange := ieee.between low (ieee.power (by norm_num)) product
  have shifted : -(1/2) ≤ nearest (nearest ((i:Rat)+1/2) * nearest ((size:Rat)/scaled)) - 1/2 ∧
      nearest (nearest ((i:Rat)+1/2) * nearest ((size:Rat)/scaled)) - 1/2 ≤ 2^30 := by
    constructor <;> linarith
  have src := ieee.sub _ _ _ _ scaledUp ieee.half (small_abs shifted (by norm_num) (by norm_num))
  have srcRange := ieee.between ieee.minus_half (ieee.power (by norm_num)) shifted
  have floor : (axis ops size scaled i).floor =
      ⌊nearest (nearest (nearest ((i:Rat)+1/2) * nearest ((size:Rat)/scaled)) - 1/2)⌋ := ieee.floor _ _ src
  rw [floor]
  constructor
  · apply Int.le_floor.mpr
    push_cast
    linarith
  · apply Int.floor_le_iff.mpr
    push_cast
    linarith

theorem clampInt_range {size : Nat} (positive : 1 ≤ size) (i : Int) :
    0 ≤ clampInt i 0 (size-1) ∧ clampInt i 0 (size-1) < size := by
  unfold clampInt
  split
  · omega
  · split <;> omega

theorem axis_neighbours (ops : FloatOps F) {size : Nat} (positive : 1 ≤ size) (scaled i : Nat) :
    (0 ≤ (axis ops size scaled i).near ∧ (axis ops size scaled i).near < size) ∧
      (0 ≤ (axis ops size scaled i).far ∧ (axis ops size scaled i).far < size) :=
  ⟨clampInt_range positive _,clampInt_range positive _⟩

-- The four steps of an offset inside a buffer of at most 2^31 elements.
theorem offset_fits {w h channels : Nat} {row column : Int} {c : Nat} (bounded : w*h*channels ≤ 2^31)
    (inRow : 0 ≤ row ∧ row < h) (inColumn : 0 ≤ column ∧ column < w) (inner : c < channels) :
    ∀ n ∈ [row*w,row*w+column,(row*w+column)*channels,(row*w+column)*channels+c], fitsInt n = true := by
  have area : (w:Int)*h*channels ≤ 2^31 := by exact_mod_cast bounded
  have start : 0 ≤ row*w := mul_nonneg inRow.1 (by omega)
  have pixel : row*w+column+1 ≤ w*h := by
    have : (row+1)*w ≤ h*w := mul_le_mul_of_nonneg_right (by omega) (by omega)
    rw [add_mul,one_mul,mul_comm (h:Int)] at this
    omega
  have element : (row*w+column)*channels+c+1 ≤ w*h*channels := by
    have : (row*w+column+1)*channels ≤ w*h*channels := mul_le_mul_of_nonneg_right pixel (by omega)
    rw [add_mul,one_mul] at this
    omega
  have single : row*w+column ≤ (row*w+column)*channels := le_mul_of_one_le_right (by omega) (by omega)
  intro n member
  simp only [List.mem_cons,List.not_mem_nil,or_false] at member
  rcases member with rfl | rfl | rfl | rfl
  all_goals exact decide_eq_true (by omega)

theorem axis_fits (ieee : Rounded ops holds nearest) {size scaled i : Nat} (source : 1 ≤ size ∧ size ≤ 32768)
    (target : scaled ≤ 32768) (inside : i < scaled) :
    ∀ n ∈ [(axis ops size scaled i).floor,(axis ops size scaled i).floor+1,(size:Int)-1], fitsInt n = true := by
  have range := axis_floor ieee source target inside
  intro n member
  simp only [List.mem_cons,List.not_mem_nil,or_false] at member
  rcases member with rfl | rfl | rfl
  all_goals exact decide_eq_true (by omega)

section Resize
variable {channels sw sh dw dh : Nat}

theorem bilinearInts_fit (ieee : Rounded ops holds nearest) (source : (1 ≤ sw ∧ sw ≤ 32768) ∧ 1 ≤ sh ∧ sh ≤ 32768)
    (target : dw ≤ 32768 ∧ dh ≤ 32768) (read : sw*sh*channels ≤ 2^31) (written : dw*dh*channels ≤ 2^31) :
    ∀ n ∈ bilinearInts ops channels sw sh dw dh, fitsInt n = true := by
  intro n member
  simp only [bilinearInts,grid,blocks,List.mem_append,List.mem_flatMap,List.mem_range] at member
  rcases member with (⟨y,row,member⟩ | ⟨x,column,member⟩) | ⟨y,row,x,column,c,inner,member⟩
  · exact axis_fits ieee source.2 target.2 row n member
  · exact axis_fits ieee source.1 target.1 column n member
  · have v := axis_neighbours ops source.2.1 dh y
    have h := axis_neighbours ops source.1.1 dw x
    rcases member with (((member | member) | member) | member) | member
    · exact offset_fits read v.1 h.1 inner n member
    · exact offset_fits read v.1 h.2 inner n member
    · exact offset_fits read v.2 h.1 inner n member
    · exact offset_fits read v.2 h.2 inner n member
    · exact offset_fits written ⟨by omega,by omega⟩ ⟨by omega,by omega⟩ inner n member

end Resize

theorem kN_rat : (kN:Rat) = 2^9 := by
  have : kN = 2^9 := rfl
  rw [this]
  norm_num

theorem shrunk_range (ieee : Rounded ops holds nearest) {short long : Nat} (less : short ≤ long) (positive : 1 ≤ long)
    (bounded : long ≤ 32768) :
    1 ≤ shrunk ops short long ∧ shrunk ops short long ≤ kN := by
  refine ⟨le_max_left _ _,max_le (by decide) ?_⟩
  have wide : (1:Rat) ≤ long := by exact_mod_cast positive
  have product : |(short:Rat)*kN| ≤ 2^100 := by
    have : (short:Rat)*kN ≤ 32768*512 := by exact_mod_cast Nat.mul_le_mul (less.trans bounded) (le_refl 512)
    rw [abs_of_nonneg (by positivity)]
    exact this.trans (by norm_num)
  have whole : nearest ((short:Rat)*kN) = short*kN := by
    have small : |((short*kN:Nat):Int)| ≤ 2^24 := by
      have : short*kN ≤ 32768*512 := Nat.mul_le_mul (less.trans bounded) (le_refl 512)
      rw [abs_of_nonneg (by omega)]
      omega
    have exact := ieee.int small
    push_cast at exact
    exact exact
  have scaled := ieee.mul _ _ _ _ (ieee.size (less.trans bounded)) (ieee.size (by decide : kN ≤ 32768)) product
  rw [whole] at scaled
  have ratio : 0 ≤ (short:Rat)*kN/long ∧ (short:Rat)*kN/long ≤ 2^9 := by
    constructor
    · positivity
    · rw [div_le_iff₀ (by linarith)]
      have ordered : (short:Rat) ≤ long := by exact_mod_cast less
      rw [kN_rat,mul_comm]
      exact mul_le_mul_of_nonneg_left ordered (by norm_num)
  have quotient := ieee.div _ _ _ _ scaled (ieee.size bounded) (by positivity)
    (small_abs ratio (by norm_num) (by norm_num))
  have range := ieee.between ieee.zero (ieee.power (by norm_num)) ratio
  rw [ieee.round _ _ quotient]
  apply roundHalfAway_le range.1
  rw [Int.cast_natCast,kN_rat]
  exact range.2

theorem scaledSize_range (ieee : Rounded ops holds nearest) {width height : Nat}
    (resized : needResize width height = true) (bounded : width ≤ 32768 ∧ height ≤ 32768) :
    (1 ≤ (scaledSize ops width height).1 ∧ (scaledSize ops width height).1 ≤ kN) ∧
    (1 ≤ (scaledSize ops width height).2 ∧ (scaledSize ops width height).2 ≤ kN) := by
  have long : kN < max width height := of_decide_eq_true resized
  have full : (1:Int) ≤ kN := by decide
  rw [scaledSize_shrunk resized]
  split
  · rename_i wider
    exact ⟨⟨full,le_rfl⟩,shrunk_range ieee wider (by omega) bounded.1⟩
  · exact ⟨shrunk_range ieee (by omega) (by omega) bounded.2,⟨full,le_rfl⟩⟩

-- Every int expression a call evaluates that is not cancelled.
def inpaintInts (ops : FloatOps F) (width height : Nat) : List Int :=
  if needResize width height then
    let (scaledW,scaledH) := scaledSize ops width height
    let (sw,sh) := (scaledW.toNat,scaledH.toNat)
    [scaledW,scaledH] ++ bilinearInts ops 3 width height sw sh ++ bilinearInts ops 1 width height sw sh ++
      copyInts 3 sw kN ++ copyInts 1 sw kN ++ bilinearInts ops 3 sw sh width height ++ compositeInts width height
  else copyInts 3 width kN ++ copyInts 1 width kN ++ compositeInts width height

def Admitted (width height : Nat) : Prop :=
  ImageCache.inRange width height 3 = true

section Whole
variable {width height : Nat}

theorem admitted_sides (admitted : Admitted width height) :
    (1 ≤ width ∧ width ≤ 32768) ∧ 1 ≤ height ∧ height ≤ 32768 := by
  have range := of_decide_eq_true admitted
  simp only [ImageCache.kMaxDim] at range
  omega

theorem inpaintInts_composite {n : Int} (member : n ∈ compositeInts width height) : n ∈ inpaintInts ops width height := by
  unfold inpaintInts
  split
  · exact List.mem_append_right _ member
  · exact List.mem_append_right _ member

-- dst_rgb[i*3+2] of the last pixel.
theorem compositeInts_last (positive : 1 ≤ width ∧ 1 ≤ height) :
    (width*height*3:Int)-1 ∈ compositeInts width height := by
  have area : 1 ≤ width*height := Nat.mul_pos positive.1 positive.2
  have last : (width*height*3:Int)-1 = ((width*height-1:Nat):Int)*3+2 := by
    rw [Nat.cast_sub area]
    push_cast
    ring
  rw [last]
  apply List.mem_cons_of_mem
  apply List.mem_flatMap.mpr
  exact ⟨width*height-1,List.mem_range.mpr (by omega),by simp⟩

theorem inpaintInts_fit (ieee : Rounded ops holds nearest) (admitted : Admitted width height)
    (bounded : width*height*3 ≤ 2^31) : ∀ n ∈ inpaintInts ops width height, fitsInt n = true := by
  obtain ⟨wide,high⟩ := admitted_sides admitted
  have composite := compositeInts_fit bounded
  intro n member
  unfold inpaintInts at member
  by_cases resized : needResize width height = true
  · rw [if_pos resized] at member
    have range := scaledSize_range ieee resized ⟨wide.2,high.2⟩
    have side : kN = 512 := rfl
    have small : (scaledSize ops width height).1.toNat ≤ 512 ∧ (scaledSize ops width height).2.toNat ≤ 512 := by omega
    have scaled : (1 ≤ (scaledSize ops width height).1.toNat ∧ (scaledSize ops width height).1.toNat ≤ 32768) ∧
        1 ≤ (scaledSize ops width height).2.toNat ∧ (scaledSize ops width height).2.toNat ≤ 32768 := by omega
    have area : (scaledSize ops width height).1.toNat*(scaledSize ops width height).2.toNat ≤ 512*512 :=
      Nat.mul_le_mul small.1 small.2
    simp only [List.mem_append] at member
    rcases member with (((((member | member) | member) | member) | member) | member) | member
    · simp only [List.mem_cons,List.not_mem_nil,or_false] at member
      rcases member with rfl | rfl
      all_goals exact decide_eq_true (by omega)
    · exact bilinearInts_fit ieee ⟨wide,high⟩ ⟨scaled.1.2,scaled.2.2⟩ bounded (by omega) n member
    · exact bilinearInts_fit ieee ⟨wide,high⟩ ⟨scaled.1.2,scaled.2.2⟩ (by omega) (by omega) n member
    · exact copyInts_fit (le_refl 3) _ n member
    · exact copyInts_fit (by decide) _ n member
    · exact bilinearInts_fit ieee scaled ⟨wide.2,high.2⟩ (by omega) bounded n member
    · exact composite n member
  · rw [if_neg resized] at member
    simp only [List.mem_append] at member
    rcases member with (member | member) | member
    · exact copyInts_fit (le_refl 3) _ n member
    · exact copyInts_fit (by decide) _ n member
    · exact composite n member

theorem inpaintInts_iff (ieee : Rounded ops holds nearest) (admitted : Admitted width height) :
    (∀ n ∈ inpaintInts ops width height, fitsInt n = true) ↔ width*height*3 ≤ 2^31 := by
  constructor
  · intro fits
    obtain ⟨wide,high⟩ := admitted_sides admitted
    have last := of_decide_eq_true (fits _ (inpaintInts_composite (compositeInts_last ⟨wide.1,high.1⟩)))
    have bounded : (width:Int)*height*3 ≤ 2^31 := by omega
    exact_mod_cast bounded
  · exact inpaintInts_fit ieee admitted

end Whole

section Faults
variable {α β : Type} {e : Fault} {rgb mask img msk out : List F} {width height : Nat}

theorem bind_avoids {x : Except Fault α} {f : α → Except Fault β} (first : x ≠ .error e) (rest : ∀ a, f a ≠ .error e) :
    x >>= f ≠ .error e := by
  cases x with
  | error e' =>
    intro fault
    exact first (congrArg Except.error (Except.error.inj fault))
  | ok a => exact rest a

theorem defined_avoids {ints : List Int} {value : α} (fits : ∀ n ∈ ints, fitsInt n = true) :
    defined ints value ≠ .error e := by
  rw [defined_fits fits]
  intro fault
  cases fault

theorem defined_silent {ints : List Int} {value : α} {msg : Bytes} : defined ints value ≠ .error (.threw msg) := by
  unfold defined
  split
  all_goals
    intro fault
    cases fault

theorem canvases_defined (fits : ∀ n ∈ inpaintInts ops width height, fitsInt n = true) :
    canvases ops rgb mask width height ≠ .error e := by
  have ok {γ : Type} (c : γ) : (Except.ok c : Except Fault γ) ≠ .error e := by
    intro fault
    cases fault
  unfold canvases
  by_cases resized : needResize width height = true
  · rw [inpaintInts,if_pos resized] at fits
    simp only [List.forall_mem_append] at fits
    obtain ⟨⟨⟨⟨⟨⟨sizes,image⟩,matte⟩,imageRows⟩,matteRows⟩,_⟩,_⟩ := fits
    rw [if_pos resized]
    refine bind_avoids (defined_avoids (List.forall_mem_append.mpr ⟨sizes,image⟩)) (fun _ => ?_)
    refine bind_avoids (defined_avoids matte) (fun _ => ?_)
    refine bind_avoids (defined_avoids imageRows) (fun _ => ?_)
    exact bind_avoids (defined_avoids matteRows) (fun _ => ok _)
  · rw [inpaintInts,if_neg resized] at fits
    simp only [List.forall_mem_append] at fits
    rw [if_neg resized]
    exact bind_avoids (defined_avoids fits.1.1) (fun _ => bind_avoids (defined_avoids fits.1.2) (fun _ => ok _))

theorem canvases_silent {msg : Bytes} : canvases ops rgb mask width height ≠ .error (.threw msg) := by
  have ok {γ : Type} (c : γ) : (Except.ok c : Except Fault γ) ≠ .error (.threw msg) := by
    intro fault
    cases fault
  unfold canvases
  split
  · refine bind_avoids defined_silent (fun _ => bind_avoids defined_silent (fun _ => ?_))
    exact bind_avoids defined_silent (fun _ => bind_avoids defined_silent (fun _ => ok _))
  · exact bind_avoids defined_silent (fun _ => bind_avoids defined_silent (fun _ => ok _))

theorem restored_defined (fits : ∀ n ∈ inpaintInts ops width height, fitsInt n = true) :
    restored ops out width height ≠ .error e := by
  unfold restored
  by_cases resized : needResize width height = true
  · rw [inpaintInts,if_pos resized] at fits
    simp only [List.forall_mem_append] at fits
    rw [if_pos resized]
    exact defined_avoids fits.1.2
  · rw [if_neg resized]
    intro fault
    cases fault

theorem restored_silent {msg : Bytes} : restored ops out width height ≠ .error (.threw msg) := by
  unfold restored
  split
  · exact defined_silent
  · intro fault
    cases fault

-- A call's parts never overflow by themselves; only its loops do.
theorem inpaint_defined {run : List F → List F → Except Bytes (List F)}
    (fits : ∀ n ∈ inpaintInts ops width height, fitsInt n = true) (progress : Nat → Bool) :
    inpaintImage ops run rgb mask width height progress ≠ .error .undefined := by
  have reports (n : Nat) : reportProgress progress n ≠ .error .undefined := by
    unfold reportProgress
    split
    all_goals
      intro fault
      cases fault
  have answers (img msk : List F) : ran (run img msk) ≠ .error .undefined := by
    cases answer : run img msk with
    | error what =>
      intro fault
      cases fault
    | ok out =>
      intro fault
      cases fault
  have composite : ∀ n ∈ compositeInts width height, fitsInt n = true := fun n member =>
    fits n (inpaintInts_composite member)
  unfold inpaintImage
  split
  · intro fault
    cases fault
  · refine bind_avoids (reports 0) (fun _ => bind_avoids (canvases_defined fits) (fun _ => ?_))
    refine bind_avoids (reports 1) (fun _ => bind_avoids (answers _ _) (fun _ => ?_))
    refine bind_avoids (reports 2) (fun _ => bind_avoids (restored_defined fits) (fun _ => ?_))
    refine bind_avoids (defined_avoids composite) (fun _ => bind_avoids (reports 3) (fun _ => ?_))
    intro fault
    cases fault

-- A call that nobody cancels and the model answers throws nothing.
theorem inpaint_silent {run : List F → List F → Except Bytes (List F)} {msg : Bytes}
    (positive : 1 ≤ width ∧ 1 ≤ height) (answers : ∀ img msk, ∃ out, run img msk = .ok out) :
    inpaintImage ops run rgb mask width height (fun _ => true) ≠ .error (.threw msg) := by
  have reports (n : Nat) : reportProgress (fun _ => true) n ≠ .error (.threw msg) := by
    intro fault
    cases fault
  have answered (img msk : List F) : ran (run img msk) ≠ .error (.threw msg) := by
    obtain ⟨out,answer⟩ := answers img msk
    rw [answer]
    intro fault
    cases fault
  unfold inpaintImage
  rw [if_neg (by omega)]
  refine bind_avoids (reports 0) (fun _ => bind_avoids canvases_silent (fun _ => ?_))
  refine bind_avoids (reports 1) (fun _ => bind_avoids (answered _ _) (fun _ => ?_))
  refine bind_avoids (reports 2) (fun _ => bind_avoids restored_silent (fun _ => ?_))
  refine bind_avoids defined_silent (fun _ => bind_avoids (reports 3) (fun _ => ?_))
  intro fault
  cases fault

theorem inpaint_composite {run : List F → List F → Except Bytes (List F)} {progress : Nat → Bool} {made : List F}
    (positive : 1 ≤ width ∧ 1 ≤ height)
    (ok : inpaintImage ops run rgb mask width height progress = .ok made) :
    ∀ n ∈ compositeInts width height, fitsInt n = true := by
  unfold inpaintImage at ok
  rw [if_neg (by omega)] at ok
  obtain ⟨_,_,ok⟩ := bind_ok ok
  obtain ⟨_,_,ok⟩ := bind_ok ok
  obtain ⟨_,_,ok⟩ := bind_ok ok
  obtain ⟨_,_,ok⟩ := bind_ok ok
  obtain ⟨_,_,ok⟩ := bind_ok ok
  obtain ⟨_,_,ok⟩ := bind_ok ok
  obtain ⟨_,composite,_⟩ := bind_ok ok
  exact (defined_ok composite).2

end Faults

-- The last offset of composite_masked decides it: `i * 3 + 2` is an int, where
-- the copies beside it widen theirs.
theorem index_range_iff {ops : FloatOps F} {holds : F → Rat → Prop} {nearest : Rat → Rat}
    (ieee : Rounded ops holds nearest) {width height : Nat} (admitted : Admitted width height) :
    ((∀ n ∈ inpaintInts ops width height, fitsInt n = true) ↔ width*height*3 ≤ 2^31) ∧
    ((∀ run rgb mask progress, inpaintImage ops run rgb mask width height progress ≠ .error .undefined) ↔
      width*height*3 ≤ 2^31) ∧
    (∀ run rgb mask, (∀ img msk, ∃ out, run img msk = .ok out) →
      (inpaintImage ops run rgb mask width height (fun _ => true) = .error .undefined ↔ 2^31 < width*height*3)) := by
  have every := inpaintInts_iff ieee admitted
  obtain ⟨wide,high⟩ := admitted_sides admitted
  have runs (run : List F → List F → Except Bytes (List F)) (rgb mask : List F)
      (answers : ∀ img msk, ∃ out, run img msk = .ok out) :
      inpaintImage ops run rgb mask width height (fun _ => true) = .error .undefined ↔ 2^31 < width*height*3 := by
    constructor
    · intro fault
      by_contra bounded
      exact inpaint_defined (every.mpr (by omega)) _ fault
    · intro large
      cases result : inpaintImage ops run rgb mask width height (fun _ => true) with
      | ok made =>
        have last := of_decide_eq_true
          (inpaint_composite ⟨wide.1,high.1⟩ result _ (compositeInts_last ⟨wide.1,high.1⟩))
        have product : (2:Int)^31 < width*height*3 := by exact_mod_cast large
        omega
      | error fault =>
        cases fault with
        | undefined => rfl
        | threw msg => exact absurd result (inpaint_silent ⟨wide.1,high.1⟩ answers)
  refine ⟨every,⟨?_,?_⟩,runs⟩
  · intro defined
    by_contra large
    have answers : ∀ img msk : List F, ∃ out : List F, (Except.ok [] : Except Bytes (List F)) = .ok out :=
      fun _ _ => ⟨[],rfl⟩
    exact defined _ [] [] _ ((runs (fun _ _ => .ok []) [] [] answers).mpr (by omega))
  · intro bounded run rgb mask progress
    exact inpaint_defined (every.mpr bounded) progress

theorem index_range_plate : ((∀ n ∈ inpaintInts exactOps 1024 512, fitsInt n = true) ↔ 1024*512*3 ≤ 2^31) ∧
    ((∀ n ∈ inpaintInts singleOps 1024 512, fitsInt n = true) ↔ 1024*512*3 ≤ 2^31) :=
  ⟨(@index_range_iff _ _ _ _ exact_rounded 1024 512 rfl).1,(@index_range_iff _ _ _ _ single_rounded 1024 512 rfl).1⟩

-- The largest plate the cache format admits.
theorem index_overflow :
    ¬ ∀ width height, Admitted width height → ∀ n ∈ inpaintInts exactOps width height, fitsInt n = true := by
  intro fits
  have last := fits 32768 32768 rfl _ (inpaintInts_composite (compositeInts_last (by decide)))
  exact absurd last (by decide)

end LamaTiler
end SmartFill
