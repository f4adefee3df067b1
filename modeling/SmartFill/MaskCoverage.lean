import SmartFill.InpaintSpec

namespace SmartFill.LamaTiler
open RowMajor Bilinear

def Binary (mask : List Rat) : Prop := ∀ m ∈ mask, m = 0 ∨ m = 1

-- The canvas pixels a pixel's replacement is interpolated from: those of its
-- four taps that have a weight.
def sources (width height y x : Nat) : List (Tap Rat) :=
  let active := activeSize width height
  (taps exactOps (axis exactOps active.2 height y) (axis exactOps active.1 width x)).filter (fun t => t.weight ≠ 0)

-- One of them is masked on the canvas the model is given.
def Inpainting (msk : List Rat) (width height y x : Nat) : Prop :=
  ∃ t ∈ sources width height y x, 0 < msk.getD (t.row*kN+t.column).toNat 0

def Covered (mask : List Rat) (width height : Nat) : Prop :=
  ∀ y < height, ∀ x < width, plane mask width y x = 1 →
    ∃ j < height, ∃ i < width, plane mask width j i = 1 ∧
      Reaches height (activeSize width height).2 y j ∧ Reaches width (activeSize width height).1 x i

theorem binary_plane {mask : List Rat} (binary : Binary mask) (width y x : Nat) :
    plane mask width y x = 0 ∨ plane mask width y x = 1 := by
  unfold plane
  rw [List.getD_eq_getElem?_getD]
  cases read : mask[y*width+x]? with
  | none => exact .inl rfl
  | some m => exact binary m (List.mem_of_getElem? read)

section Taps
variable {sw sh dw dh y x : Nat}

-- Of one axis: the neighbours with a weight are the pixels near the centre.
theorem axis_near {size scaled i : Nat} (positive : 0 < size) (inside : i < scaled) (seen : Int → Prop) :
    (1 - (axis exactOps size scaled i).frac ≠ 0 ∧ seen (axis exactOps size scaled i).near ∨
      (axis exactOps size scaled i).frac ≠ 0 ∧ seen (axis exactOps size scaled i).far) ↔
    ∃ k < size, Near (center (size:Rat) scaled i) (k:Int) ∧ seen k := by
  have bounds := @center_bounds Rat _ _ _ _ (size:Rat) scaled i (by exact_mod_cast positive) (by positivity)
    (by exact_mod_cast inside)
  rw [axis_exact positive]
  dsimp only
  generalize center (size:Rat) scaled i = u at bounds
  have less := Int.fract_lt_one u
  have clamped (n : Int) (near : Near u n) (holds : seen (clamp size n)) : ∃ k < size, Near u (k:Int) ∧ seen k := by
    obtain ⟨k,column,same⟩ := clamp_nat positive n
    rw [same] at holds
    have reached := (clamp_near (K := Rat) (by omega) bounds.1 (by push_cast; exact bounds.2)).mp ⟨n,near,same⟩
    exact ⟨k,column,reached.1,holds⟩
  constructor
  · rintro (⟨_,holds⟩ | ⟨weight,holds⟩)
    · exact clamped _ (near_floor u) holds
    · have positive : 0 < Int.fract u := lt_of_le_of_ne (Int.fract_nonneg u) (Ne.symm weight)
      exact clamped _ (near_iff.mpr (.inr ⟨rfl,positive⟩)) holds
  · rintro ⟨k,column,near,holds⟩
    have stays : clamp size k = k := clamp_inside (by omega) (by omega)
    rcases near_iff.mp near with same | ⟨next,weight⟩
    · left
      rw [←same,stays]
      exact ⟨by linarith,holds⟩
    · right
      rw [←next,stays]
      exact ⟨weight.ne',holds⟩

theorem taps_near (wide : 0 < sw) (high : 0 < sh) (row : y < dh) (column : x < dw) (seen : Int → Int → Prop) :
    (∃ t ∈ taps exactOps (axis exactOps sh dh y) (axis exactOps sw dw x), t.weight ≠ 0 ∧ seen t.row t.column) ↔
      ∃ j < sh, Near (center (sh:Rat) dh y) (j:Int) ∧
        ∃ i < sw, Near (center (sw:Rat) dw x) (i:Int) ∧ seen j i := by
  rw [←axis_near high row (fun j => ∃ i < sw, Near (center (sw:Rat) dw x) (i:Int) ∧ seen j i)]
  simp only [←axis_near wide column]
  generalize axis exactOps sh dh y = v
  generalize axis exactOps sw dw x = h
  simp only [taps,List.mem_cons,List.not_mem_nil,or_false,exists_eq_or_imp,exists_eq_left]
  simp only [exactOps,mul_ne_zero_iff,and_or_left,and_assoc,or_assoc,and_left_comm]

end Taps

section Canvas
variable {rgb mask img msk : List Rat} {width height : Nat}

theorem mask_canvas (positive : 0 < width ∧ 0 < height) (resized : needResize width height = true)
    (ok : canvases exactOps rgb mask width height = .ok (img,msk)) {row column : Nat} (inRow : row < kN)
    (inColumn : column < kN) : msk.getD (row*kN+column) 0 =
      padded (activeSize width height).1 (activeSize width height).2
        (resampled (plane mask width) width height (activeSize width height).1 (activeSize width height).2) row column := by
  obtain ⟨⟨wide,_⟩,⟨high,_⟩⟩ := active_bounds resized
  have target : 0 < (activeSize width height).1 ∧ 0 < (activeSize width height).2 := ⟨wide,high⟩
  have read := @canvas_getD Rat exactOps 1 _ _ kN kN row column 0 _ (resize_length positive target 1 mask) inRow
    inColumn Nat.zero_lt_one
  rw [←(canvases_large resized ok).2] at read
  simp only [Nat.mul_one,Nat.add_zero] at read
  refine read.trans ?_
  unfold padded
  split
  · rename_i inside
    have cell := @resize_resampled width height _ _ row column 0 1 mask positive target inside.1 inside.2 Nat.zero_lt_one
    simp only [Nat.mul_one,Nat.add_zero] at cell
    exact cell
  · rfl

theorem plane_nonneg (binary : Binary mask) (width y x : Nat) : 0 ≤ plane mask width y x := by
  rcases binary_plane binary width y x with zero | one
  · rw [zero]
  · rw [one]
    exact zero_le_one

theorem resampled_nonneg (binary : Binary mask) (width height sw sh row column : Nat) :
    0 ≤ resampled (plane mask width) width height sw sh row column := by
  unfold resampled interp2
  apply interp_ge
  intro j _
  apply interp_ge
  intro i _
  exact plane_nonneg binary width _ _

theorem resampled_positive (positive : 0 < width ∧ 0 < height) (binary : Binary mask) {sw sh row column : Nat}
    (inRow : row < sh) (inColumn : column < sw) :
    0 < resampled (plane mask width) width height sw sh row column ↔
      ∃ j < height, Near (center (height:Rat) sh row) (j:Int) ∧
        ∃ i < width, Near (center (width:Rat) sw column) (i:Int) ∧ plane mask width j i = 1 := by
  have rows := @center_bounds Rat _ _ _ _ (height:Rat) sh row (by exact_mod_cast positive.2) (by positivity)
    (by exact_mod_cast inRow)
  have columns := @center_bounds Rat _ _ _ _ (width:Rat) sw column (by exact_mod_cast positive.1) (by positivity)
    (by exact_mod_cast inColumn)
  unfold resampled
  rw [interp2_pos_iff (fun _ _ _ _ => plane_nonneg binary width _ _)]
  generalize center (height:Rat) sh row = v at rows
  generalize center (width:Rat) sw column = u at columns
  constructor
  · rintro ⟨j,i,near,near',marked⟩
    obtain ⟨j',below,same⟩ := clamp_nat positive.2 j
    obtain ⟨i',left,same'⟩ := clamp_nat positive.1 i
    have row := (clamp_near (K := Rat) (by omega) rows.1 (by push_cast; exact rows.2)).mp ⟨j,near,same⟩
    have column := (clamp_near (K := Rat) (by omega) columns.1 (by push_cast; exact columns.2)).mp ⟨i,near',same'⟩
    rw [same,same',Int.toNat_natCast,Int.toNat_natCast] at marked
    refine ⟨j',below,row.1,i',left,column.1,?_⟩
    rcases binary_plane binary width j' i' with zero | one
    · rw [zero] at marked
      exact absurd marked (lt_irrefl 0)
    · exact one
  · rintro ⟨j,below,near,i,left,near',one⟩
    refine ⟨j,i,near,near',?_⟩
    rw [clamp_inside (by omega) (by omega),clamp_inside (by omega) (by omega),Int.toNat_natCast,Int.toNat_natCast,one]
    exact zero_lt_one

-- A pixel is really inpainted exactly where its footprint, there and back,
-- meets the mask.
theorem inpainting_iff (positive : 0 < width ∧ 0 < height) (resized : needResize width height = true)
    (binary : Binary mask) (ok : canvases exactOps rgb mask width height = .ok (img,msk)) {y x : Nat} (row : y < height)
    (column : x < width) : Inpainting msk width height y x ↔
      ∃ j < height, ∃ i < width, plane mask width j i = 1 ∧
        Reaches height (activeSize width height).2 y j ∧ Reaches width (activeSize width height).1 x i := by
  obtain ⟨⟨wide,narrow⟩,⟨high,low⟩⟩ := active_bounds resized
  have footprint : Inpainting msk width height y x ↔
      ∃ t ∈ taps exactOps (axis exactOps (activeSize width height).2 height y)
        (axis exactOps (activeSize width height).1 width x),
        t.weight ≠ 0 ∧ 0 < msk.getD (t.row*kN+t.column).toNat 0 := by
    simp only [Inpainting,sources,List.mem_filter,decide_eq_true_eq,and_assoc]
  have marked {k l : Nat} (inRow : k < (activeSize width height).2) (inColumn : l < (activeSize width height).1) :
      0 < msk.getD ((k:Int)*kN+l).toNat 0 ↔
        ∃ j < height, Near (center (height:Rat) (activeSize width height).2 k) (j:Int) ∧
          ∃ i < width, Near (center (width:Rat) (activeSize width height).1 l) (i:Int) ∧ plane mask width j i = 1 := by
    have index : ((k:Int)*kN+l).toNat = k*kN+l := by
      have : (k:Int)*kN+l = ((k*kN+l:Nat):Int) := by push_cast; rfl
      rw [this,Int.toNat_natCast]
    rw [index,mask_canvas positive resized ok (by omega) (by omega),padded,if_pos ⟨inRow,inColumn⟩]
    exact resampled_positive positive binary inRow inColumn
  rw [footprint,taps_near wide high row column (fun r c => 0 < msk.getD (r*kN+c).toNat 0)]
  constructor
  · rintro ⟨k,inRow,near,l,inColumn,near',given⟩
    obtain ⟨j,below,far,i,left,far',one⟩ := (marked inRow inColumn).mp given
    refine ⟨j,below,i,left,one,⟨k,inRow,?_,?_⟩,l,inColumn,?_,?_⟩
    · exact (near_center positive.2).mp near
    · exact (near_center high).mp far
    · exact (near_center positive.1).mp near'
    · exact (near_center wide).mp far'
  · rintro ⟨j,below,i,left,one,⟨k,inRow,near,far⟩,l,inColumn,near',far'⟩
    refine ⟨k,inRow,(near_center positive.2).mpr near,l,inColumn,(near_center positive.1).mpr near',?_⟩
    exact (marked inRow inColumn).mpr ⟨j,below,(near_center high).mpr far,i,left,(near_center wide).mpr far',one⟩

end Canvas

section Sizes
variable {width height short long : Nat}

-- Rounding a half away from zero keeps an odd side from falling below half.
theorem shrunk_half (less : short ≤ long) (positive : 0 < short) (larger : kN < long) (bounded : long ≤ 1024) :
    shrunk exactOps short long ≤ (short:Int) ∧ (short:Int) ≤ 2*shrunk exactOps short long := by
  have code : shrunk exactOps short long = max 1 ⌊((short:Int):Rat)*((kN:Int):Rat)/((long:Int):Rat) + 1/2⌋ := by
    change max 1 (roundHalfAway (((short:Int):Rat)*((kN:Int):Rat)/((long:Int):Rat))) = _
    rw [roundHalfAway_pos (by positivity)]
  have side : ((kN:Int):Rat) = 512 := by
    rw [Int.cast_natCast,kN_rat]
    norm_num
  have wide : (0:Rat) < ((long:Int):Rat) := by exact_mod_cast (by omega : 0 < long)
  have narrow : ((long:Int):Rat) ≤ 1024 := by exact_mod_cast bounded
  have above : (512:Rat) < ((long:Int):Rat) := by exact_mod_cast larger
  have some : (0:Rat) < ((short:Int):Rat) := by exact_mod_cast positive
  have low : ((short:Int):Rat)/2 ≤ ((short:Int):Rat)*512/((long:Int):Rat) := by
    rw [le_div_iff₀ wide]
    nlinarith
  have high : ((short:Int):Rat)*512/((long:Int):Rat) < ((short:Int):Rat) := by
    rw [div_lt_iff₀ wide]
    exact mul_lt_mul_of_pos_left above some
  rw [code,side]
  have enough : (((short+1)/2:Nat):Int) ≤ ⌊((short:Int):Rat)*512/((long:Int):Rat) + 1/2⌋ := by
    apply Int.le_floor.mpr
    have half : (((short+1)/2:Nat):Rat) ≤ ((short:Rat)+1)/2 := by
      have : (2*((short+1)/2):Nat) ≤ short+1 := Nat.mul_div_le _ _
      have : (2*(((short+1)/2:Nat):Rat)) ≤ short+1 := by exact_mod_cast this
      linarith
    simp only [Int.cast_natCast] at low ⊢
    linarith
  have atMost : ⌊((short:Int):Rat)*512/((long:Int):Rat) + 1/2⌋ ≤ (short:Int) := by
    apply Int.floor_le_iff.mpr
    linarith
  omega

theorem active_half (positive : 0 < width ∧ 0 < height) (large : kN < max width height) (bounded : max width height ≤ 1024) :
    ((activeSize width height).1 ≤ width ∧ width ≤ 2*(activeSize width height).1) ∧
      ((activeSize width height).2 ≤ height ∧ height ≤ 2*(activeSize width height).2) := by
  have resized : needResize width height = true := decide_eq_true large
  have full : kN = 512 := rfl
  unfold activeSize
  rw [scaledSize_shrunk resized]
  split
  · rename_i wider
    have half := shrunk_half wider positive.2 (by omega) (by omega)
    dsimp only
    omega
  · rename_i taller
    have half := shrunk_half (by omega : width ≤ height) positive.1 (by omega) (by omega)
    dsimp only
    omega

theorem active_long (large : kN < max width height) :
    (height ≤ width → (activeSize width height).1 = kN) ∧ (width < height → (activeSize width height).2 = kN) := by
  have resized : needResize width height = true := decide_eq_true large
  unfold activeSize
  rw [scaledSize_shrunk resized]
  constructor
  · intro wider
    rw [if_pos wider]
    rfl
  · intro taller
    rw [if_neg (by omega)]
    rfl

end Sizes

-- A mask with one masked pixel.
def dot (width height y x : Nat) : List Rat := pixels height width 1 (fun j i _ => if j = y ∧ i = x then 1 else 0)

section Dot
variable {width height y x : Nat}

theorem dot_length : (dot width height y x).length = height*width := by
  rw [dot,pixels_length,Nat.mul_one]

theorem dot_binary : Binary (dot width height y x) := by
  intro m member
  simp only [dot,pixels,grid,blocks,List.mem_flatMap,List.mem_map] at member
  obtain ⟨j,_,i,_,c,_,rfl⟩ := member
  split
  · exact .inr rfl
  · exact .inl rfl

theorem dot_plane {j i : Nat} (row : j < height) (column : i < width) :
    plane (dot width height y x) width j i = if j = y ∧ i = x then 1 else 0 := by
  have read := @pixels_getElem? Rat 1 height width (fun j i _ => if j = y ∧ i = x then 1 else 0) j i 0 row column
    Nat.zero_lt_one
  rw [Nat.mul_one,Nat.add_zero] at read
  rw [plane,List.getD_eq_getElem?_getD,dot,read]
  rfl

theorem dot_marked {j i : Nat} (row : j < height) (column : i < width)
    (one : plane (dot width height y x) width j i = 1) : j = y ∧ i = x := by
  rw [dot_plane row column] at one
  by_contra other
  rw [if_neg other] at one
  exact zero_ne_one one

theorem dot_uncovered (row : y < height) (column : x < width) (covered : Covered (dot width height y x) width height) :
    Reaches height (activeSize width height).2 y y ∧ Reaches width (activeSize width height).1 x x := by
  have masked : plane (dot width height y x) width y x = 1 := by
    rw [dot_plane row column,if_pos ⟨rfl,rfl⟩]
  obtain ⟨j,below,i,left,one,rows,columns⟩ := covered y row x column masked
  obtain ⟨sameRow,sameColumn⟩ := dot_marked below left one
  rw [sameRow] at rows
  rw [sameColumn] at columns
  exact ⟨rows,columns⟩

end Dot

-- Beyond twice the canvas some line of the image is seen by no canvas pixel.
theorem unreached_line {size : Nat} (large : 1024 < size) : ∃ i < size, ¬ Reaches size kN i i := by
  have full : kN = 512 := rfl
  obtain ⟨i,inside,missed⟩ := unreached (K := Rat) (by omega : 2*kN < size)
  refine ⟨i,inside,?_⟩
  rintro ⟨k,column,_,near⟩
  exact missed k column ((near_center (by omega)).mpr near)

theorem all_covered_iff {width height : Nat} (positive : 0 < width ∧ 0 < height) (large : kN < max width height) :
    (∀ mask, mask.length = height*width → Binary mask → Covered mask width height) ↔ max width height ≤ 1024 := by
  have full := active_long large
  constructor
  · intro every
    by_contra beyond
    by_cases wider : height ≤ width
    · obtain ⟨i,inside,missed⟩ := unreached_line (by omega : 1024 < width)
      have reached := dot_uncovered positive.2 inside (every _ dot_length dot_binary)
      rw [full.1 wider] at reached
      exact missed reached.2
    · obtain ⟨j,inside,missed⟩ := unreached_line (by omega : 1024 < height)
      have reached := dot_uncovered inside positive.1 (every _ dot_length dot_binary)
      rw [full.2 (by omega)] at reached
      exact missed reached.1
  · intro bounded mask _ _ y row x column masked
    have half := active_half positive large bounded
    exact ⟨y,row,x,column,masked,reaches_self half.2.1 half.2.2 row,reaches_self half.1.1 half.1.2 column⟩

theorem masked_inpainted_iff {width height : Nat} (positive : 0 < width ∧ 0 < height) (large : kN < max width height) :
    (∀ rgb mask img msk, mask.length = height*width → Binary mask →
      canvases exactOps rgb mask width height = .ok (img,msk) →
        ((∀ y < height, ∀ x < width, plane mask width y x = 1 → Inpainting msk width height y x) ↔
          Covered mask width height)) ∧
    ((∀ mask, mask.length = height*width → Binary mask → Covered mask width height) ↔ max width height ≤ 1024) := by
  refine ⟨?_,all_covered_iff positive large⟩
  intro rgb mask img msk _ binary ok
  have each (y : Nat) (row : y < height) (x : Nat) (column : x < width) :=
    inpainting_iff positive (decide_eq_true large : needResize width height = true) binary ok row column
  constructor
  · intro every y row x column masked
    exact (each y row x column).mp (every y row x column masked)
  · intro covered y row x column masked
    exact (each y row x column).mpr (covered y row x column masked)

-- One masked pixel of a plate that is shrunk to less than its size, and to no
-- less than half of it.
theorem masked_inpainted_strip : ∃ rgb mask img msk, mask.length = 1*600 ∧ plane mask 600 0 0 = 1 ∧
    canvases exactOps rgb mask 600 1 = .ok (img,msk) ∧ Inpainting msk 600 1 0 0 := by
  have fits : ∀ n ∈ inpaintInts exactOps 600 1, fitsInt n = true := inpaintInts_fit exact_rounded rfl (by decide)
  have whole := masked_inpainted_iff (by decide : 0 < 600 ∧ 0 < 1) (by decide)
  have marked : plane (dot 600 1 0 0) 600 0 0 = 1 := by
    rw [dot_plane (by decide) (by decide),if_pos ⟨rfl,rfl⟩]
  let black : List Rat := List.replicate (1*600*3) 0
  cases given : canvases exactOps black (dot 600 1 0 0) 600 1 with
  | error e => exact absurd given (canvases_defined fits)
  | ok pair =>
    obtain ⟨img,msk⟩ := pair
    have covered : Covered (dot 600 1 0 0) 600 1 := whole.2.mpr (by decide) _ dot_length dot_binary
    exact ⟨black,_,img,msk,dot_length,marked,given,
      (whole.1 black _ img msk dot_length dot_binary given).mpr covered 0 (by decide) 0 (by decide) marked⟩

-- A wire one pixel wide at the end of a 2048 by 1 plate: the samples are taken
-- at 4k+1 and 4k+2.
theorem wire_unseen {msk : List Rat} {img rgb : List Rat}
    (ok : canvases exactOps rgb (dot 2048 1 0 0) 2048 1 = .ok (img,msk)) {row column : Nat} (inRow : row < kN)
    (inColumn : column < kN) : msk.getD (row*kN+column) 0 = 0 := by
  have large : kN < max 2048 1 := by decide
  have side : (activeSize 2048 1).1 = kN := (active_long large).1 (by decide)
  have full : kN = 512 := rfl
  rw [mask_canvas (by decide) (decide_eq_true large) ok inRow inColumn]
  unfold padded
  split
  · rename_i inside
    refine le_antisymm (not_lt.mp ?_) (resampled_nonneg dot_binary _ _ _ _ _ _)
    intro marked
    obtain ⟨j,below,_,i,left,near,one⟩ := (resampled_positive (by decide) dot_binary inside.1 inside.2).mp marked
    obtain ⟨_,first⟩ := dot_marked below left one
    have close := (near_center (by omega)).mp near
    rw [first,side] at close
    have bounds := abs_lt.mp close
    push_cast at bounds
    omega
  · rfl

theorem wire_missed : ∃ rgb mask img msk,
    rgb.length = 1*2048*3 ∧ mask.length = 1*2048 ∧ Binary mask ∧ plane mask 2048 0 0 = 1 ∧
    canvases exactOps rgb mask 2048 1 = .ok (img,msk) ∧
    (∀ row < kN, ∀ column < kN, msk.getD (row*kN+column) 0 = 0) ∧ ¬ Inpainting msk 2048 1 0 0 := by
  have fits : ∀ n ∈ inpaintInts exactOps 2048 1, fitsInt n = true := inpaintInts_fit exact_rounded rfl (by decide)
  have large : kN < max 2048 1 := by decide
  let black : List Rat := List.replicate (1*2048*3) 0
  cases given : canvases exactOps black (dot 2048 1 0 0) 2048 1 with
  | error e => exact absurd given (canvases_defined fits)
  | ok pair =>
    obtain ⟨img,msk⟩ := pair
    have unseen : ∀ row < kN, ∀ column < kN, msk.getD (row*kN+column) 0 = 0 :=
      fun _ inRow _ inColumn => wire_unseen given inRow inColumn
    refine ⟨black,_,img,msk,List.length_replicate,dot_length,dot_binary,?_,given,unseen,?_⟩
    · rw [dot_plane (by decide) (by decide),if_pos ⟨rfl,rfl⟩]
    · intro inpainting
      obtain ⟨j,below,i,left,one,_,⟨k,_,_,near⟩⟩ := (inpainting_iff (by decide) (decide_eq_true large) dot_binary given
        (by decide) (by decide)).mp inpainting
      obtain ⟨_,first⟩ := dot_marked below left one
      rw [first,(active_long large).1 (by decide)] at near
      have bounds := abs_lt.mp near
      have full : kN = 512 := rfl
      push_cast at bounds
      omega

end SmartFill.LamaTiler
