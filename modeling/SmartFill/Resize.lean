import SmartFill.Exact
import SmartFill.LamaTiler
import SmartFill.Lib.Bilinear

namespace SmartFill.LamaTiler
open RowMajor Bilinear

-- One of the four source elements of an output pixel and its weight.
structure Tap (F : Type) where
  row : Int
  column : Int
  weight : F

def taps {F : Type} (ops : FloatOps F) (v h : Axis F) : List (Tap F) :=
  [⟨v.near,h.near,ops.mul (ops.sub ops.one h.frac) (ops.sub ops.one v.frac)⟩,
    ⟨v.near,h.far,ops.mul h.frac (ops.sub ops.one v.frac)⟩,
    ⟨v.far,h.near,ops.mul (ops.sub ops.one h.frac) v.frac⟩,
    ⟨v.far,h.far,ops.mul h.frac v.frac⟩]

-- The loop's assignments to dst, in their order.
def bilinearStores {F : Type} (ops : FloatOps F) (channels : Nat) (src : List F) (sw sh dw dh : Nat) : List (Nat × F) :=
  grid dh dw (fun y x =>
    (List.range channels).map (fun c => ((y*dw+x)*channels+c,bilinearCell ops channels src sw sh dw dh y x c)))

-- Element c of the source pixel at a row and column.
def element (channels : Nat) (src : List Rat) (sw : Nat) (c : Nat) (row column : Int) : Rat :=
  src.getD (srcIndex channels sw row column c).toNat 0

section Axes
variable {size scaled i : Nat}

theorem clampInt_clamp (positive : 0 < size) (i : Int) : clampInt i 0 (size-1) = clamp size i := by
  unfold clampInt clamp
  split
  · omega
  · split <;> omega

theorem axis_exact (positive : 0 < size) (scaled i : Nat) : axis exactOps size scaled i =
    ⟨⌊center (size:Rat) scaled i⌋,clamp size ⌊center (size:Rat) scaled i⌋,clamp size (⌊center (size:Rat) scaled i⌋+1),
      Int.fract (center (size:Rat) scaled i)⟩ := by
  simp only [axis,clampInt_clamp positive]
  rfl

end Axes

section Cells
variable {channels sw sh dw dh y x c : Nat} {src : List Rat}

theorem cell_taps (channels : Nat) (src : List Rat) (sw sh dw dh y x c : Nat) :
    bilinearCell exactOps channels src sw sh dw dh y x c =
      ((taps exactOps (axis exactOps sh dh y) (axis exactOps sw dw x)).map
        (fun t => element channels src sw c t.row t.column * t.weight)).sum := by
  simp only [taps,List.map_cons,List.map_nil,List.sum_cons,List.sum_nil]
  simp only [bilinearCell,element,exactOps]
  ring

-- The code's cell is the interpolation of the clamped source at the two centres.
theorem cell_interp (wide : 0 < sw) (high : 0 < sh) (dw dh y x c : Nat) :
    bilinearCell exactOps channels src sw sh dw dh y x c =
      interp2 (fun j i => element channels src sw c (clamp sh j) (clamp sw i))
        (center (sh:Rat) dh y) (center (sw:Rat) dw x) := by
  rw [cell_taps,axis_exact wide,axis_exact high]
  simp only [taps,List.map_cons,List.map_nil,List.sum_cons,List.sum_nil]
  simp only [interp2,interp,exactOps]
  ring

theorem resize_pixels (source : 0 < sw ∧ 0 < sh) (target : 0 < dw ∧ 0 < dh) (channels : Nat) (src : List Rat) :
    bilinearResize exactOps channels src sw sh dw dh =
      pixels dh dw channels (bilinearCell exactOps channels src sw sh dw dh) := by
  rw [bilinearResize,if_neg (by omega)]
  rfl

theorem element_inside {j i : Nat} (row : j < sh) (column : i < sw) (inner : c < channels)
    (sized : src.length = sh*sw*channels) :
    0 ≤ srcIndex channels sw j i c ∧ srcIndex channels sw j i c < src.length := by
  have index : srcIndex channels sw j i c = ((j*sw+i)*channels+c : Nat) := by
    unfold srcIndex
    push_cast
    ring
  have pixel : j*sw+i < sh*sw := by
    have : (j+1)*sw ≤ sh*sw := Nat.mul_le_mul_right sw row
    rw [Nat.succ_mul] at this
    omega
  have offset : (j*sw+i)*channels+c < sh*sw*channels := by
    have : (j*sw+i+1)*channels ≤ sh*sw*channels := Nat.mul_le_mul_right channels pixel
    rw [Nat.succ_mul] at this
    omega
  rw [index,sized]
  constructor
  · exact Int.natCast_nonneg _
  · exact_mod_cast offset

theorem clamp_nat {size : Nat} (positive : 0 < size) (i : Int) : ∃ k < size, clamp size i = (k:Int) := by
  have inside := clamp_bounds (i := i) (Int.natCast_pos.mpr positive)
  exact ⟨(clamp size i).toNat,by omega,by omega⟩

-- All four taps read the source.
theorem taps_inside (wide : 0 < sw) (high : 0 < sh) (dw dh y x : Nat) :
    ∀ t ∈ taps exactOps (axis exactOps sh dh y) (axis exactOps sw dw x),
      ∃ j < sh, ∃ i < sw, t.row = (j:Int) ∧ t.column = (i:Int) := by
  rw [axis_exact wide,axis_exact high]
  intro t member
  simp only [taps,List.mem_cons,List.not_mem_nil,or_false] at member
  rcases member with rfl | rfl | rfl | rfl
  all_goals
    obtain ⟨j,row,sameRow⟩ := clamp_nat high _
    obtain ⟨i,column,sameColumn⟩ := clamp_nat wide _
    exact ⟨j,row,i,column,sameRow,sameColumn⟩

theorem taps_weights (wide : 0 < sw) (high : 0 < sh) (dw dh y x : Nat) :
    (∀ t ∈ taps exactOps (axis exactOps sh dh y) (axis exactOps sw dw x), 0 ≤ t.weight) ∧
      ((taps exactOps (axis exactOps sh dh y) (axis exactOps sw dw x)).map Tap.weight).sum = 1 := by
  rw [axis_exact wide,axis_exact high]
  generalize center (sh:Rat) dh y = v
  generalize center (sw:Rat) dw x = u
  have column := Int.fract_nonneg u
  have row := Int.fract_nonneg v
  have column' : 0 ≤ 1 - Int.fract u := by linarith [Int.fract_lt_one u]
  have row' : 0 ≤ 1 - Int.fract v := by linarith [Int.fract_lt_one v]
  constructor
  · intro t member
    simp only [taps,List.mem_cons,List.not_mem_nil,or_false] at member
    rcases member with rfl | rfl | rfl | rfl
    · exact mul_nonneg column' row'
    · exact mul_nonneg column row'
    · exact mul_nonneg column' row
    · exact mul_nonneg column row
  · simp only [taps,List.map_cons,List.map_nil,List.sum_cons,List.sum_nil]
    simp only [exactOps]
    ring

theorem cell_between {lo hi : Rat} (wide : 0 < sw) (high : 0 < sh) (dw dh y x : Nat)
    (within : ∀ j < sh, ∀ i < sw, lo ≤ element channels src sw c j i ∧ element channels src sw c j i ≤ hi) :
    lo ≤ bilinearCell exactOps channels src sw sh dw dh y x c ∧
      bilinearCell exactOps channels src sw sh dw dh y x c ≤ hi := by
  rw [cell_interp wide high]
  apply interp2_mem
  intro j i _ _
  obtain ⟨j',row,sameRow⟩ := clamp_nat high j
  obtain ⟨i',column,sameColumn⟩ := clamp_nat wide i
  rw [sameRow,sameColumn]
  exact within j' row i' column

theorem stores_written (source : 0 < sw ∧ 0 < sh) (target : 0 < dw ∧ 0 < dh) (channels : Nat) (src : List Rat) :
    (bilinearStores exactOps channels src sw sh dw dh).map Prod.fst = List.range (dh*dw*channels) ∧
      (bilinearStores exactOps channels src sw sh dw dh).map Prod.snd = bilinearResize exactOps channels src sw sh dw dh := by
  constructor
  · rw [←grid_range]
    simp only [bilinearStores,grid_map,List.map_map]
    rfl
  · rw [resize_pixels source target]
    simp only [bilinearStores,grid_map,List.map_map]
    rfl

-- A centre of a row that keeps its size is the pixel itself.
theorem cell_same (wide : 0 < sw) (high : 0 < sh) (row : y < sh) (column : x < sw) (src : List Rat) :
    bilinearCell exactOps channels src sw sh sw sh y x c = src.getD ((y*sw+x)*channels+c) 0 := by
  have width : (sw:Rat) ≠ 0 := Nat.cast_ne_zero.mpr wide.ne'
  have height : (sh:Rat) ≠ 0 := Nat.cast_ne_zero.mpr high.ne'
  rw [cell_interp wide high,center_same width,center_same height]
  have v : (y:Rat) = ((y:Int):Rat) := by simp
  have u : (x:Rat) = ((x:Int):Rat) := by simp
  rw [interp2,v,interp_int,u,interp_int,clamp_inside (by omega) (by omega),clamp_inside (by omega) (by omega)]
  rfl

end Cells

-- What makes one call of bilinear_resize a convex resampling.
structure ConvexResampling (channels : Nat) (src : List Rat) (sw sh dw dh : Nat) : Prop where
  reads : ∀ y < dh, ∀ x < dw, ∀ c < channels, ∀ t ∈ taps exactOps (axis exactOps sh dh y) (axis exactOps sw dw x),
    (0 ≤ t.row ∧ t.row < sh) ∧ (0 ≤ t.column ∧ t.column < sw) ∧
      0 ≤ srcIndex channels sw t.row t.column c ∧ srcIndex channels sw t.row t.column c < src.length
  weights : ∀ y < dh, ∀ x < dw,
    (∀ t ∈ taps exactOps (axis exactOps sh dh y) (axis exactOps sw dw x), 0 ≤ t.weight) ∧
      ((taps exactOps (axis exactOps sh dh y) (axis exactOps sw dw x)).map Tap.weight).sum = 1
  weighted : ∀ y < dh, ∀ x < dw, ∀ c < channels,
    (bilinearResize exactOps channels src sw sh dw dh)[(y*dw+x)*channels+c]? =
      some ((taps exactOps (axis exactOps sh dh y) (axis exactOps sw dw x)).map
        (fun t => element channels src sw c t.row t.column * t.weight)).sum
  between : ∀ y < dh, ∀ x < dw, ∀ c < channels, ∀ lo hi,
    (∀ j < sh, ∀ i < sw, lo ≤ element channels src sw c j i ∧ element channels src sw c j i ≤ hi) →
      ∃ v, (bilinearResize exactOps channels src sw sh dw dh)[(y*dw+x)*channels+c]? = some v ∧ lo ≤ v ∧ v ≤ hi
  once : (bilinearStores exactOps channels src sw sh dw dh).map Prod.fst = List.range (dh*dw*channels)
  stored : (bilinearStores exactOps channels src sw sh dw dh).map Prod.snd = bilinearResize exactOps channels src sw sh dw dh
  same : dw = sw → dh = sh → bilinearResize exactOps channels src sw sh dw dh = src

theorem resize_convex {sw sh dw dh : Nat} (source : 0 < sw ∧ 0 < sh) (target : 0 < dw ∧ 0 < dh) (channels : Nat)
    (src : List Rat) (sized : src.length = sh*sw*channels) : ConvexResampling channels src sw sh dw dh := by
  have written (y : Nat) (row : y < dh) (x : Nat) (column : x < dw) (c : Nat) (inner : c < channels) :
      (bilinearResize exactOps channels src sw sh dw dh)[(y*dw+x)*channels+c]? =
        some (bilinearCell exactOps channels src sw sh dw dh y x c) := by
    rw [resize_pixels source target]
    exact pixels_getElem? row column inner
  obtain ⟨once,stored⟩ := stores_written source target channels src
  refine ⟨?_,?_,?_,?_,once,stored,?_⟩
  · intro y _ x _ c inner t member
    obtain ⟨j,row,i,column,sameRow,sameColumn⟩ := taps_inside source.1 source.2 dw dh y x t member
    rw [sameRow,sameColumn]
    exact ⟨by omega,by omega,element_inside row column inner sized⟩
  · intro y _ x _
    exact taps_weights source.1 source.2 dw dh y x
  · intro y row x column c inner
    rw [written y row x column c inner,cell_taps]
  · intro y row x column c inner lo hi within
    exact ⟨_,written y row x column c inner,cell_between source.1 source.2 dw dh y x within⟩
  · rintro rfl rfl
    rw [resize_pixels source target]
    refine (pixels_congr ?_).trans (pixels_getD src 0 sized)
    intro y row x column c _
    exact cell_same source.1 source.2 row column src

theorem resize_convex_pair : ConvexResampling 1 [0,1] 2 1 3 1 :=
  resize_convex (by decide) (by decide) 1 [0,1] rfl

section Mirror
variable {channels sw sh dw dh y x c : Nat} {src : List Rat}

def mirrorColumns (channels w h : Nat) (src : List Rat) : List Rat :=
  pixels h w channels (fun y x c => src.getD ((y*w+(w-1-x))*channels+c) 0)

def mirrorRows (channels w h : Nat) (src : List Rat) : List Rat :=
  pixels h w channels (fun y x c => src.getD (((h-1-y)*w+x)*channels+c) 0)

theorem element_nat (channels : Nat) (src : List Rat) (sw c j i : Nat) :
    element channels src sw c j i = src.getD ((j*sw+i)*channels+c) 0 := by
  have index : srcIndex channels sw j i c = ((j*sw+i)*channels+c : Nat) := by
    unfold srcIndex
    push_cast
    ring
  rw [element,index,Int.toNat_natCast]

theorem element_pixels {f : Nat → Nat → Nat → Rat} {j i : Nat} (row : j < sh) (column : i < sw) (inner : c < channels) :
    element channels (pixels sh sw channels f) sw c j i = f j i c := by
  rw [element_nat,List.getD_eq_getElem?_getD,pixels_getElem? row column inner]
  rfl

theorem mirrored_column (wide : 0 < sw) (high : 0 < sh) (inner : c < channels) (j i : Int) :
    element channels (mirrorColumns channels sw sh src) sw c (clamp sh j) (clamp sw i) =
      element channels src sw c (clamp sh j) (clamp sw (sw-1-i)) := by
  rw [clamp_mirror (by omega)]
  obtain ⟨j',row,sameRow⟩ := clamp_nat high j
  obtain ⟨i',column,sameColumn⟩ := clamp_nat wide i
  have across : (sw:Int)-1-i' = ((sw-1-i':Nat):Int) := by omega
  rw [sameRow,sameColumn,across,mirrorColumns,element_pixels row column inner,element_nat]

theorem mirrored_row (wide : 0 < sw) (high : 0 < sh) (inner : c < channels) (j i : Int) :
    element channels (mirrorRows channels sw sh src) sw c (clamp sh j) (clamp sw i) =
      element channels src sw c (clamp sh (sh-1-j)) (clamp sw i) := by
  rw [clamp_mirror (by omega)]
  obtain ⟨j',row,sameRow⟩ := clamp_nat high j
  obtain ⟨i',column,sameColumn⟩ := clamp_nat wide i
  have across : (sh:Int)-1-j' = ((sh-1-j':Nat):Int) := by omega
  rw [sameRow,sameColumn,across,mirrorRows,element_pixels row column inner,element_nat]

-- The centre of the mirrored pixel, seen from the other end of the source.
theorem center_across {size scaled i : Nat} (inside : i < scaled) :
    ((size-1:Int):Rat) - center (size:Rat) scaled ((scaled-1-i:Nat):Rat) = center (size:Rat) scaled i := by
  have wide : (scaled:Rat) ≠ 0 := Nat.cast_ne_zero.mpr (by omega)
  have across : ((scaled-1-i:Nat):Rat) = (scaled:Rat)-1-i := by
    rw [Nat.sub_sub,Nat.cast_sub (by omega)]
    push_cast
    ring
  rw [across,center_mirror wide]
  push_cast
  ring

theorem cell_mirror_column (wide : 0 < sw) (high : 0 < sh) (inner : c < channels) (column : x < dw) :
    bilinearCell exactOps channels (mirrorColumns channels sw sh src) sw sh dw dh y x c =
      bilinearCell exactOps channels src sw sh dw dh y (dw-1-x) c := by
  rw [cell_interp wide high,cell_interp wide high]
  simp only [mirrored_column wide high inner]
  rw [←@center_across sw dw x column]
  exact interp2_mirror_columns (fun j i => element channels src sw c (clamp sh j) (clamp sw i)) (sw-1) _ _

theorem cell_mirror_row (wide : 0 < sw) (high : 0 < sh) (inner : c < channels) (row : y < dh) :
    bilinearCell exactOps channels (mirrorRows channels sw sh src) sw sh dw dh y x c =
      bilinearCell exactOps channels src sw sh dw dh (dh-1-y) x c := by
  rw [cell_interp wide high,cell_interp wide high]
  simp only [mirrored_row wide high inner]
  rw [←@center_across sh dh y row]
  exact interp2_mirror_rows (fun j i => element channels src sw c (clamp sh j) (clamp sw i)) (sh-1) _ _

theorem resize_getD (source : 0 < sw ∧ 0 < sh) (target : 0 < dw ∧ 0 < dh) (row : y < dh) (column : x < dw)
    (inner : c < channels) :
    (bilinearResize exactOps channels src sw sh dw dh).getD ((y*dw+x)*channels+c) 0 =
      bilinearCell exactOps channels src sw sh dw dh y x c := by
  rw [resize_pixels source target,List.getD_eq_getElem?_getD,pixels_getElem? row column inner]
  rfl

end Mirror

theorem resize_mirrors {sw sh dw dh : Nat} (source : 0 < sw ∧ 0 < sh) (target : 0 < dw ∧ 0 < dh) (channels : Nat)
    (src : List Rat) :
    bilinearResize exactOps channels (mirrorColumns channels sw sh src) sw sh dw dh =
      mirrorColumns channels dw dh (bilinearResize exactOps channels src sw sh dw dh) ∧
    bilinearResize exactOps channels (mirrorRows channels sw sh src) sw sh dw dh =
      mirrorRows channels dw dh (bilinearResize exactOps channels src sw sh dw dh) := by
  constructor
  · rw [resize_pixels source target]
    apply pixels_congr
    intro y row x column c inner
    rw [cell_mirror_column source.1 source.2 inner column,
      resize_getD source target row (by omega : dw-1-x < dw) inner]
  · rw [resize_pixels source target]
    apply pixels_congr
    intro y row x column c inner
    rw [cell_mirror_row source.1 source.2 inner row,
      resize_getD source target (by omega : dh-1-y < dh) column inner]

theorem resize_mirrors_pair :
    bilinearResize exactOps 1 (mirrorColumns 1 2 1 [0,1]) 2 1 3 1 =
      mirrorColumns 1 3 1 (bilinearResize exactOps 1 [0,1] 2 1 3 1) ∧
    bilinearResize exactOps 1 (mirrorRows 1 2 1 [0,1]) 2 1 3 1 =
      mirrorRows 1 3 1 (bilinearResize exactOps 1 [0,1] 2 1 3 1) :=
  resize_mirrors (by decide) (by decide) 1 [0,1]

end SmartFill.LamaTiler
