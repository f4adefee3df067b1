import SmartFill.IndexRange
import SmartFill.Resize

namespace SmartFill.LamaTiler
open RowMajor Bilinear

section Buffers
variable {F : Type} {ops : FloatOps F} {channels sw sh dw dh y x c : Nat} {src : List F}

theorem slice_getD (l : List F) (start n i : Nat) (zero : F) :
    ((l.drop start).take n).getD i zero = if i < n then l.getD (start+i) zero else zero := by
  by_cases inside : i < n <;> simp [List.getD_eq_getElem?_getD,inside]

theorem row_fits (row : y < sh) (few : n ≤ sw*channels) (sized : src.length = sh*sw*channels) :
    y*sw*channels+n ≤ src.length := by
  have rows : (y+1)*(sw*channels) ≤ sh*(sw*channels) := Nat.mul_le_mul_right _ row
  rw [Nat.succ_mul,←Nat.mul_assoc,←Nat.mul_assoc] at rows
  omega

def canvasRow (ops : FloatOps F) (channels : Nat) (src : List F) (sw sh dw dh y : Nat) : List F :=
  if y < min sh dh then
    (src.drop (y*sw*channels)).take (min sw dw*channels) ++ List.replicate ((dw-min sw dw)*channels) ops.zero
  else List.replicate (dw*channels) ops.zero

theorem canvasRow_length (sized : src.length = sh*sw*channels) (y : Nat) :
    (canvasRow ops channels src sw sh dw dh y).length = dw*channels := by
  unfold canvasRow
  split
  · rename_i row
    have fits := row_fits (by omega : y < sh) (Nat.mul_le_mul_right channels (Nat.min_le_left sw dw)) sized
    have parts : min sw dw*channels + (dw-min sw dw)*channels = dw*channels := by
      rw [←Nat.add_mul]
      congr 1
      omega
    simp only [List.length_append,List.length_take,List.length_drop,List.length_replicate]
    omega
  · simp

-- The source where it reaches, zeros elsewhere.
theorem canvas_getD (sized : src.length = sh*sw*channels) (row : y < dh) (column : x < dw) (inner : c < channels) :
    (copyIntoCanvas ops channels src sw sh dw dh).getD ((y*dw+x)*channels+c) ops.zero =
      if y < sh ∧ x < sw then src.getD ((y*sw+x)*channels+c) ops.zero else ops.zero := by
  have offset : (y*dw+x)*channels+c = y*(dw*channels)+(x*channels+c) := by ring
  have within : x*channels+c < dw*channels := by
    have := Nat.mul_le_mul_right channels column
    rw [Nat.succ_mul] at this
    omega
  have rows : copyIntoCanvas ops channels src sw sh dw dh = blocks dh (canvasRow ops channels src sw sh dw dh) := rfl
  rw [rows,offset,List.getD_eq_getElem?_getD,blocks_getElem? (fun y _ => canvasRow_length sized y) row within]
  unfold canvasRow
  by_cases inRow : y < sh
  · rw [if_pos (by omega)]
    have fits := row_fits inRow (Nat.mul_le_mul_right channels (Nat.min_le_left sw dw)) sized
    have taken : ((src.drop (y*sw*channels)).take (min sw dw*channels)).length = min sw dw*channels := by
      rw [List.length_take,List.length_drop]
      omega
    by_cases inColumn : x < sw
    · have inside : x*channels+c < min sw dw*channels := by
        have := Nat.mul_le_mul_right channels (by omega : x+1 ≤ min sw dw)
        rw [Nat.succ_mul] at this
        omega
      rw [if_pos ⟨inRow,inColumn⟩,List.getElem?_append_left (by omega),←List.getD_eq_getElem?_getD,slice_getD,
        if_pos inside]
      congr 1
      ring
    · have outside : min sw dw*channels ≤ x*channels+c := by
        have := Nat.mul_le_mul_right channels (by omega : min sw dw ≤ x)
        omega
      rw [if_neg (fun both => inColumn both.2),List.getElem?_append_right (by omega),List.getElem?_replicate]
      split <;> rfl
  · rw [if_neg (by omega),if_neg (fun both => inRow both.1),List.getElem?_replicate]
    split <;> rfl

theorem crop_getD {out : List F} {w h : Nat} (sized : out.length = kN*kN*3) (zero : F) (high : h ≤ kN) (wide : w ≤ kN)
    (row : y < h) (column : x < w) (inner : c < 3) :
    (crop out w h).getD ((y*w+x)*3+c) zero = out.getD ((y*kN+x)*3+c) zero := by
  have offset : (y*w+x)*3+c = y*(w*3)+(x*3+c) := by ring
  have uniform : ∀ j < h, ((out.drop (j*kN*3)).take (w*3)).length = w*3 := by
    intro j below
    have fits := row_fits (by omega : j < kN) (Nat.mul_le_mul_right 3 wide) sized
    rw [List.length_take,List.length_drop]
    omega
  have index : y*kN*3+(x*3+c) = (y*kN+x)*3+c := by ring
  rw [crop,offset,List.getD_eq_getElem?_getD,blocks_getElem? uniform row (by omega),←List.getD_eq_getElem?_getD,
    slice_getD,if_pos (by omega),index]

theorem composite_getD {base inpainted mask : List F} {threshold : F} {width height i : Nat} (inside : i < width*height)
    (inner : c < 3) :
    (compositeMasked ops base inpainted mask width height threshold)[i*3+c]? =
      some (if ops.ge (mask.getD i ops.zero) threshold then inpainted.getD (i*3+c) ops.zero
        else base.getD (i*3+c) ops.zero) := by
  have uniform : ∀ i < width*height, (compositePixel ops base inpainted mask threshold i).length = 3 := fun _ _ => rfl
  rw [compositeMasked,blocks_getElem? uniform inside inner]
  simp only [compositePixel]
  have few : c = 0 ∨ c = 1 ∨ c = 2 := by omega
  split
  all_goals rcases few with same | same | same <;> rw [same] <;> rfl

end Buffers

-- The specification's own notions: an image is a function of row, column and
-- channel, a tensor lists its planes.
def image (rgb : List Rat) (width : Nat) (y x c : Nat) : Rat := rgb.getD ((y*width+x)*3+c) 0
def plane (mask : List Rat) (width : Nat) (y x : Nat) : Rat := mask.getD (y*width+x) 0

def padded (width height : Nat) (f : Nat → Nat → Rat) (y x : Nat) : Rat := if y < height ∧ x < width then f y x else 0

def imageTensor (f : Nat → Nat → Nat → Rat) : List Rat := pixels 3 kN kN (fun c y x => f y x c)
def maskTensor (m : Nat → Nat → Rat) : List Rat := pixels kN kN 1 (fun y x _ => m y x)

def tensorAt (out : List Rat) (c y x : Nat) : Rat := out.getD ((c*kN+y)*kN+x) 0

-- f on a sw by sh raster, interpolated at the pixel centres of a dw by dh one.
def resampled (f : Nat → Nat → Rat) (sw sh dw dh : Nat) (y x : Nat) : Rat :=
  interp2 (fun j i => f (clamp sh j).toNat (clamp sw i).toNat) (center (sh:Rat) dh y) (center (sw:Rat) dw x)

def activeSize (width height : Nat) : Nat × Nat :=
  ((scaledSize exactOps width height).1.toNat,(scaledSize exactOps width height).2.toNat)

-- What the model has to be given.
def modelImage (rgb : List Rat) (width height : Nat) : List Rat :=
  let active := activeSize width height
  if kN < max width height then
    imageTensor (fun y x c => padded active.1 active.2
      (resampled (fun j i => image rgb width j i c) width height active.1 active.2) y x)
  else imageTensor (fun y x c => padded width height (fun j i => image rgb width j i c) y x)

def modelMask (mask : List Rat) (width height : Nat) : List Rat :=
  let active := activeSize width height
  if kN < max width height then
    maskTensor (padded active.1 active.2 (resampled (plane mask width) width height active.1 active.2))
  else maskTensor (padded width height (plane mask width))

-- What a pixel has to be, for the model's answer.
def inpainted (out : List Rat) (width height : Nat) (y x c : Nat) : Rat :=
  let active := activeSize width height
  if kN < max width height then
    resampled (fun j i => tensorAt out c j i / 255) active.1 active.2 width height y x
  else tensorAt out c y x / 255

def specified (rgb mask out : List Rat) (width height : Nat) (y x c : Nat) : Rat :=
  if 1/2 ≤ plane mask width y x then inpainted out width height y x c else image rgb width y x c

section Sizes
variable {width height short long : Nat}

theorem shrunk_bounds (less : short ≤ long) (positive : 0 < long) :
    1 ≤ shrunk exactOps short long ∧ shrunk exactOps short long ≤ kN := by
  refine ⟨le_max_left _ _,max_le (by decide) ?_⟩
  change roundHalfAway (((short:Int):Rat)*((kN:Int):Rat)/((long:Int):Rat)) ≤ kN
  have wide : (0:Rat) < ((long:Int):Rat) := by exact_mod_cast positive
  have ratio : ((short:Int):Rat)*((kN:Int):Rat)/((long:Int):Rat) ≤ ((kN:Int):Rat) := by
    rw [div_le_iff₀ wide,mul_comm]
    apply mul_le_mul_of_nonneg_left
    · exact_mod_cast less
    · positivity
  exact roundHalfAway_le (by positivity) ratio

theorem scaled_bounds (resized : needResize width height = true) :
    (1 ≤ (scaledSize exactOps width height).1 ∧ (scaledSize exactOps width height).1 ≤ kN) ∧
    (1 ≤ (scaledSize exactOps width height).2 ∧ (scaledSize exactOps width height).2 ≤ kN) ∧
    max (scaledSize exactOps width height).1 (scaledSize exactOps width height).2 = kN := by
  have long : kN < max width height := of_decide_eq_true resized
  have positive : 0 < max width height := by omega
  have full : (1:Int) ≤ kN := by decide
  rw [scaledSize_shrunk resized]
  split
  · rename_i wider
    have bounds := shrunk_bounds wider (by omega : 0 < width)
    exact ⟨⟨full,le_rfl⟩,bounds,max_eq_left bounds.2⟩
  · have bounds := shrunk_bounds (by omega : width ≤ height) (by omega : 0 < height)
    exact ⟨bounds,⟨full,le_rfl⟩,max_eq_right bounds.2⟩

theorem active_bounds (resized : needResize width height = true) :
    (0 < (activeSize width height).1 ∧ (activeSize width height).1 ≤ kN) ∧
    (0 < (activeSize width height).2 ∧ (activeSize width height).2 ≤ kN) := by
  have bounds := scaled_bounds resized
  unfold activeSize
  omega

end Sizes

section Tensors
variable {sw sh : Nat}

theorem canvas_length {channels : Nat} {src : List Rat} (sized : src.length = sh*sw*channels) :
    (copyIntoCanvas exactOps channels src sw sh kN kN).length = kN*kN*channels := by
  have rows : copyIntoCanvas exactOps channels src sw sh kN kN = blocks kN (canvasRow exactOps channels src sw sh kN kN) :=
    rfl
  rw [rows,blocks_length (fun y _ => canvasRow_length sized y),Nat.mul_assoc]

-- HWC to CHW
theorem imgChw_planes (canvas : List Rat) :
    LamaSession.imgChw exactOps canvas = imageTensor (fun y x c => canvas.getD ((y*kN+x)*3+c) 0) := by
  have code : LamaSession.imgChw exactOps canvas =
      blocks 3 (fun c => (List.range (kN*kN)).map (fun i => canvas.getD (i*3+c) 0)) := rfl
  rw [code,imageTensor,pixels,grid]
  apply blocks_congr
  intro c _
  rw [←blocks_range,blocks_map]
  apply blocks_congr
  intro y _
  rw [List.map_map]
  rfl

theorem imageTensor_congr {f g : Nat → Nat → Nat → Rat} (same : ∀ y < kN, ∀ x < kN, ∀ c < 3, f y x c = g y x c) :
    imageTensor f = imageTensor g :=
  pixels_congr (fun c inner y row x column => same y row x column c inner)

theorem image_given {rgb : List Rat} (sized : rgb.length = sh*sw*3) :
    LamaSession.imgChw exactOps (copyIntoCanvas exactOps 3 rgb sw sh kN kN) =
      imageTensor (fun y x c => padded sw sh (fun j i => image rgb sw j i c) y x) := by
  rw [imgChw_planes]
  apply imageTensor_congr
  intro y row x column c inner
  exact @canvas_getD Rat exactOps 3 sw sh kN kN y x c rgb sized row column inner

theorem mask_given {mask : List Rat} (sized : mask.length = sh*sw) :
    (copyIntoCanvas exactOps 1 mask sw sh kN kN).take (kN*kN) = maskTensor (padded sw sh (plane mask sw)) := by
  have sized1 : mask.length = sh*sw*1 := by rw [sized,Nat.mul_one]
  have length := canvas_length sized1
  rw [List.take_of_length_le (by omega),←pixels_getD _ 0 length]
  apply pixels_congr
  intro y row x column c inner
  obtain rfl : c = 0 := by omega
  have read := @canvas_getD Rat exactOps 1 sw sh kN kN y x 0 mask sized1 row column inner
  simp only [Nat.mul_one,Nat.add_zero] at read ⊢
  exact read

-- CHW to HWC, from [0,255] to [0,1]
theorem outHwc_getD {out : List Rat} {y x c : Nat} (row : y < kN) (column : x < kN) (inner : c < 3) :
    (LamaSession.outHwc exactOps out).getD ((y*kN+x)*3+c) 0 = tensorAt out c y x / 255 := by
  have pixel : y*kN+x < kN*kN := by
    have := Nat.mul_le_mul_right kN row
    rw [Nat.succ_mul] at this
    omega
  have uniform : ∀ i < kN*kN, ((List.range 3).map (fun c => exactOps.mul (out.getD (c*kN*kN+i) 0)
      (exactOps.div exactOps.one (exactOps.ofInt 255)))).length = 3 := by simp
  have planes : LamaSession.outHwc exactOps out = blocks (kN*kN) (fun i => (List.range 3).map
      (fun c => exactOps.mul (out.getD (c*kN*kN+i) 0) (exactOps.div exactOps.one (exactOps.ofInt 255)))) := rfl
  have index : c*kN*kN+(y*kN+x) = (c*kN+y)*kN+x := by ring
  rw [planes,List.getD_eq_getElem?_getD,blocks_getElem? uniform pixel inner]
  simp only [List.getElem?_map,List.getElem?_range inner,Option.map_some,Option.getD_some,index]
  simp only [tensorAt,exactOps]
  push_cast
  ring

theorem outHwc_length (out : List Rat) : (LamaSession.outHwc exactOps out).length = kN*kN*3 :=
  blocks_length (fun _ _ => by rw [List.length_map,List.length_range]; rfl)

end Tensors

section Resampling
variable {sw sh dw dh y x c channels : Nat} {f g : Nat → Nat → Rat}

theorem resampled_congr (wide : 0 < sw) (high : 0 < sh) (same : ∀ j < sh, ∀ i < sw, f j i = g j i) (dw dh y x : Nat) :
    resampled f sw sh dw dh y x = resampled g sw sh dw dh y x := by
  apply interp2_congr
  intro j i _ _
  obtain ⟨j',row,sameRow⟩ := clamp_nat high j
  obtain ⟨i',column,sameColumn⟩ := clamp_nat wide i
  rw [sameRow,sameColumn]
  exact same j' row i' column

theorem padded_congr (same : ∀ j < sh, ∀ i < sw, f j i = g j i) (y x : Nat) : padded sw sh f y x = padded sw sh g y x := by
  unfold padded
  split
  · rename_i inside
    exact same y inside.1 x inside.2
  · rfl

theorem resize_resampled {src : List Rat} (source : 0 < sw ∧ 0 < sh) (target : 0 < dw ∧ 0 < dh) (row : y < dh)
    (column : x < dw) (inner : c < channels) :
    (bilinearResize exactOps channels src sw sh dw dh).getD ((y*dw+x)*channels+c) 0 =
      resampled (fun j i => src.getD ((j*sw+i)*channels+c) 0) sw sh dw dh y x := by
  rw [resize_getD source target row column inner,cell_interp source.1 source.2]
  apply interp2_congr
  intro j i _ _
  obtain ⟨j',_,sameRow⟩ := clamp_nat source.2 j
  obtain ⟨i',_,sameColumn⟩ := clamp_nat source.1 i
  rw [sameRow,sameColumn,element_nat]
  rfl

theorem resize_length (source : 0 < sw ∧ 0 < sh) (target : 0 < dw ∧ 0 < dh) (channels : Nat) (src : List Rat) :
    (bilinearResize exactOps channels src sw sh dw dh).length = dh*dw*channels := by
  rw [resize_pixels source target,pixels_length]

end Resampling

section Parts
variable {rgb mask img msk out made : List Rat} {width height : Nat}

theorem canvases_large (resized : needResize width height = true)
    (ok : canvases exactOps rgb mask width height = .ok (img,msk)) :
    img = copyIntoCanvas exactOps 3 (bilinearResize exactOps 3 rgb width height (activeSize width height).1
      (activeSize width height).2) (activeSize width height).1 (activeSize width height).2 kN kN ∧
    msk = copyIntoCanvas exactOps 1 (bilinearResize exactOps 1 mask width height (activeSize width height).1
      (activeSize width height).2) (activeSize width height).1 (activeSize width height).2 kN kN := by
  rw [canvases,if_pos resized] at ok
  obtain ⟨_,first,ok⟩ := bind_ok ok
  obtain ⟨_,second,ok⟩ := bind_ok ok
  obtain ⟨_,third,ok⟩ := bind_ok ok
  obtain ⟨_,fourth,ok⟩ := bind_ok ok
  obtain ⟨same,same'⟩ := Prod.mk.inj (Except.ok.inj ok)
  rw [←same,←same',(defined_ok third).1,(defined_ok fourth).1,(defined_ok first).1,(defined_ok second).1]
  exact ⟨rfl,rfl⟩

theorem canvases_given (positive : 0 < width ∧ 0 < height) (rgbSized : rgb.length = height*width*3)
    (maskSized : mask.length = height*width) (ok : canvases exactOps rgb mask width height = .ok (img,msk)) :
    LamaSession.imgChw exactOps img = modelImage rgb width height ∧ msk.take (kN*kN) = modelMask mask width height := by
  unfold modelImage modelMask
  by_cases long : kN < max width height
  · have resized : needResize width height = true := decide_eq_true long
    obtain ⟨⟨wide,_⟩,⟨high,_⟩⟩ := active_bounds resized
    obtain ⟨imgMade,mskMade⟩ := canvases_large resized ok
    rw [if_pos long,if_pos long,imgMade,mskMade]
    have target : 0 < (activeSize width height).1 ∧ 0 < (activeSize width height).2 := ⟨wide,high⟩
    constructor
    · refine (image_given (resize_length positive target 3 rgb)).trans ?_
      apply imageTensor_congr
      intro y _ x _ c inner
      apply padded_congr
      intro j row i column
      exact resize_resampled positive target row column inner
    · have sized := resize_length positive target 1 mask
      rw [Nat.mul_one] at sized
      refine (mask_given sized).trans ?_
      apply pixels_congr
      intro y _ x _ c _
      apply padded_congr
      intro j row i column
      have read := @resize_resampled width height _ _ j i 0 1 mask positive target row column Nat.zero_lt_one
      simp only [Nat.mul_one,Nat.add_zero] at read
      exact read
  · rw [canvases_small (decide_eq_false long)] at ok
    obtain ⟨same,same'⟩ := Prod.mk.inj (Except.ok.inj ok)
    rw [if_neg long,if_neg long,←same,←same']
    exact ⟨image_given rgbSized,mask_given maskSized⟩

theorem restored_large (resized : needResize width height = true)
    (ok : restored exactOps out width height = .ok made) :
    made = bilinearResize exactOps 3 (crop out (activeSize width height).1 (activeSize width height).2)
      (activeSize width height).1 (activeSize width height).2 width height := by
  rw [restored,if_pos resized] at ok
  exact (defined_ok ok).1

theorem restored_given (positive : 0 < width ∧ 0 < height)
    (ok : restored exactOps (LamaSession.outHwc exactOps out) width height = .ok made) {y x c : Nat} (row : y < height)
    (column : x < width) (inner : c < 3) : made.getD ((y*width+x)*3+c) 0 = inpainted out width height y x c := by
  have sized := outHwc_length out
  unfold inpainted
  by_cases long : kN < max width height
  · have resized : needResize width height = true := decide_eq_true long
    obtain ⟨⟨wide,narrow⟩,⟨high,low⟩⟩ := active_bounds resized
    rw [if_pos long,restored_large resized ok]
    refine (resize_resampled ⟨wide,high⟩ positive row column inner).trans ?_
    apply resampled_congr wide high
    intro j below i left
    exact (crop_getD sized 0 low narrow below left inner).trans (outHwc_getD (by omega) (by omega) inner)
  · rw [restored_small (decide_eq_false long)] at ok
    rw [if_neg long,←Except.ok.inj ok]
    exact (crop_getD sized 0 (by omega) (by omega) row column inner).trans (outHwc_getD (by omega) (by omega) inner)

theorem run_answered {onnx : Onnx Rat} {session : LamaSession} {call : Nat}
    (ok : LamaSession.run exactOps onnx session call img msk = .ok made) :
    ∃ out others, onnx.run session call (LamaSession.imgChw exactOps img) (msk.take (kN*kN)) =
      .ok (⟨LamaSession.expectedShape,out⟩ :: others) ∧ made = LamaSession.outHwc exactOps out := by
  unfold LamaSession.run at ok
  obtain ⟨_,_,ok⟩ := bind_ok ok
  split at ok
  · cases ok
  · cases ok
  · rename_i output others answered
    by_cases shape : output.shape = LamaSession.expectedShape
    · rw [if_pos shape] at ok
      refine ⟨output.data,others,?_,(Except.ok.inj ok).symm⟩
      rw [←shape]
      exact answered
    · rw [if_neg shape] at ok
      cases ok

end Parts

-- Everything a normal return of inpaint_image says: what the model was given,
-- what it answered, and every pixel from that answer.
structure Inpainted (onnx : Onnx Rat) (session : LamaSession) (call : Nat) (rgb mask : List Rat) (width height : Nat)
    (made : List Rat) : Prop where
  answered : ∃ out others,
    onnx.run session call (modelImage rgb width height) (modelMask mask width height) =
      .ok (⟨LamaSession.expectedShape,out⟩ :: others) ∧
    made = pixels height width 3 (specified rgb mask out width height)
  sizes : kN < max width height →
    (1 ≤ (activeSize width height).1 ∧ (activeSize width height).1 ≤ 512) ∧
    (1 ≤ (activeSize width height).2 ∧ (activeSize width height).2 ≤ 512) ∧
    max (activeSize width height).1 (activeSize width height).2 = 512

section Whole
variable {onnx : Onnx Rat} {session : LamaSession} {call : Nat} {rgb mask made : List Rat} {width height : Nat}

theorem composite_specified {out inp : List Rat}
    (given : ∀ y < height, ∀ x < width, ∀ c < 3, inp.getD ((y*width+x)*3+c) 0 = inpainted out width height y x c) :
    compositeMasked exactOps rgb inp mask width height exactOps.half =
      pixels height width 3 (specified rgb mask out width height) := by
  have length : (compositeMasked exactOps rgb inp mask width height exactOps.half).length = height*width*3 := by
    rw [compositeMasked_length,Nat.mul_comm width]
  rw [←pixels_getD _ 0 length]
  apply pixels_congr
  intro y row x column c inner
  have inside : y*width+x < width*height := by
    have := Nat.mul_le_mul_right width row
    rw [Nat.succ_mul,Nat.mul_comm height] at this
    omega
  rw [List.getD_eq_getElem?_getD,composite_getD inside inner,Option.getD_some]
  unfold specified
  by_cases chosen : 1/2 ≤ plane mask width y x
  · rw [if_pos chosen,←given y row x column c inner]
    exact if_pos (decide_eq_true chosen)
  · rw [if_neg chosen]
    exact if_neg (fun ge => chosen (of_decide_eq_true ge))

theorem sizes_bounds (long : kN < max width height) :
    (1 ≤ (activeSize width height).1 ∧ (activeSize width height).1 ≤ 512) ∧
    (1 ≤ (activeSize width height).2 ∧ (activeSize width height).2 ≤ 512) ∧
    max (activeSize width height).1 (activeSize width height).2 = 512 := by
  have bounds := scaled_bounds (decide_eq_true long : needResize width height = true)
  have full : (kN:Int) = 512 := rfl
  unfold activeSize
  omega

theorem return_inpainted {w h : Int} {progress : Nat → Bool} (positive : 0 < w ∧ 0 < h)
    (rgbSized : rgb.length = h.toNat*w.toNat*3) (maskSized : mask.length = h.toNat*w.toNat)
    (ok : inpaintImage exactOps (LamaSession.run exactOps onnx session call) rgb mask w h progress = .ok made) :
    Inpainted onnx session call rgb mask w.toNat h.toNat made := by
  unfold inpaintImage at ok
  rw [if_neg (by omega)] at ok
  have sides : 0 < w.toNat ∧ 0 < h.toNat := by omega
  obtain ⟨_,_,ok⟩ := bind_ok ok
  obtain ⟨⟨img,msk⟩,given,ok⟩ := bind_ok ok
  obtain ⟨_,_,ok⟩ := bind_ok ok
  obtain ⟨hwc,ranOk,ok⟩ := bind_ok ok
  obtain ⟨_,_,ok⟩ := bind_ok ok
  obtain ⟨inp,restoredOk,ok⟩ := bind_ok ok
  obtain ⟨composed,composite,ok⟩ := bind_ok ok
  obtain ⟨_,_,ok⟩ := bind_ok ok
  have run : LamaSession.run exactOps onnx session call img msk = .ok hwc := by
    cases result : LamaSession.run exactOps onnx session call img msk with
    | error e => rw [ran,result] at ranOk; cases ranOk
    | ok a => rw [ran,result] at ranOk; cases ranOk; rfl
  obtain ⟨imgGiven,mskGiven⟩ := canvases_given sides rgbSized maskSized given
  obtain ⟨out,others,answered,hwcMade⟩ := run_answered run
  rw [imgGiven,mskGiven] at answered
  rw [hwcMade] at restoredOk
  refine ⟨⟨out,others,answered,?_⟩,sizes_bounds⟩
  rw [←Except.ok.inj ok,(defined_ok composite).1]
  exact composite_specified (fun y row x column c inner => restored_given sides restoredOk row column inner)

-- Outside the active region the answer is not looked at.
theorem specified_local {first second : List Rat}
    (agree : ∀ c < 3, ∀ y < (activeSize width height).2, ∀ x < (activeSize width height).1,
      tensorAt first c y x = tensorAt second c y x) :
    pixels height width 3 (specified rgb mask first width height) =
      pixels height width 3 (specified rgb mask second width height) := by
  apply pixels_congr
  intro y row x column c inner
  have same : inpainted first width height y x c = inpainted second width height y x c := by
    unfold inpainted
    by_cases long : kN < max width height
    · obtain ⟨⟨wide,_⟩,⟨high,_⟩⟩ := active_bounds (decide_eq_true long : needResize width height = true)
      rw [if_pos long,if_pos long]
      apply resampled_congr wide high
      intro j below i left
      rw [agree c inner j below i left]
    · have whole : activeSize width height = (width,height) := by
        have small : needResize width height = false := decide_eq_false long
        simp [activeSize,scaledSize,small]
      rw [whole] at agree
      rw [if_neg long,if_neg long,agree c inner y row x column]
  unfold specified
  rw [same]

end Whole

theorem inpaint_specified {onnx : Onnx Rat} {session : LamaSession} {call : Nat} {rgb mask made : List Rat}
    {width height : Int} {progress : Nat → Bool} (positive : 0 < width ∧ 0 < height)
    (rgbSized : rgb.length = height.toNat*width.toNat*3) (maskSized : mask.length = height.toNat*width.toNat)
    (ok : inpaintImage exactOps (LamaSession.run exactOps onnx session call) rgb mask width height progress = .ok made) :
    Inpainted onnx session call rgb mask width.toNat height.toNat made ∧
    ∀ onnx' session' call' progress' made',
      inpaintImage exactOps (LamaSession.run exactOps onnx' session' call') rgb mask width height progress' = .ok made' →
      (∀ first others second others',
        onnx.run session call (modelImage rgb width.toNat height.toNat) (modelMask mask width.toNat height.toNat) =
          .ok (⟨LamaSession.expectedShape,first⟩ :: others) →
        onnx'.run session' call' (modelImage rgb width.toNat height.toNat) (modelMask mask width.toNat height.toNat) =
          .ok (⟨LamaSession.expectedShape,second⟩ :: others') →
        ∀ c < 3, ∀ y < (activeSize width.toNat height.toNat).2, ∀ x < (activeSize width.toNat height.toNat).1,
          tensorAt first c y x = tensorAt second c y x) →
      made' = made := by
  have whole := return_inpainted positive rgbSized maskSized ok
  refine ⟨whole,?_⟩
  intro onnx' session' call' progress' made' ok' agree
  obtain ⟨first,others,answered,rfl⟩ := whole.answered
  obtain ⟨second,others',answered',rfl⟩ := (return_inpainted positive rgbSized maskSized ok').answered
  exact (specified_local (agree first others second others' answered answered')).symm

def whiteOnnx : Onnx Rat :=
  ⟨fun _ => .ok (2,1),fun _ _ _ _ => .ok [⟨LamaSession.expectedShape,List.replicate (3*kN*kN) 255⟩]⟩

def lama : LamaSession := ⟨ascii "big-lama.onnx",.cpu⟩

theorem whiteOnnx_inpaints {rgb mask : List Rat} {width height : Nat} (admitted : Admitted width height)
    (bounded : width*height*3 ≤ 2^31) : ∃ made,
      inpaintImage exactOps (LamaSession.run exactOps whiteOnnx lama 0) rgb mask width height (fun _ => true) = .ok made := by
  have answers (img msk : List Rat) : ∃ out, LamaSession.run exactOps whiteOnnx lama 0 img msk = .ok out := by
    have loaded : LamaSession.ensureInitialized whiteOnnx lama = .ok () := rfl
    rw [LamaSession.run,loaded,ok_bind]
    exact ⟨_,if_pos rfl⟩
  obtain ⟨wide,high⟩ := admitted_sides admitted
  cases outcome : inpaintImage exactOps (LamaSession.run exactOps whiteOnnx lama 0) rgb mask width height (fun _ => true) with
  | ok made => exact ⟨made,rfl⟩
  | error fault =>
    cases fault with
    | undefined => exact absurd outcome (inpaint_defined (inpaintInts_fit exact_rounded admitted bounded) _)
    | threw msg => exact absurd outcome (inpaint_silent ⟨wide.1,high.1⟩ answers)

-- A model that answers white, on an image that goes in as it is and on one
-- that has to be shrunk.
theorem inpaint_specified_white : ∃ pixel strip,
    Inpainted whiteOnnx lama 0 [0,0,0] [1] 1 1 pixel ∧
    Inpainted whiteOnnx lama 0 (List.replicate (600*3) 0) (List.replicate 600 1) 600 1 strip := by
  obtain ⟨pixel,made⟩ := @whiteOnnx_inpaints [0,0,0] [1] 1 1 rfl (by decide)
  obtain ⟨strip,made'⟩ := @whiteOnnx_inpaints (List.replicate (600*3) 0) (List.replicate 600 1) 600 1 rfl (by decide)
  exact ⟨pixel,strip,(inpaint_specified (by decide) rfl rfl made).1,
    (inpaint_specified (by decide) List.length_replicate List.length_replicate made').1⟩

end SmartFill.LamaTiler
