import SmartFill.BakeTask
import SmartFill.LamaSession

namespace SmartFill.LamaTiler
open RowMajor
variable {F : Type}

def kN : Nat := LamaSession.kImageSize

def clampInt (v lo hi : Int) : Int := if v < lo then lo else if v > hi then hi else v

-- A value computed by a loop whose int expressions are the listed ones.
def defined {α : Type} (ints : List Int) (value : α) : Except Fault α :=
  if ints.all fitsInt then .ok value else .error .undefined

-- One axis of bilinear_resize_impl at one output coordinate: floor(src), the
-- two clamped neighbours and the fraction between them.
structure Axis (F : Type) where
  floor : Int
  near : Int
  far : Int
  frac : F

def axis (ops : FloatOps F) (size scaled : Nat) (i : Nat) : Axis F :=
  let scale := ops.div (ops.ofInt size) (ops.ofInt scaled)
  let src := ops.sub (ops.mul (ops.add (ops.ofInt i) ops.half) scale) ops.half
  let i0 := ops.floor src
  ⟨i0,clampInt i0 0 (size-1),clampInt (i0+1) 0 (size-1),ops.sub src (ops.ofInt i0)⟩

def srcIndex (channels sw : Nat) (row column : Int) (c : Nat) : Int := (row*sw+column)*channels+c

section Resize
variable (ops : FloatOps F) (channels : Nat) (src : List F) (sw sh dw dh : Nat)

def bilinearCell (y x c : Nat) : F :=
  let v := axis ops sh dh y
  let h := axis ops sw dw x
  let w00 := ops.mul (ops.sub ops.one h.frac) (ops.sub ops.one v.frac)
  let w01 := ops.mul h.frac (ops.sub ops.one v.frac)
  let w10 := ops.mul (ops.sub ops.one h.frac) v.frac
  let w11 := ops.mul h.frac v.frac
  let read (row column : Int) := src.getD (srcIndex channels sw row column c).toNat ops.zero
  ops.add (ops.add (ops.add (ops.mul (read v.near h.near) w00) (ops.mul (read v.near h.far) w01))
    (ops.mul (read v.far h.near) w10)) (ops.mul (read v.far h.far) w11)

-- The destination is zero before the call and stays so for an empty size.
def bilinearResize : List F :=
  if sw = 0 ∨ sh = 0 ∨ dw = 0 ∨ dh = 0 then List.replicate (dw*dh*channels) ops.zero
  else grid dh dw (fun y x => (List.range channels).map (bilinearCell ops channels src sw sh dw dh y x))

def bilinearInts : List Int :=
  let rows (y : Nat) : List Int :=
    let v := axis ops sh dh y
    [v.floor,v.floor+1,sh-1]
  let columns (x : Nat) : List Int :=
    let h := axis ops sw dw x
    [h.floor,h.floor+1,sw-1]
  let source (row column : Int) (c : Nat) : List Int :=
    [row*sw,row*sw+column,(row*sw+column)*channels,srcIndex channels sw row column c]
  let cell (y x c : Nat) : List Int :=
    let v := axis ops sh dh y
    let h := axis ops sw dw x
    source v.near h.near c ++ source v.near h.far c ++ source v.far h.near c ++ source v.far h.far c ++
      [(y:Int)*dw,(y:Int)*dw+x,((y:Int)*dw+x)*channels,((y:Int)*dw+x)*channels+c]
  blocks dh rows ++ blocks dw columns ++
    grid dh dw (fun y x => blocks channels (cell y x))

end Resize

section Canvas
variable (ops : FloatOps F) (channels : Nat) (src : List F) (sw sh dw dh : Nat)

-- copy_into_canvas_*, row by row into a canvas of zeros.
def copyIntoCanvas : List F :=
  blocks dh (fun y =>
    if y < min sh dh then
      (src.drop (y*sw*channels)).take (min sw dw*channels) ++ List.replicate ((dw-min sw dw)*channels) ops.zero
    else List.replicate (dw*channels) ops.zero)

-- row_bytes; the element size is four.
def copyInts : List Int :=
  if channels = 1 then [(min sw dw : Int)*4] else [(min sw dw : Int)*channels,(min sw dw : Int)*channels*4]

end Canvas

def crop (out : List F) (w h : Nat) : List F := blocks h (fun y => (out.drop (y*kN*3)).take (w*3))

def compositePixel (ops : FloatOps F) (base inpainted mask : List F) (threshold : F) (i : Nat) : List F :=
  let chosen := if ops.ge (mask.getD i ops.zero) threshold then inpainted else base
  [chosen.getD (i*3+0) ops.zero,chosen.getD (i*3+1) ops.zero,chosen.getD (i*3+2) ops.zero]

def compositeMasked (ops : FloatOps F) (base inpainted mask : List F) (width height : Nat) (threshold : F) : List F :=
  blocks (width*height) (compositePixel ops base inpainted mask threshold)

def compositeInts (width height : Nat) : List Int :=
  (width*height : Int) :: blocks (width*height) (fun i => [(i:Int)*3,(i:Int)*3+1,(i:Int)*3+2])

def needResize (width height : Nat) : Bool := decide (kN < max width height)

def scaledSize (ops : FloatOps F) (width height : Nat) : Int × Int :=
  let shrink (short long : Nat) : Int :=
    max 1 (ops.round (ops.div (ops.mul (ops.ofInt short) (ops.ofInt kN)) (ops.ofInt long)))
  if !needResize width height then (width,height)
  else if width ≥ height then (kN,shrink height width)
  else (shrink width height,kN)

def canvases (ops : FloatOps F) (rgb mask : List F) (width height : Nat) : Except Fault (List F × List F) :=
  if needResize width height then do
    let (scaledW,scaledH) := scaledSize ops width height
    let (sw,sh) := (scaledW.toNat,scaledH.toNat)
    let img ← defined ([scaledW,scaledH] ++ bilinearInts ops 3 width height sw sh)
      (bilinearResize ops 3 rgb width height sw sh)
    let msk ← defined (bilinearInts ops 1 width height sw sh) (bilinearResize ops 1 mask width height sw sh)
    let img ← defined (copyInts 3 sw kN) (copyIntoCanvas ops 3 img sw sh kN kN)
    let msk ← defined (copyInts 1 sw kN) (copyIntoCanvas ops 1 msk sw sh kN kN)
    return (img,msk)
  else do
    let img ← defined (copyInts 3 width kN) (copyIntoCanvas ops 3 rgb width height kN kN)
    let msk ← defined (copyInts 1 width kN) (copyIntoCanvas ops 1 mask width height kN kN)
    return (img,msk)

def restored (ops : FloatOps F) (out : List F) (width height : Nat) : Except Fault (List F) :=
  if needResize width height then
    let (scaledW,scaledH) := scaledSize ops width height
    let (sw,sh) := (scaledW.toNat,scaledH.toNat)
    defined (bilinearInts ops 3 sw sh width height) (bilinearResize ops 3 (crop out sw sh) sw sh width height)
  else .ok (crop out width height)

def reportProgress (progress : Nat → Bool) (n : Nat) : Except Fault Unit :=
  if progress n then .ok () else .error (.threw (ascii "cancelled"))

def ran {α : Type} (result : Except Bytes α) : Except Fault α := result.mapError .threw

-- inpaint_image for a session's run. `progress n` is what the callback returns
-- to the n-th of the four reports.
def inpaintImage (ops : FloatOps F) (run : List F → List F → Except Bytes (List F)) (rgb mask : List F)
    (width height : Int) (progress : Nat → Bool) : Except Fault (List F) :=
  if width ≤ 0 ∨ height ≤ 0 then .error (.threw (ascii "inpaint_image: non-positive dimensions")) else do
  reportProgress progress 0
  let (img,msk) ← canvases ops rgb mask width.toNat height.toNat
  reportProgress progress 1
  let out ← ran (run img msk)
  reportProgress progress 2
  let inpainted ← restored ops out width.toNat height.toNat
  let pixels ← defined (compositeInts width.toNat height.toNat)
    (compositeMasked ops rgb inpainted mask width.toNat height.toNat ops.half)
  reportProgress progress 3
  return pixels

theorem bind_ok {α β ε : Type} {x : Except ε α} {f : α → Except ε β} {b : β} (ok : x >>= f = .ok b) :
    ∃ a, x = .ok a ∧ f a = .ok b := by
  cases x with
  | error e => cases ok
  | ok a => exact ⟨a,rfl,ok⟩

theorem ok_bind {α β ε : Type} (a : α) (f : α → Except ε β) : (.ok a >>= f) = f a := rfl

theorem defined_ok {α : Type} {ints : List Int} {value made : α} (ok : defined ints value = .ok made) :
    made = value ∧ ∀ i ∈ ints, fitsInt i = true := by
  unfold defined at ok
  split at ok
  · rename_i all
    cases ok
    exact ⟨rfl,List.all_eq_true.mp all⟩
  · cases ok

variable {ops : FloatOps F} {base inpainted mask : List F} {width height : Nat} {threshold : F}

theorem compositeMasked_length : (compositeMasked ops base inpainted mask width height threshold).length =
    width*height*3 :=
  blocks_length (fun _ _ => rfl)

theorem compositeMasked_base {i c : Nat} (inside : i < width*height) (channel : c < 3)
    (unmasked : ops.ge (mask.getD i ops.zero) threshold = false) :
    (compositeMasked ops base inpainted mask width height threshold)[i*3+c]? = some (base.getD (i*3+c) ops.zero) := by
  have uniform : ∀ i < width*height, (compositePixel ops base inpainted mask threshold i).length = 3 := fun _ _ => rfl
  rw [compositeMasked,blocks_getElem? uniform inside channel]
  simp only [compositePixel,unmasked]
  match c,channel with
  | 0,_ | 1,_ | 2,_ => rfl

-- Whatever the model answers, a normal return is a composite over the source.
theorem inpaintImage_composite {run : List F → List F → Except Bytes (List F)} {rgb pixels : List F}
    {width height : Int} {progress : Nat → Bool}
    (ok : inpaintImage ops run rgb mask width height progress = .ok pixels) :
    ∃ inpainted, pixels = compositeMasked ops rgb inpainted mask width.toNat height.toNat ops.half := by
  unfold inpaintImage at ok
  split at ok
  · cases ok
  · obtain ⟨_,_,ok⟩ := bind_ok ok
    obtain ⟨_,_,ok⟩ := bind_ok ok
    obtain ⟨_,_,ok⟩ := bind_ok ok
    obtain ⟨_,_,ok⟩ := bind_ok ok
    obtain ⟨_,_,ok⟩ := bind_ok ok
    obtain ⟨inpainted,_,ok⟩ := bind_ok ok
    obtain ⟨made,composite,ok⟩ := bind_ok ok
    obtain ⟨_,_,ok⟩ := bind_ok ok
    cases ok
    exact ⟨inpainted,(defined_ok composite).1⟩

theorem defined_fits {α : Type} {ints : List Int} (fits : ∀ i ∈ ints, fitsInt i = true) (value : α) :
    defined ints value = .ok value := by
  rw [defined,if_pos (List.all_eq_true.mpr fits)]

theorem compositeInts_fit (bounded : width*height*3 ≤ 2^31) : ∀ i ∈ compositeInts width height, fitsInt i = true := by
  intro i member
  simp only [compositeInts,List.mem_cons,blocks,List.mem_flatMap,List.mem_range,List.not_mem_nil,or_false] at member
  rcases member with rfl | ⟨j,less,rfl | rfl | rfl⟩
  · have area : ((width:Int)*height)*3 ≤ 2^31 := by exact_mod_cast bounded
    have positive : (0:Int) ≤ width*height := by positivity
    exact decide_eq_true (by omega)
  all_goals exact decide_eq_true (by omega)

theorem copyInts_fit {channels : Nat} (few : channels ≤ 3) (width : Nat) :
    ∀ i ∈ copyInts channels width kN, fitsInt i = true := by
  intro i member
  have narrow : (min width kN : Int) ≤ 512 := by
    simp only [kN,LamaSession.kImageSize]
    omega
  have positive : (0:Int) ≤ min (width:Int) kN := by omega
  unfold copyInts at member
  split at member
  · simp only [List.mem_singleton] at member
    exact decide_eq_true (by omega)
  · simp only [List.mem_cons,List.not_mem_nil,or_false] at member
    have product : (min width kN : Int)*channels ≤ 512*3 := by
      have : (channels:Int) ≤ 3 := by exact_mod_cast few
      exact mul_le_mul narrow this (by positivity) (by norm_num)
    have nonneg : (0:Int) ≤ min (width:Int) kN*channels := by positivity
    rcases member with rfl | rfl
    all_goals exact decide_eq_true (by omega)

section Small
variable {rgb out : List F}

-- The shorter side once the longer one is kN.
def shrunk (ops : FloatOps F) (short long : Nat) : Int :=
  max 1 (ops.round (ops.div (ops.mul (ops.ofInt short) (ops.ofInt kN)) (ops.ofInt long)))

theorem scaledSize_shrunk (large : needResize width height = true) : scaledSize ops width height =
    if height ≤ width then ((kN:Int),shrunk ops height width) else (shrunk ops width height,(kN:Int)) := by
  unfold scaledSize
  rw [large]
  rfl

theorem canvases_small (small : needResize width height = false) : canvases ops rgb mask width height =
    .ok (copyIntoCanvas ops 3 rgb width height kN kN,copyIntoCanvas ops 1 mask width height kN kN) := by
  have rgbFits := copyInts_fit (Nat.le_refl 3) width
  have maskFits := copyInts_fit (Nat.le_add_left 1 2) width
  rw [canvases,small,if_neg Bool.false_ne_true,defined_fits rgbFits,defined_fits maskFits]
  simp only [bind,Except.bind,pure,Except.pure]

theorem restored_small (small : needResize width height = false) :
    restored ops out width height = .ok (crop out width height) := by
  rw [restored,small,if_neg Bool.false_ne_true]

end Small

theorem inpaintImage_small {run : List F → List F → Except Bytes (List F)} {rgb out : List F} {width height : Int}
    (positive : 0 < width ∧ 0 < height) (small : needResize width.toNat height.toNat = false)
    (bounded : width.toNat*height.toNat*3 ≤ 2^31) (answers : ∀ img msk, run img msk = .ok out) :
    inpaintImage ops run rgb mask width height (fun _ => true) =
      .ok (compositeMasked ops rgb (crop out width.toNat height.toNat) mask width.toNat height.toNat ops.half) := by
  have reports : ∀ n, reportProgress (fun _ => true) n = .ok () := fun _ => rfl
  have answered : ∀ img msk, ran (run img msk) = .ok out := fun img msk => by
    rw [answers]
    rfl
  unfold inpaintImage
  rw [if_neg (by omega),reports,ok_bind,canvases_small small,ok_bind]
  dsimp only
  rw [reports,ok_bind,answered,ok_bind,reports,ok_bind,restored_small small,ok_bind,
    defined_fits (compositeInts_fit bounded),ok_bind,reports,ok_bind]
  rfl

end SmartFill.LamaTiler
