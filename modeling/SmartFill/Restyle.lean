import SmartFill.Exact
import SmartFill.ImageCacheFormat
import SmartFill.Lib.Quantize
import SmartFill.SdCalls
import SmartFill.Viewer

namespace SmartFill

-- The value of a float that is no NaN.
inductive Extended where
  | fin (q : Rat)
  | inf (positive : Bool)
  deriving DecidableEq

namespace Extended

def ge : Extended → Extended → Bool
  | .inf true,_ => true
  | _,.inf false => true
  | .fin a,.fin b => decide (b ≤ a)
  | _,_ => false

-- to_u8 compares before it computes: no infinity gets this far.
def lift (op : Rat → Rat → Rat) : Extended → Extended → Extended
  | .fin a,.fin b => .fin (op a b)
  | .fin _,b => b
  | a,_ => a

def toInt (op : Rat → Int) : Extended → Int
  | .fin q => op q
  | .inf _ => 0

def clampUnit : Extended → Rat
  | .fin q => Quantize.clampUnit q
  | .inf true => 1
  | .inf false => 0

end Extended

def extendedOps : FloatOps Extended where
  zero := .fin exactOps.zero
  half := .fin exactOps.half
  one := .fin exactOps.one
  ofInt n := .fin (exactOps.ofInt n)
  add := .lift exactOps.add
  sub := .lift exactOps.sub
  mul := .lift exactOps.mul
  div := .lift exactOps.div
  floor := Extended.toInt exactOps.floor
  round := Extended.toInt exactOps.round
  trunc := Extended.toInt exactOps.trunc
  ge := Extended.ge

namespace Restyle
open AIGenerate ImageCache

-- What generate makes of one byte.
def fromU8 {F : Type} (ops : FloatOps F) (k : UInt8) : F := ops.mul (ops.ofInt k.toNat) (ops.div ops.one (ops.ofInt 255))

def sizeAccepted (k : Knobs) : Prop := ¬ (k.width < 64 ∨ k.height < 64 ∨ 4096 < k.width ∨ 4096 < k.height)

-- A model that gives its init image back, with three channels.
def echo (loadedPaths : SdModelPaths) (params : SdGenerateParams) : Option SdImage :=
  (genParams loadedPaths params).initImage.map (fun (image,_) =>
    ⟨image.width.toNat,image.height.toNat,3,some image.rgb⟩)

-- One way of an image through the node: start_bake reads it, generate returns
-- it, the task writes it to the key's file, and _validate loads that file.
structure Pass (F ι : Type) where
  source : Channel → Int → Int → F
  session : Session ι
  owner : ι
  params : SdGenerateParams
  during : List During
  out : GenerateOut F
  faults : Faults
  host : Host
  disk : Files
  node : Node
  key : Bytes
  accepted : sizeAccepted node.knobs
  named : key ≠ []
  unloaded : node.rt.cache.loadedKey ≠ key

namespace Pass
variable {F ι : Type} (ops : FloatOps F) (store : F → F32) (p : Pass F ι)

def width : Int := p.node.knobs.width.toInt
def height : Int := p.node.knobs.height.toInt

def image : RgbImage := readRgbU8 ops p.source p.width p.height

def request : SdGenerateParams := {p.params with initImage := p.image ops}

def generated : Session ι × GenerateOut F × Option Bytes :=
  SdCalls.generate ops p.session p.owner (p.request ops) p.during
    (echo p.session.impl.loadedPaths (p.request ops)) p.out

def path : Path := resultPath p.host p.disk p.node p.key

-- Floats go to the file as their bytes.
def stored : List F32 := (p.generated ops).2.1.rgb.map store

def written : WriteRun :=
  imageCacheWrite p.faults p.path (some (p.stored ops store)) (p.generated ops).2.1.width (p.generated ops).2.1.height 3
    p.disk

def after : Node := tryLoadCacheForKey p.host (p.written ops store).final p.key p.node

-- generate and image_cache_write return true.
structure Completes : Prop where
  generated : (p.generated ops).2.2 = none
  written : (p.written ops store).ok = true

def Loads : Prop := (p.after ops store).rt.cache.loadedKey = p.key

-- There is a cache directory, and what was written is still there after close().
def Kept : Prop := p.path ≠ [] ∧
  (encoding (p.stored ops store) (p.generated ops).2.1.width (p.generated ops).2.1.height 3).length ≤ p.faults.flushed

end Pass

section Convert
variable {F ι : Type} {ops : FloatOps F} {store : F → F32} {p : Pass F ι} {k : Knobs}

theorem sizeAccepted_range (accepted : sizeAccepted k) :
    (64 ≤ k.width.toInt ∧ k.width.toInt ≤ 4096) ∧ (64 ≤ k.height.toInt ∧ k.height.toInt ≤ 4096) := by
  have least : (64 : Int32).toInt = 64 := rfl
  have greatest : (4096 : Int32).toInt = 4096 := rfl
  simp only [sizeAccepted,Int32.lt_iff_toInt_lt,least,greatest] at accepted
  omega

theorem pass_sides (p : Pass F ι) : 0 < p.width ∧ 0 < p.height := by
  obtain ⟨wide,high⟩ := sizeAccepted_range p.accepted
  exact ⟨by unfold Pass.width; omega,by unfold Pass.height; omega⟩

def rgbChannel : Nat → Channel
  | 0 => .red
  | 1 => .green
  | _ => .blue

theorem channelOffset_rgb (c : Channel) (i : Nat) : channelOffset c = some i ↔ c = rgbChannel i ∧ i < 3 := by
  match i with
  | 0 | 1 | 2 => cases c <;> simp [channelOffset,rgbChannel]
  | i+3 => cases c <;> simp [channelOffset]

theorem readRgbU8_rgb (pixel : Channel → Int → Int → F) (W H : Int) :
    (readRgbU8 ops pixel W H).rgb = RowMajor.pixels H.toNat W.toNat 3
      (fun row x i => toU8 ops (pixel (rgbChannel i) x (H-1-row))) := rfl

theorem readRgbU8_length {pixel : Channel → Int → Int → F} {W H : Int} (wide : 0 ≤ W) (high : 0 ≤ H) :
    ((readRgbU8 ops pixel W H).rgb.length : Int) = W*H*3 := by
  rw [readRgbU8_rgb,RowMajor.pixels_length]
  push_cast
  rw [Int.toNat_of_nonneg wide,Int.toNat_of_nonneg high,mul_comm H W]

theorem readRgbU8_attached {pixel : Channel → Int → Int → F} {W H : Int} (wide : 0 < W) (high : 0 < H) :
    attached (readRgbU8 ops pixel W H) = true := by
  have length := @readRgbU8_length F ops pixel W H wide.le high.le
  have some_byte : (readRgbU8 ops pixel W H).rgb ≠ [] := by
    intro empty
    rw [empty] at length
    have : 0 < W*H := mul_pos wide high
    simp only [List.length_nil,Nat.cast_zero] at length
    omega
  rw [attached,decide_eq_true_iff]
  exact ⟨some_byte,wide,high,length⟩

theorem echo_image {pixel : Channel → Int → Int → F} {W H : Int} (wide : 0 < W) (high : 0 < H)
    (loadedPaths : SdModelPaths) (params : SdGenerateParams) :
    echo loadedPaths {params with initImage := readRgbU8 ops pixel W H} =
      some ⟨W.toNat,H.toNat,3,some (readRgbU8 ops pixel W H).rgb⟩ := by
  rw [echo,genParams]
  simp only [readRgbU8_attached wide high,if_true]
  rfl

-- Both sides count the rows from the top.
theorem toRgb_image (pixel : Channel → Int → Int → F) (W H : Int) :
    SdCalls.toRgb ops ⟨W.toNat,H.toNat,3,some (readRgbU8 ops pixel W H).rgb⟩ (readRgbU8 ops pixel W H).rgb =
      RowMajor.pixels H.toNat W.toNat 3
        (fun row x i => fromU8 ops (toU8 ops (pixel (rgbChannel i) x (H-1-row)))) := by
  rw [readRgbU8_rgb]
  unfold SdCalls.toRgb
  simp only [OfNat.ofNat_ne_zero,if_false]
  apply RowMajor.pixels_congr
  intro row inside x column i few
  have offset : row*W.toNat*3+(x*3+i) = (row*W.toNat+x)*3+i := by ring
  rw [offset,List.getD_eq_getElem?_getD,RowMajor.pixels_getElem? inside column few]
  rfl

theorem generated_echo (done : (p.generated ops).2.2 = none) : (p.generated ops).2.1 =
    ⟨RowMajor.pixels p.height.toNat p.width.toNat 3
      (fun row x i => fromU8 ops (toU8 ops (p.source (rgbChannel i) x (p.height-1-row)))),p.width,p.height⟩ := by
  obtain ⟨wide,high⟩ := pass_sides p
  rw [Pass.generated] at done ⊢
  rcases (SdCalls.generate_ended ops p.session p.owner (p.request ops) p.during
    (echo p.session.impl.loadedPaths (p.request ops)) p.out).outputs with ⟨_,failed⟩ | ⟨image,data,returned,held,made⟩
  · rw [failed] at done
    cases done
  · rw [Pass.request,Pass.image,echo_image wide high] at returned
    cases returned
    cases held
    have width : ((p.width.toNat : Nat) : Int) = p.width := Int.toNat_of_nonneg wide.le
    have height : ((p.height.toNat : Nat) : Int) = p.height := Int.toNat_of_nonneg high.le
    rw [made,toRgb_image,width,height]

end Convert

section File
variable {F ι : Type} {ops : FloatOps F} {store : F → F32} {p : Pass F ι}

theorem stored_pixels (completes : p.Completes ops store) : p.stored ops store =
    RowMajor.pixels p.height.toNat p.width.toNat 3
      (fun row x i => store (fromU8 ops (toU8 ops (p.source (rgbChannel i) x (p.height-1-row))))) := by
  rw [Pass.stored,generated_echo completes.generated,RowMajor.pixels_map]

theorem stored_length (completes : p.Completes ops store) :
    (p.stored ops store).length = (p.width*p.height*3).toNat := by
  rw [stored_pixels completes,RowMajor.pixels_length,mul_comm p.height.toNat]
  obtain ⟨wide,high⟩ := pass_sides p
  rw [Int.toNat_mul (mul_pos wide high).le (by decide),Int.toNat_mul wide.le high.le]
  rfl

theorem written_file (completes : p.Completes ops store) : inRange p.width p.height 3 = true ∧
    (p.written ops store).final.read p.path =
      some ((encoding (p.stored ops store) p.width p.height 3).take p.faults.flushed) := by
  have stored := imageCacheWrite_content completes.written
  rw [generated_echo completes.generated] at stored
  refine ⟨stored.1,?_⟩
  rw [Pass.written,generated_echo completes.generated]
  exact stored.2

theorem image_loaded (completes : p.Completes ops store) (loads : p.Loads ops store) :
    ∃ l : Loaded extension, (p.after ops store).rt.cache = l.buffer ∧
      l.result = ⟨true,p.width,p.height,3,p.stored ops store,[]⟩ := by
  obtain ⟨range,file⟩ := written_file completes
  by_cases usable : FileUsable p.host (p.written ops store).final p.node p.key
  · obtain ⟨l,loaded,_,content⟩ := loadedCache_usable p.named p.unloaded usable
    have ok := usable.ok
    have place : resultPath p.host (p.written ops store).final p.node p.key = p.path := rfl
    rw [place,file] at ok content
    rw [read_truncated range (stored_length completes) ok] at content
    refine ⟨l,loaded,?_⟩
    rw [Loaded.result,content]
    exact read_encoding range (stored_length completes)
  · have cache : (p.after ops store).rt.cache = p.node.rt.cache := loadedCache_unusable usable
    rw [Pass.Loads,cache] at loads
    exact absurd loads p.unloaded

theorem kept_loads (completes : p.Completes ops store) (kept : p.Kept ops store) : p.Loads ops store := by
  obtain ⟨range,file⟩ := written_file completes
  obtain ⟨placed,flushed⟩ := kept
  rw [generated_echo completes.generated] at flushed
  rw [List.take_of_length_le flushed] at file
  have place : resultPath p.host (p.written ops store).final p.node p.key = p.path := rfl
  have result := read_encoding range (stored_length completes)
  have parts := of_decide_eq_true range
  have usable : FileUsable p.host (p.written ops store).final p.node p.key := by
    refine ⟨?_,?_,?_⟩ <;> rw [place]
    · simp [fileExists,Disk.present,file,placed]
    · rw [file,result]
    · rw [file,result]
      exact decide_eq_true ⟨rfl,parts.1,parts.2.2.1⟩
  obtain ⟨l,loaded,same,_⟩ := loadedCache_usable p.named p.unloaded usable
  rw [Pass.Loads]
  exact (congrArg CacheBuffer.loadedKey loaded).trans same

-- The flips of the read and of engine cancel.
theorem engine_echo (completes : p.Completes ops store) (loads : p.Loads ops store) {c : Channel} {x y : Int}
    (column : 0 ≤ x ∧ x < p.width) (row : 0 ≤ y ∧ y < p.height) {i : Nat} (offset : channelOffset c = some i) :
    engineAt (p.after ops store) c x y = some (store (fromU8 ops (toU8 ops (p.source c x y)))) := by
  obtain ⟨l,loaded,result⟩ := image_loaded completes loads
  obtain ⟨channel,few⟩ := (channelOffset_rgb c i).mp offset
  have width : (p.after ops store).rt.cache.width = p.width := by
    rw [loaded]
    exact congrArg ImageCacheReadResult.width result
  have height : (p.after ops store).rt.cache.height = p.height := by
    rw [loaded]
    exact congrArg ImageCacheReadResult.height result
  have pixels : (p.after ops store).rt.cache.pixels = p.stored ops store := by
    rw [loaded]
    exact congrArg ImageCacheReadResult.pixels result
  have used : haveCache (p.after ops store) = true := by
    apply (Viewer.haveCache_loaded loaded).mpr
    rw [result]
    exact ⟨rfl,rfl⟩
  have inside : ¬ (p.height-1-y < 0 ∨ p.height ≤ p.height-1-y) := by omega
  have beside : ¬ (x < 0 ∨ p.width ≤ x) := by omega
  obtain ⟨j,column',across⟩ : ∃ j : Nat, j < p.width.toNat ∧ x = j := ⟨x.toNat,by omega,by omega⟩
  obtain ⟨n,row',below⟩ : ∃ n : Nat, n < p.height.toNat ∧ p.height-1-y = n :=
    ⟨(p.height-1-y).toNat,by omega,by omega⟩
  have index : ((n:Int)*p.width*3 + ((j:Int)*3+i)).toNat = (n*p.width.toNat+j)*3+i := by
    have wide : (p.width.toNat : Int) = p.width := by omega
    have offset : (n:Int)*p.width*3 + ((j:Int)*3+i) = (((n*p.width.toNat+j)*3+i : Nat) : Int) := by
      simp only [Nat.cast_add,Nat.cast_mul,Nat.cast_ofNat,wide]
      ring
    rw [offset,Int.toNat_natCast]
  have source : p.height-1-(n:Int) = y := by omega
  simp only [engineAt,used,width,height,pixels,offset,inside,beside,Bool.not_true,Bool.false_eq_true,if_false]
  rw [below,across,index,stored_pixels completes,RowMajor.pixels_getElem? row' column' few,source,channel]

end File

section Exact
variable {v : Extended}

theorem toU8_level (v : Extended) : toU8 extendedOps v = UInt8.ofNat (Quantize.level 255 v.clampUnit).toNat := by
  cases v with
  | inf positive =>
    cases positive with
    | true => rw [Extended.clampUnit,Quantize.level_above le_rfl]; rfl
    | false => rw [Extended.clampUnit,Quantize.level_below le_rfl]; rfl
  | fin q =>
    have low : extendedOps.ge extendedOps.zero (.fin q) = decide (q ≤ 0) := rfl
    have high : extendedOps.ge (.fin q) extendedOps.one = decide (1 ≤ q) := rfl
    rw [toU8,low,high,Extended.clampUnit,Quantize.level_clampUnit]
    by_cases below : q ≤ 0
    · rw [if_pos (decide_eq_true below),Quantize.level_below below]
      rfl
    · rw [if_neg (by simpa using below)]
      by_cases above : 1 ≤ q
      · rw [if_pos (decide_eq_true above),Quantize.level_above above]
        rfl
      · rw [if_neg (by simpa using above)]
        have between := @Quantize.level_between Rat _ _ q 255 _ _ (le_of_not_ge below) (le_of_not_ge above)
        have positive : 0 ≤ q*((255:Int):Rat) + 1/2 := by
          have := le_of_not_ge below
          positivity
        have trunc : extendedOps.trunc (extendedOps.add (extendedOps.mul (.fin q) (extendedOps.ofInt 255))
            extendedOps.half) = ⌊q*((255:Int):Rat) + 1/2⌋ := if_pos positive
        rw [trunc,between]
        rfl

theorem fromU8_level (k : UInt8) : fromU8 extendedOps k = .fin ((k.toNat : Rat)/255) := by
  have exact : fromU8 extendedOps k = .fin (((k.toNat:Int):Rat)*(1/((255:Int):Rat))) := rfl
  rw [exact,mul_one_div,Int.cast_natCast,Int.cast_ofNat]

theorem clampUnit_again (v : Extended) : Quantize.clampUnit v.clampUnit = v.clampUnit := by
  have range : 0 ≤ v.clampUnit ∧ v.clampUnit ≤ 1 := by
    cases v with
    | fin q => exact Quantize.clampUnit_range q
    | inf positive => cases positive <;> simp [Extended.clampUnit]
  exact Quantize.clampUnit_between range.1 range.2

theorem toU8_near (v : Extended) : |((toU8 extendedOps v).toNat : Rat)/255 - v.clampUnit| ≤ 1/510 := by
  obtain ⟨low,high⟩ := Quantize.level_range 255 v.clampUnit
  have byte : (((toU8 extendedOps v).toNat : Int) : Rat) = Quantize.level 255 v.clampUnit := by
    rw [toU8_level,UInt8.toNat_ofNat']
    congr 1
    omega
  have near := Quantize.level_near (n := 255) (by decide) v.clampUnit
  rw [clampUnit_again,←byte,Int.cast_natCast,Nat.cast_ofNat] at near
  calc |((toU8 extendedOps v).toNat : Rat)/255 - v.clampUnit| ≤ 1/(2*255) := near
    _ = 1/510 := by norm_num

theorem toU8_again (k : UInt8) : toU8 extendedOps (.fin ((k.toNat : Rat)/255)) = k := by
  have few : k.toNat ≤ 255 := Nat.le_of_lt_succ k.toNat_lt
  have step := @Quantize.level_value Rat _ _ 255 _ _ k.toNat few (by decide)
  rw [toU8_level,Extended.clampUnit,Quantize.level_clampUnit]
  rw [Nat.cast_ofNat] at step
  rw [step,Int.toNat_natCast,UInt8.ofNat_toNat]

end Exact

theorem readInputRgbU8_sized {host : Host} {input : Input} {k : Knobs} (accepted : sizeAccepted k)
    (width : input.formatWidth = k.width.toInt) (height : input.formatHeight = k.height.toInt) :
    readInputRgbU8 host input .none =
      .ok (readRgbU8 host.rounding.ops input.pixel k.width.toInt k.height.toInt) := by
  obtain ⟨wide,high⟩ := sizeAccepted_range accepted
  have some_area : ¬ (k.width.toInt ≤ 0 ∨ k.height.toInt ≤ 0) := by omega
  have small : ¬ (k.width.toInt > 8192 ∨ k.height.toInt > 8192) := by omega
  simp only [readInputRgbU8,width,height,some_area,small,if_false]

-- Exact arithmetic: the 256 values the conversion produces survive the file.
def ExactFile (store : Extended → F32) (load : F32 → Extended) : Prop :=
  ∀ k : UInt8, load (store (.fin ((k.toNat : Rat)/255))) = .fin ((k.toNat : Rat)/255)

def rgb : List Channel := [.red,.green,.blue]

def Pass.Inside {ι : Type} (p : Pass Extended ι) (c : Channel) (x y : Int) : Prop :=
  c ∈ rgb ∧ (0 ≤ x ∧ x < p.width) ∧ (0 ≤ y ∧ y < p.height)

structure Restyled {ι : Type} (store : Extended → F32) (load : F32 → Extended) (p : Pass Extended ι) : Prop where
  near : ∀ c x y, p.Inside c x y → ∃ v q, engineAt (p.after extendedOps store) c x y = some v ∧ load v = .fin q ∧
    |q - (p.source c x y).clampUnit| ≤ 1/510
  again : ∀ next : Pass Extended ι, next.Completes extendedOps store → next.Loads extendedOps store →
    next.width = p.width → next.height = p.height →
    (∀ c x y, p.Inside c x y → some (next.source c x y) = (engineAt (p.after extendedOps store) c x y).map load) →
    ∀ c x y, p.Inside c x y →
      engineAt (next.after extendedOps store) c x y = engineAt (p.after extendedOps store) c x y

section Roundtrip
variable {ι : Type} {store : Extended → F32} {load : F32 → Extended} {p : Pass Extended ι}

theorem engine_value (completes : p.Completes extendedOps store) (loads : p.Loads extendedOps store) {c : Channel}
    {x y : Int} (inside : p.Inside c x y) : engineAt (p.after extendedOps store) c x y =
      some (store (.fin (((toU8 extendedOps (p.source c x y)).toNat : Rat)/255))) := by
  obtain ⟨colour,column,row⟩ := inside
  obtain ⟨i,offset⟩ : ∃ i, channelOffset c = some i := by
    simp only [rgb,List.mem_cons,List.not_mem_nil,or_false] at colour
    rcases colour with rfl | rfl | rfl
    · exact ⟨0,rfl⟩
    · exact ⟨1,rfl⟩
    · exact ⟨2,rfl⟩
  rw [engine_echo completes loads column row offset,fromU8_level]

theorem restyled (exact : ExactFile store load) (completes : p.Completes extendedOps store)
    (loads : p.Loads extendedOps store) : Restyled store load p := by
  constructor
  · intro c x y inside
    exact ⟨_,_,engine_value completes loads inside,exact _,toU8_near _⟩
  · intro next completes' loads' width height fed c x y inside
    have inside' : next.Inside c x y := by
      rw [Pass.Inside,width,height]
      exact inside
    have source := fed c x y inside
    rw [engine_value completes loads inside,Option.map_some,exact,Option.some.injEq] at source
    rw [engine_value completes' loads' inside',engine_value completes loads inside,source,toU8_again]

end Roundtrip

-- Read, generate, write, load and emit: the flips cancel, and one step of 255 is
-- all that is lost, once.
theorem restyle_roundtrip {ι : Type} (store : Extended → F32) (load : F32 → Extended) (exact : ExactFile store load) :
    (∀ (host : Host) (input : Input) (k : Knobs) (loadedPaths : SdModelPaths) (params : SdGenerateParams),
      sizeAccepted k → input.formatWidth = k.width.toInt → input.formatHeight = k.height.toInt →
      ∃ image, readInputRgbU8 host input .none = .ok image ∧
        image = readRgbU8 host.rounding.ops input.pixel k.width.toInt k.height.toInt ∧
        (image.rgb.length : Int) = k.width.toInt*k.height.toInt*3 ∧
        (genParams loadedPaths {params with initImage := image}).initImage = some (image,params.strength)) ∧
    (∀ p : Pass Extended ι, p.Completes extendedOps store →
      (p.Kept extendedOps store → p.Loads extendedOps store) ∧
      (p.Loads extendedOps store → Restyled store load p)) := by
  constructor
  · intro host input k loadedPaths params accepted width height
    obtain ⟨wide,high⟩ := sizeAccepted_range accepted
    refine ⟨_,readInputRgbU8_sized accepted width height,rfl,readRgbU8_length (by omega) (by omega),?_⟩
    simp only [genParams,readRgbU8_attached (by omega : 0 < k.width.toInt) (by omega : 0 < k.height.toInt),if_true]
  · intro p completes
    exact ⟨kept_loads completes,restyled exact completes⟩

section Horizon

-- A code for the 256 values in which zero and one are the floats they are.
def storeCode : Extended → F32
  | .fin q => if q = 1 then F32.one else ⟨(q*255).num.toNat.toUInt32⟩
  | .inf true => ⟨0x7f800000⟩
  | .inf false => ⟨0xff800000⟩

def loadCode (v : F32) : Extended := if v = F32.one then .fin 1 else .fin ((v.bits.toNat : Rat)/255)

theorem code_exact : ExactFile storeCode loadCode := by
  intro k
  by_cases full : k.toNat = 255
  · rw [full]
    simp [storeCode,loadCode]
  · have few : k.toNat < 255 := by
      have := k.toNat_lt
      omega
    have below : ((k.toNat : Rat)/255) ≠ 1 := by
      intro same
      rw [div_eq_one_iff_eq (by norm_num)] at same
      exact full (by exact_mod_cast same)
    have code : storeCode (.fin ((k.toNat : Rat)/255)) = ⟨k.toNat.toUInt32⟩ := by
      rw [storeCode,if_neg below,div_mul_cancel₀ _ (by norm_num),Rat.num_natCast,Int.toNat_natCast]
    have bits : k.toNat.toUInt32.toNat = k.toNat := by
      rw [Nat.toUInt32_eq,UInt32.toNat_ofNat']
      omega
    have other : (⟨k.toNat.toUInt32⟩ : F32) ≠ F32.one := by
      intro same
      have same : k.toNat.toUInt32.toNat = F32.one.bits.toNat := congrArg (fun v => v.bits.toNat) same
      rw [bits] at same
      have : F32.one.bits.toNat = 0x3f800000 := rfl
      omega
    rw [code,loadCode,if_neg other,bits]

-- White above, black below.
def horizon : Pass Extended Unit where
  source _ _ y := if 32 ≤ y then .fin 1 else .fin 0
  session := (SdCalls.ensureLoaded SdCalls.fresh ⟨ascii "/m",[],[],[],[]⟩ false).1
  owner := ()
  params := sdParams fresh [] (RgbImage.none,RgbImage.none)
  during := []
  out := ⟨[],0,0⟩
  faults := noFaults 49180
  host := sdHost
  disk := Disk.empty
  node := {fresh with knobs := {defaultKnobs with width := 64,height := 64,cacheDir := ascii "/c"}}
  key := ascii "k"
  accepted := by simp [sizeAccepted]
  named := by decide
  unloaded := by decide

theorem horizon_completes : horizon.Completes extendedOps storeCode := by
  have image : echo horizon.session.impl.loadedPaths (horizon.request extendedOps) =
      some ⟨64,64,3,some (horizon.image extendedOps).rgb⟩ := echo_image (by decide) (by decide) _ _
  have generated : (horizon.generated extendedOps).2.2 = none := by
    rw [Pass.generated,image]
    rfl
  refine ⟨generated,?_⟩
  rw [Pass.written,generated_echo generated,imageCacheWrite_ok_iff (by rw [accepts]; decide)]
  exact ⟨rfl,rfl,rfl⟩

theorem horizon_kept : horizon.Kept extendedOps storeCode := by
  have place : horizon.path = cachePath AIGenerate.extension (ascii "/c") (ascii "k") := rfl
  have count : (horizon.width*horizon.height*3).toNat = 12288 := by decide
  have length : (encoding (horizon.stored extendedOps storeCode) horizon.width horizon.height 3).length = 49180 := by
    rw [encoding,List.length_append,headerBytes_length,pixelBytes_length,List.length_take,count,
      stored_length horizon_completes,count,Nat.min_self]
  constructor
  · rw [place]
    exact cachePath_nonempty (by decide)
  · rw [generated_echo horizon_completes.generated]
    exact length.le

def blackInput : Input := ⟨0,true,⟨0,0,64,64⟩,64,64,fun _ _ _ => F32.zero⟩

theorem restyle_roundtrip_horizon :
    (∃ image, readInputRgbU8 sdHost blackInput .none = .ok image ∧
      image = readRgbU8 sdHost.rounding.ops blackInput.pixel 64 64 ∧ (image.rgb.length : Int) = 64*64*3 ∧
      (genParams horizon.session.impl.loadedPaths {horizon.params with initImage := image}).initImage =
        some (image,horizon.params.strength)) ∧
    Restyled storeCode loadCode horizon := by
  obtain ⟨attached,passes⟩ := @restyle_roundtrip Unit storeCode loadCode code_exact
  obtain ⟨loads,values⟩ := passes horizon horizon_completes
  exact ⟨attached sdHost blackInput horizon.node.knobs _ horizon.params horizon.accepted rfl rfl,
    values (loads horizon_kept)⟩

end Horizon

end Restyle

end SmartFill
