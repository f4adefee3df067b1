import Mathlib.Tactic.Ring
import SmartFill.FillSoundness

namespace SmartFill.AISmartFill
open Transition ImageCache

-- The buffer holds what a completed bake of the connected source and mask, at
-- the node's threshold, wrote.
structure LoadedBake (s : State) (node : Node) (source mask : Input) (b : Written FillTask)
    (l : Loaded extension) : Prop where
  baked : b ∈ s.bakes
  ok : b.ok = true
  press : b.run.job.task.press.source = source ∧ b.run.job.task.press.mask = mask ∧
    b.run.job.task.press.maskThreshold = node.knobs.maskThreshold
  loaded : node.rt.cache = l.buffer
  content : l.content = b.content

variable {host : Host} {s : State} {source mask : Input} {b : Written FillTask} {node : Node} {l : Loaded extension}

structure Composited (host : Host) (source mask : Input) (threshold : F32) (b : Written FillTask) : Prop where
  size : b.run.job.width = source.box.w ∧ b.run.job.height = source.box.h
  pixels : ∃ inpainted, b.pixels = LamaTiler.compositeMasked host.rounding.ops (extractRgb source) inpainted
    (extractMask source.box mask threshold) source.box.w.toNat source.box.h.toNat F32.half

theorem bake_composited (path : Reached (system host) s) (held : LoadedBake s node source mask b l) :
    Composited host source mask node.knobs.maskThreshold b ∧ b.Faithful := by
  have logged : s.node.rt.worker.Logged (backend host) Extracted s.bakes :=
    guarded_logged path (fun _ _ _ _ _ ready => ready_extracted ready)
  obtain ⟨extracted,faithful,call,cancels,made⟩ := logged.writes b held.baked
  obtain ⟨rfl,rfl,threshold⟩ := held.press
  obtain ⟨inpainted,pixels⟩ := LamaTiler.inpaintImage_composite made
  refine ⟨⟨⟨extracted.width.2.trans extracted.width.1,extracted.height.2.trans extracted.height.1⟩,inpainted,?_⟩,faithful⟩
  rw [pixels,extracted.rgb,extracted.mask,extracted.width.1,extracted.height.1,threshold]
  rfl

theorem loaded_pixels (path : Reached (system host) s) (held : LoadedBake s node source mask b l) :
    l.result = ⟨true,source.box.w,source.box.h,3,b.pixels,[]⟩ := by
  obtain ⟨⟨size,inpainted,pixels⟩,faults,disk,ok,content⟩ := bake_composited path held
  obtain ⟨range,written⟩ := imageCacheWrite_content (ok.symm.trans held.ok)
  rw [size.1,size.2] at range
  have positive := of_decide_eq_true range
  have sized : b.pixels.length = (source.box.w*source.box.h*3).toNat := by
    rw [pixels,LamaTiler.compositeMasked_length]
    have w := Int.toNat_of_nonneg positive.1.le
    have h := Int.toNat_of_nonneg positive.2.2.1.le
    apply Int.ofNat.inj
    simp only [Int.ofNat_eq_natCast,Nat.cast_mul,w,h]
    exact (Int.toNat_of_nonneg (by have := positive.1; have := positive.2.2.1; positivity)).symm
  have whole : l.content = some ((encoding b.pixels source.box.w source.box.h 3).take faults.flushed) := by
    rw [held.content,content,← size.1,← size.2]
    exact written
  have readable : (imageCacheRead l.content).ok = true := l.readable
  rw [whole] at readable
  rw [Loaded.result,whole,read_truncated range sized readable,read_encoding range sized]

theorem extractRgb_at {x y k : Nat} (column : x < source.box.w.toNat) (row : y < source.box.h.toNat) {c : Channel}
    (index : channelIndex c = some k) :
    (extractRgb source).getD ((y*source.box.w.toNat+x)*3+k) F32.zero =
      source.pixel c (source.box.x+x) (source.box.y+y) := by
  have cells : ∀ y < source.box.h.toNat, ∀ x < source.box.w.toNat,
      [source.pixel .red (source.box.x+x) (source.box.y+y),source.pixel .green (source.box.x+x) (source.box.y+y),
        source.pixel .blue (source.box.x+x) (source.box.y+y)].length = 3 := fun _ _ _ _ => rfl
  have few : k < 3 := by
    cases c <;> cases index <;> decide
  rw [List.getD_eq_getElem?_getD,extractRgb,RowMajor.grid_getElem? cells row column few]
  cases c <;> cases index <;> rfl

theorem extractMask_at {threshold : F32} {x y : Nat} (column : x < source.box.w.toNat) (row : y < source.box.h.toNat)
    (below : F32.ge (mask.pixel .alpha (source.box.x+x) (source.box.y+y)) threshold = false) :
    (extractMask source.box mask threshold).getD (y*source.box.w.toNat+x) F32.zero = F32.zero := by
  have cells : ∀ y < source.box.h.toNat, ∀ x < source.box.w.toNat,
      [if F32.ge (mask.pixel .alpha (source.box.x+x) (source.box.y+y)) threshold then F32.one else F32.zero].length = 1 :=
    fun _ _ _ _ => rfl
  have found := RowMajor.grid_getElem? cells row column Nat.zero_lt_one
  rw [Nat.mul_one,Nat.add_zero] at found
  rw [List.getD_eq_getElem?_getD,extractMask,found,below]
  rfl

theorem composited_at {threshold : F32} (composited : Composited host source mask threshold b) (x y : Nat) {k : Nat}
    (column : x < source.box.w.toNat) (row : y < source.box.h.toNat) {c : Channel} (index : channelIndex c = some k)
    (below : F32.ge (mask.pixel .alpha (source.box.x+x) (source.box.y+y)) threshold = false) :
    b.pixels[(y*source.box.w.toNat+x)*3+k]? = some (source.pixel c (source.box.x+x) (source.box.y+y)) := by
  obtain ⟨inpainted,pixels⟩ := composited.pixels
  have inside : y*source.box.w.toNat+x < source.box.w.toNat*source.box.h.toNat := by
    have : (y+1)*source.box.w.toNat ≤ source.box.h.toNat*source.box.w.toNat := Nat.mul_le_mul_right _ row
    rw [Nat.succ_mul] at this
    rw [Nat.mul_comm source.box.w.toNat]
    omega
  have few : k < 3 := by
    cases c <;> cases index <;> decide
  rw [pixels,LamaTiler.compositeMasked_base inside few]
  · exact congrArg some (extractRgb_at column row index)
  · have zero : (extractMask source.box mask threshold).getD (y*source.box.w.toNat+x) host.rounding.ops.zero = F32.zero :=
      extractMask_at column row below
    rw [zero]
    show F32.ge F32.zero F32.half = false
    decide

def Untouched (source mask : Input) (threshold : F32) (c : Channel) (x y : Int) : Prop :=
  (c ≠ .red ∧ c ≠ .green ∧ c ≠ .blue) ∨ ¬ source.box.Contains x y ∨ F32.ge (mask.pixel .alpha x y) threshold = false

theorem offset_toNat {x y w : Int} {k : Nat} (above : 0 ≤ y) (right : 0 ≤ x) (wide : 0 ≤ w) :
    (y*w*3 + (x*3 + k)).toNat = (y.toNat*w.toNat + x.toNat)*3 + k := by
  apply Int.ofNat.inj
  simp only [Int.ofNat_eq_natCast,Nat.cast_add,Nat.cast_mul,Int.toNat_of_nonneg above,Int.toNat_of_nonneg right,
    Int.toNat_of_nonneg wide]
  rw [Int.toNat_of_nonneg (by positivity)]
  push_cast
  ring

theorem engineAt_untouched (path : Reached (system host) s) (held : LoadedBake s node source mask b l)
    (placed : node.infoBox = source.box) {c : Channel} {x y : Int}
    (untouched : Untouched source mask node.knobs.maskThreshold c x y) :
    engineAt node source.pixel c x y = some (source.pixel c x y) := by
  have result := loaded_pixels path held
  have width : node.rt.cache.width = source.box.w := by
    rw [held.loaded]
    exact congrArg ImageCacheReadResult.width result
  have height : node.rt.cache.height = source.box.h := by
    rw [held.loaded]
    exact congrArg ImageCacheReadResult.height result
  have pixels : node.rt.cache.pixels = b.pixels := by
    rw [held.loaded]
    exact congrArg ImageCacheReadResult.pixels result
  unfold engineAt
  split
  · rfl
  · dsimp only
    split
    · rfl
    · rename_i k index
      rw [width,height,pixels,placed]
      split
      · rfl
      · rename_i row
        split
        · rename_i column
          have below : F32.ge (mask.pixel .alpha x y) node.knobs.maskThreshold = false := by
            rcases untouched with other | outside | below
            · cases c <;> simp_all [channelIndex]
            · exact absurd ⟨by omega,by have := column.2; rw [Box.w] at this; omega,by omega,
                by rw [Box.h] at row; omega⟩ outside
            · exact below
          obtain ⟨composited,_⟩ := bake_composited path held
          have above : 0 ≤ y - source.box.y := by omega
          have wide : (source.box.w.toNat : Int) = source.box.w := Int.toNat_of_nonneg (by omega)
          have atX : source.box.x + ((x - source.box.x).toNat : Int) = x := by omega
          have atY : source.box.y + ((y - source.box.y).toNat : Int) = y := by omega
          have found := composited_at composited (x - source.box.x).toNat (y - source.box.y).toNat
            (by omega) (by omega) index (by rw [atX,atY]; exact below)
          rw [atX,atY] at found
          rw [← found,offset_toNat above column.1 (by omega)]
        · rfl

theorem validate_infoBox {disk : Files} (connected : node.source = some source) :
    (validate host disk none node).infoBox = source.box := by
  simp only [validate,reduceCtorEq,if_false]
  show (node.source.map (·.box)).getD node.infoBox = source.box
  rw [connected]
  rfl

theorem engine_at {src : Channel → Int → Int → F32} {y x r : Int} {channels : List Channel} {c : Channel}
    {row : List (Option F32)} {i : Nat} (member : (c,row) ∈ engine node src y x r channels) (inside : x + i < r) :
    row[i]? = some (engineAt node src c (x+i) y) := by
  obtain ⟨c',_,same⟩ := List.mem_map.mp member
  cases same
  rw [List.getElem?_map,List.getElem?_range (by omega)]
  rfl

theorem engine_rows (node : Node) (src : Channel → Int → Int → F32) (y x r : Int) (channels : List Channel) :
    (engine node src y x r channels).map Prod.fst = channels ∧
    ∀ c row, (c,row) ∈ engine node src y x r channels → row.length = (r-x).toNat := by
  constructor
  · rw [engine,List.map_map]
    exact List.map_id _
  · intro c row member
    obtain ⟨_,_,same⟩ := List.mem_map.mp member
    cases same
    rw [List.length_map,List.length_range]

-- After a normal _validate with a finished bake of the connected inputs in the
-- buffer, engine fills the requested row of each requested channel and passes
-- input 0 through wherever the bake must not be seen.
theorem unmasked_untouched (path : Reached (system host) s) (connected : s.node.source = some source)
    (held : LoadedBake s (validate host s.disk none s.node) source mask b l) (y x r : Int) (channels : List Channel) :
    (engine (validate host s.disk none s.node) source.pixel y x r channels).map Prod.fst = channels ∧
    ∀ c row, (c,row) ∈ engine (validate host s.disk none s.node) source.pixel y x r channels →
      row.length = (r-x).toNat ∧
      ∀ i : Nat, x + i < r → Untouched source mask (validate host s.disk none s.node).knobs.maskThreshold c (x+i) y →
        row[i]? = some (some (source.pixel c (x+i) y)) := by
  obtain ⟨requested,full⟩ := engine_rows (validate host s.disk none s.node) source.pixel y x r channels
  refine ⟨requested,fun c row cooked => ⟨full c row cooked,fun i inside untouched => ?_⟩⟩
  rw [engine_at cooked inside,engineAt_untouched path held (validate_infoBox connected) untouched]

theorem unmasked_untouched_first : ∃ s l b row, Reached (system blackHost) s ∧
    LoadedBake s (validate blackHost s.disk none s.node) blackPixel blackPixel b l ∧
    (Channel.red,row) ∈ engine (validate blackHost s.disk none s.node) blackPixel.pixel 0 0 1 [.red] ∧
    row.length = 1 ∧ row[0]? = some (some F32.zero) := by
  have ready : Reached (system blackHost) blackStart := blackNode_reached (fun _ => trivial) (fun _ _ => trivial)
  obtain ⟨node,worker,disk,b,pixels,started,_,finished,ok,job,length,content,file⟩ :=
    blackStart_bakes ready trivial (fun _ _ => trivial)
  obtain ⟨l,loaded,same⟩ := blackStart_loads started length (file.trans content) worker
  have knobs : (validate blackHost disk none (setWorker node worker)).knobs = pressKnobs blackHost blackStart.node := by
    rw [validate_knobs,pressKnobs,show (setWorker node worker).knobs = node.knobs from rfl,started.knobs]
    exact resolve_resolved _
  have held : LoadedBake ⟨setWorker node worker,disk,[b]⟩ (validate blackHost disk none (setWorker node worker))
      blackPixel blackPixel b l :=
    ⟨List.mem_singleton_self b,ok,by rw [job,knobs]; exact ⟨rfl,rfl,rfl⟩,loaded,same.trans content.symm⟩
  obtain ⟨requested,rows⟩ := unmasked_untouched finished started.source held 0 0 1 [.red]
  obtain ⟨⟨c,row⟩,cooked,rfl⟩ := List.mem_map.mp (requested.symm ▸ List.mem_singleton_self Channel.red)
  obtain ⟨full,passes⟩ := rows _ row cooked
  refine ⟨_,l,b,row,finished,held,cooked,full,passes 0 (by decide) ?_⟩
  rw [knobs]
  exact .inr (.inr (by decide))

end SmartFill.AISmartFill
