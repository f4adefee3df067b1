import SmartFill.AIGenerate
import SmartFill.AISmartFill
import SmartFill.Lib.DiskOps

namespace SmartFill.ImageCache

abbrev FileOp := DiskOp Path UInt8

-- image_cache_write once more, as the operations it asks the file system for.
-- One that is refused does nothing and is left out.
def discardOps (faults : Faults) (path : Path) : List FileOp :=
  if faults.tmpRemoveRefused then [] else [.remove (tmpPath path)]

def replaceOps (faults : Faults) (path : Path) : List FileOp :=
  (if faults.removeRefused then [] else [.remove path]) ++
    if faults.renameRefused then discardOps faults path else [.rename (tmpPath path) path]

def lengths (faults : Faults) : List Nat := 0 :: (faults.written ++ faults.closing)

def fillOps (faults : Faults) (path : Path) (new : Bytes) : List FileOp :=
  ((lengths faults).map new.take ++ [new.take faults.flushed]).map (.write (tmpPath path))

def writeOps (faults : Faults) (path : Path) (new : Bytes) : List FileOp :=
  (if faults.mkdirRefused then [] else [.makeDirs (ancestors (tmpPath path))]) ++
    if faults.openRefused then [] else
      fillOps faults path new ++ if faults.writeFailed then discardOps faults path else replaceOps faults path

def imageCacheWriteOps (faults : Faults) (path : Path) (pixels : List F32) (width height channels : Int) : List FileOp :=
  if inRange width height channels then writeOps faults path (encoding pixels width height channels) else []

section Run
open DiskOp
variable {faults : Faults} {path : Path} {new : Bytes} {disk : Files}

theorem run_discard (d : Files) : run d (discardOps faults path) = cleaned faults path d := by
  unfold discardOps cleaned
  cases faults.tmpRemoveRefused <;> rfl

theorem run_fill : run (made faults path disk) (fillOps faults path new) = filled faults path new disk faults.flushed :=
  run_writes _ _ _ _

theorem run_bare : run (filled faults path new disk faults.flushed) (if faults.removeRefused then [] else [.remove path]) =
    bare faults path new disk := by
  unfold bare
  cases faults.removeRefused <;> rfl

theorem run_made : run disk (if faults.mkdirRefused then [] else [.makeDirs (ancestors (tmpPath path))]) =
    made faults path disk := by
  unfold made
  cases faults.mkdirRefused <;> rfl

theorem writeOps_final : (writeImage faults path new disk).final = run disk (writeOps faults path new) := by
  rw [writeOps,run_append,run_made,writeImage]
  split
  · rfl
  · rw [run_append,run_fill]
    split
    · exact (run_discard _).symm
    · rw [replaceOps,run_append,run_bare]
      split
      · exact (run_discard _).symm
      · rfl

-- What writeImage lists for an observer, stage by stage.
theorem seen_start : disk ∈ (writeImage faults path new disk).seen ∧
    made faults path disk ∈ (writeImage faults path new disk).seen := by
  unfold writeImage
  split
  · simp
  · split
    · simp [filling]
    · split <;> simp [filling]

theorem seen_final : (writeImage faults path new disk).final ∈ (writeImage faults path new disk).seen := by
  unfold writeImage
  split
  · simp
  · split
    · simp
    · split <;> simp

theorem seen_filled (opened : faults.openRefused = false) (listed : n ∈ lengths faults ++ [faults.flushed]) :
    filled faults path new disk n ∈ (writeImage faults path new disk).seen := by
  have early : filled faults path new disk n ∈ filling faults path new disk := by
    simp only [lengths,List.mem_append,List.mem_cons,List.not_mem_nil,or_false] at listed
    simp only [filling,List.mem_append,List.mem_cons,List.not_mem_nil,or_false,List.mem_map]
    rcases listed with (rfl | during) | rfl
    · exact .inl (.inl (.inr (.inr rfl)))
    · exact .inl (.inr ⟨n,during,rfl⟩)
    · exact .inr rfl
  rw [writeImage,if_neg (by simp [opened])]
  split
  · exact List.mem_append_left _ early
  · split <;> exact List.mem_append_left _ early

theorem seen_bare (opened : faults.openRefused = false) (written : faults.writeFailed = false) :
    bare faults path new disk ∈ (writeImage faults path new disk).seen := by
  rw [writeImage,if_neg (by simp [opened]),if_neg (by simp [written])]
  split <;> simp

theorem through_discard {holds : Files → Prop} {d : Files} (now : holds d) (cleans : holds (cleaned faults path d)) :
    Through holds d (discardOps faults path) := by
  unfold discardOps cleaned at *
  cases refused : faults.tmpRemoveRefused with
  | true => exact through_nil now
  | false =>
    refine through_cons now (through_nil ?_)
    simpa only [refused,Disk.removeUnless,Bool.false_eq_true,if_false,apply] using cleans

theorem through_fill (opened : faults.openRefused = false) :
    Through (· ∈ (writeImage faults path new disk).seen) (made faults path disk) (fillOps faults path new) := by
  apply through_writes seen_start.2
  intro content member
  have mapped : content ∈ (lengths faults ++ [faults.flushed]).map new.take := by rwa [List.map_append]
  obtain ⟨n,listed,rfl⟩ := List.mem_map.mp mapped
  exact seen_filled opened listed

theorem through_replace (opened : faults.openRefused = false) (written : faults.writeFailed = false) :
    Through (· ∈ (writeImage faults path new disk).seen) (filled faults path new disk faults.flushed)
      (replaceOps faults path) := by
  have flushed := @seen_filled faults path new disk _ opened (List.mem_append_right _ (List.mem_singleton_self _))
  have emptied := @seen_bare faults path new disk opened written
  have last := @seen_final faults path new disk
  rw [writeImage,if_neg (by simp [opened]),if_neg (by simp [written])] at last
  apply through_append
  · cases kept : faults.removeRefused with
    | true => exact through_nil flushed
    | false =>
      refine through_cons flushed (through_nil ?_)
      simpa only [bare,kept,Disk.removeUnless,Bool.false_eq_true,if_false,apply] using emptied
  · rw [run_bare]
    cases moving : faults.renameRefused with
    | true =>
      rw [if_pos moving] at last
      rw [if_pos rfl]
      apply through_discard emptied
      rwa [writeImage,if_neg (by simp [opened]),if_neg (by simp [written]),if_pos moving]
    | false =>
      rw [if_neg (by simp [moving])] at last
      rw [if_neg Bool.false_ne_true]
      refine through_cons emptied (through_nil ?_)
      rwa [writeImage,if_neg (by simp [opened]),if_neg (by simp [written]),if_neg (by simp [moving])]

-- The states between the operations are those listed for an observer.
theorem writeOps_seen : Through (· ∈ (writeImage faults path new disk).seen) disk (writeOps faults path new) := by
  apply through_append
  · cases refused : faults.mkdirRefused with
    | true => exact through_nil seen_start.1
    | false =>
      refine through_cons seen_start.1 (through_nil ?_)
      have second := (@seen_start faults path new disk).2
      simpa only [made,refused,Bool.false_eq_true,if_false,apply] using second
  · rw [run_made]
    cases opening : faults.openRefused with
    | true => exact through_nil seen_start.2
    | false =>
      rw [if_neg Bool.false_ne_true]
      apply through_append (through_fill opening)
      rw [run_fill]
      cases writing : faults.writeFailed with
      | true =>
        rw [if_pos rfl]
        apply through_discard (seen_filled opening (by simp))
        have last := @seen_final faults path new disk
        rwa [writeImage,if_neg (by simp [opening]),if_pos writing] at last ⊢
      | false => exact through_replace opening writing

def Own (path p : Path) : Prop := p = path ∨ p = tmpPath path

theorem discardOps_within : Within (Own path) (discardOps faults path) := by
  unfold discardOps
  split
  · exact within_nil
  · exact within_single (fun p touched => .inr touched)

theorem writeOps_within : Within (Own path) (writeOps faults path new) := by
  apply within_append
  · split
    · exact within_nil
    · exact within_single (fun p touched => touched.elim)
  · split
    · exact within_nil
    · apply within_append
      · intro op member p touched
        obtain ⟨content,_,rfl⟩ := List.mem_map.mp member
        exact .inr touched
      · split
        · exact discardOps_within
        · apply within_append
          · split
            · exact within_nil
            · exact within_single (fun p touched => .inl touched)
          · split
            · exact discardOps_within
            · exact within_single (fun p touched => touched.symm)

-- What one operation can do to the destination.
def Replaces (path : Path) (content : Bytes) (d d' : Files) : Prop :=
  d'.read path = d.read path ∨ d'.read path = none ∨ d'.read path = some content

theorem spared_replaces {op : FileOp} (spared : ¬ op.Touches path) (d : Files) : Replaces path new d (apply d op) :=
  .inl (apply_read spared)

theorem discardOps_each (d : Files) : Each (Replaces path new) d (discardOps faults path) := by
  apply each_tame
  intro op member
  unfold discardOps at member
  split at member
  · cases member
  · cases List.mem_singleton.mp member
    exact spared_replaces (tmp_other path)

theorem replaceOps_each : Each (Replaces path (new.take faults.flushed)) (filled faults path new disk faults.flushed)
    (replaceOps faults path) := by
  apply each_append
  · apply each_tame
    intro op member d
    split at member
    · cases member
    · cases List.mem_singleton.mp member
      exact .inr (.inl Disk.read_remove_self)
  · rw [run_bare]
    split
    · exact discardOps_each _
    · intro n op found
      cases n with
      | zero =>
        cases found
        exact .inr (.inr read_renamed)
      | succ n => cases found

theorem writeOps_each : Each (Replaces path (new.take faults.flushed)) disk (writeOps faults path new) := by
  apply each_append
  · apply each_tame
    intro op member
    split at member
    · cases member
    · cases List.mem_singleton.mp member
      exact spared_replaces id
  · rw [run_made]
    split
    · exact each_tame (fun op member => nomatch member)
    · apply each_append
      · apply each_tame
        intro op member
        obtain ⟨content,_,rfl⟩ := List.mem_map.mp member
        exact spared_replaces (tmp_other path)
      · rw [run_fill]
        split
        · exact discardOps_each _
        · exact replaceOps_each

end Run

-- One call of image_cache_write and what the file system makes of it.
structure WriteCall where
  faults : Faults
  path : Path
  pixels : List F32
  width : Int
  height : Int
  channels : Int

namespace WriteCall
open DiskOp

def run (c : WriteCall) (disk : Files) : WriteRun :=
  imageCacheWrite c.faults c.path (some c.pixels) c.width c.height c.channels disk

def ops (c : WriteCall) : List FileOp := imageCacheWriteOps c.faults c.path c.pixels c.width c.height c.channels

variable {c : WriteCall} {disk d : Files}

theorem run_ranged : c.run disk = if inRange c.width c.height c.channels then
    writeImage c.faults c.path (encoding c.pixels c.width c.height c.channels) disk else ⟨[disk],disk,false⟩ := rfl

theorem ops_final : (c.run disk).final = DiskOp.run disk c.ops := by
  rw [run_ranged,ops,imageCacheWriteOps]
  split
  · exact writeOps_final
  · rfl

theorem ops_seen : Through (· ∈ (c.run disk).seen) disk c.ops := by
  rw [run_ranged,ops,imageCacheWriteOps]
  split
  · exact writeOps_seen
  · exact through_nil (List.mem_singleton_self disk)

theorem ops_within : Within (Own c.path) c.ops := by
  unfold ops imageCacheWriteOps
  split
  · exact writeOps_within
  · exact within_nil

theorem ops_each : Each (Replaces c.path ((encoding c.pixels c.width c.height c.channels).take c.faults.flushed)) disk
    c.ops := by
  rw [ops,imageCacheWriteOps]
  split
  · exact writeOps_each
  · exact each_tame (fun op member => nomatch member)

end WriteCall

def CachePath (p : Path) : Prop :=
  ∃ extension ∈ [AISmartFill.extension,AIGenerate.extension], ∃ dir key, dir ≠ [] ∧ p = cachePath extension dir key

theorem cachePath_last (named : CachePath p) : p.getLast? ≠ some 112 := by
  obtain ⟨extension,listed,dir,key,nonempty,rfl⟩ := named
  rw [cachePath,if_neg nonempty]
  simp only [List.mem_cons,List.not_mem_nil,or_false] at listed
  rcases listed with rfl | rfl
  · rw [List.getLast?_append_of_ne_nil _ (by decide)]
    decide
  · rw [List.getLast?_append_of_ne_nil _ (by decide)]
    decide

theorem tmpPath_last (p : Path) : (tmpPath p).getLast? = some 112 := by
  rw [tmpPath,List.getLast?_append_of_ne_nil _ (by decide)]
  decide

theorem cachePath_not_tmp (named : CachePath p) (q : Path) : p ≠ tmpPath q := by
  rintro rfl
  exact cachePath_last named (tmpPath_last q)

theorem own_apart {q : Path} (named : CachePath p) (named' : CachePath q) (other : p ≠ q) (r : Path) (own : Own p r) :
    ¬ Own q r := by
  rintro (same | same)
  · rcases own with rfl | rfl
    · exact other same
    · exact cachePath_not_tmp named' p same.symm
  · rcases own with rfl | rfl
    · exact cachePath_not_tmp named q same
    · exact other (List.append_cancel_right same)

section Concurrent
variable {ι : Type} [DecidableEq ι]

-- The operations of one caller, in its order.
def part (ops : List (ι × FileOp)) (i : ι) : List FileOp := (ops.filter (fun o => o.1 = i)).map Prod.snd

-- Any number of image_cache_write calls on different cache files, under way at
-- the same moment in any order of their operations: each file is in a state its
-- own call alone would show, in the end the one it alone would leave, and no
-- other file changes.
theorem concurrent_writes_isolated (calls : ι → WriteCall) (named : ∀ i, CachePath (calls i).path)
    (distinct : ∀ i j, (calls i).path = (calls j).path → i = j) (ops : List (ι × FileOp))
    (orders : ∀ i, part ops i <+: (calls i).ops) (disk : Files) :
    (∀ i, ∃ seen ∈ ((calls i).run disk).seen,
      (DiskOp.run disk (ops.map Prod.snd)).read (calls i).path = seen.read (calls i).path) ∧
    (∀ i, part ops i = (calls i).ops → (DiskOp.run disk (ops.map Prod.snd)).read (calls i).path =
      ((calls i).run disk).final.read (calls i).path) ∧
    ∀ p, (∀ i, ¬ Own (calls i).path p) → (DiskOp.run disk (ops.map Prod.snd)).read p = disk.read p := by
  have listed (i : ι) (op : FileOp) (member : (i,op) ∈ ops) : op ∈ (calls i).ops := by
    refine (orders i).subset (List.mem_map.mpr ⟨(i,op),?_,rfl⟩)
    exact List.mem_filter.mpr ⟨member,decide_eq_true rfl⟩
  have alone (i : ι) : (DiskOp.run disk (ops.map Prod.snd)).read (calls i).path =
      (DiskOp.run disk (part ops i)).read (calls i).path := by
    refine DiskOp.run_alone (Own (calls i).path) i ops (fun _ _ => rfl) ?_ ?_ _ (.inl rfl)
    · intro op member
      exact WriteCall.ops_within op (listed i op member)
    · intro j op member other p own touched
      refine own_apart (named i) (named j) (fun same => other (distinct j i same.symm)) p own ?_
      exact WriteCall.ops_within op (listed j op member) p touched
  refine ⟨fun i => ?_,fun i whole => ?_,fun p apart => ?_⟩
  · refine ⟨DiskOp.run disk (part ops i),?_,alone i⟩
    rw [List.prefix_iff_eq_take.mp (orders i)]
    exact WriteCall.ops_seen _
  · rw [alone i,whole,WriteCall.ops_final]
  · refine DiskOp.run_read (fun op member touched => ?_)
    obtain ⟨⟨i,_⟩,found,rfl⟩ := List.mem_map.mp member
    exact apart i (WriteCall.ops_within _ (listed i _ found) p touched)

def pairCall (key : Bytes) : WriteCall := ⟨noFaults 32,cachePath AISmartFill.extension (ascii "/c") key,onePixel,1,1,1⟩

-- Two bakes whose operations alternate.
theorem concurrent_writes_isolated_pair : ∃ ops : List (Bool × FileOp), ops.length = 10 ∧
    ∀ b : Bool, (DiskOp.run Disk.empty (ops.map Prod.snd)).read (pairCall [if b then 97 else 98]).path =
      some (encoding onePixel 1 1 1) := by
  let calls (b : Bool) : WriteCall := pairCall [if b then 97 else 98]
  let ops : List (Bool × FileOp) :=
    (List.zipWith (fun x y => [(true,x),(false,y)]) (calls true).ops (calls false).ops).flatten
  have named (b : Bool) : CachePath (calls b).path := ⟨_,List.mem_cons_self,ascii "/c",_,by decide,rfl⟩
  have distinct (i j : Bool) (same : (calls i).path = (calls j).path) : i = j := by
    have keys := cachePath_injective (by decide : ascii "/c" ≠ []) same
    cases i <;> cases j <;> simp_all
  have whole (b : Bool) : part ops b = (calls b).ops := by cases b <;> rfl
  have held := concurrent_writes_isolated calls named distinct ops (fun b => by rw [whole b]) Disk.empty
  refine ⟨ops,rfl,fun b => (held.2.1 b (whole b)).trans ?_⟩
  have written : ((calls b).run Disk.empty).ok = true := by
    cases b <;> decide
  exact (imageCacheWrite_content written).2

end Concurrent

end SmartFill.ImageCache
