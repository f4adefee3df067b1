import SmartFill.ImageCache

namespace SmartFill.ImageCache

def tmpPath (path : Path) : Path := path ++ ascii ".tmp"

def ancestors (path : Path) : List Path :=
  ((List.range path.length).filter (fun i => path.getD i 0 = 47)).map path.take

-- What the operating system does to each step. The stream is buffered, so the
-- bytes on disk grow in pieces: `written` are the lengths reached before the
-- good() test, `closing` those reached while close() flushes, `flushed` the
-- length that remains once the handle is gone.
structure Faults where
  mkdirRefused : Bool
  openRefused : Bool
  written : List Nat
  writeFailed : Bool
  closing : List Nat
  flushed : Nat
  removeRefused : Bool
  renameRefused : Bool
  tmpRemoveRefused : Bool

-- Every file system a kill or another process can find, in order, then the
-- last one and the value returned.
structure WriteRun where
  seen : List Files
  final : Files
  ok : Bool

def accepts (pixels : Option (List F32)) (width height channels : Int) : Bool :=
  pixels.isSome && inRange width height channels

section Stages
variable (faults : Faults) (path : Path) (new : Bytes) (disk : Files)

def made : Files := if faults.mkdirRefused then disk else disk.makeDirs (ancestors (tmpPath path))
def filled (n : Nat) : Files := (made faults path disk).write (tmpPath path) (new.take n)
def bare : Files := Disk.removeUnless faults.removeRefused (filled faults path new disk faults.flushed) path

def filling : List Files :=
  [disk,made faults path disk,filled faults path new disk 0] ++
    (faults.written ++ faults.closing).map (filled faults path new disk) ++
    [filled faults path new disk faults.flushed]

def cleaned (d : Files) : Files := Disk.removeUnless faults.tmpRemoveRefused d (tmpPath path)

def writeImage : WriteRun :=
  if faults.openRefused then
    ⟨[disk,made faults path disk],made faults path disk,false⟩
  else if faults.writeFailed then
    let final := cleaned faults path (filled faults path new disk faults.flushed)
    ⟨filling faults path new disk ++ [final],final,false⟩
  else if faults.renameRefused then
    let final := cleaned faults path (bare faults path new disk)
    ⟨filling faults path new disk ++ [bare faults path new disk,final],final,false⟩
  else
    let final := (bare faults path new disk).rename (tmpPath path) path
    ⟨filling faults path new disk ++ [bare faults path new disk,final],final,true⟩

end Stages

def imageCacheWrite (faults : Faults) (path : Path) (pixels : Option (List F32))
    (width height channels : Int) (disk : Files) : WriteRun :=
  match pixels with
  | none => ⟨[disk],disk,false⟩
  | some values =>
    if inRange width height channels then
      writeImage faults path (encoding values width height channels) disk
    else ⟨[disk],disk,false⟩

-- Whoever opens the destination finds the old content or all of the new one,
-- and a refused write leaves the old one.
def Atomic (path : Path) (previous : Option Bytes) (new : Bytes) (run : WriteRun) : Prop :=
  (∀ disk ∈ run.seen, disk.read path = previous ∨ disk.read path = some new) ∧
  (run.ok = false → run.final.read path = previous)

-- The steps that can go wrong without a trace at the destination: the run ends
-- before the destination is touched, or there is nothing to remove (or it is
-- kept) and what is renamed, if anything, is complete.
def Untorn (faults : Faults) (previous : Option Bytes) (new : Bytes) : Prop :=
  faults.openRefused = true ∨ faults.writeFailed = true ∨
  ((previous = none ∨ faults.removeRefused = true) ∧
    (faults.renameRefused = true ∨ new.take faults.flushed = new ∨
      previous = some (new.take faults.flushed)))

theorem tmp_other (path : Path) : path ≠ tmpPath path := by
  intro same
  have lengths := congrArg List.length same
  simp only [tmpPath,List.length_append] at lengths
  have : (ascii ".tmp").length = 4 := by decide
  omega

section Run
variable {faults : Faults} {path : Path} {disk : Files} {new : Bytes}

theorem read_made (q : Path) : (made faults path disk).read q = disk.read q := by
  unfold made
  split <;> rfl

theorem read_filled (n : Nat) : (filled faults path new disk n).read path = disk.read path := by
  rw [filled,Disk.read_write_other (tmp_other path),read_made]

theorem read_bare : (bare faults path new disk).read path =
    if faults.removeRefused then disk.read path else none := by
  rw [bare,Disk.read_removeUnless_self,read_filled]

theorem read_cleaned (d : Files) : (cleaned faults path d).read path = d.read path :=
  Disk.read_removeUnless_other _ (tmp_other path)

theorem read_renamed : ((bare faults path new disk).rename (tmpPath path) path).read path =
    some (new.take faults.flushed) := by
  apply Disk.read_rename_target
  rw [bare,Disk.read_removeUnless_other _ (tmp_other path).symm]
  exact Disk.read_write_self

theorem filling_previous (member : seen ∈ filling faults path new disk) :
    seen.read path = disk.read path := by
  simp only [filling,List.mem_append,List.mem_cons,List.not_mem_nil,or_false,List.mem_map] at member
  rcases member with ((rfl | rfl | rfl) | ⟨n,_,rfl⟩) | rfl
  · rfl
  · exact read_made path
  all_goals exact read_filled _

theorem atomic_early (early : faults.openRefused = true ∨ faults.writeFailed = true) :
    Atomic path (disk.read path) new (writeImage faults path new disk) := by
  unfold writeImage
  split
  · refine ⟨?_,fun _ => read_made path⟩
    intro seen member
    simp only [List.mem_cons,List.not_mem_nil,or_false] at member
    rcases member with rfl | rfl
    · exact .inl rfl
    · exact .inl (read_made path)
  · rename_i opened
    rw [if_pos (by simpa [opened] using early)]
    have last : (cleaned faults path (filled faults path new disk faults.flushed)).read path = disk.read path :=
      (read_cleaned _).trans (read_filled _)
    refine ⟨?_,fun _ => last⟩
    intro seen member
    rcases List.mem_append.mp member with before | final
    · exact .inl (filling_previous before)
    · rw [List.mem_singleton.mp final]
      exact .inl last

-- Past the good() test exactly two more states appear: the destination removed
-- (or kept), and the outcome of the rename.
theorem atomic_late (final : Files) (ok : Bool) :
    Atomic path (disk.read path) new
      ⟨filling faults path new disk ++ [bare faults path new disk,final],final,ok⟩ ↔
      (disk.read path = none ∨ faults.removeRefused = true) ∧
      (final.read path = disk.read path ∨ (final.read path = some new ∧ ok = true)) := by
  constructor
  · intro atomic
    rcases atomic with ⟨seen,refused⟩
    have kept : disk.read path = none ∨ faults.removeRefused = true := by
      rcases seen (bare faults path new disk) (by simp) with same | same <;> rw [read_bare] at same
      · split at same
        · rename_i keep
          exact .inr keep
        · exact .inl same.symm
      · split at same
        · rename_i keep
          exact .inr keep
        · cases same
    refine ⟨kept,?_⟩
    rcases seen final (by simp) with same | same
    · exact .inl same
    · cases ok with
      | false => exact .inl (refused rfl)
      | true => exact .inr ⟨same,rfl⟩
  · intro untorn
    rcases untorn with ⟨kept,outcome⟩
    have bareKept : (bare faults path new disk).read path = disk.read path := by
      rw [read_bare]
      rcases kept with absent | keep
      · split <;> simp [absent]
      · rw [if_pos keep]
    refine ⟨?_,?_⟩
    · intro seen member
      rcases List.mem_append.mp member with before | after
      · exact .inl (filling_previous before)
      · simp only [List.mem_cons,List.not_mem_nil,or_false] at after
        rcases after with rfl | rfl
        · exact .inl bareKept
        · exact outcome.imp_right And.left
    · rintro rfl
      rcases outcome with same | ⟨_,wrong⟩
      · exact same
      · cases wrong

theorem atomic_writeImage : Atomic path (disk.read path) new (writeImage faults path new disk) ↔
    Untorn faults (disk.read path) new := by
  by_cases early : faults.openRefused = true ∨ faults.writeFailed = true
  · refine ⟨fun _ => ?_,fun _ => atomic_early early⟩
    exact early.elim .inl (fun failed => .inr (.inl failed))
  · rw [not_or] at early
    have reduced : Untorn faults (disk.read path) new ↔
        (disk.read path = none ∨ faults.removeRefused = true) ∧ (faults.renameRefused = true ∨
          new.take faults.flushed = new ∨ disk.read path = some (new.take faults.flushed)) := by
      simp [Untorn,early.1,early.2]
    rw [reduced,writeImage,if_neg early.1,if_neg early.2]
    split
    · rename_i refused
      rw [atomic_late]
      refine and_congr_right (fun kept => ?_)
      have same : (cleaned faults path (bare faults path new disk)).read path = disk.read path := by
        rw [read_cleaned,read_bare]
        rcases kept with absent | keep
        · split <;> simp [absent]
        · rw [if_pos keep]
      simp [same,refused]
    · rename_i renames
      rw [atomic_late]
      refine and_congr_right (fun _ => ?_)
      rw [read_renamed]
      simp only [Option.some.injEq,and_true]
      constructor
      · intro whole
        rcases whole with same | complete
        · exact .inr (.inr same.symm)
        · exact .inr (.inl complete)
      · intro untorn
        rcases untorn with refused | complete | same
        · exact absurd refused renames
        · exact .inr complete
        · exact .inl same.symm

end Run

theorem imageCacheWrite_accepted {pixels : List F32} (accepted : accepts (some pixels) width height channels = true) :
    imageCacheWrite faults path (some pixels) width height channels disk =
      writeImage faults path (encoding pixels width height channels) disk := by
  have range : inRange width height channels = true := by simpa [accepts] using accepted
  simp [imageCacheWrite,range]

theorem imageCacheWrite_content {pixels : List F32}
    (ok : (imageCacheWrite faults path (some pixels) width height channels disk).ok = true) :
    inRange width height channels = true ∧
    (imageCacheWrite faults path (some pixels) width height channels disk).final.read path =
      some ((encoding pixels width height channels).take faults.flushed) := by
  unfold imageCacheWrite at ok ⊢
  by_cases range : inRange width height channels = true
  · simp only [if_pos range] at ok ⊢
    refine ⟨range,?_⟩
    unfold writeImage at ok ⊢
    split
    · simp_all
    · split
      · simp_all
      · split
        · simp_all
        · exact read_renamed
  · simp only [if_neg range] at ok
    cases ok

-- Replacement is atomic on exactly the runs that are not torn: the remove
-- before the rename leaves a gap whenever it takes a file away, and bytes lost
-- while close() flushes are renamed over the destination unnoticed.
theorem imageCacheWrite_atomic_iff (faults : Faults) (path : Path) (pixels : List F32)
    (width height channels : Int) (disk : Files)
    (accepted : accepts (some pixels) width height channels = true) :
    Atomic path (disk.read path) (encoding pixels width height channels)
      (imageCacheWrite faults path (some pixels) width height channels disk) ↔
    Untorn faults (disk.read path) (encoding pixels width height channels) := by
  rw [imageCacheWrite_accepted accepted]
  exact atomic_writeImage

def onePixel : List F32 := [F32.one]

def noFaults (flushed : Nat) : Faults := ⟨false,false,[],false,[],flushed,false,false,false⟩

def heldDisk : Files := Disk.empty.write (ascii "k") [1]

-- A first write, and two over a file: one replaces it without having removed
-- it, the other fails after five bytes.
theorem imageCacheWrite_atomic_runs :
    Atomic (ascii "k") none (encoding onePixel 1 1 1)
      (imageCacheWrite (noFaults 32) (ascii "k") (some onePixel) 1 1 1 Disk.empty) ∧
    Atomic (ascii "k") (some [1]) (encoding onePixel 1 1 1)
      (imageCacheWrite {noFaults 32 with removeRefused := true} (ascii "k") (some onePixel) 1 1 1 heldDisk) ∧
    Atomic (ascii "k") (some [1]) (encoding onePixel 1 1 1)
      (imageCacheWrite {noFaults 5 with written := [4],writeFailed := true} (ascii "k") (some onePixel) 1 1 1 heldDisk) := by
  have law (faults : Faults) (disk : Files) :=
    imageCacheWrite_atomic_iff faults (ascii "k") onePixel 1 1 1 disk (by decide)
  refine ⟨(law _ Disk.empty).mpr ?_,(law _ heldDisk).mpr ?_,(law _ heldDisk).mpr ?_⟩
  · exact .inr (.inr ⟨.inl rfl,.inr (.inl (by decide))⟩)
  · exact .inr (.inr ⟨.inr rfl,.inr (.inl (by decide))⟩)
  · exact .inr (.inl rfl)

-- Every step succeeds and the destination held a file: it is gone between the
-- remove and the rename.
theorem imageCacheWrite_gap : ¬ ∀ (faults : Faults) (path : Path) (pixels : List F32)
    (width height channels : Int) (disk : Files), accepts (some pixels) width height channels = true →
    Atomic path (disk.read path) (encoding pixels width height channels)
      (imageCacheWrite faults path (some pixels) width height channels disk) := by
  intro claim
  have held := claim (noFaults 32) (ascii "k") onePixel 1 1 1 heldDisk (by decide)
  rcases held.1 (bare (noFaults 32) (ascii "k") (encoding onePixel 1 1 1) heldDisk)
    (by simp [imageCacheWrite_accepted,accepts,inRange,writeImage,noFaults,onePixel,kMaxDim,kMaxChannels]) with gone | gone
  all_goals
    rw [read_bare] at gone
    simp [noFaults,heldDisk] at gone

end SmartFill.ImageCache
