import SmartFill.AiCacheSweep

namespace SmartFill.AiCache
open Sweep

section
variable {β : Type} {io : Io} {clocks : Clocks} {folder : Folder β} {maxAgeSeconds : Int64} {maxEntries : Int32}
  {sorter : Sorter Entry Entry.mtime} {entries : List Entry} {e : Entry} {name : Bytes}

theorem overLimit_subperm : (overLimit sorter maxEntries entries).Subperm entries := by
  unfold overLimit
  split
  · exact (List.drop_sublist _ _).subperm.trans (sorter.perm entries).subperm
  · exact List.nil_subperm

theorem chosen_subperm : (chosen clocks sorter maxAgeSeconds maxEntries entries).Subperm entries := by
  have parts : (entries.filter (expired clocks maxAgeSeconds) ++
      entries.filter (fun e => !expired clocks maxAgeSeconds e)).Perm entries := List.filter_append_perm _ _
  exact ((List.Subperm.refl _).append overLimit_subperm).trans parts.subperm

theorem listed_names : ((listed io clocks folder).map Entry.name).Sublist folder.keys := by
  have names : (listed io clocks folder).map Entry.name =
      (folder.entries.filter (fun file => isEntry file.1 && !io.timeFails file.1)).map Sigma.fst := by
    rw [listed,List.map_map]
    rfl
  rw [names]
  exact List.filter_sublist.map _

theorem chosen_nodup : ((chosen clocks sorter maxAgeSeconds maxEntries (listed io clocks folder)).map Entry.name).Nodup := by
  obtain ⟨same,perm,sublist⟩ :=
    @chosen_subperm clocks maxAgeSeconds maxEntries sorter (listed io clocks folder)
  exact (perm.map Entry.name).nodup_iff.mp (((sublist.map Entry.name).trans listed_names).nodup folder.keys_nodup)

theorem listed_entry (member : e ∈ listed io clocks folder) : isEntry e.name = true ∧ e.name ∈ folder := by
  refine ⟨?_,listed_names.subset (List.mem_map_of_mem member)⟩
  obtain ⟨file,picked,rfl⟩ := List.mem_map.mp member
  have both := (List.mem_filter.mp picked).2
  simp only [Bool.and_eq_true] at both
  exact both.1

-- An .exr name is touched by prune only as an entry of its own.
theorem mem_bothNames {doomed : List Entry} (named : ∀ e ∈ doomed, isEntry e.name = true)
    (entry : isEntry name = true) : name ∈ doomed.flatMap bothNames ↔ name ∈ doomed.map Entry.name := by
  rw [List.mem_flatMap,List.mem_map]
  apply exists_congr
  intro e
  apply and_congr_right
  intro member
  obtain ⟨key,hex,is⟩ := isEntry_iff.mp (named e member)
  have apart : name ≠ sidecar e.name := by
    rintro rfl
    rw [is,sidecar_entryName hex,sideName_other hex] at entry
    cases entry
  simp [bothNames,apart,eq_comm]

-- The call returns the number of names of this kind that are gone after it.
def Reported (p : Bytes → Bool) (before : Folder β) (run : Folder β × Except Fault Int) : Prop :=
  ∃ n, run.2 = .ok n ∧ n = (gone p before run.1).length

theorem gone_none (p : Bytes → Bool) (folder : Folder β) : gone p folder folder = [] := by
  apply List.eq_nil_iff_forall_not_mem.mpr
  intro name member
  obtain ⟨present,_,absent⟩ := mem_gone.mp member
  exact absent present

theorem gone_cleared : (gone isCacheFile folder (eraseEach io.removeFails (cleared io folder) folder)).length =
    (cleared io folder).length := by
  apply same_length (gone_nodup _) (folder.keys_nodup.filter _)
  intro name
  rw [mem_gone,mem_eraseEach,cleared,List.mem_filter,clears,AList.mem_keys]
  cases isCacheFile name <;> cases io.removeFails name <;> simp

theorem clear_reported_iff : Reported isCacheFile folder (clear io folder) ↔ io.openFails = true ∨
    ((∀ i < folder.keys.length, io.advance i = none) ∧ ((cleared io folder).length : Int) ≤ intMax) := by
  cases opens : io.openFails with
  | true => simp [Reported,clear,opens,gone_none]
  | false =>
    rw [Reported,clear_outcome opens (fun after n => n = (gone isCacheFile folder after).length),gone_cleared]
    simp

theorem gone_chosen {doomed : List Entry} (named : ∀ e ∈ doomed, isEntry e.name = true ∧ e.name ∈ folder)
    (distinct : (doomed.map Entry.name).Nodup) :
    (gone isEntry folder (eraseEach io.removeFails (doomed.flatMap bothNames) folder)).length =
      (doomed.filter (fun e => !io.removeFails e.name)).length := by
  have names : (gone isEntry folder (eraseEach io.removeFails (doomed.flatMap bothNames) folder)).length =
      ((doomed.filter (fun e => !io.removeFails e.name)).map Entry.name).length := by
    apply same_length (gone_nodup _) ((List.filter_sublist.map Entry.name).nodup distinct)
    intro name
    rw [mem_gone,mem_eraseEach]
    constructor
    · rintro ⟨present,entry,removed⟩
      have both : name ∈ doomed.flatMap bothNames ∧ io.removeFails name = false := by
        by_contra kept
        exact removed ⟨present,kept⟩
      obtain ⟨e,member,rfl⟩ := List.mem_map.mp ((mem_bothNames (fun e member => (named e member).1) entry).mp both.1)
      exact List.mem_map_of_mem (List.mem_filter.mpr ⟨member,by simp [both.2]⟩)
    · intro member
      obtain ⟨e,picked,rfl⟩ := List.mem_map.mp member
      obtain ⟨member,removes⟩ := List.mem_filter.mp picked
      obtain ⟨entry,present⟩ := named e member
      refine ⟨present,entry,fun kept => kept.2 ⟨?_,by simpa using removes⟩⟩
      exact (mem_bothNames (fun e member => (named e member).1) entry).mpr (List.mem_map_of_mem member)
  rw [names,List.length_map]

theorem prune_reported_iff : Reported isEntry folder (prune io clocks sorter maxAgeSeconds maxEntries folder) ↔
    io.openFails = true ∨ ((∀ i < folder.keys.length, io.advance i = none) ∧
      ((chosen clocks sorter maxAgeSeconds maxEntries (listed io clocks folder)).length : Int) ≤ intMax ∧
      ∀ e ∈ chosen clocks sorter maxAgeSeconds maxEntries (listed io clocks folder), io.removeFails e.name = false) := by
  cases opens : io.openFails with
  | true => simp [Reported,prune,opens,gone_none]
  | false =>
    have all (doomed : List Entry) : (doomed.length : Int) = (doomed.filter (fun e => !io.removeFails e.name)).length ↔
        ∀ e ∈ doomed, io.removeFails e.name = false := by
      rw [Int.natCast_inj,eq_comm,List.length_filter_eq_length_iff]
      simp
    rw [Reported,prune_outcome opens (fun after n => n = (gone isEntry folder after).length),
      gone_chosen (fun _ member => listed_entry (chosen_subperm.subset member)) chosen_nodup,all]
    simp

-- clear() and prune() tell the number of files gone exactly if no increment of
-- the iterator fails, the number fits an int and, for prune(), every removal
-- of an entry it sets out to drop succeeds.
theorem maintenance_reported_iff {β : Type} (io : Io) (clocks : Clocks) (sorter : Sorter Entry Entry.mtime)
    (maxAgeSeconds : Int64) (maxEntries : Int32) (folder : Folder β) :
    (Reported isCacheFile folder (clear io folder) ↔ io.openFails = true ∨
      ((∀ i < folder.keys.length, io.advance i = none) ∧
        ((folder.keys.filter (fun name => isCacheFile name && !io.removeFails name)).length : Int) ≤ intMax)) ∧
    (Reported isEntry folder (prune io clocks sorter maxAgeSeconds maxEntries folder) ↔ io.openFails = true ∨
      ((∀ i < folder.keys.length, io.advance i = none) ∧
        ((chosen clocks sorter maxAgeSeconds maxEntries (listed io clocks folder)).length : Int) ≤ intMax ∧
        ∀ e ∈ chosen clocks sorter maxAgeSeconds maxEntries (listed io clocks folder), io.removeFails e.name = false)) :=
  ⟨clear_reported_iff,prune_reported_iff⟩

def oneEntry : Folder Unit := AList.singleton (entryName (List.replicate 64 48)) ⟨0,()⟩

-- No file can be removed, as when a viewer holds it open.
def lockedFiles : Io := ⟨false,fun _ => none,fun _ => false,fun _ => true⟩

def tenSeconds : Clocks := ⟨fun _ => 0,fun _ => 0,10,1⟩

-- The entry is too old, its removal fails, and prune() returns 1.
theorem maintenance_misreported : ¬ ∀ (io : Io) (clocks : Clocks) (sorter : Sorter Entry Entry.mtime)
    (maxAgeSeconds : Int64) (maxEntries : Int32) (folder : Folder Unit), Reported isCacheFile folder (clear io folder) ∧
      Reported isEntry folder (prune io clocks sorter maxAgeSeconds maxEntries folder) := by
  intro claim
  have told := (claim lockedFiles tenSeconds (insertionSorter Entry.mtime) 1 0 oneEntry).2
  rcases prune_reported_iff.mp told with unopened | ⟨_,_,removes⟩
  · cases unopened
  · exact absurd (removes ⟨entryName (List.replicate 64 48),0⟩ (by decide)) (by decide)

end

end SmartFill.AiCache
