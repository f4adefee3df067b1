import SmartFill.AiCachePrune

namespace SmartFill.AiCache
open Sweep

-- What lies where the cache directory should be.
inductive Place (β : Type) where
  | missing
  | blocked
  | folder (files : Folder β)

namespace Place
variable {β : Type}

def lookup : Place β → Bytes → Option (StoredFile β)
  | .folder files,name => files.lookup name
  | _,_ => none

def entryCount : Place β → Int
  | .folder files => AiCache.entryCount files
  | _ => 0

end Place

structure DirIo where
  createFails : Bool
  statFails : Bool

-- create_directories leaves a directory as it is.
def ensureDir {β : Type} (io : DirIo) : Place β → Place β × Bool
  | .missing => if io.createFails then (.missing,false) else (.folder ∅,!io.statFails)
  | .blocked => (.blocked,false)
  | .folder files => (.folder files,!io.createFails && !io.statFails)

-- The stream is buffered: good is its state when asked, settled the length
-- the file has once the stream is closed.
structure SidecarIo extends DirIo where
  openFails : Bool
  good : Bool
  settled : Nat
  time : Int

structure CachedResult where
  exrPath : Path
  width : Int32
  height : Int32
  hit : Bool

section Calls
variable {β : Type}

def has (statFails : Bool) (place : Place β) (key : Bytes) : Bool :=
  if !isHexKey key then false else (place.lookup (entryName key)).isSome && !statFails

def lookup (cache : AiCache) (statFails : Bool) (place : Place β) (key : Bytes) : CachedResult :=
  if !has statFails place key then ⟨[],0,0,false⟩ else ⟨exrPathFor cache key,0,0,true⟩

def writeSidecar (io : SidecarIo) (key blob : Bytes) (place : Place Bytes) : Place Bytes × Bool :=
  if !isHexKey key then (place,false) else
  match ensureDir io.toDirIo place with
  | (.folder files,true) =>
    if io.openFails then (.folder files,false) else
    (.folder (files.insert (sideName key) ⟨io.time,blob.take io.settled⟩),io.good)
  | (place,_) => (place,false)

-- A directory that cannot be opened holds nothing to remove.
def maintained (call : Folder β → Folder β × Except Fault Int) : Place β → Place β × Except Fault Int
  | .folder files => (.folder (call files).1,(call files).2)
  | place => (place,.ok 0)

end Calls

-- What is done to one directory, by any number of caches on it and by others.
inductive Call where
  | construct (io : DirIo)
  | writeSidecar (io : SidecarIo) (key blob : Bytes)
  | clear (io : Io)
  | prune (io : Io) (clocks : Clocks) (sorter : Sorter Entry Entry.mtime) (maxAgeSeconds : Int64) (maxEntries : Int32)
  | other (later : Place Bytes)

def act (place : Place Bytes) : Call → Place Bytes
  | .construct io => (ensureDir io place).1
  | .writeSidecar io key blob => (writeSidecar io key blob place).1
  | .clear io => (maintained (clear io) place).1
  | .prune io clocks sorter maxAgeSeconds maxEntries =>
    (maintained (prune io clocks sorter maxAgeSeconds maxEntries) place).1
  | .other later => later

def acts (place : Place Bytes) (calls : List Call) : Place Bytes := calls.foldl act place

section Thinning
variable {β : Type} {io : Io} {clocks : Clocks} {sorter : Sorter Entry Entry.mtime} {maxAgeSeconds : Int64}
  {maxEntries : Int32} {before between after : Folder β} {name key : Bytes} {entries : List Entry}

-- Files of the cache may go; every other file stays as it is.
def Thins (before after : Folder β) : Prop :=
  ∀ name, after.lookup name = before.lookup name ∨ isCacheFile name = true ∧ after.lookup name = none

theorem thins_refl (folder : Folder β) : Thins folder folder := fun _ => .inl rfl

theorem thins_trans (first : Thins before between) (second : Thins between after) : Thins before after := by
  intro name
  rcases second name with same | gone
  · simpa only [same] using first name
  · exact .inr gone

theorem thins_remove (cached : isCacheFile name = true) : Thins before (remove io name before) := by
  intro other
  unfold remove
  split
  · exact .inl rfl
  · by_cases same : other = name
    · subst other
      exact .inr ⟨cached,AList.lookup_erase _ _⟩
    · exact .inl (AList.lookup_erase_ne same)

-- A call's outcome has the directory its last round left.
theorem returned_folder (run : (Folder β × Int) × Option Fault) : (returned run).1 = run.1.1 := by
  obtain ⟨⟨folder,removed⟩,fault⟩ := run
  cases fault <;> rfl

theorem clear_thins (folder : Folder β) : Thins folder (clear io folder).1 := by
  unfold clear
  split
  · exact thins_refl folder
  · rw [returned_folder]
    apply sweep_keeps (fun s : Folder β × Int => Thins folder s.1)
    · intro name _ ⟨folder,removed⟩ thinned
      simp only [clearEntry]
      split
      · exact thinned
      · rename_i cached
        split
        · exact thinned
        · exact thins_trans thinned (thins_remove (by simpa using cached))
    · exact thins_refl folder

theorem entryName_cached (hex : isHexKey key = true) : isCacheFile (entryName key) = true := by
  simp [isCacheFile,stemAndExtension_entryName hex,hex]

theorem sideName_cached (hex : isHexKey key = true) : isCacheFile (sideName key) = true := by
  simp [isCacheFile,stemAndExtension_sideName hex,hex]

theorem removeBoth_thins {e : Entry} (entry : isEntry e.name = true) : Thins before (removeBoth io e before) := by
  obtain ⟨key,hex,named⟩ := isEntry_iff.mp entry
  rw [removeBoth,named,sidecar_entryName hex]
  exact thins_trans (thins_remove (entryName_cached hex)) (thins_remove (sideName_cached hex))

-- The entries that stay listed are entries of the directory all along.
theorem agePass_thins (named : ∀ e ∈ entries, isEntry e.name = true) :
    (∀ e ∈ (agePass io clocks maxAgeSeconds entries before).1.1.1, isEntry e.name = true) ∧
    Thins before (agePass io clocks maxAgeSeconds entries before).1.1.2 := by
  unfold agePass
  split
  · apply sweep_keeps (fun s : (List Entry × Folder β) × Int =>
      (∀ e ∈ s.1.1, isEntry e.name = true) ∧ Thins before s.1.2)
    · intro e member ⟨⟨kept,folder⟩,removed⟩ thinned
      simp only [ageEntry]
      split
      · exact ⟨thinned.1,thins_trans thinned.2 (removeBoth_thins (named e member))⟩
      · refine ⟨fun k inList => ?_,thinned.2⟩
        rcases List.mem_append.mp inList with old | new
        · exact thinned.1 k old
        · rw [List.mem_singleton.mp new]
          exact named e member
    · exact ⟨by simp,thins_refl before⟩
  · exact ⟨named,thins_refl before⟩

theorem capPass_thins (named : ∀ e ∈ entries, isEntry e.name = true) (removed : Int) :
    Thins before (capPass io sorter maxEntries entries before removed).1.1 := by
  unfold capPass
  split
  · apply sweep_keeps (fun s : Folder β × Int => Thins before s.1)
    · intro e member s thinned
      have entry := named e ((sorter.perm entries).subset (List.mem_of_mem_drop member))
      exact thins_trans thinned (removeBoth_thins entry)
    · exact thins_refl before
  · exact thins_refl before

theorem pruneListed_thins (named : ∀ e ∈ entries, isEntry e.name = true) :
    Thins before (pruneListed io clocks sorter maxAgeSeconds maxEntries entries before).1 := by
  have aged := @agePass_thins β io clocks maxAgeSeconds before entries named
  unfold pruneListed
  split
  · rename_i ended
    rw [ended] at aged
    exact aged.2
  · rename_i ended
    rw [ended] at aged
    rw [returned_folder]
    exact thins_trans aged.2 (capPass_thins aged.1 _)

theorem prune_thins (folder : Folder β) : Thins folder (prune io clocks sorter maxAgeSeconds maxEntries folder).1 := by
  have listing : ∀ e ∈ (sweep io.step (plain (fun entries file => listEntry io clocks file entries)) 0
      folder.entries []).1, isEntry e.name = true := by
    apply sweep_keeps (fun entries : List Entry => ∀ e ∈ entries, isEntry e.name = true)
    · intro file _ entries named e member
      simp only [plain,listEntry] at member
      split at member
      · exact named e member
      · rename_i entry
        split at member
        · exact named e member
        · rcases List.mem_append.mp member with old | new
          · exact named e old
          · rw [List.mem_singleton.mp new]
            simpa [stamped] using entry
    · intro e member
      cases member
  unfold prune
  split
  · exact thins_refl folder
  · split
    · exact thins_refl folder
    · rename_i ended
      rw [ended] at listing
      exact pruneListed_thins listing

end Thinning

section Runs
variable {place : Place Bytes} {calls : List Call} {call : Call} {name key : Bytes} {file : StoredFile Bytes}

theorem ensureDir_lookup (io : DirIo) (place : Place Bytes) (name : Bytes) :
    (ensureDir io place).1.lookup name = place.lookup name := by
  cases place with
  | missing =>
    simp only [ensureDir]
    split <;> rfl
  | blocked => rfl
  | folder files => rfl

theorem maintained_lookup {call : Folder Bytes → Folder Bytes × Except Fault Int}
    (thins : ∀ folder, Thins folder (call folder).1) (place : Place Bytes) (name : Bytes) :
    (maintained call place).1.lookup name = place.lookup name ∨
      isCacheFile name = true ∧ (maintained call place).1.lookup name = none := by
  cases place with
  | missing => exact .inl rfl
  | blocked => exact .inl rfl
  | folder files => exact thins files name

theorem writeSidecar_lookup (io : SidecarIo) (key blob : Bytes) (place : Place Bytes) (name : Bytes) :
    (writeSidecar io key blob place).1.lookup name = place.lookup name ∨
      isHexKey key = true ∧ name = sideName key ∧
        (writeSidecar io key blob place).1.lookup name = some ⟨io.time,blob.take io.settled⟩ := by
  have ensured := ensureDir_lookup io.toDirIo place name
  unfold writeSidecar
  split
  · exact .inl rfl
  · rename_i hex
    split
    · rename_i made
      rw [made] at ensured
      split
      · exact .inl ensured
      · by_cases same : name = sideName key
        · subst same
          exact .inr ⟨by simpa using hex,rfl,AList.lookup_insert _⟩
        · exact .inl ((AList.lookup_insert_ne same).trans ensured)
    · rename_i made
      rw [made] at ensured
      exact .inl ensured

-- What a call can do to the file of one name.
theorem act_cases (place : Place Bytes) (call : Call) (name : Bytes) :
    (act place call).lookup name = place.lookup name ∨
    (isCacheFile name = true ∧ (act place call).lookup name = none) ∨
    (∃ io key blob, call = .writeSidecar io key blob ∧ isHexKey key = true ∧ name = sideName key ∧
      (act place call).lookup name = some ⟨io.time,blob.take io.settled⟩) ∨
    ∃ later, call = .other later ∧ act place call = later := by
  cases call with
  | construct io => exact .inl (ensureDir_lookup io place name)
  | writeSidecar io key blob =>
    rcases writeSidecar_lookup io key blob place name with same | written
    · exact .inl same
    · exact .inr (.inr (.inl ⟨io,key,blob,rfl,written⟩))
  | clear io =>
    rcases maintained_lookup (fun folder => clear_thins folder) place name with same | gone
    · exact .inl same
    · exact .inr (.inl gone)
  | prune io clocks sorter maxAgeSeconds maxEntries =>
    rcases maintained_lookup (fun folder => prune_thins folder) place name with same | gone
    · exact .inl same
    · exact .inr (.inl gone)
  | other later => exact .inr (.inr (.inr ⟨later,rfl,rfl⟩))

-- A file that is there was there, or some other program put it, or it is the
-- beginning of a text written for its key.
theorem store_sources (calls : List Call) (place : Place Bytes) (found : (acts place calls).lookup name = some file) :
    place.lookup name = some file ∨ (∃ later, Call.other later ∈ calls ∧ later.lookup name = some file) ∨
    ∃ io key blob, Call.writeSidecar io key blob ∈ calls ∧ isHexKey key = true ∧ name = sideName key ∧
      file = ⟨io.time,blob.take io.settled⟩ := by
  induction calls generalizing place with
  | nil => exact .inl found
  | cons call rest ih =>
    rcases ih (act place call) found with now | ⟨later,member,there⟩ | ⟨io,key,blob,member,written⟩
    · rcases act_cases place call name with same | ⟨_,gone⟩ | ⟨io,key,blob,rfl,hex,named,written⟩ | ⟨later,rfl,is⟩
      · exact .inl (same.symm.trans now)
      · rw [gone] at now
        cases now
      · rw [written] at now
        cases now
        exact .inr (.inr ⟨io,key,blob,List.mem_cons_self,hex,named,rfl⟩)
      · rw [is] at now
        exact .inr (.inl ⟨later,List.mem_cons_self,now⟩)
    · exact .inr (.inl ⟨later,List.mem_cons_of_mem _ member,there⟩)
    · exact .inr (.inr ⟨io,key,blob,List.mem_cons_of_mem _ member,written⟩)

-- A sidecar whose bytes did not all get out, read after its key was cleared
-- and written anew.
theorem store_sources_torn : ∃ (calls : List Call) (file : StoredFile Bytes),
    (Place.missing.lookup (sideName (List.replicate 64 48)) = some file ∨
      (∃ later, Call.other later ∈ calls ∧ later.lookup (sideName (List.replicate 64 48)) = some file) ∨
      ∃ io key blob, Call.writeSidecar io key blob ∈ calls ∧ isHexKey key = true ∧
        sideName (List.replicate 64 48) = sideName key ∧ file = ⟨io.time,blob.take io.settled⟩) ∧
    file.data = ascii "\x7b" := by
  refine ⟨[.writeSidecar ⟨⟨false,false⟩,false,true,2,0⟩ (List.replicate 64 48) (ascii "\x7b\x7d"),.clear .working,
    .writeSidecar ⟨⟨false,false⟩,false,true,1,3⟩ (List.replicate 64 48) (ascii "\x7b\x7d")],⟨3,ascii "\x7b"⟩,?_,rfl⟩
  exact store_sources _ _ rfl

theorem own_cons (own : ∀ later, Call.other later ∉ call :: calls) :
    (∀ later, call ≠ .other later) ∧ ∀ later, Call.other later ∉ calls :=
  ⟨fun later same => own later (same ▸ List.mem_cons_self),fun later member => own later (List.mem_cons_of_mem _ member)⟩

theorem act_kept (own : ∀ later, call ≠ .other later) (stray : isCacheFile name = false) :
    (act place call).lookup name = place.lookup name := by
  rcases act_cases place call name with same | ⟨cached,_⟩ | ⟨_,key,_,_,hex,named,_⟩ | ⟨later,is,_⟩
  · exact same
  · rw [stray] at cached
    cases cached
  · rw [named,sideName_cached hex] at stray
    cases stray
  · exact absurd is (own later)

theorem act_entry (own : ∀ later, call ≠ .other later) (hex : isHexKey key = true) :
    (act place call).lookup (entryName key) = place.lookup (entryName key) ∨
      (act place call).lookup (entryName key) = none := by
  rcases act_cases place call (entryName key) with same | ⟨_,gone⟩ | ⟨_,other,_,_,hex',named,_⟩ | ⟨later,is,_⟩
  · exact .inl same
  · exact .inr gone
  · have entry : isEntry (sideName other) = true := named ▸ isEntry_iff.mpr ⟨key,hex,rfl⟩
    rw [sideName_other hex'] at entry
    cases entry
  · exact absurd is (own later)

theorem acts_kept (own : ∀ later, Call.other later ∉ calls) (place : Place Bytes) (stray : isCacheFile name = false) :
    (acts place calls).lookup name = place.lookup name := by
  induction calls generalizing place with
  | nil => rfl
  | cons call rest ih =>
    obtain ⟨first,others⟩ := own_cons own
    exact (ih others _).trans (act_kept first stray)

theorem acts_entry (own : ∀ later, Call.other later ∉ calls) (place : Place Bytes) (hex : isHexKey key = true) :
    (acts place calls).lookup (entryName key) = place.lookup (entryName key) ∨
      (acts place calls).lookup (entryName key) = none := by
  induction calls generalizing place with
  | nil => exact .inl rfl
  | cons call rest ih =>
    obtain ⟨first,others⟩ := own_cons own
    rcases ih others (act place call) with same | gone
    · have either := @act_entry place _ _ first hex
      rcases either with same' | gone
      · exact .inl (same.trans same')
      · exact .inr (same.trans gone)
    · exact .inr gone

theorem acts_folder (own : ∀ later, Call.other later ∉ calls) (folder : Folder Bytes) :
    ∃ after, acts (.folder folder) calls = .folder after := by
  induction calls generalizing folder with
  | nil => exact ⟨folder,rfl⟩
  | cons call rest ih =>
    obtain ⟨first,others⟩ := own_cons own
    have stays : ∃ after, act (.folder folder) call = .folder after := by
      cases call with
      | construct io => exact ⟨folder,rfl⟩
      | writeSidecar io key blob =>
        simp only [act,writeSidecar,ensureDir]
        split
        · exact ⟨folder,rfl⟩
        · split
          · split <;> exact ⟨_,rfl⟩
          · rename_i same
            cases same
            exact ⟨folder,rfl⟩
      | clear io => exact ⟨_,rfl⟩
      | prune io clocks sorter maxAgeSeconds maxEntries => exact ⟨_,rfl⟩
      | other later => exact absurd rfl (first later)
    obtain ⟨after,is⟩ := stays
    rw [acts,List.foldl_cons,is]
    exact ih others after

theorem has_entry {statFails : Bool} (hit : has statFails place key = true) :
    isHexKey key = true ∧ ∃ file, place.lookup (entryName key) = some file := by
  unfold has at hit
  split at hit
  · cases hit
  · rename_i hex
    simp only [Bool.and_eq_true] at hit
    exact ⟨by simpa using hex,Option.isSome_iff_exists.mp hit.1⟩

-- Whatever the caches on a directory do, other files stay as they are and a
-- hit is a result that was there before, unchanged.
theorem store_keeps (cache : AiCache) (calls : List Call) (place : Place Bytes)
    (own : ∀ later, Call.other later ∉ calls) :
    (∀ name, isCacheFile name = false → (acts place calls).lookup name = place.lookup name) ∧
    ∀ key statFails, (lookup cache statFails (acts place calls) key).hit = true →
      (lookup cache false place key).hit = true ∧
        (acts place calls).lookup (entryName key) = place.lookup (entryName key) := by
  refine ⟨fun name stray => acts_kept own place stray,fun key statFails hit => ?_⟩
  have present : has statFails (acts place calls) key = true := by
    by_contra missing
    rw [lookup,if_pos (by simpa using missing)] at hit
    cases hit
  obtain ⟨hex,file,found⟩ := has_entry present
  rcases acts_entry own place hex with same | gone
  · refine ⟨?_,same⟩
    have before : has false place key = true := by
      simp [has,hex,← same,found]
    rw [lookup,if_neg (by simp [before])]
  · rw [gone] at found
    cases found

-- A directory with one result and a file of another program.
def besideOne : Folder Bytes :=
  (AList.singleton (ascii "notes.txt") ⟨0,ascii "mine"⟩).insert (entryName (List.replicate 64 48)) ⟨0,[1]⟩

theorem store_keeps_one : ∃ place : Place Bytes, place.lookup (ascii "notes.txt") = some ⟨0,ascii "mine"⟩ ∧
    place.lookup (entryName (List.replicate 64 48)) = some ⟨0,[1]⟩ := by
  have kept := store_keeps (create (ascii "/c")) [.writeSidecar ⟨⟨false,false⟩,false,true,2,0⟩ (List.replicate 64 48)
    (ascii "\x7b\x7d"),.prune .working tenSeconds (insertionSorter Entry.mtime) 60 1] (.folder besideOne) (by simp)
  refine ⟨_,(kept.1 (ascii "notes.txt") (by decide)).trans rfl,(kept.2 (List.replicate 64 48) false ?_).2.trans rfl⟩
  decide

end Runs

section Lasting
variable {β : Type} {folder before after : Folder β}

theorem entryCount_parts (clocks : Clocks) (offset : Int) (maxAgeSeconds : Int64) (folder : Folder β) :
    entryCount folder = oldCount clocks offset maxAgeSeconds folder + youngCount clocks offset maxAgeSeconds folder := by
  have keys : (folder.keys.filter isEntry).length = (folder.entries.filter (fun file => isEntry file.1)).length := by
    have named : folder.keys = folder.entries.map Sigma.fst := rfl
    rw [named,List.filter_map,List.length_map]
    rfl
  have split := List.length_eq_length_filter_add (l := folder.entries.filter (fun file => isEntry file.1))
    (fun file => decide (TooOld clocks offset maxAgeSeconds file.2.modified))
  simp only [List.filter_filter] at split
  simp only [entryCount,keys,split,oldCount,youngCount,Bool.and_comm,Int.natCast_add]

theorem entryCount_le (entries : ∀ key, isHexKey key = true → after.lookup (entryName key) = before.lookup (entryName key) ∨
    after.lookup (entryName key) = none) : entryCount after ≤ entryCount before := by
  have sub : (after.keys.filter isEntry).Subperm (before.keys.filter isEntry) := by
    apply List.subperm_of_subset (after.keys_nodup.filter _)
    intro name member
    obtain ⟨present,entry⟩ := List.mem_filter.mp member
    obtain ⟨key,hex,rfl⟩ := isEntry_iff.mp entry
    refine List.mem_filter.mpr ⟨?_,entry⟩
    rw [← AList.mem_keys,← AList.lookup_isSome] at present ⊢
    rcases entries key hex with same | gone
    · rwa [← same]
    · rw [gone] at present
      cases present
  exact Int.ofNat_le.mpr sub.length_le

theorem prune_pruned {clocks : Clocks} {offset : Int} {sorter : Sorter Entry Entry.mtime} (maxAgeSeconds : Int64)
    (maxEntries : Int32) (steady : ∀ name, clocks.systemNow name - clocks.fileNow name = offset)
    (fits : entryCount folder ≤ intMax) : ∃ n, (prune .working clocks sorter maxAgeSeconds maxEntries folder).2 = .ok n ∧
      Pruned clocks offset maxAgeSeconds maxEntries folder
        (prune .working clocks sorter maxAgeSeconds maxEntries folder).1 n := by
  have parts := entryCount_parts clocks offset maxAgeSeconds folder
  have young : 0 < maxEntries → (youngCount clocks offset maxAgeSeconds folder : Int) ≤ intMax := by
    intro _
    omega
  rw [prune_outcome rfl (Pruned clocks offset maxAgeSeconds maxEntries folder)]
  refine ⟨fun _ _ => rfl,?_,chosen_pruned steady young⟩
  rw [chosen_length steady young,dropCount]
  split <;> omega

section Loose
variable {clocks : Clocks} {offset : Int} {maxAgeSeconds : Int64} {maxEntries : Int32} {n : Int} {key : Bytes}
  (pruned : Pruned clocks offset maxAgeSeconds maxEntries before after n)
include pruned

theorem pruned_entry (hex : isHexKey key = true) (present : entryName key ∈ after) :
    after.lookup (entryName key) = before.lookup (entryName key) := by
  apply pruned.untouched
  intro other dropped
  constructor
  · intro same
    exact dropped.2.2 (same ▸ present)
  · intro same
    have entry : isEntry (sideName other) = true := same ▸ isEntry_iff.mpr ⟨key,hex,rfl⟩
    rw [sideName_other dropped.1] at entry
    cases entry

theorem dropped_fewer (dropped : Dropped before after key) : entryCount after < entryCount before := by
  have sub : (entryName key :: after.keys.filter isEntry).Subperm (before.keys.filter isEntry) := by
    apply List.subperm_of_subset
    · refine List.nodup_cons.mpr ⟨fun member => ?_,after.keys_nodup.filter _⟩
      exact dropped.2.2 (AList.mem_keys.mp (List.mem_filter.mp member).1)
    · intro name member
      rcases List.mem_cons.mp member with rfl | member
      · exact List.mem_filter.mpr ⟨dropped.2.1,isEntry_iff.mpr ⟨key,dropped.1,rfl⟩⟩
      · obtain ⟨present,entry⟩ := List.mem_filter.mp member
        obtain ⟨other,hex,rfl⟩ := isEntry_iff.mp entry
        refine List.mem_filter.mpr ⟨?_,entry⟩
        have same := pruned_entry pruned hex present
        rw [← AList.mem_keys,← AList.lookup_isSome] at present ⊢
        rwa [← same]
  exact Int.ofNat_lt.mpr sub.length_le

-- A cap that does not bind: only age is left as a reason to drop.
theorem pruned_loose (loose : 0 < maxEntries → entryCount before ≤ maxEntries.toInt) : Dropped before after key ↔
    isHexKey key = true ∧ ∃ file, before.lookup (entryName key) = some file ∧
      TooOld clocks offset maxAgeSeconds file.modified := by
  constructor
  · intro dropped
    obtain ⟨file,found⟩ := Option.isSome_iff_exists.mp (AList.lookup_isSome.mpr dropped.2.1)
    refine ⟨dropped.1,file,found,?_⟩
    by_contra young
    obtain ⟨limit,full,_⟩ := pruned.limited key file dropped found young
    have fewer := dropped_fewer pruned dropped
    have room := loose limit
    omega
  · rintro ⟨hex,file,found,old⟩
    refine ⟨hex,AList.lookup_isSome.mp (by rw [found]; rfl),fun present => ?_⟩
    exact pruned.aged key file hex ((pruned_entry pruned hex present).trans found) old

end Loose

end Lasting

-- After a prune under a cap the directory stays under it whatever the caches on
-- it do later, so the next prune drops the results that are too old by then
-- and no others.
theorem prune_lasting {clocks later : Clocks} {offset offset' : Int} (sorter sorter' : Sorter Entry Entry.mtime)
    (maxAgeSeconds maxAgeSeconds' : Int64) {maxEntries maxEntries' : Int32} {folder : Folder Bytes} {calls : List Call}
    (steady : ∀ name, clocks.systemNow name - clocks.fileNow name = offset)
    (steady' : ∀ name, later.systemNow name - later.fileNow name = offset')
    (fits : entryCount folder ≤ intMax) (limit : 0 < maxEntries) (larger : maxEntries ≤ maxEntries')
    (own : ∀ later, Call.other later ∉ calls) :
    ∃ middle after, acts (.folder folder) (.prune .working clocks sorter maxAgeSeconds maxEntries :: calls) = .folder middle ∧
      act (.folder middle) (.prune .working later sorter' maxAgeSeconds' maxEntries') = .folder after ∧
      entryCount middle ≤ maxEntries.toInt ∧ ∀ key, Dropped middle after key ↔ isHexKey key = true ∧
        ∃ file, middle.lookup (entryName key) = some file ∧ TooOld later offset' maxAgeSeconds' file.modified := by
  obtain ⟨n,_,pruned⟩ := @prune_pruned _ folder clocks offset sorter maxAgeSeconds maxEntries steady fits
  obtain ⟨middle,is⟩ := acts_folder own (prune .working clocks sorter maxAgeSeconds maxEntries folder).1
  have fewer : entryCount middle ≤ entryCount (prune .working clocks sorter maxAgeSeconds maxEntries folder).1 := by
    apply entryCount_le
    intro key hex
    have kept := acts_entry own (.folder (prune .working clocks sorter maxAgeSeconds maxEntries folder).1) hex
    rwa [is] at kept
  have capped := pruned.capped limit
  have cap : entryCount middle ≤ maxEntries.toInt := fewer.trans capped
  have top := maxEntries.toInt_lt
  have second : entryCount middle ≤ intMax := by
    simp only [intMax]
    omega
  obtain ⟨n',_,pruned'⟩ := @prune_pruned _ middle later offset' sorter' maxAgeSeconds' maxEntries' steady' second
  refine ⟨middle,_,is,rfl,cap,fun key => pruned_loose pruned' (fun _ => cap.trans ?_)⟩
  exact Int32.le_iff_toInt_le.mp larger

def threeBeside : Folder Bytes :=
  (besideOne.insert (entryName (List.replicate 64 49)) ⟨8,[2]⟩).insert (entryName (List.replicate 64 50)) ⟨9,[3]⟩

-- The cap drops the oldest of three results, and of the two it keeps one is too
-- old for the next prune.
theorem prune_lasting_three : ∃ middle after : Folder Bytes, Dropped threeBeside middle (List.replicate 64 48) ∧
    act (.folder middle) (.prune .working tenSeconds (insertionSorter Entry.mtime) 1 2) = .folder after ∧
      Dropped middle after (List.replicate 64 49) := by
  obtain ⟨middle,after,first,second,_,drops⟩ := @prune_lasting tenSeconds tenSeconds 0 0 (insertionSorter Entry.mtime)
    (insertionSorter Entry.mtime) 0 1 2 2 threeBeside [.construct ⟨false,false⟩] (fun _ => rfl) (fun _ => rfl)
    (by decide +kernel) (by decide) (by decide) (by simp)
  have kept (name : Bytes) := congrArg (fun place => place.lookup name) first
  refine ⟨middle,after,⟨by decide,by decide,AList.lookup_eq_none.mp ?_⟩,second,
    (drops _).mpr ⟨by decide,⟨8,[2]⟩,(kept (entryName (List.replicate 64 49))).symm.trans ?_,by decide⟩⟩
  · refine (kept (entryName (List.replicate 64 48))).symm.trans ?_
    decide +kernel
  · rfl

end SmartFill.AiCache
