import SmartFill.AiCacheFaults

namespace SmartFill

-- Every step of the file system succeeds.
def Io.working : Io := ⟨false,fun _ => none,fun _ => false,fun _ => false⟩

namespace AiCache
open Sweep

-- The age, in whole seconds, of a file with this time when the two clocks are
-- offset apart.
def TooOld (clocks : Clocks) (offset : Int) (maxAgeSeconds : Int64) (modified : Int) : Prop :=
  0 < maxAgeSeconds ∧ maxAgeSeconds.toInt < (clocks.now - (modified + offset)).tdiv clocks.perSecond

instance (clocks : Clocks) (offset : Int) (maxAgeSeconds : Int64) :
    DecidablePred (TooOld clocks offset maxAgeSeconds) :=
  fun modified => inferInstanceAs (Decidable (0 < maxAgeSeconds ∧
    maxAgeSeconds.toInt < (clocks.now - (modified + offset)).tdiv clocks.perSecond))

section Selection
variable {β : Type} (clocks : Clocks) (offset : Int) (maxAgeSeconds : Int64) (maxEntries : Int32)

def entryCount (folder : Folder β) : Int := (folder.keys.filter isEntry).length

def Dropped (before after : Folder β) (key : Bytes) : Prop :=
  isHexKey key = true ∧ entryName key ∈ before ∧ entryName key ∉ after

-- What a call that returns a count leaves of a directory.
structure Pruned (before after : Folder β) (returned : Int) : Prop where
  aged : ∀ key file, isHexKey key = true → after.lookup (entryName key) = some file →
    ¬ TooOld clocks offset maxAgeSeconds file.modified
  capped : 0 < maxEntries → entryCount after ≤ maxEntries.toInt
  limited : ∀ key file, Dropped before after key → before.lookup (entryName key) = some file →
    ¬ TooOld clocks offset maxAgeSeconds file.modified →
    0 < maxEntries ∧ entryCount after = maxEntries.toInt ∧
      ∀ key' kept, isHexKey key' = true → after.lookup (entryName key') = some kept → file.modified ≤ kept.modified
  sidecars : ∀ key, Dropped before after key → sideName key ∉ after
  untouched : ∀ name, (∀ key, Dropped before after key → name ≠ entryName key ∧ name ≠ sideName key) →
    after.lookup name = before.lookup name
  keptSidecars : ∀ key, isHexKey key = true → ¬ Dropped before after key →
    after.lookup (sideName key) = before.lookup (sideName key)
  counted : returned = (gone isEntry before after).length

def oldCount (folder : Folder β) : Nat :=
  (folder.entries.filter (fun file => isEntry file.1 && decide (TooOld clocks offset maxAgeSeconds file.2.modified))).length

def youngCount (folder : Folder β) : Nat :=
  (folder.entries.filter (fun file => isEntry file.1 && !decide (TooOld clocks offset maxAgeSeconds file.2.modified))).length

-- The number of entries there is a reason to drop.
def dropCount (folder : Folder β) : Nat :=
  oldCount clocks offset maxAgeSeconds folder +
    if 0 < maxEntries then youngCount clocks offset maxAgeSeconds folder - maxEntries.toInt.toNat else 0

end Selection

section Split
variable {β : Type} {clocks : Clocks} {offset : Int} {folder : Folder β} {maxAgeSeconds : Int64} {maxEntries : Int32}
  {sorter : Sorter Entry Entry.mtime} {entries doomed kept : List Entry} {e : Entry} {name key : Bytes} {file : StoredFile β}

def withinLimit (sorter : Sorter Entry Entry.mtime) (maxEntries : Int32) (entries : List Entry) : List Entry :=
  if 0 < maxEntries ∧ maxEntries < Int32.ofNat entries.length then (sorter.sort entries).take maxEntries.toInt.toNat
  else entries

theorem limit_split : (overLimit sorter maxEntries entries ++ withinLimit sorter maxEntries entries).Perm entries := by
  unfold overLimit withinLimit
  split
  · refine List.perm_append_comm.trans ?_
    rw [List.take_append_drop]
    exact sorter.perm entries
  · exact List.Perm.refl _

theorem chosen_split : (chosen clocks sorter maxAgeSeconds maxEntries entries ++
    withinLimit sorter maxEntries (entries.filter (fun e => !expired clocks maxAgeSeconds e))).Perm entries := by
  rw [chosen,List.append_assoc]
  exact (List.Perm.append_left _ limit_split).trans (List.filter_append_perm _ _)

theorem mem_listed (steady : ∀ name, clocks.systemNow name - clocks.fileNow name = offset) :
    e ∈ listed .working clocks folder ↔
      isEntry e.name = true ∧ ∃ file, folder.lookup e.name = some file ∧ e.mtime = file.modified + offset := by
  have moved (name : Bytes) (modified : Int) :
      modified - clocks.fileNow name + clocks.systemNow name = modified + offset := by
    rw [← steady name]
    omega
  simp only [listed,List.mem_map,List.mem_filter,stamped,moved,Io.working,Bool.not_false,Bool.and_true]
  constructor
  · rintro ⟨⟨name,file⟩,⟨member,entry⟩,rfl⟩
    exact ⟨entry,file,AList.mem_lookup_iff.mpr member,rfl⟩
  · rintro ⟨entry,file,found,time⟩
    refine ⟨⟨e.name,file⟩,⟨AList.mem_lookup_iff.mp found,entry⟩,?_⟩
    rw [← time]

theorem expired_iff {modified : Int} (time : e.mtime = modified + offset) :
    expired clocks maxAgeSeconds e = false ↔ ¬ TooOld clocks offset maxAgeSeconds modified := by
  rw [expired,age,time,← Bool.decide_and,decide_eq_false_iff_not,TooOld]

section Left
variable (steady : ∀ name, clocks.systemNow name - clocks.fileNow name = offset)
  (split : (doomed ++ kept).Perm (listed .working clocks folder))

def left (doomed : List Entry) (folder : Folder β) : Folder β :=
  eraseEach Io.working.removeFails (doomed.flatMap bothNames) folder

include split

theorem split_names : (doomed.map Entry.name ++ kept.map Entry.name).Nodup := by
  rw [← List.map_append]
  exact (split.map Entry.name).nodup_iff.mpr (listed_names.nodup folder.keys_nodup)

theorem mem_split : e ∈ listed .working clocks folder ↔ e ∈ doomed ∨ e ∈ kept := by
  rw [← split.mem_iff,List.mem_append]

theorem doomed_named : ∀ e ∈ doomed, isEntry e.name = true ∧ e.name ∈ folder := by
  intro e member
  exact listed_entry ((mem_split split).mpr (.inl member))

theorem lookup_left (entry : isEntry name = true) : (left doomed folder).lookup name =
    if name ∈ doomed.map Entry.name then none else folder.lookup name := by
  rw [left,lookup_eraseEach]
  simp [Io.working,mem_bothNames (fun e member => (doomed_named split e member).1) entry]

theorem dropped_left : Dropped folder (left doomed folder) key ↔
    isHexKey key = true ∧ ∃ e ∈ doomed, e.name = entryName key := by
  rw [Dropped,← List.mem_map]
  apply and_congr_right
  intro hex
  have entry : isEntry (entryName key) = true := isEntry_iff.mpr ⟨key,hex,rfl⟩
  rw [← AList.lookup_isSome,← AList.lookup_isSome,lookup_left split entry]
  constructor
  · rintro ⟨present,absent⟩
    by_contra spared
    rw [if_neg spared] at absent
    exact absent present
  · intro doom
    obtain ⟨e,member,named⟩ := List.mem_map.mp doom
    rw [if_pos doom,← named]
    exact ⟨AList.lookup_isSome.mpr (doomed_named split e member).2,by simp⟩

theorem sidecar_left (drop : Dropped folder (left doomed folder) key) : sideName key ∉ left doomed folder := by
  obtain ⟨hex,e,member,named⟩ := (dropped_left split).mp drop
  rw [left,mem_eraseEach]
  rintro ⟨_,kept⟩
  refine kept ⟨List.mem_flatMap.mpr ⟨e,member,?_⟩,rfl⟩
  rw [bothNames,named,sidecar_entryName hex]
  simp

theorem untouched_left (free : ∀ key, Dropped folder (left doomed folder) key →
    name ≠ entryName key ∧ name ≠ sideName key) : (left doomed folder).lookup name = folder.lookup name := by
  rw [left,lookup_eraseEach,if_neg]
  rintro ⟨touched,_⟩
  obtain ⟨e,member,isName⟩ := List.mem_flatMap.mp touched
  obtain ⟨key,hex,named⟩ := isEntry_iff.mp (doomed_named split e member).1
  have distinct := free key ((dropped_left split).mpr ⟨hex,e,member,named⟩)
  rw [bothNames,named,sidecar_entryName hex] at isName
  simp [distinct.1,distinct.2] at isName

theorem keptSidecar_left (hex : isHexKey key = true) (spared : ¬ Dropped folder (left doomed folder) key) :
    (left doomed folder).lookup (sideName key) = folder.lookup (sideName key) := by
  apply untouched_left split
  intro other drop
  constructor
  · intro same
    have entry := isEntry_iff.mpr ⟨other,drop.1,same⟩
    rw [sideName_other hex] at entry
    cases entry
  · intro same
    exact spared (sideName_injective same ▸ drop)

theorem counted_left : (doomed.length : Int) = (gone isEntry folder (left doomed folder)).length := by
  rw [left,gone_chosen (doomed_named split) (split_names split).of_append_left]
  simp [Io.working]

include steady

theorem kept_of_left (entry : isEntry name = true) (found : (left doomed folder).lookup name = some file) :
    ⟨name,file.modified + offset⟩ ∈ kept := by
  rw [lookup_left split entry] at found
  split at found
  · cases found
  · rename_i spared
    have listed : (⟨name,file.modified + offset⟩ : Entry) ∈ listed .working clocks folder :=
      (mem_listed steady).mpr ⟨entry,file,found,rfl⟩
    exact ((mem_split split).mp listed).resolve_left (fun member => spared (List.mem_map_of_mem member))

theorem entryCount_left : entryCount (left doomed folder) = kept.length := by
  rw [entryCount,← List.length_map Entry.name]
  apply congrArg
  apply same_length ((left doomed folder).keys_nodup.filter _) (split_names split).of_append_right
  intro name
  rw [List.mem_filter,← AList.mem_keys,← AList.lookup_isSome]
  constructor
  · rintro ⟨found,entry⟩
    obtain ⟨file,found⟩ := Option.isSome_iff_exists.mp found
    exact List.mem_map_of_mem (kept_of_left steady split entry found)
  · intro member
    obtain ⟨e,inKept,rfl⟩ := List.mem_map.mp member
    obtain ⟨entry,file,found,_⟩ := (mem_listed steady).mp ((mem_split split).mpr (.inr inKept))
    have spared : e.name ∉ doomed.map Entry.name := fun doom => List.disjoint_of_nodup_append (split_names split) doom member
    exact ⟨by rw [lookup_left split entry,if_neg spared,found]; rfl,entry⟩

-- What a selection has to satisfy for the directory to be left as promised.
theorem pruned_left (young : ∀ e ∈ kept, expired clocks maxAgeSeconds e = false)
    (capped : 0 < maxEntries → (kept.length : Int) ≤ maxEntries.toInt)
    (limited : ∀ e ∈ doomed, expired clocks maxAgeSeconds e = false →
      0 < maxEntries ∧ (kept.length : Int) = maxEntries.toInt ∧ ∀ k ∈ kept, e.mtime ≤ k.mtime) :
    Pruned clocks offset maxAgeSeconds maxEntries folder (left doomed folder) doomed.length := by
  refine ⟨?_,by rwa [entryCount_left steady split],?_,fun _ => sidecar_left split,fun _ => untouched_left split,
    fun _ => keptSidecar_left split,counted_left split⟩
  · intro key file hex found
    exact (expired_iff rfl).mp (young _ (kept_of_left steady split (isEntry_iff.mpr ⟨key,hex,rfl⟩) found))
  · intro key file drop found fresh
    obtain ⟨hex,e,member,named⟩ := (dropped_left split).mp drop
    obtain ⟨entry,same,found',time⟩ := (mem_listed steady).mp ((mem_split split).mpr (.inl member))
    rw [named,found,Option.some.injEq] at found'
    subst found'
    obtain ⟨limit,full,newest⟩ := limited e member ((expired_iff time).mpr fresh)
    refine ⟨limit,(entryCount_left steady split).trans full,?_⟩
    intro key' other hex' found'
    have later := newest _ (kept_of_left steady split (isEntry_iff.mpr ⟨key',hex',rfl⟩) found')
    rw [time] at later
    exact Int.le_of_add_le_add_right later

end Left

section Limit

theorem ofNat_small (small : (entries.length : Int) ≤ intMax) : (Int32.ofNat entries.length).toInt = entries.length := by
  apply Int32.toInt_ofNat_of_lt
  simp only [intMax] at small
  omega

-- A size that wraps to a positive int is past the int range by 2^32 at least.
theorem ofNat_over (limit : 0 < maxEntries) (above : maxEntries < Int32.ofNat entries.length) :
    maxEntries.toInt < entries.length ∧
      (intMax < entries.length → 4294967296 ≤ (entries.length : Int) - maxEntries.toInt) := by
  rw [Int32.lt_iff_toInt_lt] at limit above
  rw [Int32.toInt_ofNat',Int32.size,Int.bmod_eq_emod] at above
  rw [Int32.toInt_zero] at limit
  simp only [intMax]
  split at above <;> omega

theorem ofNat_within (within : ¬ maxEntries < Int32.ofNat entries.length) (small : (entries.length : Int) ≤ intMax) :
    (entries.length : Int) ≤ maxEntries.toInt := by
  rw [Int32.lt_iff_toInt_lt,ofNat_small small] at within
  omega

theorem sort_length : (sorter.sort entries).length = entries.length := (sorter.perm entries).length_eq

theorem withinLimit_over (limit : 0 < maxEntries) (above : maxEntries < Int32.ofNat entries.length) :
    ((withinLimit sorter maxEntries entries).length : Int) = maxEntries.toInt := by
  have below := (ofNat_over limit above).1
  rw [Int32.lt_iff_toInt_lt,Int32.toInt_zero] at limit
  rw [withinLimit,if_pos ⟨by simpa [Int32.lt_iff_toInt_lt] using limit,above⟩,List.length_take,sort_length]
  omega

theorem overLimit_length (fits : 0 < maxEntries → (entries.length : Int) ≤ intMax) :
    (overLimit sorter maxEntries entries).length =
      if 0 < maxEntries then entries.length - maxEntries.toInt.toNat else 0 := by
  unfold overLimit
  by_cases limit : 0 < maxEntries
  · rw [if_pos limit]
    split
    · rw [List.length_drop,sort_length]
    · rename_i within
      have below := ofNat_within (fun above => within ⟨limit,above⟩) (fits limit)
      rw [List.length_nil]
      omega
  · rw [if_neg limit,if_neg (fun both => limit both.1),List.length_nil]

theorem overLimit_newest (member : e ∈ overLimit sorter maxEntries entries) : 0 < maxEntries ∧
    ((withinLimit sorter maxEntries entries).length : Int) = maxEntries.toInt ∧
    ∀ k ∈ withinLimit sorter maxEntries entries, e.mtime ≤ k.mtime := by
  unfold overLimit at member
  split at member
  · rename_i both
    refine ⟨both.1,withinLimit_over both.1 both.2,?_⟩
    intro k within
    rw [withinLimit,if_pos both] at within
    exact sorter.dropped_le _ member within
  · cases member

theorem withinLimit_length (limit : 0 < maxEntries) (small : (entries.length : Int) ≤ intMax) :
    ((withinLimit sorter maxEntries entries).length : Int) ≤ maxEntries.toInt := by
  by_cases above : maxEntries < Int32.ofNat entries.length
  · exact le_of_eq (withinLimit_over limit above)
  · rw [withinLimit,if_neg (fun both => above both.2)]
    exact ofNat_within above small

end Limit

section Whole
variable (steady : ∀ name, clocks.systemNow name - clocks.fileNow name = offset)
include steady

theorem expired_stamped (file : (_ : Bytes) × StoredFile β) :
    expired clocks maxAgeSeconds (stamped clocks file) = decide (TooOld clocks offset maxAgeSeconds file.2.modified) := by
  have time : (stamped clocks file).mtime = file.2.modified + offset := by
    simp only [stamped,← steady file.1]
    omega
  cases old : expired clocks maxAgeSeconds (stamped clocks file) with
  | false => exact (decide_eq_false ((expired_iff time).mp old)).symm
  | true =>
    symm
    apply decide_eq_true
    by_contra fresh
    rw [(expired_iff time).mpr fresh] at old
    cases old

theorem listed_count (p : Bool → Bool) :
    ((listed .working clocks folder).filter (fun e => p (expired clocks maxAgeSeconds e))).length =
      (folder.entries.filter
        (fun file => isEntry file.1 && p (decide (TooOld clocks offset maxAgeSeconds file.2.modified)))).length := by
  rw [listed,List.filter_map,List.length_map,List.filter_filter]
  apply congrArg List.length
  apply List.filter_congr
  intro file _
  simp [expired_stamped steady,Io.working,Bool.and_comm]

theorem old_length : ((listed .working clocks folder).filter (expired clocks maxAgeSeconds)).length =
    oldCount clocks offset maxAgeSeconds folder := listed_count steady id

theorem young_length : ((listed .working clocks folder).filter (fun e => !expired clocks maxAgeSeconds e)).length =
    youngCount clocks offset maxAgeSeconds folder := listed_count steady not

theorem chosen_length (fits : 0 < maxEntries → (youngCount clocks offset maxAgeSeconds folder : Int) ≤ intMax) :
    (chosen clocks sorter maxAgeSeconds maxEntries (listed .working clocks folder)).length =
      dropCount clocks offset maxAgeSeconds maxEntries folder := by
  rw [← young_length steady] at fits
  rw [chosen,List.length_append,overLimit_length fits,old_length steady,young_length steady,dropCount]

theorem chosen_pruned (fits : 0 < maxEntries → (youngCount clocks offset maxAgeSeconds folder : Int) ≤ intMax) :
    Pruned clocks offset maxAgeSeconds maxEntries folder
      (left (chosen clocks sorter maxAgeSeconds maxEntries (listed .working clocks folder)) folder)
      (chosen clocks sorter maxAgeSeconds maxEntries (listed .working clocks folder)).length := by
  rw [← young_length steady] at fits
  apply pruned_left steady chosen_split
  · intro e member
    have young := limit_split.subset (List.mem_append_right _ member)
    simpa using (List.mem_filter.mp young).2
  · exact fun limit => withinLimit_length limit (fits limit)
  · intro e member fresh
    rcases List.mem_append.mp member with old | above
    · rw [(List.mem_filter.mp old).2] at fresh
      cases fresh
    · exact overLimit_newest above

-- With 2^31 entries or more the comparison with max_entries goes wrong.
theorem pruned_fits
    (bounded : ((chosen clocks sorter maxAgeSeconds maxEntries (listed .working clocks folder)).length : Int) ≤ intMax)
    (capped : 0 < maxEntries → entryCount (left (chosen clocks sorter maxAgeSeconds maxEntries
      (listed .working clocks folder)) folder) ≤ maxEntries.toInt) (limit : 0 < maxEntries) :
    (youngCount clocks offset maxAgeSeconds folder : Int) ≤ intMax := by
  rw [← young_length steady]
  by_contra many
  rw [not_le] at many
  by_cases above : maxEntries <
      Int32.ofNat ((listed .working clocks folder).filter (fun e => !expired clocks maxAgeSeconds e)).length
  · have beyond := (ofNat_over limit above).2 many
    rw [chosen,List.length_append,overLimit,if_pos ⟨limit,above⟩,List.length_drop,sort_length] at bounded
    rw [Int32.lt_iff_toInt_lt,Int32.toInt_zero] at limit
    simp only [intMax] at bounded
    omega
  · have kept := capped limit
    rw [entryCount_left steady chosen_split,withinLimit,if_neg (fun both => above both.2)] at kept
    have top := maxEntries.toInt_lt
    simp only [intMax] at many
    omega

end Whole

end Split

-- The selection is as promised while the counts fit the ints they are kept in:
-- the number of entries to drop, and under a limit the size compared with it.
-- The code reads both clocks anew for each entry; that they differ by the same
-- offset each time is an idealisation.
theorem prune_selects_iff {β : Type} (clocks : Clocks) (offset : Int) (sorter : Sorter Entry Entry.mtime)
    (maxAgeSeconds : Int64) (maxEntries : Int32) (folder : Folder β)
    (steady : ∀ name, clocks.systemNow name - clocks.fileNow name = offset) :
    (∃ n, (prune .working clocks sorter maxAgeSeconds maxEntries folder).2 = .ok n ∧
      Pruned clocks offset maxAgeSeconds maxEntries folder
        (prune .working clocks sorter maxAgeSeconds maxEntries folder).1 n) ↔
    (dropCount clocks offset maxAgeSeconds maxEntries folder : Int) ≤ intMax ∧
      (0 < maxEntries → (youngCount clocks offset maxAgeSeconds folder : Int) ≤ intMax) := by
  rw [prune_outcome rfl (Pruned clocks offset maxAgeSeconds maxEntries folder)]
  constructor
  · rintro ⟨_,bounded,pruned⟩
    have fits := pruned_fits steady bounded pruned.capped
    rw [chosen_length steady fits] at bounded
    exact ⟨bounded,fits⟩
  · rintro ⟨bounded,fits⟩
    refine ⟨fun _ _ => rfl,?_,chosen_pruned steady fits⟩
    rw [chosen_length steady fits]
    exact bounded

-- One result is too old, one of the two others is over the limit.
def threeEntries : Folder Unit :=
  (oneEntry.insert (entryName (List.replicate 64 49)) ⟨8,()⟩).insert (entryName (List.replicate 64 50)) ⟨9,()⟩

theorem prune_selects_three :
    (∃ n, (prune .working tenSeconds (insertionSorter Entry.mtime) 5 1 threeEntries).2 = .ok n ∧
      Pruned tenSeconds 0 5 1 threeEntries (prune .working tenSeconds (insertionSorter Entry.mtime) 5 1 threeEntries).1 n) ∧
    ¬ TooOld tenSeconds 0 5 8 ∧
    Dropped threeEntries (prune .working tenSeconds (insertionSorter Entry.mtime) 5 1 threeEntries).1
      (List.replicate 64 49) :=
  ⟨(prune_selects_iff tenSeconds 0 (insertionSorter Entry.mtime) 5 1 threeEntries (fun _ => rfl)).mpr (by decide +kernel),
    by decide,by decide,by decide,AList.lookup_eq_none.mp (by decide +kernel)⟩

def numberedKey (n : Nat) : Bytes := Sha256.toHex (ByteCode.word32 (UInt32.ofNat n) ++ List.replicate 28 0)

theorem numberedKey_hex (n : Nat) : isHexKey (numberedKey n) = true := by
  have sized : (numberedKey n).length = 64 := by
    rw [numberedKey,Sha256.toHex_length,List.length_append,ByteCode.word32_length,List.length_replicate]
  rw [isHexKey,if_neg (not_not.mpr sized)]
  exact toHex_hex _

theorem numberedKey_injective {n m : Nat} (small : n < 4294967296) (small' : m < 4294967296)
    (same : numberedKey n = numberedKey m) : n = m := by
  have words := ByteCode.word32_injective (List.append_cancel_right (Sha256.toHex_injective same))
  have nats := congrArg UInt32.toNat words
  rw [UInt32.toNat_ofNat',UInt32.toNat_ofNat'] at nats
  omega

def numberedFiles (total : Nat) : List ((_ : Bytes) × StoredFile Unit) :=
  (List.range total).map (fun n => ⟨entryName (numberedKey n),⟨0,()⟩⟩)

theorem numberedFiles_nodup (small : total ≤ 4294967296) : (numberedFiles total).NodupKeys := by
  have keys : (numberedFiles total).keys = (List.range total).map (fun n => entryName (numberedKey n)) := by
    rw [numberedFiles,List.keys,List.map_map]
    rfl
  rw [List.NodupKeys,keys]
  apply List.Nodup.map_on _ List.nodup_range
  intro n below m below' same
  rw [List.mem_range] at below below'
  exact numberedKey_injective (by omega) (by omega) (entryName_injective same)

def crowded (total : Nat) (small : total ≤ 4294967296) : Folder Unit := ⟨numberedFiles total,numberedFiles_nodup small⟩

theorem crowded_young (clocks : Clocks) (offset : Int) (small : total ≤ 4294967296) :
    youngCount clocks offset 0 (crowded total small) = total := by
  have all : (numberedFiles total).filter
      (fun file => isEntry file.1 && !decide (TooOld clocks offset 0 file.2.modified)) = numberedFiles total := by
    apply List.filter_eq_self.mpr
    intro file member
    obtain ⟨n,_,rfl⟩ := List.mem_map.mp member
    have entry : isEntry (entryName (numberedKey n)) = true := isEntry_iff.mpr ⟨_,numberedKey_hex n,rfl⟩
    simp [entry,TooOld]
  rw [youngCount,crowded,all,numberedFiles,List.length_map,List.length_range]

-- 2^31 entries, a limit of one: the size read as an int is negative, and no
-- entry is dropped.
theorem prune_selects_none : ¬ ∀ (clocks : Clocks) (offset : Int) (sorter : Sorter Entry Entry.mtime)
    (maxAgeSeconds : Int64) (maxEntries : Int32) (folder : Folder Unit),
    (∀ name, clocks.systemNow name - clocks.fileNow name = offset) →
    ∃ n, (prune .working clocks sorter maxAgeSeconds maxEntries folder).2 = .ok n ∧
      Pruned clocks offset maxAgeSeconds maxEntries folder
        (prune .working clocks sorter maxAgeSeconds maxEntries folder).1 n := by
  intro claim
  have small : 2147483648 ≤ 4294967296 := by decide
  have steady : ∀ name, tenSeconds.systemNow name - tenSeconds.fileNow name = 0 := fun _ => rfl
  have held := claim tenSeconds 0 (insertionSorter Entry.mtime) 0 1 (crowded 2147483648 small) steady
  obtain ⟨_,bounded,pruned⟩ := (prune_outcome rfl (Pruned tenSeconds 0 0 1 (crowded 2147483648 small))).mp held
  have fits := pruned_fits steady bounded pruned.capped (by decide)
  rw [crowded_young] at fits
  exact absurd fits (by decide)

end AiCache

end SmartFill
