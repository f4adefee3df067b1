import SmartFill.AiCache
import SmartFill.Lib.Sweep

namespace SmartFill

-- A directory entry: its last write time in ticks of the file clock, and what
-- it holds.
structure StoredFile (β : Type) where
  modified : Int
  data : β

abbrev Folder (β : Type) := AList (fun _ : Bytes => StoredFile β)

-- What the file system makes of each call. An increment of the iterator that
-- fails throws, with a text.
structure Io where
  openFails : Bool
  advance : Nat → Option Bytes
  timeFails : Bytes → Bool
  removeFails : Bytes → Bool

def Io.step (io : Io) (i : Nat) : Option Fault := (io.advance i).map .threw

-- file_clock::now() and system_clock::now() as read at an entry, and the
-- system clock after the listing.
structure Clocks where
  fileNow : Bytes → Int
  systemNow : Bytes → Int
  now : Int
  perSecond : Int

namespace AiCache
open Sweep

-- fs::path::stem and extension of a file name
def stemAndExtension (name : Bytes) : Bytes × Bytes :=
  if name = ascii ".." then (name,[]) else
  match splitLast 46 name with
  | none => (name,[])
  | some ([],_) => (name,[])
  | some parts => parts

def isEntry (name : Bytes) : Bool :=
  let (stem,ext) := stemAndExtension name
  decide (ext = ascii ".exr") && isHexKey stem

def isCacheFile (name : Bytes) : Bool :=
  let (stem,ext) := stemAndExtension name
  isHexKey stem && (decide (ext = ascii ".exr") || decide (ext = ascii ".json"))

-- fs::path::replace_extension
def sidecar (name : Bytes) : Bytes := (stemAndExtension name).1 ++ ascii ".json"

structure Entry where
  name : Bytes
  mtime : Int
  deriving DecidableEq

def intMax : Int := 2147483647

-- ++removed on an int
def count (removed : Int) : Option Fault := if removed + 1 ≤ intMax then none else some .undefined

def returned {β : Type} : (Folder β × Int) × Option Fault → Folder β × Except Fault Int
  | ((folder,removed),none) => (folder,.ok removed)
  | ((folder,_),some fault) => (folder,.error fault)

section Calls
variable {β : Type} (io : Io) (clocks : Clocks)

def remove (name : Bytes) (folder : Folder β) : Folder β :=
  if io.removeFails name then folder else folder.erase name

-- The name was just listed, so its removal returns false only with an error.
def clearEntry (name : Bytes) : Folder β × Int → (Folder β × Int) × Option Fault
  | (folder,removed) =>
    if !isCacheFile name then ((folder,removed),none) else
    if io.removeFails name then ((folder,removed),none) else
    ((remove io name folder,removed+1),count removed)

def clear (folder : Folder β) : Folder β × Except Fault Int :=
  if io.openFails then (folder,.ok 0) else
  returned (sweep io.step (clearEntry io) 0 folder.keys (folder,0))

-- The file time is moved to the system clock by the two readings.
def stamped (file : (_ : Bytes) × StoredFile β) : Entry :=
  ⟨file.1,file.2.modified - clocks.fileNow file.1 + clocks.systemNow file.1⟩

def listEntry (file : (_ : Bytes) × StoredFile β) (entries : List Entry) : List Entry :=
  if !isEntry file.1 then entries else
  if io.timeFails file.1 then entries else
  entries ++ [stamped clocks file]

-- duration_cast truncates.
def age (e : Entry) : Int := (clocks.now - e.mtime).tdiv clocks.perSecond

def removeBoth (e : Entry) (folder : Folder β) : Folder β := remove io (sidecar e.name) (remove io e.name folder)

def ageEntry (maxAgeSeconds : Int64) (e : Entry) :
    (List Entry × Folder β) × Int → ((List Entry × Folder β) × Int) × Option Fault
  | ((kept,folder),removed) =>
    if maxAgeSeconds.toInt < age clocks e then
      (((kept,removeBoth io e folder),removed+1),count removed)
    else (((kept ++ [e],folder),removed),none)

def agePass (maxAgeSeconds : Int64) (entries : List Entry) (folder : Folder β) :
    ((List Entry × Folder β) × Int) × Option Fault :=
  if 0 < maxAgeSeconds then
    sweep (fun _ => none) (ageEntry io clocks maxAgeSeconds) 0 entries (([],folder),0)
  else (((entries,folder),0),none)

def dropEntry (e : Entry) : Folder β × Int → (Folder β × Int) × Option Fault
  | (folder,removed) => ((removeBoth io e folder,removed+1),count removed)

-- The size is compared as an int.
def capPass (sorter : Sorter Entry Entry.mtime) (maxEntries : Int32) (entries : List Entry)
    (folder : Folder β) (removed : Int) : (Folder β × Int) × Option Fault :=
  if 0 < maxEntries ∧ maxEntries < Int32.ofNat entries.length then
    sweep (fun _ => none) (dropEntry io) 0 ((sorter.sort entries).drop maxEntries.toInt.toNat) (folder,removed)
  else ((folder,removed),none)

def pruneListed (sorter : Sorter Entry Entry.mtime) (maxAgeSeconds : Int64) (maxEntries : Int32)
    (entries : List Entry) (folder : Folder β) : Folder β × Except Fault Int :=
  match agePass io clocks maxAgeSeconds entries folder with
  | (((_,folder),_),some fault) => (folder,.error fault)
  | (((entries,folder),removed),none) => returned (capPass io sorter maxEntries entries folder removed)

def prune (sorter : Sorter Entry Entry.mtime) (maxAgeSeconds : Int64) (maxEntries : Int32) (folder : Folder β) :
    Folder β × Except Fault Int :=
  if io.openFails then (folder,.ok 0) else
  match sweep io.step (plain (fun entries file => listEntry io clocks file entries)) 0 folder.entries [] with
  | (_,some fault) => (folder,.error fault)
  | (entries,none) => pruneListed io clocks sorter maxAgeSeconds maxEntries entries folder

end Calls

section Names
variable {key name : Bytes}

def entryName (key : Bytes) : Bytes := key ++ ascii ".exr"
def sideName (key : Bytes) : Bytes := key ++ ascii ".json"

theorem idxOf?_after {c : UInt8} {front back : Bytes} (absent : c ∉ front) :
    (front ++ c :: back).idxOf? c = some front.length := by
  induction front with
  | nil => simp [List.idxOf?_cons]
  | cons d rest ih =>
    simp only [List.mem_cons,not_or] at absent
    simp [List.idxOf?_cons,ih absent.2,Ne.symm absent.1]

theorem splitLast_at {c : UInt8} {front back : Bytes} (absent : c ∉ back) :
    splitLast c (front ++ c :: back) = some (front,c :: back) := by
  have found : (front ++ c :: back).reverse.idxOf? c = some back.length := by
    have after := @idxOf?_after c back.reverse front.reverse (by simpa using absent)
    simpa using after
  have cut : (front ++ c :: back).length-back.length-1 = front.length := by
    rw [List.length_append,List.length_cons]
    omega
  simp only [splitLast,found,cut,List.take_left,List.drop_left]

theorem splitLast_parts {c : UInt8} {s front back : Bytes} (split : splitLast c s = some (front,back)) :
    s = front ++ back := by
  unfold splitLast at split
  split at split
  · cases split
  · cases split
    exact (List.take_append_drop _ s).symm

theorem ascii_slash : ascii "/" = [slash] := by decide

theorem hexKey_length (hex : isHexKey key = true) : key.length = 64 := by
  unfold isHexKey at hex
  split at hex
  · cases hex
  · rename_i sized
    simpa using sized

theorem stemAndExtension_hex (hex : isHexKey key = true) {ext : Bytes} (undotted : 46 ∉ ext) :
    stemAndExtension (key ++ 46 :: ext) = (key,46 :: ext) := by
  have length := hexKey_length hex
  have named : key ++ 46 :: ext ≠ ascii ".." := by
    intro same
    have lengths := congrArg List.length same
    rw [List.length_append,length] at lengths
    have : (ascii "..").length = 2 := by decide
    omega
  rw [stemAndExtension,if_neg named,splitLast_at undotted]
  cases key with
  | nil => simp at length
  | cons c rest => rfl

theorem stemAndExtension_parts {ext : Bytes} (extended : (stemAndExtension name).2 = ext) (nonempty : ext ≠ []) :
    name = (stemAndExtension name).1 ++ ext := by
  unfold stemAndExtension at extended ⊢
  split at extended
  · exact absurd extended.symm nonempty
  · rename_i ordinary
    rw [if_neg ordinary]
    split at extended
    · exact absurd extended.symm nonempty
    · exact absurd extended.symm nonempty
    · rename_i split
      rw [← extended]
      exact splitLast_parts split

theorem stemAndExtension_entryName (hex : isHexKey key = true) :
    stemAndExtension (entryName key) = (key,ascii ".exr") :=
  stemAndExtension_hex hex (by decide)

theorem stemAndExtension_sideName (hex : isHexKey key = true) :
    stemAndExtension (sideName key) = (key,ascii ".json") :=
  stemAndExtension_hex hex (by decide)

theorem isEntry_iff : isEntry name = true ↔ ∃ key, isHexKey key = true ∧ name = entryName key := by
  constructor
  · intro entry
    simp only [isEntry,Bool.and_eq_true,decide_eq_true_eq] at entry
    exact ⟨(stemAndExtension name).1,entry.2,stemAndExtension_parts entry.1 (by decide)⟩
  · rintro ⟨key,hex,rfl⟩
    simp [isEntry,stemAndExtension_entryName hex,hex]

theorem sidecar_entryName (hex : isHexKey key = true) : sidecar (entryName key) = sideName key := by
  rw [sidecar,stemAndExtension_entryName hex]
  rfl

theorem sideName_other (hex : isHexKey key = true) : isEntry (sideName key) = false := by
  rw [isEntry,stemAndExtension_sideName hex]
  rfl

theorem hexKey_unslashed (hex : isHexKey key = true) : slash ∉ key := by
  intro member
  rw [isHexKey,if_neg (not_not.mpr (hexKey_length hex))] at hex
  exact absurd (List.all_eq_true.mp hex slash member) (by decide)

theorem name_unslashed (hex : isHexKey key = true) {ext : Bytes} (plain : slash ∉ ext) : slash ∉ key ++ ext := by
  rw [List.mem_append,not_or]
  exact ⟨hexKey_unslashed hex,plain⟩

-- The path of a result names an entry of the directory, that of its description
-- the entry's sidecar.
theorem paths_in_dir (cacheDir : Bytes) (hex : isHexKey key = true) : isEntry (entryName key) = true ∧
    splitLast slash (exrPathFor (create cacheDir) key) = some (normalizeDir cacheDir,slash :: entryName key) ∧
    splitLast slash (jsonPathFor (create cacheDir) key) =
      some (normalizeDir cacheDir,slash :: sidecar (entryName key)) := by
  have entry : exrPathFor (create cacheDir) key = normalizeDir cacheDir ++ slash :: entryName key := by
    simp [exrPathFor,create,entryName,ascii_slash]
  have side : jsonPathFor (create cacheDir) key = normalizeDir cacheDir ++ slash :: sideName key := by
    simp [jsonPathFor,create,sideName,ascii_slash]
  refine ⟨isEntry_iff.mpr ⟨key,hex,rfl⟩,?_,?_⟩
  · rw [entry]
    exact splitLast_at (name_unslashed hex (by decide))
  · rw [side,sidecar_entryName hex]
    exact splitLast_at (name_unslashed hex (by decide))

theorem entryName_injective (same : entryName key = entryName key') : key = key' := List.append_cancel_right same
theorem sideName_injective (same : sideName key = sideName key') : key = key' := List.append_cancel_right same

end Names

section Spec
variable {β : Type} {io : Io} {clocks : Clocks} {folder : Folder β} {maxAgeSeconds : Int64} {maxEntries : Int32}
  {sorter : Sorter Entry Entry.mtime} {entries : List Entry} {removed : Int}

def bothNames (e : Entry) : List Bytes := [e.name,sidecar e.name]

theorem foldl_removeBoth (io : Io) (entries : List Entry) (folder : Folder β) :
    entries.foldl (fun folder e => removeBoth io e folder) folder =
      eraseEach io.removeFails (entries.flatMap bothNames) folder := by
  rw [eraseEach,List.foldl_flatMap]
  rfl

theorem advances_step (count : Nat) : Advances io.step 0 count ↔ ∀ i < count, io.advance i = none := by
  simp [Advances,Io.step]

theorem advances_none (count : Nat) : Advances (fun _ => (none : Option Fault)) 0 count := fun _ _ => rfl

def clears (io : Io) (name : Bytes) : Bool := isCacheFile name && !io.removeFails name

theorem clearEntry_counting : clearEntry io =
    counting (clears io) (fun (folder : Folder β) name => remove io name folder) (fun folder _ => folder) intMax
      .undefined := by
  funext name state
  obtain ⟨folder,removed⟩ := state
  cases matching : isCacheFile name <;> cases refused : io.removeFails name <;>
    simp [clearEntry,counting,clears,count,matching,refused]

theorem returned_outcome (run : (Folder β × Int) × Option Fault) (Q : Folder β → Int → Prop) :
    (∃ n, (returned run).2 = .ok n ∧ Q (returned run).1 n) ↔ run.2 = none ∧ Q run.1.1 run.1.2 := by
  obtain ⟨⟨folder,removed⟩,fault⟩ := run
  cases fault <;> simp [returned]

def cleared (io : Io) (folder : Folder β) : List Bytes := folder.keys.filter (clears io)

theorem clear_outcome (opens : io.openFails = false) (Q : Folder β → Int → Prop) :
    (∃ n, (clear io folder).2 = .ok n ∧ Q (clear io folder).1 n) ↔
    (∀ i < folder.keys.length, io.advance i = none) ∧ ((cleared io folder).length : Int) ≤ intMax ∧
      Q (eraseEach io.removeFails (cleared io folder) folder) (cleared io folder).length := by
  have erased : folder.keys.foldl (picked (clears io) (fun folder name => remove io name folder) (fun folder _ => folder))
      folder = eraseEach io.removeFails (cleared io folder) folder := by
    rw [cleared,eraseEach,List.foldl_filter]
    rfl
  rw [clear,opens,if_neg Bool.false_ne_true,returned_outcome,clearEntry_counting,
    counting_outcome (show (0:Int) ≤ intMax by decide) (fun state => Q state.1 state.2),advances_step,zero_add,erased]
  rfl

def listed (io : Io) (clocks : Clocks) (folder : Folder β) : List Entry :=
  (folder.entries.filter (fun file => isEntry file.1 && !io.timeFails file.1)).map (stamped clocks)

theorem foldl_listEntry (files : List ((_ : Bytes) × StoredFile β)) (entries : List Entry) :
    files.foldl (fun entries file => listEntry io clocks file entries) entries =
      entries ++ (files.filter (fun file => isEntry file.1 && !io.timeFails file.1)).map (stamped clocks) := by
  induction files generalizing entries with
  | nil => simp
  | cons file rest ih =>
    rw [List.foldl_cons,ih,listEntry]
    cases matching : isEntry file.1 <;> cases refused : io.timeFails file.1 <;> simp [matching,refused]

def expired (clocks : Clocks) (maxAgeSeconds : Int64) (e : Entry) : Bool :=
  decide (0 < maxAgeSeconds) && decide (maxAgeSeconds.toInt < age clocks e)

def overLimit (sorter : Sorter Entry Entry.mtime) (maxEntries : Int32) (entries : List Entry) : List Entry :=
  if 0 < maxEntries ∧ maxEntries < Int32.ofNat entries.length then (sorter.sort entries).drop maxEntries.toInt.toNat
  else []

theorem ageEntry_counting : ageEntry io clocks maxAgeSeconds =
    counting (fun e => decide (maxAgeSeconds.toInt < age clocks e))
      (fun (state : List Entry × Folder β) e => (state.1,removeBoth io e state.2))
      (fun state e => (state.1 ++ [e],state.2)) intMax .undefined := by
  funext e state
  obtain ⟨⟨kept,folder⟩,removed⟩ := state
  by_cases old : maxAgeSeconds.toInt < age clocks e <;> simp [ageEntry,counting,count,old]

theorem foldl_erasing (p : Entry → Bool) (entries kept : List Entry) (folder : Folder β) :
    entries.foldl (picked p (fun (state : List Entry × Folder β) e => (state.1,removeBoth io e state.2))
      (fun state e => (state.1 ++ [e],state.2))) (kept,folder) =
      (kept ++ entries.filter (fun e => !p e),eraseEach io.removeFails ((entries.filter p).flatMap bothNames) folder) := by
  rw [← foldl_removeBoth]
  induction entries generalizing kept folder with
  | nil => simp
  | cons e rest ih =>
    rw [List.foldl_cons,picked]
    cases old : p e <;> simp [old,ih]

theorem agePass_outcome (Q : (List Entry × Folder β) × Int → Prop) :
    ((agePass io clocks maxAgeSeconds entries folder).2 = none ∧ Q (agePass io clocks maxAgeSeconds entries folder).1) ↔
    ((entries.filter (expired clocks maxAgeSeconds)).length : Int) ≤ intMax ∧
      Q ((entries.filter (fun e => !expired clocks maxAgeSeconds e),
        eraseEach io.removeFails ((entries.filter (expired clocks maxAgeSeconds)).flatMap bothNames) folder),
        (entries.filter (expired clocks maxAgeSeconds)).length) := by
  unfold agePass
  split
  · rename_i limited
    have same : expired clocks maxAgeSeconds = fun e => decide (maxAgeSeconds.toInt < age clocks e) := by
      funext e
      simp [expired,limited]
    rw [ageEntry_counting,counting_outcome (show (0:Int) ≤ intMax by decide) Q,foldl_erasing,zero_add,same]
    simp [advances_none]
  · rename_i unlimited
    have same : expired clocks maxAgeSeconds = fun _ => false := by
      funext e
      simp [expired,unlimited]
    simp [same,eraseEach,intMax]

theorem dropEntry_counting : dropEntry io =
    counting (fun _ => true) (fun (folder : Folder β) e => removeBoth io e folder) (fun folder _ => folder)
      intMax .undefined := by
  funext e state
  rfl

theorem capPass_outcome (start : removed ≤ intMax) (Q : Folder β → Int → Prop) :
    ((capPass io sorter maxEntries entries folder removed).2 = none ∧
      Q (capPass io sorter maxEntries entries folder removed).1.1
        (capPass io sorter maxEntries entries folder removed).1.2) ↔
    removed + (overLimit sorter maxEntries entries).length ≤ intMax ∧
      Q (eraseEach io.removeFails ((overLimit sorter maxEntries entries).flatMap bothNames) folder)
        (removed + (overLimit sorter maxEntries entries).length) := by
  unfold capPass overLimit
  split
  · rw [dropEntry_counting,counting_outcome start (fun state => Q state.1 state.2),← foldl_removeBoth,picked_always]
    simp [advances_none]
  · simp [eraseEach,start]

-- The entries that are too old, then those beyond the limit among the rest.
def chosen (clocks : Clocks) (sorter : Sorter Entry Entry.mtime) (maxAgeSeconds : Int64) (maxEntries : Int32)
    (entries : List Entry) : List Entry :=
  entries.filter (expired clocks maxAgeSeconds) ++
    overLimit sorter maxEntries (entries.filter (fun e => !expired clocks maxAgeSeconds e))

theorem pruneListed_outcome (Q : Folder β → Int → Prop) :
    (∃ n, (pruneListed io clocks sorter maxAgeSeconds maxEntries entries folder).2 = .ok n ∧
      Q (pruneListed io clocks sorter maxAgeSeconds maxEntries entries folder).1 n) ↔
    ((chosen clocks sorter maxAgeSeconds maxEntries entries).length : Int) ≤ intMax ∧
      Q (eraseEach io.removeFails ((chosen clocks sorter maxAgeSeconds maxEntries entries).flatMap bothNames) folder)
        (chosen clocks sorter maxAgeSeconds maxEntries entries).length := by
  let later : (List Entry × Folder β) × Int → Folder β × Except Fault Int :=
    fun state => returned (capPass io sorter maxEntries state.1.1 state.1.2 state.2)
  have aged := @agePass_outcome β io clocks folder maxAgeSeconds entries
    (fun state => ∃ n, (later state).2 = .ok n ∧ Q (later state).1 n)
  have whole : ((chosen clocks sorter maxAgeSeconds maxEntries entries).length : Int) =
      (entries.filter (expired clocks maxAgeSeconds)).length +
        (overLimit sorter maxEntries (entries.filter (fun e => !expired clocks maxAgeSeconds e))).length := by
    rw [chosen,List.length_append]
    push_cast
    rfl
  rw [whole,chosen,List.flatMap_append,eraseEach_append]
  trans (agePass io clocks maxAgeSeconds entries folder).2 = none ∧
    ∃ n, (later (agePass io clocks maxAgeSeconds entries folder).1).2 = .ok n ∧
      Q (later (agePass io clocks maxAgeSeconds entries folder).1).1 n
  · rw [pruneListed]
    rcases agePass io clocks maxAgeSeconds entries folder with ⟨⟨⟨kept,after⟩,removed⟩,fault⟩
    cases fault <;> simp [later]
  · rw [aged,returned_outcome]
    constructor
    · rintro ⟨bounded,capped⟩
      exact (capPass_outcome bounded Q).mp capped
    · rintro ⟨bounded,q⟩
      have first : ((entries.filter (expired clocks maxAgeSeconds)).length : Int) ≤ intMax := by omega
      exact ⟨first,(capPass_outcome first Q).mpr ⟨bounded,q⟩⟩

theorem prune_outcome (opens : io.openFails = false) (Q : Folder β → Int → Prop) :
    (∃ n, (prune io clocks sorter maxAgeSeconds maxEntries folder).2 = .ok n ∧
      Q (prune io clocks sorter maxAgeSeconds maxEntries folder).1 n) ↔
    (∀ i < folder.keys.length, io.advance i = none) ∧
      ((chosen clocks sorter maxAgeSeconds maxEntries (listed io clocks folder)).length : Int) ≤ intMax ∧
      Q (eraseEach io.removeFails
          ((chosen clocks sorter maxAgeSeconds maxEntries (listed io clocks folder)).flatMap bothNames) folder)
        (chosen clocks sorter maxAgeSeconds maxEntries (listed io clocks folder)).length := by
  have steps : folder.entries.length = folder.keys.length := by simp [AList.keys,List.keys]
  have listing := @plain_outcome _ _ Fault io.step 0 folder.entries [] (fun entries file => listEntry io clocks file entries)
    (fun entries => ∃ n, (pruneListed io clocks sorter maxAgeSeconds maxEntries entries folder).2 = .ok n ∧
      Q (pruneListed io clocks sorter maxAgeSeconds maxEntries entries folder).1 n)
  rw [foldl_listEntry,List.nil_append,← listed,steps,advances_step] at listing
  rw [← pruneListed_outcome,← listing,prune,opens,if_neg Bool.false_ne_true]
  rcases sweep io.step (plain (fun entries file => listEntry io clocks file entries)) 0 folder.entries [] with ⟨entries,fault⟩
  cases fault <;> simp

end Spec

end AiCache

end SmartFill
