import SmartFill.ImageCacheFormat

-- One path string names files through two decodings: std::ofstream and
-- std::ifstream take the ANSI code page, fs::u8path takes UTF-8.
namespace SmartFill.PathNames
open ImageCache

-- A valid UTF-8 string is its characters.
abbrev Text := List Char

def tempText (path : Text) : Text := path ++ ".tmp".toList

-- The file each decoding names, and the directories on the way to a file.
structure Decoding (N : Type) where
  ansi : Text → N
  utf8 : Text → N
  folders : N → List N
  ascii : ∀ path : Text, (∀ c ∈ path, c.toNat < 128) → ansi path = utf8 path
  apart : ∀ path, utf8 (tempText path) ≠ utf8 path

section Calls
variable {N : Type} [DecidableEq N] (dec : Decoding N) (faults : Faults) (path : Text) (new : Bytes) (disk : Disk N UInt8)

def reachable (name : N) : Bool := (dec.folders name).all (fun folder => decide (folder ∈ disk.dirs))

def withFolders : Disk N UInt8 :=
  if faults.mkdirRefused then disk else disk.makeDirs (dec.folders (dec.utf8 (tempText path)))

def opens : Bool :=
  !faults.openRefused && reachable dec (withFolders dec faults path disk) (dec.ansi (tempText path))

def streamed : Disk N UInt8 := (withFolders dec faults path disk).write (dec.ansi (tempText path)) (new.take faults.flushed)

def removed : Disk N UInt8 :=
  Disk.removeUnless faults.removeRefused (streamed dec faults path new disk) (dec.utf8 path)

-- fs::rename needs a source, and a name to give it.
def renames : Bool :=
  !faults.renameRefused && decide (path ≠ []) && ((removed dec faults path new disk).read (dec.utf8 (tempText path))).isSome

def withoutTemp (d : Disk N UInt8) : Disk N UInt8 :=
  Disk.removeUnless faults.tmpRemoveRefused d (dec.utf8 (tempText path))

def writeNamed : Disk N UInt8 × Bool :=
  if !opens dec faults path disk then (withFolders dec faults path disk,false) else
  if faults.writeFailed then (withoutTemp dec faults path (streamed dec faults path new disk),false) else
  if !renames dec faults path new disk then (withoutTemp dec faults path (removed dec faults path new disk),false) else
  ((removed dec faults path new disk).rename (dec.utf8 (tempText path)) (dec.utf8 path),true)

def imageCacheWrite (pixels : Option (List F32)) (width height channels : Int) : Disk N UInt8 × Bool :=
  match pixels with
  | none => (disk,false)
  | some values =>
    if inRange width height channels then writeNamed dec faults path (encoding values width height channels) disk
    else (disk,false)

-- An empty name opens nothing.
def imageCacheRead : ImageCacheReadResult :=
  ImageCache.imageCacheRead (if path = [] then none else disk.read (dec.ansi path))

end Calls

section Law
variable {N : Type} [DecidableEq N] (dec : Decoding N) (path : Text)

def SameFile : Prop := dec.ansi path = dec.utf8 path ∧ dec.ansi (tempText path) = dec.utf8 (tempText path)

-- What a caller is told, finds and reads back after a call.
structure RoundTrip (run : Disk N UInt8 × Bool) (image : ImageCacheReadResult) : Prop where
  written : run.2 = true
  found : run.1.present (dec.utf8 path) = true
  back : imageCacheRead dec path run.1 = image

def NoTempLeft (before : Disk N UInt8) (run : Disk N UInt8 × Bool) : Prop :=
  run.2 = false → ∀ name, name = dec.ansi (tempText path) ∨ name = dec.utf8 (tempText path) →
    before.read name = none → run.1.read name = none

-- When a refusal leaves no temporary file: none was made, or it is the file the
-- cleaning removes; otherwise it is the destination of the first removal, or
-- the call is no refusal because an old file is moved in its place.
def Cleaned (faults : Faults) (before : Disk N UInt8) : Prop :=
  opens dec faults path before = false ∨ before.read (dec.ansi (tempText path)) ≠ none ∨
  (dec.ansi (tempText path) = dec.utf8 (tempText path) ∧ (faults.tmpRemoveRefused = true →
    faults.writeFailed = false ∧ faults.renameRefused = false)) ∨
  (dec.ansi (tempText path) ≠ dec.utf8 (tempText path) ∧ faults.writeFailed = false ∧
    ((dec.ansi (tempText path) = dec.utf8 path ∧ faults.removeRefused = false) ∨
      (faults.renameRefused = false ∧ before.read (dec.utf8 (tempText path)) ≠ none)))

end Law

section Reads
variable {N : Type} [DecidableEq N] {dec : Decoding N} {faults : Faults} {path : Text} {new : Bytes} {disk : Disk N UInt8}

theorem read_withFolders (name : N) : (withFolders dec faults path disk).read name = disk.read name := by
  unfold withFolders
  split <;> rfl

theorem read_streamed (name : N) : (streamed dec faults path new disk).read name =
    if name = dec.ansi (tempText path) then some (new.take faults.flushed) else disk.read name := by
  rw [streamed,Disk.read_write,read_withFolders]

theorem read_removed (name : N) : (removed dec faults path new disk).read name =
    if name = dec.utf8 path ∧ faults.removeRefused = false then none else
    if name = dec.ansi (tempText path) then some (new.take faults.flushed) else disk.read name := by
  rw [removed,Disk.read_removeUnless,read_streamed]

theorem read_withoutTemp (d : Disk N UInt8) (name : N) : (withoutTemp dec faults path d).read name =
    if name = dec.utf8 (tempText path) ∧ faults.tmpRemoveRefused = false then none else d.read name := by
  rw [withoutTemp,Disk.read_removeUnless]

-- The file rename takes: the one just written, or an older one of that name.
theorem read_source : (removed dec faults path new disk).read (dec.utf8 (tempText path)) =
    if dec.utf8 (tempText path) = dec.ansi (tempText path) then some (new.take faults.flushed)
    else disk.read (dec.utf8 (tempText path)) := by
  rw [read_removed,if_neg (fun both => dec.apart path both.1)]

theorem writeNamed_ok : (writeNamed dec faults path new disk).2 = true ↔
    opens dec faults path disk = true ∧ faults.writeFailed = false ∧ renames dec faults path new disk = true := by
  unfold writeNamed
  cases opens dec faults path disk <;> cases faults.writeFailed <;> cases renames dec faults path new disk <;> simp

theorem renames_iff (nonempty : path ≠ []) : renames dec faults path new disk = true ↔ faults.renameRefused = false ∧
    (dec.ansi (tempText path) = dec.utf8 (tempText path) ∨ disk.read (dec.utf8 (tempText path)) ≠ none) := by
  rw [renames,read_source]
  by_cases same : dec.utf8 (tempText path) = dec.ansi (tempText path)
  · simp [same,nonempty]
  · simp [same,Ne.symm same,nonempty,Option.isSome_iff_ne_none]

-- Only the name the stream was opened by can be new.
theorem noTempLeft_ansi {run : Disk N UInt8 × Bool}
    (utf8 : dec.utf8 (tempText path) ≠ dec.ansi (tempText path) → disk.read (dec.utf8 (tempText path)) = none →
      run.1.read (dec.utf8 (tempText path)) = none) :
    NoTempLeft dec path disk run ↔ (run.2 = false → disk.read (dec.ansi (tempText path)) = none →
      run.1.read (dec.ansi (tempText path)) = none) := by
  constructor
  · intro clean refused
    exact clean refused _ (.inl rfl)
  · intro clean refused name temp absent
    rcases temp with rfl | rfl
    · exact clean refused absent
    · by_cases same : dec.utf8 (tempText path) = dec.ansi (tempText path)
      · rw [same] at absent ⊢
        exact clean refused absent
      · exact utf8 same absent

theorem noTempLeft_failed :
    NoTempLeft dec path disk (withoutTemp dec faults path (streamed dec faults path new disk),false) ↔
      disk.read (dec.ansi (tempText path)) ≠ none ∨
        (dec.ansi (tempText path) = dec.utf8 (tempText path) ∧ faults.tmpRemoveRefused = false) := by
  rw [noTempLeft_ansi]
  · by_cases same : dec.ansi (tempText path) = dec.utf8 (tempText path) <;>
      cases cleaning : faults.tmpRemoveRefused <;> simp [read_withoutTemp,read_streamed,same,cleaning]
  · intro other absent
    simp [read_withoutTemp,read_streamed,other,absent]

-- The removal of the old file takes the temporary one away where the two names
-- meet.
theorem noTempLeft_unrenamed :
    NoTempLeft dec path disk (withoutTemp dec faults path (removed dec faults path new disk),false) ↔
      disk.read (dec.ansi (tempText path)) ≠ none ∨
        (dec.ansi (tempText path) = dec.utf8 (tempText path) ∧ faults.tmpRemoveRefused = false) ∨
        (dec.ansi (tempText path) = dec.utf8 path ∧ faults.removeRefused = false) := by
  have other : dec.utf8 path ≠ dec.utf8 (tempText path) := (dec.apart path).symm
  rw [noTempLeft_ansi]
  · by_cases same : dec.ansi (tempText path) = dec.utf8 (tempText path)
    · cases cleaning : faults.tmpRemoveRefused <;> simp [read_withoutTemp,read_removed,same,cleaning,other.symm]
    · by_cases destination : dec.ansi (tempText path) = dec.utf8 path
      · cases removing : faults.removeRefused <;> simp [read_withoutTemp,read_removed,destination,removing,other]
      · simp [read_withoutTemp,read_removed,same,destination]
  · intro different absent
    simp [read_withoutTemp,read_removed,different,absent]

theorem noTempLeft_iff (nonempty : path ≠ []) :
    NoTempLeft dec path disk (writeNamed dec faults path new disk) ↔ Cleaned dec path faults disk := by
  have moves := @renames_iff _ _ dec faults path new disk nonempty
  unfold writeNamed Cleaned
  cases opening : opens dec faults path disk with
  | false => simp [NoTempLeft,read_withFolders]
  | true =>
    cases failing : faults.writeFailed with
    | true =>
      simp only [Bool.not_true,Bool.false_eq_true,↓reduceIte]
      rw [noTempLeft_failed]
      simp
    | false =>
      cases moving : renames dec faults path new disk with
      | true =>
        obtain ⟨renamed,source⟩ := moves.mp moving
        by_cases same : dec.ansi (tempText path) = dec.utf8 (tempText path)
        · simp [NoTempLeft,same,renamed]
        · simp [NoTempLeft,same,renamed,source.resolve_left same]
      | false =>
        rw [moving] at moves
        simp only [Bool.not_true,Bool.not_false,Bool.false_eq_true,↓reduceIte]
        rw [noTempLeft_unrenamed]
        by_cases same : dec.ansi (tempText path) = dec.utf8 (tempText path)
        · have refused : faults.renameRefused = true := by simpa [same] using moves
          simp [same,refused,dec.apart path]
        · have stays : ¬ (faults.renameRefused = false ∧ disk.read (dec.utf8 (tempText path)) ≠ none) := by
            simpa [same] using moves
          simp [same,stays]

end Reads

section Quiet
variable {N : Type} [DecidableEq N] {dec : Decoding N} {path : Text} {new : Bytes} {disk : Disk N UInt8}

-- The operating system refuses nothing and loses no byte.
def quiet (new : Bytes) : Faults := noFaults new.length

theorem opens_same {faults : Faults} (mkdir : faults.mkdirRefused = false) (opening : faults.openRefused = false)
    (same : dec.ansi (tempText path) = dec.utf8 (tempText path)) : opens dec faults path disk = true := by
  simp only [opens,opening,reachable,withFolders,mkdir,same,Disk.makeDirs,Bool.not_false,Bool.true_and]
  apply List.all_eq_true.mpr
  intro folder member
  exact decide_eq_true (List.mem_append_left _ member)

theorem quiet_ok (nonempty : path ≠ []) (same : dec.ansi (tempText path) = dec.utf8 (tempText path)) :
    (writeNamed dec (quiet new) path new disk).2 = true :=
  writeNamed_ok.mpr ⟨opens_same rfl rfl same,rfl,(renames_iff nonempty).mpr ⟨rfl,.inl same⟩⟩

theorem quiet_read (nonempty : path ≠ []) (same : dec.ansi (tempText path) = dec.utf8 (tempText path)) (name : N) :
    (writeNamed dec (quiet new) path new disk).1.read name =
      if name = dec.utf8 path then some new else if name = dec.utf8 (tempText path) then none else disk.read name := by
  obtain ⟨opening,writing,moving⟩ := writeNamed_ok.mp (@quiet_ok _ _ dec path new disk nonempty same)
  have source : (removed dec (quiet new) path new disk).read (dec.utf8 (tempText path)) = some new := by
    rw [read_source,if_pos same.symm]
    exact congrArg some List.take_length
  have moved : (writeNamed dec (quiet new) path new disk).1 =
      (removed dec (quiet new) path new disk).rename (dec.utf8 (tempText path)) (dec.utf8 path) := by
    simp [writeNamed,opening,writing,moving]
  rw [moved,Disk.read_rename source,read_removed,same]
  by_cases target : name = dec.utf8 path
  · simp [target]
  · by_cases temp : name = dec.utf8 (tempText path) <;> simp [target,temp]

end Quiet

section Image
variable {N : Type} [DecidableEq N] {dec : Decoding N} {path : Text} {disk : Disk N UInt8} {pixels : List F32}
  {width height channels : Int}

def imageOf (pixels : List F32) (width height channels : Int) : ImageCacheReadResult :=
  ⟨true,width,height,channels,pixels.take (width*height*channels).toNat,[]⟩

theorem imageCacheWrite_accepted (faults : Faults) (accepted : accepts (some pixels) width height channels = true) :
    imageCacheWrite dec faults path disk (some pixels) width height channels =
      writeNamed dec faults path (encoding pixels width height channels) disk := by
  have range : inRange width height channels = true := by simpa [accepts] using accepted
  simp [imageCacheWrite,range]

theorem roundTrip_same (nonempty : path ≠ []) (range : inRange width height channels = true)
    (provided : (width*height*channels).toNat ≤ pixels.length) (same : SameFile dec path) :
    RoundTrip dec path (writeNamed dec (quiet (encoding pixels width height channels)) path
      (encoding pixels width height channels) disk) (imageOf pixels width height channels) := by
  have target := @quiet_read _ _ dec path (encoding pixels width height channels) disk nonempty same.2 (dec.utf8 path)
  rw [if_pos rfl] at target
  refine ⟨quiet_ok nonempty same.2,?_,?_⟩
  · simp [Disk.present,target]
  · rw [imageCacheRead,if_neg nonempty,same.1,target]
    exact read_encoding_take range provided

theorem roundTrip_fresh (nonempty : path ≠ []) (noTemp : disk.read (dec.utf8 (tempText path)) = none)
    (noFile : disk.read (dec.ansi path) = none) (trip : RoundTrip dec path (writeNamed dec
      (quiet (encoding pixels width height channels)) path (encoding pixels width height channels) disk)
      (imageOf pixels width height channels)) : SameFile dec path := by
  obtain ⟨_,_,moving⟩ := writeNamed_ok.mp trip.written
  have temp := ((renames_iff nonempty).mp moving).2.resolve_right (not_not.mpr noTemp)
  refine ⟨?_,temp⟩
  by_contra other
  have back := congrArg ImageCacheReadResult.ok trip.back
  rw [imageCacheRead,if_neg nonempty,quiet_read nonempty temp,if_neg other,noFile,ite_self] at back
  cases back

end Image

-- The two decodings have to name one file for the path and one for path.tmp:
-- otherwise no image comes back from a disk without older files of these names.
theorem one_path_iff {N : Type} [DecidableEq N] (dec : Decoding N) (path : Text) (pixels : List F32)
    (width height channels : Int) (nonempty : path ≠ [])
    (accepted : accepts (some pixels) width height channels = true)
    (provided : (width*height*channels).toNat ≤ pixels.length) :
    ((∀ disk, RoundTrip dec path (imageCacheWrite dec (quiet (encoding pixels width height channels)) path disk
      (some pixels) width height channels) (imageOf pixels width height channels)) ↔ SameFile dec path) ∧
    (∀ disk : Disk N UInt8, disk.read (dec.utf8 (tempText path)) = none → disk.read (dec.ansi path) = none →
      (RoundTrip dec path (imageCacheWrite dec (quiet (encoding pixels width height channels)) path disk
        (some pixels) width height channels) (imageOf pixels width height channels) ↔ SameFile dec path)) ∧
    (∀ (faults : Faults) (disk : Disk N UInt8), NoTempLeft dec path disk
      (imageCacheWrite dec faults path disk (some pixels) width height channels) ↔ Cleaned dec path faults disk) := by
  have range : inRange width height channels = true := by simpa [accepts] using accepted
  simp only [imageCacheWrite_accepted _ accepted]
  refine ⟨⟨?_,?_⟩,?_,?_⟩
  · intro trips
    exact roundTrip_fresh nonempty Disk.read_empty Disk.read_empty (trips Disk.empty)
  · intro same disk
    exact roundTrip_same nonempty range provided same
  · intro disk noTemp noFile
    exact ⟨roundTrip_fresh nonempty noTemp noFile,fun same => roundTrip_same nonempty range provided same⟩
  · intro faults disk
    exact noTempLeft_iff nonempty

-- Where both decodings agree on the temporary file this is the writer over one
-- file system of byte paths.
theorem writeNamed_single {dec : Decoding Path} {faults : Faults} {path : Text} {new : Bytes} {disk : Files}
    (nonempty : path ≠ []) (same : dec.ansi (tempText path) = dec.utf8 (tempText path))
    (temp : dec.utf8 (tempText path) = tmpPath (dec.utf8 path)) (folders : dec.folders = ancestors)
    (reach : reachable dec (withFolders dec faults path disk) (dec.ansi (tempText path)) = true) :
    writeNamed dec faults path new disk =
      ((writeImage faults (dec.utf8 path) new disk).final,(writeImage faults (dec.utf8 path) new disk).ok) := by
  have opening : opens dec faults path disk = !faults.openRefused := by simp [opens,reach]
  have moving : renames dec faults path new disk = !faults.renameRefused := by
    rw [Bool.eq_iff_iff,renames_iff nonempty]
    simp [same]
  have first : withFolders dec faults path disk = made faults (dec.utf8 path) disk := by
    rw [withFolders,made,folders,temp]
  have second : streamed dec faults path new disk = filled faults (dec.utf8 path) new disk faults.flushed := by
    rw [streamed,filled,first,same,temp]
  have third : removed dec faults path new disk = bare faults (dec.utf8 path) new disk := by
    rw [removed,bare,second]
  have last (d : Files) : withoutTemp dec faults path d = cleaned faults (dec.utf8 path) d := by
    rw [withoutTemp,cleaned,temp]
  rw [writeNamed,writeImage,opening,moving,first,second,third,temp]
  cases faults.openRefused <;> cases faults.writeFailed <;> cases faults.renameRefused <;> simp [last]

-- A code page of one byte a character, ISO 8859-1.
def latin1 (c : Char) : Text := (String.utf8EncodeChar c).map (fun b => Char.ofNat b.toNat)

theorem latin1_ascii (c : Char) (small : c.toNat < 128) : latin1 c = [c] := by
  have one : c.utf8Size = 1 := by
    rw [Char.utf8Size_eq_one_iff,UInt32.le_iff_toNat_le]
    exact Nat.le_of_lt_succ small
  have byte : c.val.toUInt8.toNat = c.toNat := by
    rw [UInt32.toNat_toUInt8]
    exact Nat.mod_eq_of_lt (by show c.toNat < 256; omega)
  rw [latin1,String.utf8EncodeChar_eq_singleton one,List.map_singleton,byte,Char.ofNat_toNat]

def latin1Names : Decoding Text where
  ansi path := path.flatMap latin1
  utf8 path := path
  folders name := ((List.range name.length).filter (fun i => name.getD i 'x' = '/')).map name.take
  ascii := by
    intro path small
    induction path with
    | nil => rfl
    | cons c rest ih =>
      rw [List.flatMap_cons,latin1_ascii c (small c (by simp)),ih (fun d member => small d (by simp [member]))]
      rfl
  apart path same := by
    have lengths := congrArg List.length same
    simp [tempText] at lengths

def accented : Text := ['é']

theorem one_path_accented : RoundTrip latin1Names accented (imageCacheWrite latin1Names (quiet (encoding onePixel 1 1 1))
    accented Disk.empty (some onePixel) 1 1 1) (imageOf onePixel 1 1 1) ↔ SameFile latin1Names accented :=
  (one_path_iff latin1Names accented onePixel 1 1 1 (by decide) (by decide) (by decide)).2.1 Disk.empty
    Disk.read_empty Disk.read_empty

-- The image goes to one temporary file, and the other one is to be renamed.
theorem two_files : ¬ ∀ (dec : Decoding Text) (path : Text) (pixels : List F32) (width height channels : Int)
    (disk : Disk Text UInt8), path ≠ [] → accepts (some pixels) width height channels = true →
    (width*height*channels).toNat ≤ pixels.length →
    RoundTrip dec path (imageCacheWrite dec (quiet (encoding pixels width height channels)) path disk
      (some pixels) width height channels) (imageOf pixels width height channels) ∧
    NoTempLeft dec path disk (imageCacheWrite dec (quiet (encoding pixels width height channels)) path disk
      (some pixels) width height channels) := by
  intro claim
  have held := (claim latin1Names accented onePixel 1 1 1 Disk.empty (by decide) (by decide) (by decide)).1
  rw [imageCacheWrite_accepted _ (by decide)] at held
  have same := roundTrip_fresh (by decide) Disk.read_empty Disk.read_empty held
  exact absurd same.1 (by decide)

end SmartFill.PathNames
