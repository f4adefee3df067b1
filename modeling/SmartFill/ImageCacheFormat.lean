import SmartFill.ImageCacheWrite
import Mathlib.Data.List.GetD

namespace SmartFill.ImageCache
open ByteCode

-- image_cache_inspect on what an open of the path finds: the values stored
-- through the three pointers.
def imageCacheInspect : Option Bytes → Option (Int × Int × Int)
  | none => none
  | some stream =>
    match readHeader stream with
    | .error _ => none
    | .ok (h,_) => some (h.width.toNat,h.height.toNat,h.channels.toNat)

def byteAt (content : Bytes) (i : Nat) : Nat := (content.getD i 0).toNat

def u32At (content : Bytes) (i : Nat) : Nat :=
  byteAt content i + 256 * byteAt content (i+1) + 65536 * byteAt content (i+2) + 16777216 * byteAt content (i+3)

-- The layout of image_cache.h, with the ranges the reader allows.
structure HeaderAccepted (content : Bytes) : Prop where
  long : 28 ≤ content.length
  magic : content.take 8 = kMagic
  version : u32At content 8 = 1
  width : 1 ≤ u32At content 12 ∧ u32At content 12 ≤ 32768
  height : 1 ≤ u32At content 16 ∧ u32At content 16 ≤ 32768
  channels : 1 ≤ u32At content 20 ∧ u32At content 20 ≤ 8

def pixelCount (content : Bytes) : Nat := u32At content 12 * u32At content 16 * u32At content 20

def wordAt (content : Bytes) (i : Nat) : UInt32 :=
  readWord32 (content.getD i 0) (content.getD (i+1) 0) (content.getD (i+2) 0) (content.getD (i+3) 0)

def headerAt (content : Bytes) : Header :=
  ⟨wordAt content 8,wordAt content 12,wordAt content 16,wordAt content 20,wordAt content 24⟩

theorem readWord32_toNat (a b c d : UInt8) :
    (readWord32 a b c d).toNat = a.toNat + 256 * b.toNat + 65536 * c.toNat + 16777216 * d.toNat := by
  have back := readWord32_bytes a b c d
  obtain ⟨v,is⟩ : ∃ v, v = readWord32 a b c d := ⟨_,rfl⟩
  rw [← is,word32_eq] at back
  simp only [List.cons.injEq,and_true] at back
  have bytes := And.intro (congrArg UInt8.toNat back.1) (And.intro (congrArg UInt8.toNat back.2.1)
    (And.intro (congrArg UInt8.toNat back.2.2.1) (congrArg UInt8.toNat back.2.2.2)))
  simp only [UInt32.toNat_toUInt8,UInt32.toNat_shiftRight,Nat.shiftRight_eq_div_pow,UInt32.reduceToNat,
    Nat.reduceMod,Nat.reducePow] at bytes
  have bound := v.toNat_lt
  rw [← is]
  omega

theorem wordAt_toNat (content : Bytes) (i : Nat) : (wordAt content i).toNat = u32At content i :=
  readWord32_toNat _ _ _ _

theorem readU32Le_at (content : Bytes) (i : Nat) (inside : i + 4 ≤ content.length) :
    readU32Le (content.drop i) = some (wordAt content i,content.drop (i+4)) := by
  have cells : content.drop i = content.getD i 0 :: content.getD (i+1) 0 :: content.getD (i+2) 0 ::
      content.getD (i+3) 0 :: content.drop (i+4) := by
    rw [List.drop_eq_getElem_cons (by omega),List.drop_eq_getElem_cons (by omega : i+1 < content.length),
      List.drop_eq_getElem_cons (by omega : i+1+1 < content.length),
      List.drop_eq_getElem_cons (by omega : i+1+1+1 < content.length)]
    simp only [List.getD_eq_getElem _ _ (by omega : i < content.length),
      List.getD_eq_getElem _ _ (by omega : i+1 < content.length),
      List.getD_eq_getElem _ _ (by omega : i+2 < content.length),
      List.getD_eq_getElem _ _ (by omega : i+3 < content.length)]
  rw [cells,readU32Le,wordAt]

theorem readFields_at (content : Bytes) (long : 28 ≤ content.length) :
    readFields (content.drop 8) = some (headerAt content,content.drop 28) := by
  simp only [readFields,readU32Le_at content 8 (by omega),readU32Le_at content 12 (by omega),
    readU32Le_at content 16 (by omega),readU32Le_at content 20 (by omega),readU32Le_at content 24 (by omega),
    Option.bind_eq_bind,Option.bind_some,Option.pure_def,headerAt]

theorem readHeader_at (content : Bytes) (long : 28 ≤ content.length) : readHeader content =
    if content.take 8 ≠ kMagic then .error (ascii "bad magic (file is not .aifill format)")
    else if wordAt content 8 ≠ kImageCacheVersion then
      .error (ascii "unsupported file version " ++ decimal (wordAt content 8).toNat)
    else if inRange (u32At content 12) (u32At content 16) (u32At content 20) then
      .ok (headerAt content,content.drop 28)
    else .error (ascii "dimensions out of range") := by
  have magic : readBytes 8 content = some (content.take 8,content.drop 8) := by
    rw [readBytes,if_pos (by omega)]
  simp only [readHeader,magic,readFields_at content long,headerAt,wordAt_toNat]

theorem version_word (content : Bytes) : wordAt content 8 = kImageCacheVersion ↔ u32At content 8 = 1 := by
  rw [← wordAt_toNat,← UInt32.toNat_inj]
  rfl

theorem inRange_nat (w h c : Nat) : inRange w h c = true ↔
    (1 ≤ w ∧ w ≤ 32768) ∧ (1 ≤ h ∧ h ≤ 32768) ∧ (1 ≤ c ∧ c ≤ 8) := by
  rw [inRange,decide_eq_true_iff,kMaxDim,kMaxChannels]
  omega

theorem readHeader_accepts {content : Bytes} (accepted : HeaderAccepted content) :
    readHeader content = .ok (headerAt content,content.drop 28) := by
  have range := (inRange_nat _ _ _).mpr ⟨accepted.width,accepted.height,accepted.channels⟩
  rw [readHeader_at content accepted.long,if_neg (not_not.mpr accepted.magic),
    if_neg (not_not.mpr ((version_word content).mpr accepted.version)),if_pos range]

theorem readHeader_accepted {content rest : Bytes} {h : Header} (read : readHeader content = .ok (h,rest)) :
    HeaderAccepted content := by
  have length := readHeader_length read
  have long : 28 ≤ content.length := by omega
  rw [readHeader_at content long] at read
  split at read
  · cases read
  · rename_i magic
    split at read
    · cases read
    · rename_i version
      split at read
      · rename_i range
        obtain ⟨width,height,channels⟩ := (inRange_nat _ _ _).mp range
        exact ⟨long,not_not.mp magic,(version_word content).mp (not_not.mp version),width,height,channels⟩
      · cases read

theorem readHeader_error {content error : Bytes} (read : readHeader content = .error error) : error ≠ [] := by
  unfold readHeader at read
  repeat' split at read
  all_goals cases read
  · decide
  · decide
  · decide
  · exact List.append_ne_nil_of_left_ne_nil (by decide) _
  · decide

-- What image_cache_read returns when it fails.
structure Refused (r : ImageCacheReadResult) : Prop where
  ok : r.ok = false
  error : r.error ≠ []
  pixels : r.pixels = []
  width : r.width = 0
  height : r.height = 0
  channels : r.channels = 0

theorem failed_refused {error : Bytes} (named : error ≠ []) : Refused (failed error) :=
  ⟨rfl,named,rfl,rfl,rfl,rfl⟩

theorem imageCacheRead_accepts {content : Bytes} (accepted : HeaderAccepted content)
    (whole : 28 + 4 * pixelCount content ≤ content.length) : imageCacheRead (some content) =
      ⟨true,u32At content 12,u32At content 16,u32At content 20,readPixels (pixelCount content) (content.drop 28),[]⟩ := by
  have enough : ¬ (content.drop 28).length < 4 * pixelCount content := by
    rw [List.length_drop]
    omega
  simp only [imageCacheRead,readHeader_accepts accepted,headerAt,wordAt_toNat]
  rw [← pixelCount,if_neg enough]

theorem imageCacheRead_refuses {content : Bytes}
    (refused : ¬ (HeaderAccepted content ∧ 28 + 4 * pixelCount content ≤ content.length)) :
    Refused (imageCacheRead (some content)) := by
  cases header : readHeader content with
  | error error =>
    simp only [imageCacheRead,header]
    exact failed_refused (readHeader_error header)
  | ok result =>
    obtain ⟨h,rest⟩ := result
    have accepted := readHeader_accepted header
    have short : (content.drop 28).length < 4 * pixelCount content := by
      have missing : ¬ 28 + 4 * pixelCount content ≤ content.length := fun whole => refused ⟨accepted,whole⟩
      have long := accepted.long
      rw [List.length_drop]
      omega
    simp only [imageCacheRead,readHeader_accepts accepted,headerAt,wordAt_toNat]
    rw [← pixelCount,if_pos short]
    exact failed_refused (by decide)

theorem imageCacheRead_ok_iff (content : Bytes) : (imageCacheRead (some content)).ok = true ↔
    HeaderAccepted content ∧ 28 + 4 * pixelCount content ≤ content.length := by
  by_cases whole : HeaderAccepted content ∧ 28 + 4 * pixelCount content ≤ content.length
  · rw [imageCacheRead_accepts whole.1 whole.2]
    exact iff_of_true rfl whole
  · rw [(imageCacheRead_refuses whole).ok]
    exact iff_of_false Bool.false_ne_true whole

theorem readPixels_append (n : Nat) (stream rest : Bytes) (enough : 4*n ≤ stream.length) :
    readPixels n (stream ++ rest) = readPixels n stream := by
  induction n generalizing stream with
  | zero => rfl
  | succ n ih =>
    match stream,enough with
    | a :: b :: c :: d :: others,enough =>
      simp only [List.length_cons] at enough
      simp only [List.cons_append,readPixels,ih others (by omega)]
    | [],enough | [_],enough | [_,_],enough | [_,_,_],enough => simp at enough <;> omega

theorem u32At_append {content : Bytes} (rest : Bytes) {i : Nat} (inside : i + 4 ≤ content.length) :
    u32At (content ++ rest) i = u32At content i := by
  have cell (j : Nat) (early : j < content.length) : byteAt (content ++ rest) j = byteAt content j := by
    rw [byteAt,byteAt,List.getD_append _ _ _ _ early]
  rw [u32At,u32At,cell i (by omega),cell (i+1) (by omega),cell (i+2) (by omega),cell (i+3) (by omega)]

-- The reader never looks past the pixels its header announces.
theorem read_ok_extended {content : Bytes} (ok : (imageCacheRead (some content)).ok = true) (rest : Bytes) :
    imageCacheRead (some (content ++ rest)) = imageCacheRead (some content) := by
  obtain ⟨accepted,whole⟩ := (imageCacheRead_ok_iff content).mp ok
  have long := accepted.long
  have count : pixelCount (content ++ rest) = pixelCount content := by
    rw [pixelCount,pixelCount,u32At_append rest (by omega),u32At_append rest (by omega),u32At_append rest (by omega)]
  have accepted' : HeaderAccepted (content ++ rest) := by
    refine ⟨by rw [List.length_append]; omega,?_,?_,?_,?_,?_⟩
    · rw [List.take_append_of_le_length (by omega)]
      exact accepted.magic
    all_goals rw [u32At_append rest (by omega)]
    · exact accepted.version
    · exact accepted.width
    · exact accepted.height
    · exact accepted.channels
  rw [imageCacheRead_accepts accepted' (by rw [count,List.length_append]; omega),imageCacheRead_accepts accepted whole,
    count,u32At_append rest (by omega),u32At_append rest (by omega),u32At_append rest (by omega),
    List.drop_append_of_le_length long,readPixels_append _ _ _ (by rw [List.length_drop]; omega)]

theorem imageCacheInspect_iff (content : Bytes) (dims : Int × Int × Int) :
    imageCacheInspect (some content) = some dims ↔
      HeaderAccepted content ∧ dims = ((u32At content 12 : Int),(u32At content 16 : Int),(u32At content 20 : Int)) := by
  by_cases accepted : HeaderAccepted content
  · simp only [imageCacheInspect,readHeader_accepts accepted,headerAt,wordAt_toNat,Option.some.injEq]
    exact ⟨fun same => ⟨accepted,same.symm⟩,fun same => same.2.symm⟩
  · cases header : readHeader content with
    | error error =>
      simp only [imageCacheInspect,header]
      exact iff_of_false (by simp) (fun both => accepted both.1)
    | ok result => exact absurd (readHeader_accepted header) accepted

theorem encoding_take {width height channels : Int} (pixels : List F32) :
    encoding pixels width height channels =
      encoding (pixels.take (width*height*channels).toNat) width height channels := by
  rw [encoding,encoding,List.take_take,Nat.min_self]

theorem read_encoding_take {width height channels : Int} {pixels : List F32}
    (range : inRange width height channels = true) (provided : (width*height*channels).toNat ≤ pixels.length) :
    imageCacheRead (some (encoding pixels width height channels)) =
      ⟨true,width,height,channels,pixels.take (width*height*channels).toNat,[]⟩ := by
  rw [encoding_take]
  exact read_encoding range (by rw [List.length_take]; exact Nat.min_eq_left provided)

theorem imageCacheWrite_ok_iff {faults : Faults} {path : Path} {pixels : List F32}
    {width height channels : Int} {disk : Files} (accepted : accepts (some pixels) width height channels = true) :
    (imageCacheWrite faults path (some pixels) width height channels disk).ok = true ↔
      faults.openRefused = false ∧ faults.writeFailed = false ∧ faults.renameRefused = false := by
  rw [imageCacheWrite_accepted accepted,writeImage]
  cases faults.openRefused <;> cases faults.writeFailed <;> cases faults.renameRefused <;> simp

-- What is read back is the width*height*channels floats from where the
-- writer's argument points on; and the writer writes it, unless a step of the
-- file system fails.
theorem aifill_format (content : Bytes) (width height channels : Int) (pixels : List F32)
    (range : inRange width height channels = true) (provided : (width*height*channels).toNat ≤ pixels.length) :
    imageCacheRead (some (encoding pixels width height channels)) =
      ⟨true,width,height,channels,pixels.take (width*height*channels).toNat,[]⟩ ∧
    (∀ faults path disk, (imageCacheWrite faults path (some pixels) width height channels disk).ok = true ↔
      faults.openRefused = false ∧ faults.writeFailed = false ∧ faults.renameRefused = false) ∧
    (∀ faults path disk, (imageCacheWrite faults path (some pixels) width height channels disk).ok = true →
      (encoding pixels width height channels).length ≤ faults.flushed →
      (imageCacheWrite faults path (some pixels) width height channels disk).final.read path =
        some (encoding pixels width height channels)) ∧
    ((imageCacheRead (some content)).ok = true ↔
      HeaderAccepted content ∧ 28 + 4 * pixelCount content ≤ content.length) ∧
    ((imageCacheRead (some content)).ok = true →
      (imageCacheRead (some content)).pixels.length = pixelCount content ∧
      imageCacheInspect (some content) = some ((imageCacheRead (some content)).width,
        (imageCacheRead (some content)).height,(imageCacheRead (some content)).channels)) ∧
    ((imageCacheRead (some content)).ok = false → Refused (imageCacheRead (some content))) ∧
    (∀ dims, imageCacheInspect (some content) = some dims ↔ HeaderAccepted content ∧
      dims = ((u32At content 12 : Int),(u32At content 16 : Int),(u32At content 20 : Int))) ∧
    Refused (imageCacheRead none) ∧ imageCacheInspect none = none := by
  refine ⟨read_encoding_take range provided,fun _ _ _ => imageCacheWrite_ok_iff range,?_,imageCacheRead_ok_iff content,
    ?_,?_,imageCacheInspect_iff content,failed_refused (by decide),rfl⟩
  · intro faults path disk ok flushed
    rw [(imageCacheWrite_content ok).2,List.take_of_length_le flushed]
  · intro ok
    obtain ⟨accepted,whole⟩ := (imageCacheRead_ok_iff content).mp ok
    have enough : 4 * pixelCount content ≤ (content.drop 28).length := by
      rw [List.length_drop]
      omega
    rw [imageCacheRead_accepts accepted whole]
    exact ⟨readPixels_length _ _ enough,(imageCacheInspect_iff content _).mpr ⟨accepted,rfl⟩⟩
  · intro refused
    refine imageCacheRead_refuses (fun whole => ?_)
    rw [(imageCacheRead_ok_iff content).mpr whole] at refused
    cases refused

theorem aifill_format_pixel :
    (imageCacheWrite (noFaults 32) (ascii "k") (some onePixel) 1 1 1 Disk.empty).ok = true ∧
    imageCacheRead ((imageCacheWrite (noFaults 32) (ascii "k") (some onePixel) 1 1 1 Disk.empty).final.read (ascii "k")) =
      ⟨true,1,1,1,onePixel,[]⟩ ∧
    Refused (imageCacheRead (some [])) := by
  have held := aifill_format [] 1 1 1 onePixel (by decide) (by decide)
  have ok := (held.2.1 (noFaults 32) (ascii "k") Disk.empty).mpr ⟨rfl,rfl,rfl⟩
  refine ⟨ok,?_,held.2.2.2.2.2.1 (by decide)⟩
  rw [held.2.2.1 _ _ _ ok (by decide)]
  exact held.1

section Truthful
variable {faults : Faults} {path : Path} {pixels : List F32} {width height channels : Int} {disk : Files}

-- A true return means the destination reads back as the image.
def Truthful (faults : Faults) (path : Path) (pixels : List F32) (width height channels : Int) (disk : Files) : Prop :=
  (imageCacheWrite faults path (some pixels) width height channels disk).ok = true →
    (imageCacheWrite faults path (some pixels) width height channels disk).final.read path =
      some (encoding pixels width height channels) ∧
    imageCacheRead ((imageCacheWrite faults path (some pixels) width height channels disk).final.read path) =
      ⟨true,width,height,channels,pixels.take (width*height*channels).toNat,[]⟩

-- The good() test stands before close(), and nothing looks at the stream
-- after it: bytes lost by that flush are lost in silence.
theorem truthful_iff (faults : Faults) (path : Path) (pixels : List F32) (width height channels : Int) (disk : Files)
    (accepted : accepts (some pixels) width height channels = true)
    (provided : (width*height*channels).toNat ≤ pixels.length) :
    Truthful faults path pixels width height channels disk ↔
      faults.openRefused = true ∨ faults.writeFailed = true ∨ faults.renameRefused = true ∨
        (encoding pixels width height channels).length ≤ faults.flushed := by
  constructor
  · intro truthful
    by_cases ok : (imageCacheWrite faults path (some pixels) width height channels disk).ok = true
    · have stored := (truthful ok).1
      rw [(imageCacheWrite_content ok).2,Option.some.injEq] at stored
      exact .inr (.inr (.inr (List.take_eq_self_iff _ |>.mp stored)))
    · rw [imageCacheWrite_ok_iff accepted] at ok
      cases opening : faults.openRefused with
      | true => exact .inl rfl
      | false =>
        cases writing : faults.writeFailed with
        | true => exact .inr (.inl rfl)
        | false =>
          cases moving : faults.renameRefused with
          | true => exact .inr (.inr (.inl rfl))
          | false => exact absurd ⟨opening,writing,moving⟩ ok
  · intro condition ok
    obtain ⟨opening,writing,moving⟩ := (imageCacheWrite_ok_iff accepted).mp ok
    obtain ⟨range,content⟩ := imageCacheWrite_content ok
    simp only [opening,writing,moving,Bool.false_eq_true,false_or] at condition
    have whole : (encoding pixels width height channels).take faults.flushed = encoding pixels width height channels :=
      List.take_of_length_le condition
    rw [content,whole]
    exact ⟨rfl,read_encoding_take range provided⟩

theorem truthful_flushed : Truthful (noFaults 32) (ascii "k") onePixel 1 1 1 Disk.empty :=
  (truthful_iff (noFaults 32) (ascii "k") onePixel 1 1 1 Disk.empty (by decide) (by decide)).mpr
    (.inr (.inr (.inr (by decide))))

-- A one-pixel image fits in the stream's buffer; close() finds the disk full.
theorem truthful_lost : ¬ ∀ (faults : Faults) (path : Path) (pixels : List F32) (width height channels : Int)
    (disk : Files), accepts (some pixels) width height channels = true →
    (width*height*channels).toNat ≤ pixels.length → Truthful faults path pixels width height channels disk := by
  intro claim
  have stored := (claim (noFaults 0) (ascii "k") onePixel 1 1 1 Disk.empty (by decide) (by decide) (by decide)).1
  exact absurd stored (by decide)

end Truthful

end SmartFill.ImageCache
