import SmartFill.Types
import SmartFill.Lib.ByteCode
import SmartFill.Lib.Disk

namespace SmartFill

abbrev Path := Bytes
abbrev Files := Disk Path UInt8

namespace ImageCache
open ByteCode

def kMagic : Bytes := [65,73,70,73,76,76,0,0]
def kImageCacheVersion : UInt32 := 1
def kMaxDim : Int := 32768
def kMaxChannels : Int := 8

def inRange (width height channels : Int) : Bool :=
  decide (0 < width ∧ width ≤ kMaxDim ∧ 0 < height ∧ height ≤ kMaxDim ∧
    0 < channels ∧ channels ≤ kMaxChannels)

def headerBytes (width height channels : Int) : Bytes :=
  kMagic ++ word32 kImageCacheVersion ++ word32 width.toNat.toUInt32 ++
    word32 height.toNat.toUInt32 ++ word32 channels.toNat.toUInt32 ++ word32 0

def pixelBytes (pixels : List F32) : Bytes := pixels.flatMap (fun p => word32 p.bits)

def encoding (pixels : List F32) (width height channels : Int) : Bytes :=
  headerBytes width height channels ++ pixelBytes (pixels.take (width*height*channels).toNat)

structure Header where
  version : UInt32
  width : UInt32
  height : UInt32
  channels : UInt32
  reserved : UInt32

-- in.read followed by in.good(): all of the bytes or a failed stream.
def readBytes (n : Nat) (stream : Bytes) : Option (Bytes × Bytes) :=
  if n ≤ stream.length then some (stream.take n,stream.drop n) else none

def readU32Le : Bytes → Option (UInt32 × Bytes)
  | a :: b :: c :: d :: rest => some (readWord32 a b c d,rest)
  | _ => none

def readFields (stream : Bytes) : Option (Header × Bytes) := do
  let (version,stream) ← readU32Le stream
  let (width,stream) ← readU32Le stream
  let (height,stream) ← readU32Le stream
  let (channels,stream) ← readU32Le stream
  let (reserved,stream) ← readU32Le stream
  return (⟨version,width,height,channels,reserved⟩,stream)

def readHeader (stream : Bytes) : Except Bytes (Header × Bytes) :=
  match readBytes 8 stream with
  | none => .error (ascii "short read on magic")
  | some (magic,stream) =>
    if magic ≠ kMagic then .error (ascii "bad magic (file is not .aifill format)") else
    match readFields stream with
    | none => .error (ascii "short read on header fields")
    | some (h,stream) =>
      if h.version ≠ kImageCacheVersion then
        .error (ascii "unsupported file version " ++ decimal h.version.toNat)
      else if inRange h.width.toNat h.height.toNat h.channels.toNat then .ok (h,stream)
      else .error (ascii "dimensions out of range")

def readPixels : Nat → Bytes → List F32
  | 0,_ => []
  | n+1,a :: b :: c :: d :: rest => ⟨readWord32 a b c d⟩ :: readPixels n rest
  | _+1,_ => []

structure ImageCacheReadResult where
  ok : Bool
  width : Int
  height : Int
  channels : Int
  pixels : List F32
  error : Bytes
  deriving DecidableEq

def failed (error : Bytes) : ImageCacheReadResult := ⟨false,0,0,0,[],error⟩

-- image_cache_read on what an open of the path finds; none when it cannot open.
def imageCacheRead : Option Bytes → ImageCacheReadResult
  | none => failed (ascii "cannot open file")
  | some stream =>
    match readHeader stream with
    | .error error => failed error
    | .ok (h,stream) =>
      let n := h.width.toNat * h.height.toNat * h.channels.toNat
      if stream.length < 4*n then failed (ascii "short read on pixel data")
      else ⟨true,h.width.toNat,h.height.toNat,h.channels.toNat,readPixels n stream,[]⟩

theorem readU32Le_word (v : UInt32) (rest : Bytes) : readU32Le (word32 v ++ rest) = some (v,rest) := by
  simp [word32_eq,readU32Le,word32_roundtrip]

theorem pixelBytes_length (pixels : List F32) : (pixelBytes pixels).length = 4 * pixels.length := by
  induction pixels with
  | nil => rfl
  | cons p rest ih =>
    simp only [pixelBytes,List.flatMap_cons,List.length_append,word32_length,List.length_cons] at ih ⊢
    omega

theorem readPixels_length (n : Nat) (stream : Bytes) (enough : 4*n ≤ stream.length) :
    (readPixels n stream).length = n := by
  induction n generalizing stream with
  | zero => rfl
  | succ n ih =>
    match stream,enough with
    | a :: b :: c :: d :: rest,enough =>
      simp only [List.length_cons] at enough
      simp [readPixels,ih rest (by omega)]
    | [],enough | [_],enough | [_,_],enough | [_,_,_],enough => simp at enough <;> omega

theorem readPixels_bytes (pixels : List F32) (rest : Bytes) :
    readPixels pixels.length (pixelBytes pixels ++ rest) = pixels := by
  induction pixels with
  | nil => rfl
  | cons p others ih =>
    obtain ⟨bits⟩ := p
    have head : pixelBytes (⟨bits⟩ :: others) = word32 bits ++ pixelBytes others := rfl
    rw [head,List.append_assoc,word32_eq,List.length_cons]
    simp only [List.cons_append,List.nil_append,readPixels,word32_roundtrip,ih]

theorem toNat_word {n : Int} (positive : 0 < n) (bounded : n ≤ kMaxDim) :
    (n.toNat.toUInt32.toNat : Int) = n := by
  simp only [kMaxDim] at bounded
  simp only [Nat.toUInt32_eq,UInt32.toNat_ofNat']
  omega

theorem readHeader_encoding {width height channels : Int} (range : inRange width height channels = true)
    (rest : Bytes) : readHeader (headerBytes width height channels ++ rest) =
      .ok (⟨1,width.toNat.toUInt32,height.toNat.toUInt32,channels.toNat.toUInt32,0⟩,rest) := by
  have parts := of_decide_eq_true range
  have channelBound : channels ≤ kMaxDim := le_trans parts.2.2.2.2.2 (by decide)
  have magic : readBytes 8 (headerBytes width height channels ++ rest) =
      some (kMagic,word32 1 ++ word32 width.toNat.toUInt32 ++ word32 height.toNat.toUInt32 ++
        word32 channels.toNat.toUInt32 ++ word32 0 ++ rest) := by
    simp [headerBytes,readBytes,kMagic,kImageCacheVersion]
  have fields : readFields (word32 1 ++ word32 width.toNat.toUInt32 ++ word32 height.toNat.toUInt32 ++
      word32 channels.toNat.toUInt32 ++ word32 0 ++ rest) =
      some (⟨1,width.toNat.toUInt32,height.toNat.toUInt32,channels.toNat.toUInt32,0⟩,rest) := by
    simp [readFields,List.append_assoc,readU32Le_word]
  have dims : inRange width.toNat.toUInt32.toNat height.toNat.toUInt32.toNat
      channels.toNat.toUInt32.toNat = true := by
    rw [toNat_word parts.1 parts.2.1,toNat_word parts.2.2.1 parts.2.2.2.1,
      toNat_word parts.2.2.2.2.1 channelBound]
    exact range
  simp only [readHeader,magic,fields]
  rw [if_neg (by simp),if_neg (by simp [kImageCacheVersion]),if_pos dims]

theorem count_words {width height channels : Int} {pixels : List F32}
    (range : inRange width height channels = true) (sized : pixels.length = (width*height*channels).toNat) :
    width.toNat.toUInt32.toNat * height.toNat.toUInt32.toNat * channels.toNat.toUInt32.toNat = pixels.length := by
  have parts := of_decide_eq_true range
  have channelBound : channels ≤ kMaxDim := le_trans parts.2.2.2.2.2 (by decide)
  rw [sized]
  apply Int.ofNat.inj
  simp only [Int.ofNat_eq_natCast,Nat.cast_mul,toNat_word parts.1 parts.2.1,toNat_word parts.2.2.1 parts.2.2.2.1,
    toNat_word parts.2.2.2.2.1 channelBound]
  exact (Int.toNat_of_nonneg (by have := parts.1; have := parts.2.2.1; have := parts.2.2.2.2.1; positivity)).symm

theorem read_encoding {width height channels : Int} {pixels : List F32}
    (range : inRange width height channels = true) (sized : pixels.length = (width*height*channels).toNat) :
    imageCacheRead (some (encoding pixels width height channels)) =
      ⟨true,width,height,channels,pixels,[]⟩ := by
  have parts := of_decide_eq_true range
  have channelBound : channels ≤ kMaxDim := le_trans parts.2.2.2.2.2 (by decide)
  have w := toNat_word parts.1 parts.2.1
  have h := toNat_word parts.2.2.1 parts.2.2.2.1
  have c := toNat_word parts.2.2.2.2.1 channelBound
  have count := count_words range sized
  have whole : pixels.take (width*height*channels).toNat = pixels := List.take_of_length_le (le_of_eq sized)
  simp only [imageCacheRead,encoding,whole,readHeader_encoding range]
  rw [count,if_neg (by rw [pixelBytes_length]; omega),w,h,c]
  have pixelsBack := readPixels_bytes pixels []
  rw [List.append_nil] at pixelsBack
  rw [pixelsBack]

theorem readU32Le_length {stream rest : Bytes} {v : UInt32} (read : readU32Le stream = some (v,rest)) :
    stream.length = 4 + rest.length := by
  match stream,read with
  | a :: b :: c :: d :: others,read =>
    cases read
    simp only [List.length_cons]
    omega
  | [],read | [_],read | [_,_],read | [_,_,_],read => cases read

theorem readFields_length {stream rest : Bytes} {h : Header} (read : readFields stream = some (h,rest)) :
    stream.length = 20 + rest.length := by
  simp only [readFields,Option.bind_eq_bind,Option.bind_eq_some_iff,Option.pure_def,Option.some.injEq,Prod.exists] at read
  obtain ⟨_,one,r1,_,two,r2,_,three,r3,_,four,r4,_,five,r5,same⟩ := read
  cases same
  have l1 := readU32Le_length r1
  have l2 := readU32Le_length r2
  have l3 := readU32Le_length r3
  have l4 := readU32Le_length r4
  have l5 := readU32Le_length r5
  omega

theorem readHeader_length {stream rest : Bytes} {h : Header} (read : readHeader stream = .ok (h,rest)) :
    stream.length = 28 + rest.length := by
  unfold readHeader at read
  split at read
  · cases read
  · rename_i magic others magicRead
    unfold readBytes at magicRead
    split at magicRead
    · rename_i enough
      cases magicRead
      split at read
      · cases read
      · split at read
        · cases read
        · rename_i fields
          have length := readFields_length fields
          rw [List.length_drop] at length
          split at read
          · cases read
          · split at read <;> cases read
            omega
    · cases magicRead

theorem headerBytes_length (width height channels : Int) : (headerBytes width height channels).length = 28 := rfl

-- A prefix of an encoding that the reader accepts is all of it.
theorem read_truncated {width height channels : Int} {pixels : List F32} {n : Nat}
    (range : inRange width height channels = true) (sized : pixels.length = (width*height*channels).toNat)
    (ok : (imageCacheRead (some ((encoding pixels width height channels).take n))).ok = true) :
    (encoding pixels width height channels).take n = encoding pixels width height channels := by
  have whole : pixels.take (width*height*channels).toNat = pixels := List.take_of_length_le (le_of_eq sized)
  have long : 28 ≤ n := by
    by_contra short
    cases header : readHeader ((encoding pixels width height channels).take n) with
    | error error => simp [imageCacheRead,header,failed] at ok
    | ok result =>
      have length := readHeader_length header
      rw [List.length_take] at length
      omega
  have split : (encoding pixels width height channels).take n =
      headerBytes width height channels ++ (pixelBytes pixels).take (n-28) := by
    rw [encoding,whole,List.take_append,headerBytes_length,List.take_of_length_le]
    rw [headerBytes_length]
    exact long
  rw [split] at ok ⊢
  simp only [imageCacheRead,readHeader_encoding range,count_words range sized] at ok
  split at ok
  · cases ok
  · rename_i enough
    have all : (pixelBytes pixels).take (n-28) = pixelBytes pixels := by
      apply List.take_of_length_le
      rw [List.length_take,pixelBytes_length] at enough
      rw [pixelBytes_length]
      omega
    rw [all,encoding,whole]

theorem read_ok_sized {content : Option Bytes} (ok : (imageCacheRead content).ok = true) :
    inRange (imageCacheRead content).width (imageCacheRead content).height (imageCacheRead content).channels = true ∧
    ((imageCacheRead content).pixels.length : Int) =
      (imageCacheRead content).width * (imageCacheRead content).height * (imageCacheRead content).channels := by
  cases content with
  | none => cases ok
  | some stream =>
    simp only [imageCacheRead] at ok ⊢
    cases header : readHeader stream with
    | error error => simp [header,failed] at ok
    | ok result =>
      obtain ⟨h,rest⟩ := result
      simp only [header] at ok ⊢
      split at ok
      · cases ok
      · rename_i enough
        rw [if_neg enough]
        have range : inRange h.width.toNat h.height.toNat h.channels.toNat = true := by
          unfold readHeader at header
          repeat' split at header
          all_goals cases header
          assumption
        refine ⟨range,?_⟩
        have length := readPixels_length _ rest (not_lt.mp enough)
        simp only [length,Nat.cast_mul]

theorem read_ok_error {content : Option Bytes} (ok : (imageCacheRead content).ok = true) :
    (imageCacheRead content).error = [] := by
  cases content with
  | none => cases ok
  | some stream =>
    simp only [imageCacheRead] at ok ⊢
    cases header : readHeader stream with
    | error error => simp [header,failed] at ok
    | ok result =>
      simp only [header] at ok ⊢
      split at ok
      · cases ok
      · rename_i enough
        rw [if_neg enough]

end ImageCache

end SmartFill
