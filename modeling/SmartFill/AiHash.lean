import SmartFill.Types

namespace SmartFill

namespace AiHash

def K : List UInt32 := [
  0x428a2f98,0x71374491,0xb5c0fbcf,0xe9b5dba5,0x3956c25b,0x59f111f1,0x923f82a4,0xab1c5ed5,
  0xd807aa98,0x12835b01,0x243185be,0x550c7dc3,0x72be5d74,0x80deb1fe,0x9bdc06a7,0xc19bf174,
  0xe49b69c1,0xefbe4786,0x0fc19dc6,0x240ca1cc,0x2de92c6f,0x4a7484aa,0x5cb0a9dc,0x76f988da,
  0x983e5152,0xa831c66d,0xb00327c8,0xbf597fc7,0xc6e00bf3,0xd5a79147,0x06ca6351,0x14292967,
  0x27b70a85,0x2e1b2138,0x4d2c6dfc,0x53380d13,0x650a7354,0x766a0abb,0x81c2c92e,0x92722c85,
  0xa2bfe8a1,0xa81a664b,0xc24b8b70,0xc76c51a3,0xd192e819,0xd6990624,0xf40e3585,0x106aa070,
  0x19a4c116,0x1e376c08,0x2748774c,0x34b0bcb5,0x391c0cb3,0x4ed8aa4a,0x5b9cca4f,0x682e6ff3,
  0x748f82ee,0x78a5636f,0x84c87814,0x8cc70208,0x90befffa,0xa4506ceb,0xbef9a3f7,0xc67178f2]

def rotr (x n : UInt32) : UInt32 := (x >>> n) ||| (x <<< (32 - n))
def ch (x y z : UInt32) : UInt32 := (x &&& y) ^^^ (~~~x &&& z)
def maj (x y z : UInt32) : UInt32 := (x &&& y) ^^^ (x &&& z) ^^^ (y &&& z)
def ep0 (x : UInt32) : UInt32 := rotr x 2 ^^^ rotr x 13 ^^^ rotr x 22
def ep1 (x : UInt32) : UInt32 := rotr x 6 ^^^ rotr x 11 ^^^ rotr x 25
def sig0 (x : UInt32) : UInt32 := rotr x 7 ^^^ rotr x 18 ^^^ (x >>> 3)
def sig1 (x : UInt32) : UInt32 := rotr x 17 ^^^ rotr x 19 ^^^ (x >>> 10)

-- state_[0..7]
structure Words where
  a : UInt32
  b : UInt32
  c : UInt32
  d : UInt32
  e : UInt32
  f : UInt32
  g : UInt32
  h : UInt32
  deriving DecidableEq

def initialWords : Words :=
  ⟨0x6a09e667,0xbb67ae85,0x3c6ef372,0xa54ff53a,0x510e527f,0x9b05688c,0x1f83d9ab,0x5be0cd19⟩

def Words.toList (s : Words) : List UInt32 := [s.a,s.b,s.c,s.d,s.e,s.f,s.g,s.h]

def Words.add (s t : Words) : Words :=
  ⟨s.a+t.a,s.b+t.b,s.c+t.c,s.d+t.d,s.e+t.e,s.f+t.f,s.g+t.g,s.h+t.h⟩

def bigEndian (a b c d : UInt8) : UInt32 :=
  (a.toUInt32 <<< 24) ||| (b.toUInt32 <<< 16) ||| (c.toUInt32 <<< 8) ||| d.toUInt32

def load : Bytes → List UInt32
  | a :: b :: c :: d :: rest => bigEndian a b c d :: load rest
  | _ => []

-- One pass of the extension loop appends w[i] for the current length i.
def extend : Nat → List UInt32 → List UInt32
  | 0,w => w
  | n+1,w =>
    let at_ := fun back => w.getD (w.length - back) 0
    extend n (w ++ [sig1 (at_ 2) + at_ 7 + sig0 (at_ 15) + at_ 16])

def round (s : Words) (kw : UInt32 × UInt32) : Words :=
  let t1 := s.h + ep1 s.e + ch s.e s.f s.g + kw.1 + kw.2
  let t2 := ep0 s.a + maj s.a s.b s.c
  ⟨t1+t2,s.a,s.b,s.c,s.d+t1,s.e,s.f,s.g⟩

def transform (state : Words) (chunk : Bytes) : Words :=
  let w := extend 48 (load chunk)
  state.add ((K.zip w).foldl round state)

end AiHash

open AiHash

-- buffer holds the first buffer_len_ bytes of buffer_.
structure Sha256 where
  state : Words
  bitLength : UInt64
  buffer : Bytes
  deriving DecidableEq

namespace Sha256

def reset : Sha256 := ⟨initialWords,0,[]⟩

-- The body of update's loop; the count is a bound on its iterations, each of
-- which takes at least one byte.
def updateLoop : Nat → Sha256 → Bytes → Sha256
  | 0,h,_ => h
  | fuel+1,h,data =>
    if data = [] then h else
    let take := min (64 - h.buffer.length) data.length
    let filled := h.buffer ++ data.take take
    let bits := h.bitLength + take.toUInt64 * 8
    let next : Sha256 :=
      if filled.length = 64 then ⟨transform h.state filled,bits,[]⟩ else ⟨h.state,bits,filled⟩
    updateLoop fuel next (data.drop take)

def update (h : Sha256) (data : Bytes) : Sha256 := updateLoop data.length h data

def zeros (n : Nat) : Bytes := List.replicate n 0

def lengthBytes (bits : UInt64) : Bytes :=
  [7,6,5,4,3,2,1,0].map (fun i : Nat => ((bits >>> (i*8).toUInt64) &&& 0xff).toUInt8)

def wordBytes (w : UInt32) : Bytes :=
  [((w >>> 24) &&& 0xff).toUInt8,((w >>> 16) &&& 0xff).toUInt8,((w >>> 8) &&& 0xff).toUInt8,(w &&& 0xff).toUInt8]

-- The digest; the object itself is reset, see CacheKeyBuilder.
def finalize (h : Sha256) : Bytes :=
  let marked := h.buffer ++ [0x80]
  let (state,buffer) : Words × Bytes :=
    if 56 < marked.length then (transform h.state (marked ++ zeros (64 - marked.length)),[])
    else (h.state,marked)
  let last := buffer ++ zeros (56 - buffer.length) ++ lengthBytes h.bitLength
  (transform state last).toList.flatMap wordBytes

def hexDigit (n : UInt8) : UInt8 := if n < 10 then 48 + n else 87 + n

def toHex (digest : Bytes) : Bytes :=
  digest.flatMap (fun b : UInt8 => [hexDigit ((b >>> 4) &&& 0x0f),hexDigit (b &&& 0x0f)])

theorem finalize_length (h : Sha256) : h.finalize.length = 32 := by
  simp [finalize,Words.toList,wordBytes]

theorem toHex_length (digest : Bytes) : (toHex digest).length = 2 * digest.length := by
  induction digest with
  | nil => rfl
  | cons b rest ih =>
    simp only [toHex,List.flatMap_cons,List.length_append,List.length_cons,List.length_nil] at ih ⊢
    omega

end Sha256

end SmartFill
