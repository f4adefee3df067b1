import Mathlib.Algebra.Group.Nat.Defs
import Mathlib.Data.List.Basic
import SmartFill.Lib.BlockStream

-- SHA-256 of a message of whole bytes, as FIPS 180-4 defines it.
namespace Fips180

abbrev Word := BitVec 32

def rotr (n : Nat) (x : Word) : Word := (x >>> n) ||| (x <<< (32-n))
def shr (n : Nat) (x : Word) : Word := x >>> n

def ch (x y z : Word) : Word := (x &&& y) ^^^ (~~~x &&& z)
def maj (x y z : Word) : Word := (x &&& y) ^^^ (x &&& z) ^^^ (y &&& z)
def bigSigma0 (x : Word) : Word := rotr 2 x ^^^ rotr 13 x ^^^ rotr 22 x
def bigSigma1 (x : Word) : Word := rotr 6 x ^^^ rotr 11 x ^^^ rotr 25 x
def smallSigma0 (x : Word) : Word := rotr 7 x ^^^ rotr 18 x ^^^ shr 3 x
def smallSigma1 (x : Word) : Word := rotr 17 x ^^^ rotr 19 x ^^^ shr 10 x

-- The integer e-th root of n, bit by bit from below 2^bits.
def root (e n : Nat) : Nat → Nat → Nat
  | 0,r => r
  | bit+1,r => root e n bit (if (r + 2^bit)^e ≤ n then r + 2^bit else r)

-- The first 32 bits of the fractional part of the e-th root of p.
def fraction (e p : Nat) : Word := BitVec.ofNat 32 (root e (p * 2^(32*e)) 40 0)

def primes : List Nat :=
  (List.range 312).filter (fun p => decide (2 ≤ p) && (List.range p).all (fun d => decide (d < 2) || p % d != 0))

def roundConstants : List Word := primes.map (fraction 3)

def initialHash : List Word := (primes.take 8).map (fraction 2)

structure Working where
  a : Word
  b : Word
  c : Word
  d : Word
  e : Word
  f : Word
  g : Word
  h : Word

def Working.ofList (ws : List Word) : Working :=
  ⟨ws.getD 0 0,ws.getD 1 0,ws.getD 2 0,ws.getD 3 0,ws.getD 4 0,ws.getD 5 0,ws.getD 6 0,ws.getD 7 0⟩

def Working.toList (v : Working) : List Word := [v.a,v.b,v.c,v.d,v.e,v.f,v.g,v.h]

def Working.add (v w : Working) : Working :=
  ⟨v.a+w.a,v.b+w.b,v.c+w.c,v.d+w.d,v.e+w.e,v.f+w.f,v.g+w.g,v.h+w.h⟩

-- Word t of a block, its first byte the most significant.
def blockWord (block : List UInt8) (t : Nat) : Word :=
  let byte := fun i => (block.getD (4*t+i) 0).toBitVec
  (byte 0 ++ byte 1 ++ byte 2 ++ byte 3 : BitVec (8+8+8+8))

def schedule (block : List UInt8) (t : Nat) : Word :=
  if t < 16 then blockWord block t
  else smallSigma1 (schedule block (t-2)) + schedule block (t-7) + smallSigma0 (schedule block (t-15)) +
    schedule block (t-16)
termination_by t

def step (v : Working) (k w : Word) : Working :=
  let t1 := v.h + bigSigma1 v.e + ch v.e v.f v.g + k + w
  let t2 := bigSigma0 v.a + maj v.a v.b v.c
  ⟨t1+t2,v.a,v.b,v.c,v.d+t1,v.e,v.f,v.g⟩

def compress (v : Working) (block : List UInt8) : Working :=
  v.add ((List.range 64).foldl (fun v t => step v (roundConstants.getD t 0) (schedule block t)) v)

-- The length in bits, as a big-endian 64-bit number.
def lengthField (bits : Nat) : List UInt8 :=
  [7,6,5,4,3,2,1,0].map (fun i => (bits / 256^i).toUInt8)

-- For a message of n bytes: a set bit, as few zeros as bring the length to 56
-- modulo 64, and the length.
def padding (n : Nat) : List UInt8 :=
  0x80 :: (List.replicate ((119 - n % 64) % 64) 0 ++ lengthField (8*n))

def bytes (w : Word) : List UInt8 :=
  [⟨w.extractLsb' 24 8⟩,⟨w.extractLsb' 16 8⟩,⟨w.extractLsb' 8 8⟩,⟨w.extractLsb' 0 8⟩]

def sha256 (message : List UInt8) : List UInt8 :=
  (BlockStream.absorb 64 compress (Working.ofList initialHash) (message ++ padding message.length)).toList.flatMap bytes

theorem schedule_block (block : List UInt8) {t : Nat} (first : t < 16) : schedule block t = blockWord block t := by
  rw [schedule,if_pos first]

theorem schedule_later (block : List UInt8) {t : Nat} (later : 16 ≤ t) : schedule block t =
    smallSigma1 (schedule block (t-2)) + schedule block (t-7) + smallSigma0 (schedule block (t-15)) +
      schedule block (t-16) := by
  rw [schedule,if_neg (by omega)]

example : roundConstants.length = 64 := by decide +kernel

end Fips180
