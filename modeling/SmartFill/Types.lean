import Mathlib.Data.List.Infix
import Mathlib.Data.UInt

namespace SmartFill

-- std::string and const char* knob values are byte strings. A null pointer
-- reads as the empty string (ck_str).
abbrev Bytes := List UInt8

def ascii (text : String) : Bytes := text.toList.map (fun c => c.toNat.toUInt8)

-- snprintf "%d" / "%lld" and std::to_string
def decimal : Int → Bytes
  | .ofNat n => (Nat.toDigits 10 n).map (fun c => c.toNat.toUInt8)
  | .negSucc n => ascii "-" ++ (Nat.toDigits 10 (n+1)).map (fun c => c.toNat.toUInt8)

-- A C++ int expression is defined only inside this range.
def fitsInt (n : Int) : Bool := decide (-2^31 ≤ n ∧ n < 2^31)

-- IEEE-754 binary32 values are their bit patterns, as memcpy sees them.
structure F32 where
  bits : UInt32
  deriving DecidableEq, Repr

namespace F32

def zero : F32 := ⟨0⟩
def half : F32 := ⟨0x3f000000⟩
def one : F32 := ⟨0x3f800000⟩

def magnitude (x : F32) : Nat := x.bits.toNat % 2^31

def isNaN (x : F32) : Bool := decide (0x7f800000 < x.magnitude)

-- Sign and magnitude as an integer: finite values and infinities are ordered
-- by it, and both zeros are 0.
def order (x : F32) : Int := if x.bits.toNat < 2^31 then x.magnitude else -(x.magnitude : Int)

-- Comparisons with a NaN are false, as in C++.
def le (x y : F32) : Bool := !x.isNaN && !y.isNaN && decide (x.order ≤ y.order)
def ge (x y : F32) : Bool := le y x
def lt (x y : F32) : Bool := !x.isNaN && !y.isNaN && decide (x.order < y.order)
def eq (x y : F32) : Bool := !x.isNaN && !y.isNaN && decide (x.order = y.order)

example : ge zero half = false ∧ ge one half = true := by decide

end F32

-- Rounded float arithmetic used by the pixel code. Comparisons are a field too,
-- so that exact arithmetic can be substituted for the whole record.
structure FloatOps (F : Type) where
  zero : F
  half : F
  one : F
  ofInt : Int → F
  add : F → F → F
  sub : F → F → F
  mul : F → F → F
  div : F → F → F
  floor : F → Int
  round : F → Int
  trunc : F → Int
  ge : F → F → Bool

-- The arithmetic of one target: rounding and conversions are left to it,
-- constants and comparisons are fixed by the format.
structure Rounding where
  ofInt : Int → F32
  add : F32 → F32 → F32
  sub : F32 → F32 → F32
  mul : F32 → F32 → F32
  div : F32 → F32 → F32
  floor : F32 → Int
  round : F32 → Int
  trunc : F32 → Int

def Rounding.ops (r : Rounding) : FloatOps F32 where
  zero := F32.zero
  half := F32.half
  one := F32.one
  ofInt := r.ofInt
  add := r.add
  sub := r.sub
  mul := r.mul
  div := r.div
  floor := r.floor
  round := r.round
  trunc := r.trunc
  ge := F32.ge

end SmartFill
