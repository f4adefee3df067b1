import SmartFill.AiHash
import SmartFill.Lib.ByteCode

namespace SmartFill

structure F64 where
  bits : UInt64
  deriving DecidableEq

-- One add call of CacheKeyBuilder with its typed argument.
inductive Field where
  | string (s : Bytes)
  | int32 (v : Int32)
  | int64 (v : Int64)
  | float (v : F32)
  | double (v : F64)
  | bool (v : Bool)
  | opHash (h : UInt64)
  deriving DecidableEq

namespace Field
open ByteCode

def tag : Field → UInt8
  | .string _ => 115
  | .int32 _ => 105
  | .int64 _ => 73
  | .float _ => 102
  | .double _ => 100
  | .bool _ => 98
  | .opHash _ => 104

def put64 (v : UInt64) : List Bytes :=
  [word32 (v &&& 0xffffffff).toUInt32,word32 ((v >>> 32) &&& 0xffffffff).toUInt32]

def payload : Field → List Bytes
  | .string s => [word32 s.length.toUInt32,s]
  | .int32 v => [word32 v.toUInt32]
  | .int64 v => put64 v.toUInt64
  | .float v => [word32 v.bits]
  | .double v => put64 v.bits
  | .bool v => [[if v then 1 else 0]]
  | .opHash h => put64 h

-- The arguments of the hasher.update calls made by one add, in order.
def updates (f : Field) : List Bytes := [f.tag] :: f.payload

def encode (f : Field) : Bytes := f.updates.flatten

-- The length of a string is stored in 32 bits.
def Sized : Field → Prop
  | .string s => s.length < 2^32
  | _ => True

instance : DecidablePred Sized
  | .string s => inferInstanceAs (Decidable (s.length < 2^32))
  | .int32 _ | .int64 _ | .float _ | .double _ | .bool _ | .opHash _ => isTrue trivial

theorem encode_eq (f : Field) : f.encode = f.tag :: f.payload.flatten := by
  simp [encode,updates]

theorem encode_nonempty (f : Field) : f.encode ≠ [] := by
  simp [encode_eq]

theorem put64_flatten (v : UInt64) : (put64 v).flatten = word64 v := by
  simp [put64,word64]

theorem length_word_injective {s t : Bytes} (small : s.length < 2^32) (small' : t.length < 2^32)
    (same : word32 s.length.toUInt32 = word32 t.length.toUInt32) : s.length = t.length := by
  have words := congrArg UInt32.toNat (word32_injective same)
  simp only [Nat.toUInt32_eq,UInt32.toNat_ofNat'] at words
  omega

theorem string_payload {s t rest rest' : Bytes} (small : s.length < 2^32) (small' : t.length < 2^32)
    (same : word32 s.length.toUInt32 ++ (s ++ rest) = word32 t.length.toUInt32 ++ (t ++ rest')) :
    s = t ∧ rest = rest' := by
  obtain ⟨lengths,bodies⟩ := List.append_inj same rfl
  exact List.append_inj bodies (length_word_injective small small' lengths)

theorem selfDelimiting : SelfDelimiting Sized encode := by
  intro f g rest rest' sized sized' same
  simp only [encode_eq,List.cons_append,List.cons.injEq] at same
  obtain ⟨tags,bodies⟩ := same
  -- Only the equal-tag cases survive; each has a payload of known width,
  -- except the string, whose width is its own first word.
  cases f <;> cases g <;> simp only [tag] at tags <;> try contradiction
  case string.string s t =>
    obtain ⟨rfl,rest⟩ := string_payload sized sized' (by simpa [payload] using bodies)
    exact ⟨rfl,rest⟩
  case int32.int32 v w =>
    obtain ⟨words,rest⟩ := List.append_inj bodies rfl
    have same := word32_injective (by simpa [payload] using words)
    exact ⟨by simpa using congrArg UInt32.toInt32 same,rest⟩
  case int64.int64 v w =>
    obtain ⟨words,rest⟩ := List.append_inj bodies rfl
    have same := word64_injective (by simpa only [payload,put64_flatten] using words)
    exact ⟨by simpa using congrArg UInt64.toInt64 same,rest⟩
  case float.float v w =>
    obtain ⟨words,rest⟩ := List.append_inj bodies rfl
    obtain ⟨v⟩ := v
    obtain ⟨w⟩ := w
    have same := word32_injective (by simpa [payload] using words)
    exact ⟨by rw [same],rest⟩
  case double.double v w =>
    obtain ⟨words,rest⟩ := List.append_inj bodies rfl
    obtain ⟨v⟩ := v
    obtain ⟨w⟩ := w
    have same := word64_injective (by simpa only [payload,put64_flatten] using words)
    exact ⟨by rw [same],rest⟩
  case bool.bool v w =>
    obtain ⟨words,rest⟩ := List.append_inj bodies rfl
    refine ⟨?_,rest⟩
    cases v <;> cases w <;> simp [payload] at words ⊢
  case opHash.opHash v w =>
    obtain ⟨words,rest⟩ := List.append_inj bodies rfl
    have same := word64_injective (by simpa only [payload,put64_flatten] using words)
    exact ⟨by rw [same],rest⟩

end Field

structure CacheKeyBuilder where
  hasher : Sha256

namespace CacheKeyBuilder

def empty : CacheKeyBuilder := ⟨Sha256.reset⟩

def add (kb : CacheKeyBuilder) (f : Field) : CacheKeyBuilder := ⟨f.updates.foldl Sha256.update kb.hasher⟩

-- finalize leaves the hasher reset, so the builder can be reused.
def finalize (kb : CacheKeyBuilder) : Bytes × CacheKeyBuilder :=
  (Sha256.toHex kb.hasher.finalize,empty)

end CacheKeyBuilder

def cacheKey (fields : List Field) : Bytes :=
  ((fields.foldl CacheKeyBuilder.add CacheKeyBuilder.empty).finalize).1

def keyStream (fields : List Field) : Bytes := fields.flatMap Field.encode

@[simp] theorem cacheKey_length (fields : List Field) : (cacheKey fields).length = 64 := by
  simp [cacheKey,CacheKeyBuilder.finalize,Sha256.toHex_length,Sha256.finalize_length]

theorem cacheKey_nonempty (fields : List Field) : cacheKey fields ≠ [] := by
  intro empty
  have length := cacheKey_length fields
  rw [empty] at length
  cases length

-- Nothing below evaluates a digest; without this, unification would.
attribute [irreducible] cacheKey

theorem keyStream_injective {fields fields' : List Field} (sized : ∀ f ∈ fields, f.Sized)
    (sized' : ∀ f ∈ fields', f.Sized) (same : keyStream fields = keyStream fields') : fields = fields' :=
  Field.selfDelimiting.injective Field.encode_nonempty sized sized' same

end SmartFill
