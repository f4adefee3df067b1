import SmartFill.HashStream
import SmartFill.CacheKey

namespace SmartFill
open AiHash

namespace Sha256

def hexPair (b : UInt8) : Bytes := [hexDigit ((b >>> 4) &&& 0x0f),hexDigit (b &&& 0x0f)]

def unhex (c : UInt8) : UInt8 := if c < 58 then c - 48 else c - 87

theorem hexPair_decodes (b : UInt8) :
    (unhex (hexDigit ((b >>> 4) &&& 0x0f)) <<< 4) ||| unhex (hexDigit (b &&& 0x0f)) = b := by
  have table : ∀ n < 256, (unhex (hexDigit ((UInt8.ofNat n >>> 4) &&& 0x0f)) <<< 4) |||
      unhex (hexDigit (UInt8.ofNat n &&& 0x0f)) = UInt8.ofNat n := by decide +kernel
  simpa using table b.toNat b.toNat_lt

theorem toHex_cons (b : UInt8) (digest : Bytes) : toHex (b :: digest) = hexPair b ++ toHex digest := rfl

theorem toHex_injective : Function.Injective toHex := by
  intro left right same
  induction left generalizing right with
  | nil =>
    cases right with
    | nil => rfl
    | cons b rest => cases same
  | cons a left ih =>
    cases right with
    | nil => cases same
    | cons b right =>
      rw [toHex_cons,toHex_cons] at same
      obtain ⟨pair,rest⟩ := List.append_inj same rfl
      simp only [hexPair,List.cons.injEq,and_true] at pair
      rw [← hexPair_decodes a,← hexPair_decodes b,pair.1,pair.2,ih rest]

end Sha256

def hexChar (c : UInt8) : Bool := (decide (48 ≤ c) && decide (c ≤ 57)) || (decide (97 ≤ c) && decide (c ≤ 102))

def isHexKey (s : Bytes) : Bool := if s.length ≠ 64 then false else s.all hexChar

theorem hexPair_hex (b : UInt8) : (Sha256.hexPair b).all hexChar = true := by
  have table : ∀ n < 256, (Sha256.hexPair (UInt8.ofNat n)).all hexChar = true := by decide +kernel
  simpa using table b.toNat b.toNat_lt

theorem toHex_hex (digest : Bytes) : (Sha256.toHex digest).all hexChar = true := by
  induction digest with
  | nil => rfl
  | cons b rest ih => rw [Sha256.toHex_cons,List.all_append,hexPair_hex,ih,Bool.and_self]

namespace CacheKeyBuilder
open Sha256 (Absorbed)
variable {kb : CacheKeyBuilder} {m : Bytes} {fields : List Field}

theorem updates_absorbed {h : Sha256} (parts : List Bytes) (absorbed : Absorbed h m) :
    Absorbed (parts.foldl Sha256.update h) (m ++ parts.flatten) := by
  induction parts generalizing h m with
  | nil => simpa using absorbed
  | cons part rest ih =>
    have later := ih (absorbed.update part)
    rw [List.append_assoc] at later
    exact later

theorem add_absorbed (f : Field) (absorbed : Absorbed kb.hasher m) : Absorbed (kb.add f).hasher (m ++ f.encode) :=
  updates_absorbed f.updates absorbed

theorem fields_absorbed (fields : List Field) (absorbed : Absorbed kb.hasher m) :
    Absorbed (fields.foldl add kb).hasher (m ++ keyStream fields) := by
  induction fields generalizing kb m with
  | nil => simpa [keyStream] using absorbed
  | cons f rest ih =>
    have later := ih (add_absorbed f absorbed)
    rw [List.append_assoc] at later
    exact later

inductive Call
  | add (f : Field)
  | finalize

-- The keys a sequence of calls on one builder returns.
def keys : CacheKeyBuilder → List Call → List Bytes
  | _,[] => []
  | kb,.add f :: calls => keys (kb.add f) calls
  | kb,.finalize :: calls => kb.finalize.1 :: keys kb.finalize.2 calls

-- For each finalize, the fields added since the previous one; pending are
-- those added before these calls.
def fieldLists : List Field → List Call → List (List Field)
  | _,[] => []
  | pending,.add f :: calls => fieldLists (pending ++ [f]) calls
  | pending,.finalize :: calls => pending :: fieldLists [] calls

theorem keys_pending (calls : List Call) (pending : List Field) :
    keys (pending.foldl add empty) calls = (fieldLists pending calls).map cacheKey := by
  induction calls generalizing pending with
  | nil => rfl
  | cons c calls ih =>
    cases c with
    | add f =>
      rw [keys,fieldLists,← ih,List.foldl_append]
      rfl
    | finalize =>
      rw [keys,fieldLists,List.map_cons,← ih,cacheKey]
      rfl

end CacheKeyBuilder
open CacheKeyBuilder (Call keys fieldLists fields_absorbed keys_pending)

theorem stream_absorbed (fields : List Field) :
    (fields.foldl CacheKeyBuilder.add CacheKeyBuilder.empty).hasher.Absorbed (keyStream fields) :=
  fields_absorbed fields Sha256.reset_absorbed

-- The digest behind a key is that of the fields' stream, given at once.
theorem cacheKey_stream (fields : List Field) :
    cacheKey fields = Sha256.toHex (Sha256.reset.update (keyStream fields)).finalize := by
  have whole := Sha256.reset_absorbed.update (keyStream fields)
  rw [cacheKey,CacheKeyBuilder.finalize,(stream_absorbed fields).unique whole]

theorem cacheKey_sha256 {fields : List Field} (short : (keyStream fields).length < 2^61) :
    cacheKey fields = Sha256.toHex (Fips180.sha256 (keyStream fields)) := by
  rw [cacheKey_stream,(Sha256.reset_absorbed.update (keyStream fields)).finalize short]
  rfl

theorem cacheKey_hex (fields : List Field) : isHexKey (cacheKey fields) = true := by
  rw [isHexKey,if_neg (by rw [cacheKey_length]; decide),cacheKey_stream]
  exact toHex_hex _

theorem keys_builder (fields fields' : List Field) (calls : List Call) (sized : ∀ f ∈ fields, f.Sized)
    (sized' : ∀ f ∈ fields', f.Sized) :
    (fields.foldl CacheKeyBuilder.add CacheKeyBuilder.empty).hasher.Absorbed (keyStream fields) ∧
    (keyStream fields = keyStream fields' → fields = fields') ∧
    (∀ tail, keyStream fields ++ tail = keyStream fields' →
      ∃ more, fields' = fields ++ more ∧ tail = keyStream more) ∧
    keys CacheKeyBuilder.empty calls = (fieldLists [] calls).map cacheKey ∧
    ((keyStream fields).length < 2^61 → cacheKey fields = Sha256.toHex (Fips180.sha256 (keyStream fields))) ∧
    (∀ key ∈ keys CacheKeyBuilder.empty calls, isHexKey key = true) ∧
    (∀ digest digest', digest ≠ digest' → Sha256.toHex digest ≠ Sha256.toHex digest') := by
  have served := keys_pending calls []
  refine ⟨stream_absorbed fields,keyStream_injective sized sized',?_,served,cacheKey_sha256,?_,?_⟩
  · intro tail same
    exact Field.selfDelimiting.extends Field.encode_nonempty sized sized' same
  · intro key member
    have member : key ∈ (fieldLists [] calls).map cacheKey := by rwa [← served]
    obtain ⟨pending,_,rfl⟩ := List.mem_map.mp member
    exact cacheKey_hex pending
  · intro digest digest' distinct same
    exact distinct (Sha256.toHex_injective same)

-- A string that spells the tag and bytes of an integer is still another
-- stream, and the key of the integer is the digest of its own.
theorem keys_builder_imitation : [Field.int32 1] ≠ [Field.string [105,1,0,0,0]] ∧
    keyStream [.int32 1] ≠ keyStream [.string [105,1,0,0,0]] ∧
    keys CacheKeyBuilder.empty [.add (.int32 1),.finalize] =
      [Sha256.toHex (Fips180.sha256 (keyStream [.int32 1]))] := by
  have distinct : [Field.int32 1] ≠ [Field.string [105,1,0,0,0]] := by decide
  have held := keys_builder [.int32 1] [.string [105,1,0,0,0]] [.add (.int32 1),.finalize] (by decide) (by decide)
  refine ⟨distinct,fun same => distinct (held.2.1 same),?_⟩
  rw [held.2.2.2.1,← held.2.2.2.2.1 (by decide)]
  rfl

end SmartFill
