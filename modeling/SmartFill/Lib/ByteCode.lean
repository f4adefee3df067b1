import Mathlib.Data.UInt
import Mathlib.Tactic.IntervalCases
import Mathlib.Data.List.Basic

namespace ByteCode

def word32 (v : UInt32) : List UInt8 :=
  [(v &&& 0xff).toUInt8,((v >>> 8) &&& 0xff).toUInt8,
    ((v >>> 16) &&& 0xff).toUInt8,((v >>> 24) &&& 0xff).toUInt8]

def readWord32 (a b c d : UInt8) : UInt32 :=
  a.toUInt32 ||| (b.toUInt32 <<< 8) ||| (c.toUInt32 <<< 16) ||| (d.toUInt32 <<< 24)

def word64 (v : UInt64) : List UInt8 :=
  word32 (v &&& 0xffffffff).toUInt32 ++ word32 ((v >>> 32) &&& 0xffffffff).toUInt32

@[simp] theorem word32_length (v : UInt32) : (word32 v).length = 4 := rfl

theorem low_byte (v : UInt32) : (v &&& 0xff).toUInt8 = v.toUInt8 := by
  apply UInt8.toNat_inj.mp
  simp only [UInt32.toNat_toUInt8,UInt32.toNat_and]
  rw [show (0xff : UInt32).toNat = 2^8-1 from rfl,Nat.and_two_pow_sub_one_eq_mod]
  omega

theorem low_word (v : UInt64) : (v &&& 0xffffffff).toUInt32 = v.toUInt32 := by
  apply UInt32.toNat_inj.mp
  simp only [UInt64.toNat_toUInt32,UInt64.toNat_and]
  rw [show (0xffffffff : UInt64).toNat = 2^32-1 from rfl,Nat.and_two_pow_sub_one_eq_mod]
  omega

theorem word32_eq (v : UInt32) :
    word32 v = [v.toUInt8,(v >>> 8).toUInt8,(v >>> 16).toUInt8,(v >>> 24).toUInt8] := by
  simp only [word32,low_byte]

theorem word32_roundtrip (v : UInt32) :
    readWord32 v.toUInt8 (v >>> 8).toUInt8 (v >>> 16).toUInt8 (v >>> 24).toUInt8 = v := by
  apply UInt32.toBitVec_inj.mp
  apply BitVec.eq_of_getLsbD_eq
  intro i bound
  simp only [readWord32,UInt32.toBitVec_or,UInt32.toBitVec_shiftLeft,UInt8.toBitVec_toUInt32,
    UInt32.toBitVec_toUInt8,UInt32.toBitVec_shiftRight,BitVec.getLsbD_or,BitVec.getLsbD_setWidth]
  interval_cases i <;> simp [-BitVec.setWidth_setWidth_of_le]

theorem byte_ext {a b : UInt8} (same : ∀ i < 8, a.toBitVec.getLsbD i = b.toBitVec.getLsbD i) : a = b :=
  UInt8.toBitVec_inj.mp (BitVec.eq_of_getLsbD_eq same)

theorem readWord32_bytes (a b c d : UInt8) : word32 (readWord32 a b c d) = [a,b,c,d] := by
  simp only [word32_eq,readWord32,List.cons.injEq,and_true]
  refine ⟨byte_ext ?_,byte_ext ?_,byte_ext ?_,byte_ext ?_⟩
  · intro i bound
    simp
  · intro i bound
    interval_cases i <;> simp
  · intro i bound
    interval_cases i <;> simp
  · intro i bound
    interval_cases i <;> simp

theorem word32_injective : Function.Injective word32 := by
  intro v w same
  simp only [word32_eq,List.cons.injEq,and_true] at same
  obtain ⟨one,two,three,four⟩ := same
  rw [← word32_roundtrip v,← word32_roundtrip w,one,two,three,four]

theorem words_join (v : UInt64) :
    v.toUInt32.toUInt64 ||| ((v >>> 32).toUInt32.toUInt64 <<< 32) = v := by
  apply UInt64.toBitVec_inj.mp
  apply BitVec.eq_of_getLsbD_eq
  intro i bound
  simp only [UInt64.toBitVec_or,UInt64.toBitVec_shiftLeft,UInt32.toBitVec_toUInt64,
    UInt64.toBitVec_toUInt32,UInt64.toBitVec_shiftRight,BitVec.getLsbD_or,BitVec.getLsbD_setWidth]
  interval_cases i <;> simp [-BitVec.setWidth_setWidth_of_le]

theorem word64_injective : Function.Injective word64 := by
  intro v w same
  simp only [word64,low_word] at same
  obtain ⟨low,high⟩ := List.append_inj same rfl
  rw [← words_join v,← words_join w,word32_injective low,word32_injective high]

section SelfDelimiting
variable {α β : Type} {valid : α → Prop} {enc : α → List β}

-- Two codewords followed by anything agree only when they are the same value
-- and the same remainder: no codeword is a proper prefix of another one.
def SelfDelimiting (valid : α → Prop) (enc : α → List β) : Prop :=
  ∀ a b s t, valid a → valid b → enc a ++ s = enc b ++ t → a = b ∧ s = t

-- A stream of codewords that starts another stream is a run of its fields.
theorem SelfDelimiting.extends (code : SelfDelimiting valid enc)
    (nonempty : ∀ a, enc a ≠ []) {as bs : List α} (va : ∀ a ∈ as, valid a) (vb : ∀ b ∈ bs, valid b)
    (same : as.flatMap enc ++ tail = bs.flatMap enc) : ∃ cs, bs = as ++ cs ∧ tail = cs.flatMap enc := by
  induction as generalizing bs with
  | nil => exact ⟨bs,rfl,by simpa using same⟩
  | cons a rest ih =>
    cases bs with
    | nil =>
      simp only [List.flatMap_cons,List.flatMap_nil,List.append_assoc,List.append_eq_nil_iff] at same
      exact absurd same.1 (nonempty a)
    | cons b others =>
      simp only [List.flatMap_cons,List.append_assoc] at same
      obtain ⟨rfl,shorter⟩ := code a b _ _ (va a (by simp)) (vb b (by simp)) same
      obtain ⟨cs,rfl,tailEq⟩ := ih (fun x member => va x (by simp [member]))
        (fun x member => vb x (by simp [member])) shorter
      exact ⟨cs,rfl,tailEq⟩

theorem SelfDelimiting.injective (code : SelfDelimiting valid enc)
    (nonempty : ∀ a, enc a ≠ []) {as bs : List α} (va : ∀ a ∈ as, valid a) (vb : ∀ b ∈ bs, valid b)
    (same : as.flatMap enc = bs.flatMap enc) : as = bs := by
  obtain ⟨cs,extended,empty⟩ := code.extends nonempty va vb (by simpa using same : as.flatMap enc ++ [] = _)
  cases cs with
  | nil => simpa using extended.symm
  | cons c rest =>
    have first : enc c = [] := by simpa using (List.append_eq_nil_iff.mp empty.symm).1
    exact absurd first (nonempty c)

end SelfDelimiting

end ByteCode
