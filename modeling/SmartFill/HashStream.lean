import SmartFill.AiHash
import SmartFill.Lib.Fips180
import SmartFill.Lib.ByteCode
import Mathlib.Data.List.GetD

namespace SmartFill

namespace AiHash
open Fips180 (Working)

def Words.working (s : Words) : Working :=
  ⟨s.a.toBitVec,s.b.toBitVec,s.c.toBitVec,s.d.toBitVec,s.e.toBitVec,s.f.toBitVec,s.g.toBitVec,s.h.toBitVec⟩

-- The tables of the source are the digits the standard defines.
theorem K_digits : K.map UInt32.toBitVec = Fips180.roundConstants := by decide +kernel

theorem initialWords_digits : initialWords.working.toList = Fips180.initialHash := by decide +kernel

theorem rotr_bits (x n : UInt32) (positive : 0 < n.toNat) (small : n.toNat < 32) :
    (rotr x n).toBitVec = Fips180.rotr n.toNat x.toBitVec := by
  have right : (n.toBitVec % 32).toNat = n.toNat := by
    simp only [BitVec.toNat_umod,UInt32.toNat_toBitVec]
    exact Nat.mod_eq_of_lt small
  have left : ((32-n).toBitVec % 32).toNat = 32 - n.toNat := by
    have less : n ≤ 32 := UInt32.le_iff_toNat_le.mpr (Nat.le_of_lt small)
    simp only [BitVec.toNat_umod,UInt32.toNat_toBitVec,UInt32.toNat_sub_of_le _ _ less]
    exact Nat.mod_eq_of_lt (show 32 - n.toNat < 32 by omega)
  simp only [rotr,Fips180.rotr,UInt32.toBitVec_or,UInt32.toBitVec_shiftRight,UInt32.toBitVec_shiftLeft,
    BitVec.shiftLeft_eq',BitVec.ushiftRight_eq',right,left]

theorem ep0_bits (x : UInt32) : (ep0 x).toBitVec = Fips180.bigSigma0 x.toBitVec := by
  simp only [ep0,UInt32.toBitVec_xor,rotr_bits x 2 (by decide) (by decide),rotr_bits x 13 (by decide) (by decide),
    rotr_bits x 22 (by decide) (by decide)]
  rfl

theorem ep1_bits (x : UInt32) : (ep1 x).toBitVec = Fips180.bigSigma1 x.toBitVec := by
  simp only [ep1,UInt32.toBitVec_xor,rotr_bits x 6 (by decide) (by decide),rotr_bits x 11 (by decide) (by decide),
    rotr_bits x 25 (by decide) (by decide)]
  rfl

theorem sig0_bits (x : UInt32) : (sig0 x).toBitVec = Fips180.smallSigma0 x.toBitVec := by
  simp only [sig0,UInt32.toBitVec_xor,rotr_bits x 7 (by decide) (by decide),rotr_bits x 18 (by decide) (by decide)]
  rfl

theorem sig1_bits (x : UInt32) : (sig1 x).toBitVec = Fips180.smallSigma1 x.toBitVec := by
  simp only [sig1,UInt32.toBitVec_xor,rotr_bits x 17 (by decide) (by decide),rotr_bits x 19 (by decide) (by decide)]
  rfl

theorem bigEndian_bits (a b c d : UInt8) :
    (bigEndian a b c d).toBitVec = (a.toBitVec ++ b.toBitVec ++ c.toBitVec ++ d.toBitVec : BitVec (8+8+8+8)) := by
  apply BitVec.eq_of_getLsbD_eq
  intro i bound
  simp only [bigEndian,UInt32.toBitVec_or,UInt32.toBitVec_shiftLeft,UInt8.toBitVec_toUInt32,BitVec.getLsbD_or,
    BitVec.getLsbD_append]
  interval_cases i <;> simp

theorem blockWord_cons (a b c d : UInt8) (rest : Bytes) (t : Nat) :
    Fips180.blockWord (a :: b :: c :: d :: rest) (t+1) = Fips180.blockWord rest t := by
  have byte : ∀ i, (a :: b :: c :: d :: rest).getD (4*(t+1)+i) 0 = rest.getD (4*t+i) 0 := by
    intro i
    have offset : 4*(t+1)+i = 4*t+i+1+1+1+1 := by omega
    rw [offset,List.getD_cons_succ,List.getD_cons_succ,List.getD_cons_succ,List.getD_cons_succ]
  simp only [Fips180.blockWord,byte]

theorem load_word (chunk : Bytes) (t : Nat) (inside : 4*t+4 ≤ chunk.length) :
    ((load chunk).getD t 0).toBitVec = Fips180.blockWord chunk t := by
  induction t generalizing chunk with
  | zero =>
    match chunk,inside with
    | a :: b :: c :: d :: rest,_ => exact bigEndian_bits a b c d
  | succ t ih =>
    match chunk,inside with
    | a :: b :: c :: d :: rest,inside =>
      rw [load,List.getD_cons_succ,blockWord_cons]
      exact ih rest (by simp only [List.length_cons] at inside; omega)

theorem load_length (chunk : Bytes) : (load chunk).length = chunk.length / 4 := by
  induction size : chunk.length using Nat.strongRecOn generalizing chunk with
  | ind n ih =>
    match chunk,size with
    | a :: b :: c :: d :: rest,size =>
      simp only [List.length_cons] at size
      rw [load,List.length_cons,ih rest.length (by omega) rest rfl]
      omega
    | [],size | [_],size | [_,_],size | [_,_,_],size =>
      simp only [List.length_cons,List.length_nil] at size
      simp only [load,List.length_nil]
      omega

-- w holds the first words of a block's schedule.
structure Scheduled (chunk : Bytes) (w : List UInt32) : Prop where
  started : 16 ≤ w.length
  word : ∀ t < w.length, (w.getD t 0).toBitVec = Fips180.schedule chunk t

theorem load_scheduled {chunk : Bytes} (whole : chunk.length = 64) : Scheduled chunk (load chunk) := by
  have length : (load chunk).length = 16 := by rw [load_length,whole]
  refine ⟨by omega,?_⟩
  intro t inside
  rw [Fips180.schedule_block chunk (by omega)]
  exact load_word chunk t (by omega)

theorem scheduled_next {chunk : Bytes} {w : List UInt32} (scheduled : Scheduled chunk w) :
    Scheduled chunk (w ++ [sig1 (w.getD (w.length-2) 0) + w.getD (w.length-7) 0 + sig0 (w.getD (w.length-15) 0) +
      w.getD (w.length-16) 0]) := by
  obtain ⟨started,word⟩ := scheduled
  refine ⟨by simp only [List.length_append]; omega,?_⟩
  intro t inside
  rw [List.length_append,List.length_singleton] at inside
  by_cases before : t < w.length
  · rw [List.getD_append _ _ _ _ before]
    exact word t before
  · have last : t = w.length := by omega
    subst last
    rw [List.getD_append_right _ _ _ _ (Nat.le_refl _),Nat.sub_self,Fips180.schedule_later chunk started,
      ← word (w.length-2) (by omega),← word (w.length-7) (by omega),← word (w.length-15) (by omega),
      ← word (w.length-16) (by omega),← sig1_bits,← sig0_bits]
    rfl

theorem extend_scheduled {chunk : Bytes} (n : Nat) (w : List UInt32) (scheduled : Scheduled chunk w) :
    Scheduled chunk (extend n w) ∧ (extend n w).length = w.length + n := by
  induction n generalizing w with
  | zero => exact ⟨scheduled,rfl⟩
  | succ n ih =>
    obtain ⟨later,length⟩ := ih _ (scheduled_next scheduled)
    refine ⟨later,?_⟩
    rw [extend,length,List.length_append,List.length_singleton]
    omega

theorem round_step (s : Words) (k w : UInt32) :
    (round s (k,w)).working = Fips180.step s.working k.toBitVec w.toBitVec := by
  simp only [round,Words.working,Fips180.step,UInt32.toBitVec_add,ep0_bits,ep1_bits]
  rfl

theorem rounds_steps (ks ws : List UInt32) (count : Nat) (enough : count ≤ ks.length ∧ count ≤ ws.length) (s : Words) :
    (((ks.zip ws).take count).foldl round s).working =
      (List.range count).foldl (fun v t => Fips180.step v (ks.getD t 0).toBitVec (ws.getD t 0).toBitVec) s.working := by
  induction count with
  | zero => rfl
  | succ n ih =>
    have inside : n < (ks.zip ws).length := by
      rw [List.length_zip]
      omega
    have entry : (ks.zip ws)[n] = (ks.getD n 0,ws.getD n 0) := by
      rw [List.getElem_zip,List.getD_eq_getElem _ _ (by omega),List.getD_eq_getElem _ _ (by omega)]
    rw [List.take_succ_eq_append_getElem inside,List.foldl_append,List.range_succ,List.foldl_append,
      ← ih ⟨by omega,by omega⟩,entry]
    exact round_step _ _ _

theorem add_working (s t : Words) : (s.add t).working = s.working.add t.working := rfl

theorem transform_compress (state : Words) (chunk : Bytes) (whole : chunk.length = 64) :
    (transform state chunk).working = Fips180.compress state.working chunk := by
  have scheduled := load_scheduled whole
  obtain ⟨scheduled,length⟩ := extend_scheduled 48 _ scheduled
  have size : (extend 48 (load chunk)).length = 64 := by rw [length,load_length,whole]
  have all : (K.zip (extend 48 (load chunk))).take 64 = K.zip (extend 48 (load chunk)) := by
    apply List.take_of_length_le
    rw [List.length_zip,size]
    exact Nat.min_le_right _ _
  have constants : ∀ t, (K.getD t 0).toBitVec = Fips180.roundConstants.getD t 0 := by
    intro t
    have mapped : (K.map UInt32.toBitVec).getD t (UInt32.toBitVec 0) = (K.getD t 0).toBitVec :=
      List.getD_map K 0 UInt32.toBitVec
    rw [← mapped,K_digits]
    rfl
  have rounds := rounds_steps K (extend 48 (load chunk)) 64 ⟨by decide,by rw [size]⟩ state
  rw [all] at rounds
  have steps : (List.range 64).foldl (fun v t => Fips180.step v (K.getD t 0).toBitVec
      ((extend 48 (load chunk)).getD t 0).toBitVec) state.working =
      (List.range 64).foldl (fun v t => Fips180.step v (Fips180.roundConstants.getD t 0) (Fips180.schedule chunk t))
        state.working := by
    apply List.foldl_ext
    intro v t member
    rw [constants,scheduled.word t (by rw [size]; exact List.mem_range.mp member)]
  rw [transform,add_working,rounds,steps,Fips180.compress]

end AiHash

namespace Sha256
open AiHash BlockStream
variable {h : Sha256} {m : Bytes}

-- The object after an initialisation and the bytes m, in any number of calls.
structure Absorbed (h : Sha256) (m : Bytes) : Prop where
  state : h.state = absorb 64 transform initialWords m
  buffer : h.buffer = rest 64 m
  bits : h.bitLength = UInt64.ofNat (8*m.length)

theorem reset_absorbed : Absorbed reset [] := ⟨rfl,rfl,rfl⟩

theorem Absorbed.buffer_length (absorbed : Absorbed h m) : h.buffer.length = m.length % 64 := by
  rw [absorbed.buffer,rest_length]

theorem bits_taken (m taken : Bytes) :
    UInt64.ofNat (8*m.length) + taken.length.toUInt64 * 8 = UInt64.ofNat (8*(m++taken).length) := by
  rw [List.length_append,Nat.mul_add,UInt64.ofNat_add,Nat.mul_comm 8 taken.length,UInt64.ofNat_mul taken.length]
  rfl

theorem Absorbed.taken (absorbed : Absorbed h m) (taken : Bytes) (fits : (h.buffer ++ taken).length ≤ 64) :
    Absorbed (if (h.buffer ++ taken).length = 64
      then ⟨transform h.state (h.buffer ++ taken),h.bitLength + taken.length.toUInt64 * 8,[]⟩
      else ⟨h.state,h.bitLength + taken.length.toUInt64 * 8,h.buffer ++ taken⟩) (m ++ taken) := by
  have bits : h.bitLength + taken.length.toUInt64 * 8 = UInt64.ofNat (8*(m++taken).length) := by
    rw [absorbed.bits,bits_taken]
  have state : absorb 64 transform initialWords (m ++ taken) = absorb 64 transform h.state (h.buffer ++ taken) := by
    rw [absorb_append (by decide),← absorbed.state,← absorbed.buffer]
  have left : rest 64 (m ++ taken) = rest 64 (h.buffer ++ taken) := by
    rw [rest_append (by decide),← absorbed.buffer]
  by_cases whole : (h.buffer ++ taken).length = 64
  · rw [if_pos whole]
    refine ⟨?_,?_,bits⟩
    · rw [state,← List.append_nil (h.buffer ++ taken),absorb_cons (by decide) whole,absorb_short (by decide),
        List.append_nil]
    · rw [left,← List.append_nil (h.buffer ++ taken),rest_cons (by decide) whole,rest_short (by decide)]
  · rw [if_neg whole]
    refine ⟨?_,?_,bits⟩
    · rw [state,absorb_short (by omega)]
    · rw [left,rest_short (by omega)]

theorem updateLoop_absorbed (fuel : Nat) (data : Bytes) (enough : data.length ≤ fuel) (absorbed : Absorbed h m) :
    Absorbed (updateLoop fuel h data) (m ++ data) := by
  induction fuel generalizing h m data with
  | zero =>
    have empty : data = [] := List.length_eq_zero_iff.mp (Nat.le_zero.mp enough)
    rw [empty,List.append_nil]
    exact absorbed
  | succ fuel ih =>
    by_cases empty : data = []
    · rw [updateLoop,if_pos empty,empty,List.append_nil]
      exact absorbed
    · have present : 0 < data.length := List.length_pos_iff.mpr empty
      have room := absorbed.buffer_length
      have length : (data.take (min (64 - h.buffer.length) data.length)).length =
          min (64 - h.buffer.length) data.length := by
        rw [List.length_take]
        exact Nat.min_eq_left (Nat.min_le_right _ _)
      have next := absorbed.taken (data.take (min (64 - h.buffer.length) data.length))
        (by rw [List.length_append,length]; omega)
      rw [length] at next
      have later := ih (data.drop (min (64 - h.buffer.length) data.length))
        (by rw [List.length_drop]; omega) next
      rw [List.append_assoc,List.take_append_drop] at later
      rw [updateLoop,if_neg empty]
      exact later

theorem Absorbed.update (absorbed : Absorbed h m) (data : Bytes) : Absorbed (h.update data) (m ++ data) :=
  updateLoop_absorbed data.length data (Nat.le_refl _) absorbed

theorem Absorbed.unique {other : Sha256} (absorbed : Absorbed h m) (same : Absorbed other m) : h = other := by
  obtain ⟨state,bits,buffer⟩ := h
  obtain ⟨state',bits',buffer'⟩ := other
  have one := absorbed.state.trans same.state.symm
  have two := absorbed.bits.trans same.bits.symm
  have three := absorbed.buffer.trans same.buffer.symm
  simp only at one two three
  rw [one,two,three]

-- What finalize appends to the bytes that wait in the buffer: one block, or
-- two when the length does not fit behind them.
theorem finalize_padding (h : Sha256) (room : h.buffer.length < 64) : h.finalize =
    (absorb 64 transform h.state (h.buffer ++
      (0x80 :: (zeros ((119 - h.buffer.length) % 64) ++ lengthBytes h.bitLength)))).toList.flatMap wordBytes := by
  have eight : (lengthBytes h.bitLength).length = 8 := rfl
  obtain ⟨marked,mark⟩ : ∃ marked : Bytes, marked = h.buffer ++ [0x80] := ⟨_,rfl⟩
  have size : marked.length = h.buffer.length + 1 := by rw [mark,List.length_append,List.length_singleton]
  have started : ∀ tail : Bytes, h.buffer ++ (0x80 :: tail) = marked ++ tail := by
    intro tail
    rw [mark,List.append_assoc,List.singleton_append]
  rw [started,finalize,← mark]
  by_cases fits : h.buffer.length < 56
  · have count : (119 - h.buffer.length) % 64 = 56 - marked.length := by omega
    have whole : (marked ++ zeros (56 - marked.length) ++ lengthBytes h.bitLength).length = 64 := by
      simp only [zeros,List.length_append,List.length_replicate,eight]
      omega
    have short : ¬ 56 < marked.length := by omega
    rw [count,← List.append_assoc,← List.append_nil (marked ++ _ ++ _),absorb_cons (Nat.zero_lt_succ _) whole,
      absorb_short (Nat.zero_lt_succ _)]
    simp only [if_neg short]
  · have split : (119 - h.buffer.length) % 64 = (64 - marked.length) + 56 := by omega
    have first : (marked ++ zeros (64 - marked.length)).length = 64 := by
      simp only [zeros,List.length_append,List.length_replicate]
      omega
    have second : (zeros 56 ++ lengthBytes h.bitLength).length = 64 := rfl
    have joined : marked ++ (zeros ((119 - h.buffer.length) % 64) ++ lengthBytes h.bitLength) =
        (marked ++ zeros (64 - marked.length)) ++ ((zeros 56 ++ lengthBytes h.bitLength) ++ []) := by
      rw [split,zeros,List.replicate_add]
      simp only [zeros,List.append_assoc,List.append_nil]
    have long : 56 < marked.length := by omega
    rw [joined,absorb_cons (Nat.zero_lt_succ _) first,absorb_cons (Nat.zero_lt_succ _) second,absorb_short (Nat.zero_lt_succ _)]
    simp only [if_pos long]
    rfl

theorem wordBytes_bits (w : UInt32) : wordBytes w = Fips180.bytes w.toBitVec := by
  have byte : ∀ (x y : UInt8), (∀ i < 8, x.toBitVec.getLsbD i = y.toBitVec.getLsbD i) → x = y :=
    fun _ _ => ByteCode.byte_ext
  simp only [wordBytes,Fips180.bytes,List.cons.injEq,and_true]
  refine ⟨byte _ _ ?_,byte _ _ ?_,byte _ _ ?_,byte _ _ ?_⟩
  · intro i bound
    interval_cases i <;> simp
  · intro i bound
    interval_cases i <;> simp
  · intro i bound
    interval_cases i <;> simp
  · intro i bound
    interval_cases i <;> simp

theorem length_byte (n i : Nat) (less : 8*n < 2^64) (inside : i < 8) :
    (((UInt64.ofNat (8*n)) >>> (i*8).toUInt64) &&& 0xff).toUInt8 = (8*n / 256^i).toUInt8 := by
  apply UInt8.toNat_inj.mp
  have shift : (i*8).toUInt64.toNat % 64 = i*8 := by
    simp only [Nat.toUInt64,UInt64.toNat_ofNat']
    omega
  have value : (UInt64.ofNat (8*n)).toNat = 8*n := by
    rw [UInt64.toNat_ofNat']
    exact Nat.mod_eq_of_lt less
  have power : 2^(i*8) = 256^i := by rw [Nat.mul_comm,Nat.pow_mul]
  simp only [UInt64.toNat_toUInt8,UInt64.toNat_and,UInt64.toNat_shiftRight,value,shift,Nat.shiftRight_eq_div_pow,
    power,Nat.toUInt8,UInt8.toNat_ofNat']
  rw [show (0xff : UInt64).toNat = 2^8-1 from rfl,Nat.and_two_pow_sub_one_eq_mod,Nat.mod_mod]

theorem lengthBytes_field (n : Nat) (less : 8*n < 2^64) :
    lengthBytes (UInt64.ofNat (8*n)) = Fips180.lengthField (8*n) := by
  apply List.map_congr_left
  intro i member
  refine length_byte n i less ?_
  simp only [List.mem_cons,List.not_mem_nil,or_false] at member
  omega

theorem Absorbed.finalize (absorbed : Absorbed h m) (short : m.length < 2^61) : h.finalize = Fips180.sha256 m := by
  have room : h.buffer.length < 64 := by
    rw [absorbed.buffer_length]
    exact Nat.mod_lt _ (by decide)
  have appended : (0x80 :: (zeros ((119 - h.buffer.length) % 64) ++ lengthBytes h.bitLength) : Bytes) =
      Fips180.padding m.length := by
    rw [absorbed.buffer_length,absorbed.bits,lengthBytes_field m.length (by omega)]
    rfl
  have states := absorb_map Words.working (by decide) transform_compress initialWords (m ++ Fips180.padding m.length)
  have started : initialWords.working = Fips180.Working.ofList Fips180.initialHash := by
    rw [← initialWords_digits]
    rfl
  have words : ∀ s : Words, s.toList.flatMap wordBytes = s.working.toList.flatMap Fips180.bytes := by
    intro s
    simp only [Words.toList,Words.working,Fips180.Working.toList,List.flatMap_cons,wordBytes_bits]
    rfl
  rw [finalize_padding h room,appended,absorbed.state,absorbed.buffer,← absorb_append (by decide),words,states,
    started,Fips180.sha256]

inductive Call
  | update (data : Bytes)
  | finalize
  | reset

-- The digests a sequence of calls on one object returns.
def digests : Sha256 → List Call → List Bytes
  | _,[] => []
  | h,.update data :: calls => digests (h.update data) calls
  | h,.finalize :: calls => h.finalize :: digests reset calls
  | _,.reset :: calls => digests reset calls

-- For each finalize, the bytes given since construction or the last finalize
-- or reset; pending are those given before these calls.
def messages : Bytes → List Call → List Bytes
  | _,[] => []
  | pending,.update data :: calls => messages (pending ++ data) calls
  | pending,.finalize :: calls => pending :: messages [] calls
  | _,.reset :: calls => messages [] calls

theorem digests_absorbed (calls : List Call) (absorbed : Absorbed h m) :
    List.Forall₂ (fun message digest => message.length < 2^61 → digest = Fips180.sha256 message)
      (messages m calls) (digests h calls) := by
  induction calls generalizing h m with
  | nil => exact .nil
  | cons c calls ih =>
    cases c with
    | update data => exact ih (absorbed.update data)
    | finalize => exact .cons absorbed.finalize (ih reset_absorbed)
    | reset => exact ih reset_absorbed

theorem digests_sha256 (calls : List Call) :
    List.Forall₂ (fun message digest => message.length < 2^61 → digest = Fips180.sha256 message)
      (messages [] calls) (digests reset calls) :=
  digests_absorbed calls reset_absorbed

-- SHA-256 of "abc", given in three calls.
example : digests reset [.update [97],.update [],.update [98,99],.finalize] = [[
    0xba,0x78,0x16,0xbf,0x8f,0x01,0xcf,0xea,0x41,0x41,0x40,0xde,0x5d,0xae,0x22,0x23,
    0xb0,0x03,0x61,0xa3,0x96,0x17,0x7a,0x9c,0xb4,0x10,0xff,0x61,0xf2,0x00,0x15,0xad]] := by decide +kernel

end Sha256

end SmartFill
