import Mathlib.Data.List.TakeWhile
import Mathlib.Data.UInt

-- The subject sequence of strtof in the C locale: which prefix of a text is a
-- number. What number it is, and whether it is in range, is left to `convert`.
namespace Strtof

abbrev Text := List UInt8

def isSpace (c : UInt8) : Bool := c = 32 || (decide (9 ≤ c) && decide (c ≤ 13))
def isDigit (c : UInt8) : Bool := decide (48 ≤ c) && decide (c ≤ 57)
def isUpper (c : UInt8) : Bool := decide (65 ≤ c) && decide (c ≤ 90)
def isLower (c : UInt8) : Bool := decide (97 ≤ c) && decide (c ≤ 122)
def isWord (c : UInt8) : Bool := isDigit c || isUpper c || isLower c || c = 95
def lower (c : UInt8) : UInt8 := if isUpper c then c+32 else c
def isHex (c : UInt8) : Bool := isDigit c || (decide (97 ≤ lower c) && decide (lower c ≤ 102))

def span (p : UInt8 → Bool) (s : Text) : Nat := (s.takeWhile p).length

def signLength : Text → Nat
  | [] => 0
  | c :: _ => if c = 43 || c = 45 then 1 else 0

-- Digits with at most one radix point; at least one digit.
def mantissa (digit : UInt8 → Bool) (s : Text) : Nat :=
  let whole := span digit s
  match s.drop whole with
  | [] => whole
  | c :: rest =>
    if c = 46 then
      if whole + span digit rest = 0 then 0 else whole + (1 + span digit rest)
    else whole

def exponent (mark : UInt8) : Text → Nat
  | [] => 0
  | c :: rest =>
    let digits := span isDigit (rest.drop (signLength rest))
    if lower c = mark ∧ digits ≠ 0 then 1 + (signLength rest + digits) else 0

def literal (digit : UInt8 → Bool) (mark : UInt8) (s : Text) : Nat :=
  if mantissa digit s = 0 then 0 else mantissa digit s + exponent mark (s.drop (mantissa digit s))

def spells (word s : Text) : Bool := decide ((s.take word.length).map lower = word)

-- 0x and a hexadecimal number, or a decimal one.
def number (s : Text) : Nat :=
  if spells [48,120] s = true ∧ literal isHex 112 (s.drop 2) ≠ 0 then 2 + literal isHex 112 (s.drop 2)
  else literal isDigit 101 s

def payload : Text → Nat
  | [] => 0
  | c :: rest => if c = 40 ∧ rest[span isWord rest]? = some 41 then 1 + (span isWord rest + 1) else 0

-- infinity, inf, nan and nan(...)
def named (s : Text) : Nat :=
  if spells [105,110,102,105,110,105,116,121] s then 8
  else if spells [105,110,102] s then 3
  else if spells [110,97,110] s then 3 + payload (s.drop 3)
  else 0

def unsigned (s : Text) : Nat := if named s ≠ 0 then named s else number s

def subject (s : Text) : Nat :=
  if unsigned (s.drop (signLength s)) = 0 then 0 else signLength s + unsigned (s.drop (signLength s))

-- std::stof: the value and how many characters it took; none where it throws.
def stof {V : Type} (convert : Text → Option V) (s : Text) : Option (V × Nat) :=
  let skipped := span isSpace s
  let n := subject (s.drop skipped)
  if n = 0 then none
  else (convert ((s.drop skipped).take n)).map (fun value => (value,skipped+n))

-- The characters a number can be spelled with.
def spelling (c : UInt8) : Bool := isSpace c || isWord c || c = 43 || c = 45 || c = 46 || c = 40 || c = 41

def Spelled (n : Nat) (s : Text) : Prop := ∀ c ∈ s.take n, spelling c = true

section Spelled
variable {n m : Nat} {s : Text} {p : UInt8 → Bool}

theorem spelled_zero (s : Text) : Spelled 0 s := by simp [Spelled]

theorem spelled_add (first : Spelled n s) (rest : Spelled m (s.drop n)) : Spelled (n+m) s := by
  intro c member
  rw [List.take_add] at member
  rcases List.mem_append.mp member with before | after
  · exact first c before
  · exact rest c after

theorem spelled_one {c : UInt8} (good : spelling c = true) (rest : Text) : Spelled 1 (c :: rest) := by
  simp [Spelled,good]

theorem spelled_span (inside : ∀ c, p c = true → spelling c = true) (s : Text) : Spelled (span p s) s := by
  intro c member
  rw [span,←List.prefix_iff_eq_take.mp (List.takeWhile_prefix p)] at member
  exact inside c (List.mem_takeWhile_imp member)

theorem spelled_if {c : Prop} [Decidable c] (yes : c → Spelled n s) (no : ¬c → Spelled m s) :
    Spelled (if c then n else m) s := by
  split
  · exact yes ‹_›
  · exact no ‹_›

theorem digit_spelling (c : UInt8) (digit : isDigit c = true) : spelling c = true := by simp [spelling,isWord,digit]

theorem word_spelling (c : UInt8) (word : isWord c = true) : spelling c = true := by simp [spelling,word]

theorem space_spelling (c : UInt8) (space : isSpace c = true) : spelling c = true := by simp [spelling,space]

theorem lower_spelling (c : UInt8) (good : spelling (lower c) = true) : spelling c = true := by
  unfold lower at good
  split at good
  · rename_i upper
    exact word_spelling c (by simp [isWord,upper])
  · exact good

theorem hex_spelling (c : UInt8) (hex : isHex c = true) : spelling c = true := by
  rcases Bool.or_eq_true_iff.mp hex with digit | letter
  · exact digit_spelling c digit
  · apply lower_spelling
    apply word_spelling
    simp only [Bool.and_eq_true,decide_eq_true_eq,UInt8.le_iff_toNat_le] at letter
    have small : isLower (lower c) = true := by
      simp only [isLower,Bool.and_eq_true,decide_eq_true_eq,UInt8.le_iff_toNat_le]
      exact ⟨letter.1,letter.2.trans (by decide)⟩
    simp [isWord,small]

theorem sign_spelled (s : Text) : Spelled (signLength s) s := by
  cases s with
  | nil => exact spelled_zero []
  | cons c rest =>
    refine spelled_if (fun sign => spelled_one ?_ rest) (fun _ => spelled_zero _)
    rcases Bool.or_eq_true_iff.mp sign with plus | minus
    · simp [spelling,of_decide_eq_true plus]
    · simp [spelling,of_decide_eq_true minus]

theorem mantissa_spelled {digit : UInt8 → Bool} (digits : ∀ c, digit c = true → spelling c = true) (s : Text) :
    Spelled (mantissa digit s) s := by
  have whole := spelled_span digits s
  unfold mantissa
  dsimp only
  cases after : s.drop (span digit s) with
  | nil => exact whole
  | cons c rest =>
    dsimp only
    refine spelled_if (fun point => ?_) (fun _ => whole)
    refine spelled_if (fun _ => spelled_zero s) (fun _ => spelled_add whole ?_)
    rw [after]
    exact spelled_add (spelled_one (by simp [spelling,point]) rest) (spelled_span digits rest)

theorem exponent_spelled {mark : UInt8} (good : spelling mark = true) (s : Text) : Spelled (exponent mark s) s := by
  cases s with
  | nil => exact spelled_zero []
  | cons c rest =>
    refine spelled_if (fun marked => ?_) (fun _ => spelled_zero _)
    refine spelled_add (spelled_one (lower_spelling c (by rw [marked.1]; exact good)) rest) ?_
    exact spelled_add (sign_spelled rest) (spelled_span digit_spelling _)

theorem literal_spelled {digit : UInt8 → Bool} {mark : UInt8} (digits : ∀ c, digit c = true → spelling c = true)
    (good : spelling mark = true) (s : Text) : Spelled (literal digit mark s) s :=
  spelled_if (fun _ => spelled_zero s) (fun _ => spelled_add (mantissa_spelled digits s) (exponent_spelled good _))

theorem spells_spelled {word : Text} (good : word.all spelling = true) (spelt : spells word s = true) :
    Spelled word.length s := by
  intro c member
  apply lower_spelling
  apply List.all_eq_true.mp good
  rw [←of_decide_eq_true spelt]
  exact List.mem_map_of_mem member

theorem number_spelled (s : Text) : Spelled (number s) s := by
  refine spelled_if (fun hex => ?_) (fun _ => literal_spelled digit_spelling (by decide) s)
  exact spelled_add (spells_spelled (by decide) hex.1) (literal_spelled hex_spelling (by decide) _)

theorem payload_spelled (s : Text) : Spelled (payload s) s := by
  cases s with
  | nil => exact spelled_zero []
  | cons c rest =>
    refine spelled_if (fun closed => ?_) (fun _ => spelled_zero _)
    refine spelled_add (spelled_one (by simp [spelling,closed.1]) rest) ?_
    refine spelled_add (spelled_span word_spelling _) ?_
    intro c' member
    have last : (rest.drop (span isWord rest)).head? = some 41 := by
      rw [List.head?_drop]
      exact closed.2
    change c' ∈ (rest.drop (span isWord rest)).take 1 at member
    cases after : rest.drop (span isWord rest) with
    | nil =>
      rw [after] at member
      cases member
    | cons d others =>
      rw [after] at member last
      rw [List.take_succ_cons,List.take_zero,List.mem_singleton] at member
      rw [member,Option.some.inj last]
      decide

theorem named_spelled (s : Text) : Spelled (named s) s := by
  refine spelled_if (fun spelt => spells_spelled (by decide) spelt) (fun _ => ?_)
  refine spelled_if (fun spelt => spells_spelled (by decide) spelt) (fun _ => ?_)
  refine spelled_if (fun spelt => ?_) (fun _ => spelled_zero s)
  exact spelled_add (spells_spelled (by decide) spelt) (payload_spelled _)

theorem subject_spelled (s : Text) : Spelled (subject s) s := by
  have body (s : Text) : Spelled (unsigned s) s := spelled_if (fun _ => named_spelled s) (fun _ => number_spelled s)
  exact spelled_if (fun _ => spelled_zero s) (fun _ => spelled_add (sign_spelled s) (body _))

end Spelled

variable {V : Type} {convert : Text → Option V} {s : Text} {value : V} {consumed : Nat}

theorem stof_spelled (read : stof convert s = some (value,consumed)) : Spelled consumed s := by
  unfold stof at read
  dsimp only at read
  split at read
  · cases read
  · obtain ⟨v,_,same⟩ := Option.map_eq_some_iff.mp read
    rw [←(Prod.mk.inj same).2]
    exact spelled_add (spelled_span space_spelling s) (subject_spelled _)

theorem stof_whole_spelled (read : stof convert s = some (value,s.length)) : ∀ c ∈ s, spelling c = true := by
  have spelled := stof_spelled read
  rwa [Spelled,List.take_length] at spelled

theorem stof_empty (convert : Text → Option V) : stof convert [] = none := rfl

end Strtof
