import Mathlib.Data.List.Basic
import Mathlib.Logic.Function.Basic

-- Directory entries over numbered files. A file keeps its number whatever
-- happens to its names, and a handle is that number and an offset of its own.
structure Posix (P β : Type) where
  names : P → Option Nat
  inodes : List (List β)
  valid : ∀ p i, names p = some i → i < inodes.length

namespace Posix
variable {P β : Type}

def content (fs : Posix P β) (p : P) : Option (List β) := (fs.names p).bind (fs.inodes[·]?)

-- What lies between the end of the file and the offset reads as blank.
def splice (blank : β) (content : List β) (offset : Nat) (bytes : List β) : List β :=
  content.take offset ++ List.replicate (offset - content.length) blank ++ bytes ++ content.drop (offset + bytes.length)

def pwrite (blank : β) (fs : Posix P β) (i offset : Nat) (bytes : List β) : Posix P β :=
  ⟨fs.names,fs.inodes.modify i (splice blank · offset bytes),by simpa using fs.valid⟩

variable {fs : Posix P β} {p q : P} {i j offset : Nat} {bytes content : List β} {blank : β}

theorem splice_end (blank : β) (content bytes : List β) : splice blank content content.length bytes = content ++ bytes := by
  simp [splice]

theorem splice_start (blank : β) (content bytes : List β) :
    splice blank content 0 bytes = bytes ++ content.drop bytes.length := by
  simp [splice]

theorem pwrite_at (found : fs.inodes[i]? = some content) :
    (fs.pwrite blank i offset bytes).inodes[i]? = some (splice blank content offset bytes) := by
  simp [pwrite,found]

theorem pwrite_other (other : i ≠ j) : (fs.pwrite blank j offset bytes).inodes[i]? = fs.inodes[i]? := by
  simp [pwrite,other.symm]

theorem pwrite_length : (fs.pwrite blank i offset bytes).inodes.length = fs.inodes.length := by
  simp [pwrite]

-- What an open has done to the files: `i` is the file the name has now.
structure Opened (fs : Posix P β) (p : P) (later : Posix P β) (i : Nat) : Prop where
  named : later.names p = some i
  others : ∀ q, q ≠ p → later.names q = fs.names q
  number : fs.names p = some i ∨ fs.names p = none ∧ i = fs.inodes.length
  empty : later.inodes[i]? = some []
  keeps : ∀ j, j ≠ i → j < fs.inodes.length → later.inodes[j]? = fs.inodes[j]?
  grows : fs.inodes.length ≤ later.inodes.length

-- A file that the name was not for is not the one it opens.
theorem Opened.away {later : Posix P β} (opened : Opened fs p later i) (inside : j < fs.inodes.length)
    (unnamed : fs.names p ≠ some j) : j ≠ i := by
  rintro rfl
  rcases opened.number with named | ⟨_,new⟩
  · exact unnamed named
  · omega

section Names
variable [DecidableEq P]

theorem update_valid {names : P → Option Nat} {length : Nat} (valid : ∀ p i, names p = some i → i < length) (at_ : P)
    (entry : Option Nat) (inside : ∀ i, entry = some i → i < length) :
    ∀ p i, Function.update names at_ entry p = some i → i < length := by
  intro p i found
  rw [Function.update_apply] at found
  split at found
  · exact inside i found
  · exact valid p i found

-- The file under the name, emptied, or a new one.
def openTrunc (fs : Posix P β) (p : P) : Posix P β × Nat :=
  match found : fs.names p with
  | some i => (⟨fs.names,fs.inodes.set i [],by simpa using fs.valid⟩,i)
  | none =>
    (⟨Function.update fs.names p (some fs.inodes.length),fs.inodes ++ [[]],
      update_valid (fun q i named => by have := fs.valid q i named; simp; omega) p _ (by simp)⟩,fs.inodes.length)

def unlink (fs : Posix P β) (p : P) : Posix P β :=
  ⟨Function.update fs.names p none,fs.inodes,update_valid fs.valid p none nofun⟩

def rename (fs : Posix P β) (src dst : P) : Option (Posix P β) :=
  match found : fs.names src with
  | none => none
  | some i =>
    some ⟨Function.update (Function.update fs.names dst (some i)) src none,fs.inodes,
      update_valid (update_valid fs.valid dst _ (by rintro _ ⟨⟩; exact fs.valid src i found)) src none nofun⟩

theorem openTrunc_opened (fs : Posix P β) (p : P) : Opened fs p (fs.openTrunc p).1 (fs.openTrunc p).2 := by
  unfold openTrunc
  split
  · rename_i i found
    refine ⟨found,fun _ _ => rfl,.inl found,List.getElem?_set_self (fs.valid p i found),?_,?_⟩
    · exact fun j other _ => List.getElem?_set_ne other.symm
    · simp
  · rename_i missing
    refine ⟨Function.update_self _ _ _,fun q other => Function.update_of_ne other _ _,.inr ⟨missing,rfl⟩,?_,?_,?_⟩
    · exact List.getElem?_concat_length
    · exact fun j _ inside => List.getElem?_append_left inside
    · simp

theorem rename_none (failed : fs.rename p q = none) : fs.names p = none := by
  unfold rename at failed
  split at failed
  · assumption
  · cases failed

theorem rename_some {later : Posix P β} (renamed : fs.rename p q = some later) (other : p ≠ q) :
    ∃ i, fs.names p = some i ∧ later.names q = some i ∧ later.names p = none ∧ later.inodes = fs.inodes := by
  unfold rename at renamed
  split at renamed
  · cases renamed
  · rename_i i found
    cases renamed
    exact ⟨i,found,(Function.update_of_ne other.symm _ _).trans (Function.update_self _ _ _),Function.update_self _ _ _,rfl⟩

end Names

end Posix
