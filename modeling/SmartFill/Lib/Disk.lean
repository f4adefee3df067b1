import Mathlib.Data.List.AList

-- Named files with their whole contents, and a set of directories. One
-- operation is one indivisible step of the file system.
structure Disk (P β : Type) where
  files : AList (fun _ : P => List β)
  dirs : List P

namespace Disk
variable {P β : Type} [DecidableEq P] {d : Disk P β} {p q : P} {content : List β}

def empty : Disk P β := ⟨∅,[]⟩

def read (d : Disk P β) (p : P) : Option (List β) := d.files.lookup p

def present (d : Disk P β) (p : P) : Bool := (d.read p).isSome || decide (p ∈ d.dirs)

def write (d : Disk P β) (p : P) (content : List β) : Disk P β := ⟨d.files.insert p content,d.dirs⟩

def remove (d : Disk P β) (p : P) : Disk P β := ⟨d.files.erase p,d.dirs⟩

def removeUnless (refused : Bool) (d : Disk P β) (p : P) : Disk P β := if refused then d else d.remove p

def makeDirs (d : Disk P β) (ps : List P) : Disk P β := ⟨d.files,ps ++ d.dirs⟩

-- The file under the first name replaces whatever the second name held.
def rename (d : Disk P β) (src dst : P) : Disk P β :=
  match d.read src with
  | none => d
  | some content => (d.remove src).write dst content

@[simp] theorem read_empty : (empty : Disk P β).read p = none := by
  simp [empty,read]

@[simp] theorem read_write_self : (d.write p content).read p = some content := by
  simp [read,write]

theorem read_write_other (different : q ≠ p) : (d.write p content).read q = d.read q := by
  simp [read,write,AList.lookup_insert_ne different]

@[simp] theorem read_remove_self : (d.remove p).read p = none := by
  simp [read,remove]

theorem read_remove_other (different : q ≠ p) : (d.remove p).read q = d.read q := by
  simp [read,remove,AList.lookup_erase_ne different]

theorem read_removeUnless_self (refused : Bool) :
    (removeUnless refused d p).read p = if refused then d.read p else none := by
  cases refused <;> simp [removeUnless]

theorem read_removeUnless_other (refused : Bool) (different : q ≠ p) :
    (removeUnless refused d p).read q = d.read q := by
  cases refused
  · exact read_remove_other different
  · rfl

theorem read_write (q : P) : (d.write p content).read q = if q = p then some content else d.read q := by
  by_cases same : q = p
  · rw [if_pos same,same,read_write_self]
  · rw [if_neg same,read_write_other same]

theorem read_removeUnless (refused : Bool) (q : P) :
    (removeUnless refused d p).read q = if q = p ∧ refused = false then none else d.read q := by
  by_cases same : q = p
  · rw [same,read_removeUnless_self]
    cases refused <;> simp
  · rw [if_neg (fun both => same both.1),read_removeUnless_other refused same]

theorem read_rename (found : d.read p = some content) (r : P) :
    (d.rename p q).read r = if r = q then some content else if r = p then none else d.read r := by
  simp only [rename,found,read_write]
  by_cases target : r = q
  · rw [if_pos target,if_pos target]
  · rw [if_neg target,if_neg target]
    by_cases source : r = p
    · rw [if_pos source,source,read_remove_self]
    · rw [if_neg source,read_remove_other source]

theorem read_rename_target (found : d.read p = some content) : (d.rename p q).read q = some content := by
  simp [rename,found]

end Disk
