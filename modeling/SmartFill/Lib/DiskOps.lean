import SmartFill.Lib.Disk

-- Single operations on a disk, which files each looks at or changes, and what
-- interleaved sequences of them come to.
inductive DiskOp (P β : Type) where
  | makeDirs (ps : List P)
  | write (p : P) (content : List β)
  | remove (p : P)
  | rename (src dst : P)

namespace DiskOp
variable {P β ι : Type}

def Touches : DiskOp P β → P → Prop
  | .makeDirs _,_ => False
  | .write q _,p | .remove q,p => p = q
  | .rename src dst,p => p = src ∨ p = dst

-- A sequence of operations that keeps to some of the files.
def Within (shared : P → Prop) (ops : List (DiskOp P β)) : Prop := ∀ op ∈ ops, ∀ p, op.Touches p → shared p

variable {shared : P → Prop} {op : DiskOp P β} {ops : List (DiskOp P β)}

theorem within_nil : Within shared ([] : List (DiskOp P β)) := by
  intro op member
  cases member

theorem within_single (within : ∀ p, op.Touches p → shared p) : Within shared [op] := by
  intro other member
  cases List.mem_singleton.mp member
  exact within

theorem within_append {more : List (DiskOp P β)} (first : Within shared ops) (later : Within shared more) :
    Within shared (ops ++ more) := by
  intro op member
  rcases List.mem_append.mp member with early | late
  · exact first op early
  · exact later op late

variable [DecidableEq P] [DecidableEq ι]

def apply (d : Disk P β) : DiskOp P β → Disk P β
  | .makeDirs ps => d.makeDirs ps
  | .write p content => d.write p content
  | .remove p => d.remove p
  | .rename src dst => d.rename src dst

def run (d : Disk P β) (ops : List (DiskOp P β)) : Disk P β := ops.foldl apply d

def Agree (shared : P → Prop) (d d' : Disk P β) : Prop := ∀ p, shared p → d.read p = d'.read p

variable {d d' : Disk P β} {p : P}

theorem run_append (d : Disk P β) (ops more : List (DiskOp P β)) : run d (ops ++ more) = run (run d ops) more :=
  List.foldl_append

theorem apply_read (apart : ¬ op.Touches p) : (apply d op).read p = d.read p := by
  cases op with
  | makeDirs ps => rfl
  | write q content => exact Disk.read_write_other apart
  | remove q => exact Disk.read_remove_other apart
  | rename src dst =>
    cases found : d.read src with
    | none => simp only [apply,Disk.rename,found]
    | some content =>
      rw [apply,Disk.read_rename found,if_neg (fun same => apart (.inr same)),if_neg (fun same => apart (.inl same))]

-- An operation inside the shared files sees and does the same on disks that
-- agree on them.
theorem apply_agree (agree : Agree shared d d') (within : ∀ p, op.Touches p → shared p) :
    Agree shared (apply d op) (apply d' op) := by
  intro p inside
  by_cases touched : op.Touches p
  · cases op with
    | makeDirs ps => exact agree p inside
    | write q content =>
      cases touched
      simp only [apply,Disk.read_write_self]
    | remove q =>
      cases touched
      simp only [apply,Disk.read_remove_self]
    | rename src dst =>
      have source := agree src (within src (.inl rfl))
      cases found : d.read src with
      | none =>
        rw [found] at source
        simp only [apply,Disk.rename,found,←source]
        exact agree p inside
      | some content =>
        rw [found] at source
        simp only [apply,Disk.read_rename found,Disk.read_rename source.symm,agree p inside]
  · rw [apply_read touched,apply_read touched]
    exact agree p inside

theorem run_read (apart : ∀ op ∈ ops, ¬ op.Touches p) : (run d ops).read p = d.read p := by
  induction ops generalizing d with
  | nil => rfl
  | cons op rest ih =>
    have others := ih (d := apply d op) (fun op member => apart op (List.mem_cons_of_mem _ member))
    exact others.trans (apply_read (apart op List.mem_cons_self))

-- Of the operations of many callers in any order, those that stay away from
-- one caller's files might as well not have run.
theorem run_alone (shared : P → Prop) (i : ι) (ops : List (ι × DiskOp P β)) (agree : Agree shared d d')
    (own : ∀ op, (i,op) ∈ ops → ∀ p, op.Touches p → shared p)
    (others : ∀ j op, (j,op) ∈ ops → j ≠ i → ∀ p, shared p → ¬ op.Touches p) :
    Agree shared (run d (ops.map Prod.snd)) (run d' ((ops.filter (fun o => o.1 = i)).map Prod.snd)) := by
  induction ops generalizing d d' with
  | nil => exact agree
  | cons head rest ih =>
    obtain ⟨j,op⟩ := head
    have own' := fun op member => own op (List.mem_cons_of_mem _ member)
    have others' := fun j op member => others j op (List.mem_cons_of_mem _ member)
    by_cases same : j = i
    · subst same
      rw [List.filter_cons_of_pos (by simp)]
      exact ih (apply_agree agree (own op List.mem_cons_self)) own' others'
    · rw [List.filter_cons_of_neg (by simpa using same)]
      refine ih (fun p inside => ?_) own' others'
      rw [apply_read (others j op List.mem_cons_self same p inside)]
      exact agree p inside

-- What holds at every moment of a run of operations, the first included.
def Through (holds : Disk P β → Prop) (d : Disk P β) (ops : List (DiskOp P β)) : Prop :=
  ∀ n, holds (run d (ops.take n))

theorem through_nil {holds : Disk P β → Prop} (now : holds d) : Through holds d [] := by
  intro n
  rwa [List.take_nil]

theorem through_cons {holds : Disk P β → Prop} (now : holds d) (later : Through holds (apply d op) ops) :
    Through holds d (op :: ops) := by
  intro n
  cases n with
  | zero => exact now
  | succ n => exact later n

theorem through_append {holds : Disk P β → Prop} {more : List (DiskOp P β)} (first : Through holds d ops)
    (later : Through holds (run d ops) more) : Through holds d (ops ++ more) := by
  intro n
  rw [List.take_append,run_append]
  by_cases early : n ≤ ops.length
  · rw [Nat.sub_eq_zero_of_le early,List.take_zero]
    exact first n
  · rw [List.take_of_length_le (by omega)]
    exact later _

-- What each operation of a run does to the disk it finds.
def Each (rel : Disk P β → Disk P β → Prop) (d : Disk P β) (ops : List (DiskOp P β)) : Prop :=
  ∀ n op, ops[n]? = some op → rel (run d (ops.take n)) (apply (run d (ops.take n)) op)

theorem each_append {rel : Disk P β → Disk P β → Prop} {more : List (DiskOp P β)} (first : Each rel d ops)
    (later : Each rel (run d ops) more) : Each rel d (ops ++ more) := by
  intro n op found
  by_cases early : n < ops.length
  · rw [List.getElem?_append_left early] at found
    rw [List.take_append_of_le_length (Nat.le_of_lt early)]
    exact first n op found
  · rw [List.getElem?_append_right (not_lt.mp early)] at found
    rw [List.take_append,List.take_of_length_le (not_lt.mp early),run_append]
    exact later _ op found

theorem each_tame {rel : Disk P β → Disk P β → Prop} (tame : ∀ op ∈ ops, ∀ d, rel d (apply d op)) : Each rel d ops :=
  fun _ op found => tame op (List.mem_of_getElem? found) _

-- Writes to one file in a row: only the last of them shows.
theorem run_writes (d : Disk P β) (p : P) (contents : List (List β)) (last : List β) :
    run d ((contents ++ [last]).map (.write p)) = d.write p last := by
  induction contents generalizing d with
  | nil => rfl
  | cons content rest ih =>
    refine (ih (d.write p content)).trans ?_
    simp only [Disk.write,AList.insert_insert]

theorem through_writes {holds : Disk P β → Prop} (now : holds d) (contents : List (List β))
    (each : ∀ content ∈ contents, holds (d.write p content)) : Through holds d (contents.map (.write p)) := by
  induction contents generalizing d with
  | nil => exact through_nil now
  | cons content rest ih =>
    refine through_cons now (ih (each content List.mem_cons_self) ?_)
    intro other member
    have later := each other (List.mem_cons_of_mem _ member)
    simpa only [apply,Disk.write,AList.insert_insert] using later

end DiskOp
