import Mathlib.Data.List.Forall2
import Mathlib.Logic.Relation

-- One place for jobs. A job is accepted, begun, ended with an outcome, settled
-- with a verdict on that outcome and released; only then is the next accepted.
namespace JobCycle

inductive Slot (J O V : Type) where
  | free
  | waiting (job : J)
  | running (job : J)
  | ended (job : J) (outcome : O)
  | settled (job : J) (outcome : O) (verdict : V)

-- All that has happened, oldest first.
structure Ledger (J O V : Type) where
  accepted : List J
  begun : List J
  ended : List (J × O)
  settled : List (J × V)

variable {J O V : Type} {fits : O → V → Prop}

namespace Ledger

def empty : Ledger J O V := ⟨[],[],[],[]⟩

def accept (l : Ledger J O V) (job : J) : Ledger J O V := {l with accepted := l.accepted ++ [job]}
def begin (l : Ledger J O V) (job : J) : Ledger J O V := {l with begun := l.begun ++ [job]}
def finish (l : Ledger J O V) (job : J) (outcome : O) : Ledger J O V := {l with ended := l.ended ++ [(job,outcome)]}
def settle (l : Ledger J O V) (job : J) (verdict : V) : Ledger J O V := {l with settled := l.settled ++ [(job,verdict)]}

end Ledger

inductive Move (fits : O → V → Prop) : Slot J O V × Ledger J O V → Slot J O V × Ledger J O V → Prop where
  | accept : Move fits (.free,l) (.waiting job,l.accept job)
  | begin : Move fits (.waiting job,l) (.running job,l.begin job)
  | finish : Move fits (.running job,l) (.ended job outcome,l.finish job outcome)
  | settle : fits outcome verdict → Move fits (.ended job outcome,l) (.settled job outcome verdict,l.settle job verdict)
  | release : Move fits (.settled job outcome verdict,l) (.free,l)

namespace Slot

def waits : Slot J O V → List J
  | .waiting job => [job]
  | _ => []

def runs : Slot J O V → List J
  | .running job => [job]
  | _ => []

def unsettled : Slot J O V → List (J × O)
  | .ended job outcome => [(job,outcome)]
  | _ => []

-- The job accepted and not settled yet, if there is one.
def owed : Slot J O V → List J
  | .waiting job | .running job | .ended job _ => [job]
  | .free | .settled _ _ _ => []

theorem owed_parts (slot : Slot J O V) : slot.owed = slot.unsettled.map Prod.fst ++ slot.runs ++ slot.waits := by
  cases slot <;> rfl

end Slot

def Latest (l : Ledger J O V) : Slot J O V → Prop
  | .free => True
  | .waiting job | .running job => l.accepted.getLast? = some job
  | .ended job outcome | .settled job outcome _ =>
    l.accepted.getLast? = some job ∧ l.ended.getLast? = some (job,outcome)

def Ruled (fits : O → V → Prop) (ended : J × O) (settled : J × V) : Prop :=
  ended.1 = settled.1 ∧ fits ended.2 settled.2

structure Balanced (fits : O → V → Prop) (slot : Slot J O V) (l : Ledger J O V) : Prop where
  accepted : l.accepted = l.begun ++ slot.waits
  begun : l.begun = l.ended.map Prod.fst ++ slot.runs
  ended : ∃ ruled, l.ended = ruled ++ slot.unsettled ∧ List.Forall₂ (Ruled fits) ruled l.settled
  latest : Latest l slot

theorem empty_balanced : Balanced fits (.free : Slot J O V) .empty :=
  ⟨rfl,rfl,⟨[],rfl,.nil⟩,True.intro⟩

theorem move_balanced {s next : Slot J O V × Ledger J O V} (balanced : Balanced fits s.1 s.2)
    (move : Move fits s next) : Balanced fits next.1 next.2 := by
  obtain ⟨accepted,begun,⟨ruled,ended,rulings⟩,latest⟩ := balanced
  cases move with
  | accept =>
      simp only [Slot.waits,Slot.runs,Slot.unsettled,List.append_nil] at accepted begun ended
      refine ⟨?_,?_,⟨ruled,?_,rulings⟩,?_⟩
      · simp [Ledger.accept,Slot.waits,accepted]
      · simpa [Ledger.accept,Slot.runs] using begun
      · simpa [Ledger.accept,Slot.unsettled] using ended
      · simp [Latest,Ledger.accept]
  | begin =>
      simp only [Slot.waits,Slot.runs,Slot.unsettled,List.append_nil] at accepted begun ended
      refine ⟨?_,?_,⟨ruled,?_,rulings⟩,latest⟩
      · simp [Ledger.begin,Slot.waits,accepted]
      · simp [Ledger.begin,Slot.runs,begun]
      · simpa [Ledger.begin,Slot.unsettled] using ended
  | finish =>
      simp only [Slot.waits,Slot.runs,Slot.unsettled,List.append_nil] at accepted begun ended
      refine ⟨?_,?_,⟨ruled,?_,rulings⟩,latest,?_⟩
      · simpa [Ledger.finish,Slot.waits] using accepted
      · simp [Ledger.finish,Slot.runs,begun]
      · simp [Ledger.finish,Slot.unsettled,ended]
      · simp [Ledger.finish]
  | settle fitting =>
      simp only [Slot.waits,Slot.runs,Slot.unsettled,List.append_nil] at accepted begun ended
      rename_i outcome verdict job l
      have ruling : Ruled fits (job,outcome) (job,verdict) := ⟨rfl,fitting⟩
      refine ⟨?_,?_,⟨ruled ++ [(job,outcome)],?_,List.rel_append rulings (.cons ruling .nil)⟩,latest⟩
      · simpa [Ledger.settle,Slot.waits] using accepted
      · simpa [Ledger.settle,Slot.runs] using begun
      · simpa [Ledger.settle,Slot.unsettled] using ended
  | release => exact ⟨accepted,begun,⟨ruled,ended,rulings⟩,True.intro⟩

theorem moves_balanced {slot : Slot J O V} {l : Ledger J O V}
    (path : Relation.ReflTransGen (Move fits) (.free,.empty) (slot,l)) : Balanced fits slot l := by
  suffices all : ∀ s, Relation.ReflTransGen (Move fits) (.free,.empty) s → Balanced fits s.1 s.2 from all _ path
  intro s path
  induction path with
  | refl => exact empty_balanced
  | tail _ move ih => exact move_balanced ih move

theorem ruled_jobs {ended : List (J × O)} {settled : List (J × V)}
    (rulings : List.Forall₂ (Ruled fits) ended settled) : ended.map Prod.fst = settled.map Prod.fst := by
  induction rulings with
  | nil => rfl
  | cons ruling _ ih => rw [List.map_cons,List.map_cons,ih,ruling.1]

namespace Balanced
variable {slot : Slot J O V} {l : Ledger J O V}

-- Every accepted job but the one still owed has been settled, in order and once.
theorem settled_once (balanced : Balanced fits slot l) : l.accepted = l.settled.map Prod.fst ++ slot.owed := by
  obtain ⟨accepted,begun,⟨ruled,ended,rulings⟩,_⟩ := balanced
  rw [accepted,begun,ended,List.map_append,ruled_jobs rulings,Slot.owed_parts]
  simp only [List.append_assoc]

theorem ruled_ends (balanced : Balanced fits slot l) :
    ∃ ruled, ruled <+: l.ended ∧ List.Forall₂ (Ruled fits) ruled l.settled := by
  obtain ⟨ruled,ended,rulings⟩ := balanced.ended
  exact ⟨ruled,⟨_,ended.symm⟩,rulings⟩

end Balanced

end JobCycle
