import Mathlib.Data.List.Count
import SmartFill.Lib.Transition

-- Logs of what acquires and releases resources, audited by a book of the ones
-- held and the ones given back. A rule may ask more of an event, given what is
-- held at that moment.
namespace Ownership
open Transition

inductive Event (α ι : Type) where
  | acquire (a : α)
  | release (a : α)
  | note (i : ι)
  deriving DecidableEq

structure Book (α : Type) where
  held : List α
  spent : List α

abbrev Rule (α ι : Type) := List α → Event α ι → Bool

variable {α ι : Type} [DecidableEq α] {allowed : Rule α ι}

def post (allowed : Rule α ι) (b : Book α) (e : Event α ι) : Option (Book α) :=
  if allowed b.held e then
    match e with
    | .acquire a => if a ∈ b.held ∨ a ∈ b.spent then none else some {b with held := a :: b.held}
    | .release a => if a ∈ b.held then some ⟨b.held.erase a,a :: b.spent⟩ else none
    | .note _ => some b
  else none

def ledger (allowed : Rule α ι) : System (Book α) (Event α ι) := ⟨(· = ⟨[],[]⟩),post allowed⟩

def audit (allowed : Rule α ι) (log : List (Event α ι)) : Option (Book α) := (ledger allowed).run ⟨[],[]⟩ log

-- What one event does to the number of times a resource is on the book.
structure Counts [DecidableEq ι] (log : List (Event α ι)) (b c : Book α) (a : α) : Prop where
  all : c.held.count a + c.spent.count a = b.held.count a + b.spent.count a + log.count (.acquire a)
  spent : c.spent.count a = b.spent.count a + log.count (.release a)
  single : b.held.count a + b.spent.count a ≤ 1 → c.held.count a + c.spent.count a ≤ 1

theorem post_allowed {b c : Book α} {e : Event α ι} (posted : post allowed b e = some c) : allowed b.held e = true := by
  unfold post at posted
  split at posted
  · assumption
  · cases posted

theorem audit_append (first rest : List (Event α ι)) :
    audit allowed (first ++ rest) = (audit allowed first).bind (fun b => (ledger allowed).run b rest) :=
  System.run_append _ first rest

theorem audit_prefix {log earlier : List (Event α ι)} {b : Book α} (audited : audit allowed log = some b)
    (before : earlier <+: log) : ∃ c, audit allowed earlier = some c := by
  obtain ⟨rest,rfl⟩ := before
  rw [audit_append] at audited
  obtain ⟨c,first,_⟩ := Option.bind_eq_some_iff.mp audited
  exact ⟨c,first⟩

-- Every event was allowed by what was held when it happened.
theorem audit_allowed {earlier rest : List (Event α ι)} {e : Event α ι} {b : Book α}
    (audited : audit allowed (earlier ++ e :: rest) = some b) :
    ∃ c, audit allowed earlier = some c ∧ allowed c.held e = true := by
  rw [audit_append] at audited
  obtain ⟨c,first,others⟩ := Option.bind_eq_some_iff.mp audited
  obtain ⟨_,posted,_⟩ := Option.bind_eq_some_iff.mp others
  exact ⟨c,first,post_allowed posted⟩

theorem audit_invariant (holds : List α → Prop) (start : holds [])
    (preserved : ∀ b e c, holds b.held → post allowed b e = some c → holds c.held) {log : List (Event α ι)} {b : Book α}
    (audited : audit allowed log = some b) : holds b.held := by
  have reached : Reached (ledger allowed) b := Reached.run (.initial rfl) log audited
  refine Reached.invariant (fun b => holds b.held) reached ?_ preserved
  intro s first
  cases first
  exact start

variable [DecidableEq ι]

theorem post_counts {b c : Book α} {e : Event α ι} (posted : post allowed b e = some c) (a : α) : Counts [e] b c a := by
  unfold post at posted
  split at posted
  · cases e with
    | acquire a' =>
      dsimp only at posted
      split at posted
      · cases posted
      · rename_i absent
        cases posted
        by_cases same : a' = a
        · subst same
          have none : b.held.count a' = 0 ∧ b.spent.count a' = 0 := by
            simp only [not_or] at absent
            exact ⟨List.count_eq_zero_of_not_mem absent.1,List.count_eq_zero_of_not_mem absent.2⟩
          constructor <;> simp [none.1,none.2]
        · constructor <;> simp [same]
    | release a' =>
      dsimp only at posted
      split at posted
      · rename_i member
        cases posted
        by_cases same : a' = a
        · subst same
          have some : 0 < b.held.count a' := List.count_pos_iff.mpr member
          constructor <;> simp <;> omega
        · have kept : (b.held.erase a').count a = b.held.count a := List.count_erase_of_ne (Ne.symm same)
          constructor <;> simp [same,kept]
      · cases posted
    | note i =>
      cases posted
      constructor <;> simp
  · cases posted

theorem run_counts {b c : Book α} (log : List (Event α ι)) (ran : (ledger allowed).run b log = some c) (a : α) :
    Counts log b c a := by
  induction log generalizing b with
  | nil =>
    cases ran
    constructor <;> simp
  | cons e rest ih =>
    obtain ⟨m,first,others⟩ := Option.bind_eq_some_iff.mp ran
    have head := post_counts first a
    have tail := ih others
    constructor
    · rw [tail.all,head.all]
      simp only [List.count_cons,List.count_nil]
      omega
    · rw [tail.spent,head.spent]
      simp only [List.count_cons,List.count_nil]
      omega
    · intro once
      exact tail.single (head.single once)

-- An audited log gives nothing back twice, and everything it no longer holds.
structure Once (log : List (Event α ι)) (b : Book α) (a : α) : Prop where
  acquired : log.count (.acquire a) ≤ 1
  released : log.count (.release a) ≤ log.count (.acquire a)
  settled : a ∉ b.held → log.count (.release a) = log.count (.acquire a)

theorem audit_once {log : List (Event α ι)} {b : Book α} (audited : audit allowed log = some b) (a : α) : Once log b a := by
  have counts := run_counts log audited a
  have all := counts.all
  have spent := counts.spent
  have single := counts.single (by simp)
  simp only [List.count_nil,Nat.zero_add] at all spent
  constructor
  · omega
  · omega
  · intro absent
    rw [List.count_eq_zero_of_not_mem absent] at all
    omega

end Ownership
