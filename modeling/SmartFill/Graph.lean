import SmartFill.AIGenerateRuns
import SmartFill.AISmartFillRuns
import SmartFill.WriteOps
import SmartFill.Lib.Parallel

namespace SmartFill.Graph
open Transition Parallel ImageCache

-- An image_cache_write that a worker thread is in: the statement of the task,
-- and how many of its file operations have been made.
structure Flight (T : Type) where
  faults : Faults
  run : BakeRun T
  pixels : List F32
  done : Nat

def Flight.path {T : Type} (f : Flight T) : Path := f.run.job.path

def Flight.call {T : Type} (f : Flight T) : WriteCall :=
  ⟨f.faults,f.path,f.pixels,f.run.job.width,f.run.job.height,3⟩

-- The task throws when image_cache_write returns false.
def afterWrite {T : Type} (f : Flight T) (ok : Bool) : Thread (BakeRun T) :=
  if ok then .body ⟨f.run.job,f.run.todo.tail,some f.pixels⟩ else .ended f.run .error (writeFailedText f.path)

-- A node of the graph, with what its worker has written.
structure Part (Node T : Type) where
  node : Node
  bakes : List (Written T)
  flight : Option (Flight T)

inductive Move (Act : Type) where
  | main (act : Act)
  | work (w : WorkStep)
  | enter (faults : Faults)
  | operation
  | leave

-- One Op class. Nuke makes the calls of all nodes on its main thread, one after
-- another; each node has a worker thread of its own.
structure Kind (Node T Act : Type) where
  fresh : Node
  worker : Node → AiWorker (BakeRun T)
  setWorker : Node → AiWorker (BakeRun T) → Node
  backend : Backend T
  main : Node → Files → Act → Option (Node × Files)

namespace Kind
variable {Node T Act : Type}

-- The other steps of the worker leave the disk alone. A write is made in
-- pieces, between which anything may happen elsewhere.
def step (k : Kind Node T Act) (p : Part Node T) (disk : Files) : Move Act → Option (Part Node T × Files)
  | .main act => (k.main p.node disk act).map (fun moved => ({p with node := moved.1},moved.2))
  | .work (.write _) => none
  | .work w =>
    if p.flight.isSome then none else
    (workStep k.backend (k.worker p.node) disk w).map (fun moved => ({p with node := k.setWorker p.node moved.1},disk))
  | .enter faults =>
    match p.flight,(k.worker p.node).thread with
    | none,.body ⟨job,.write :: rest,some pixels⟩ =>
      some ({p with flight := some ⟨faults,⟨job,.write :: rest,some pixels⟩,pixels,0⟩},disk)
    | _,_ => none
  | .operation =>
    match p.flight with
    | none => none
    | some f => (f.call.ops[f.done]?).map (fun op =>
        ({p with flight := some {f with done := f.done+1}},DiskOp.apply disk op))
  | .leave =>
    match p.flight with
    | none => none
    | some f =>
      if f.done < f.call.ops.length then none else
      some (⟨k.setWorker p.node {k.worker p.node with thread := afterWrite f (f.call.run disk).ok},
        ⟨f.run,f.pixels,(f.call.run disk).ok,disk.read f.path⟩ :: p.bakes,none⟩,disk)

def component (k : Kind Node T Act) : Component (Part Node T) Files (Move Act) :=
  ⟨fun p => p = ⟨k.fresh,[],none⟩,k.step⟩

end Kind

def fillKind (host : AISmartFill.Host) : Kind AISmartFill.Node AISmartFill.FillTask AISmartFill.Action where
  fresh := AISmartFill.fresh
  worker node := node.rt.worker
  setWorker := AISmartFill.setWorker
  backend := AISmartFill.backend host
  main node disk
  | .work _ | .files _ => none
  | act => (AISmartFill.step host ⟨node,disk,[]⟩ act).map (fun s => (s.node,s.disk))

def generateKind (host : AIGenerate.Host) : Kind AIGenerate.Node AIGenerate.SdJob AIGenerate.Action where
  fresh := AIGenerate.fresh
  worker node := node.rt.worker
  setWorker := AIGenerate.setWorker
  backend := host.backend
  main node disk
  | .work _ | .files _ => none
  | act => (AIGenerate.step host ⟨node,disk,[]⟩ act).map (fun s => (s.node,s.disk))

-- Everyone who works on the disk: the nodes of either Op, and whoever else.
inductive Party (ι κ : Type) where
  | fill (i : ι)
  | generate (k : κ)
  | outside
  deriving DecidableEq

section System
variable {ι κ : Type}

abbrev Local : Party ι κ → Type
  | .fill _ => Part AISmartFill.Node AISmartFill.FillTask
  | .generate _ => Part AIGenerate.Node AIGenerate.SdJob
  | .outside => Unit

abbrev Act : Party ι κ → Type
  | .fill _ => Move AISmartFill.Action
  | .generate _ => Move AIGenerate.Action
  | .outside => Files

def component (fill : ι → AISmartFill.Host) (generate : κ → AIGenerate.Host) :
    ∀ p : Party ι κ, Component (Local p) Files (Act p)
  | .fill i => (fillKind (fill i)).component
  | .generate k => (generateKind (generate k)).component
  | .outside => ⟨fun _ => True,fun _ _ later => some ((),later)⟩

abbrev State (ι κ : Type) : Type := Together (Local : Party ι κ → Type) Files

variable [DecidableEq ι] [DecidableEq κ]

def graph (fill : ι → AISmartFill.Host) (generate : κ → AIGenerate.Host) (start : Files → Prop) :
    System (State ι κ) (Σ p : Party ι κ, Act p) := together start (component fill generate)

def fillPart (s : State ι κ) (i : ι) : Part AISmartFill.Node AISmartFill.FillTask := s.locals (.fill i)
def generatePart (s : State ι κ) (k : κ) : Part AIGenerate.Node AIGenerate.SdJob := s.locals (.generate k)

-- One node as its own model sees it.
def fillView (s : State ι κ) (i : ι) : AISmartFill.State := ⟨(fillPart s i).node,s.store,(fillPart s i).bakes⟩
def generateView (s : State ι κ) (k : κ) : AIGenerate.State :=
  ⟨(generatePart s k).node,s.store,(generatePart s k).bakes⟩

def Part.Writes {Node T : Type} (p : Part Node T) (q : Path) : Prop := ∃ f, p.flight = some f ∧ Own f.path q

def Writes : ∀ p : Party ι κ, Local p → Path → Prop
  | .fill _,(l : Part AISmartFill.Node AISmartFill.FillTask) => l.Writes
  | .generate _,(l : Part AIGenerate.Node AIGenerate.SdJob) => l.Writes
  | .outside,_ => fun _ => False

def Operates : ∀ p : Party ι κ, Act p → Prop
  | .fill _,(a : Move AISmartFill.Action) => a = .operation
  | .generate _,(a : Move AIGenerate.Action) => a = .operation
  | .outside,_ => False

-- Nothing but the write itself changes a file that is being written: two bakes
-- under way do not share one, Clear Cache and other programs leave it alone.
def Apart (fill : ι → AISmartFill.Host) (generate : κ → AIGenerate.Host) (s : State ι κ)
    (act : Σ p : Party ι κ, Act p) : Prop :=
  ∀ moved, (component fill generate act.1).step (s.locals act.1) s.store act.2 = some moved →
    ∀ p q, Writes p (s.locals p) q → ¬ (p = act.1 ∧ Operates act.1 act.2) → moved.2.read q = s.store.read q

end System

end SmartFill.Graph
