import SmartFill.AISmartFillRuns
import SmartFill.AIGenerateRuns

namespace SmartFill
open Transition

-- A step of the node, or the node created anew from the script saved now. What
-- happens to the files before the script is opened is a step of its own.
inductive ScriptAction (A : Type) where
  | op (a : A)
  | reopen

def withScripts {S A : Type} (sys : System S A) (reopened : S → S) : System S (ScriptAction A) where
  initial := sys.initial
  step s
    | .op a => sys.step s a
    | .reopen => some (reopened s)

theorem op_guarded {S A : Type} {sys : System S A} {reopened : S → S} {allowed : S → A → Prop}
    {permitted : S → ScriptAction A → Prop} {s : S} (path : Guarded sys allowed s)
    (same : ∀ s a, allowed s a → permitted s (.op a)) : Guarded (withScripts sys reopened) permitted s := by
  induction path with
  | initial start => exact .initial start
  | step prior allowed ran ih => exact ih.act (.op _) (same _ _ allowed) ran

-- The knobs that are not flagged DO_NOT_WRITE, in a new Op with a new worker.
def Runtime.reopened {T : Type} {extension : Bytes} (saved : Runtime T extension) : Runtime T extension :=
  {Runtime.fresh saved.statusText with progress := saved.progress}

namespace AISmartFill

def reopenedNode (saved : Node) : Node :=
  {fresh with knobs := saved.knobs,source := saved.source,mask := saved.mask,rt := saved.rt.reopened}

def reopened (s : State) : State := ⟨reopenedNode s.node,s.disk,[]⟩

def scripts (host : Host) : System State (ScriptAction Action) := withScripts (system host) reopened

end AISmartFill

namespace AIGenerate

def reopenedNode (saved : Node) : Node :=
  {fresh with knobs := saved.knobs,source := saved.source,control := saved.control,
              lastSeedText := saved.lastSeedText,rt := saved.rt.reopened}

def reopened (s : State) : State := ⟨reopenedNode s.node,s.disk,[]⟩

def scripts (host : Host) : System State (ScriptAction Action) := withScripts (system host) reopened

end AIGenerate

end SmartFill
