import SmartFill.Types

namespace SmartFill

inductive AiWorkerState where
  | idle
  | running
  | done
  | error
  | cancelled
  deriving DecidableEq

def AiWorkerState.terminal : AiWorkerState → Bool
  | .done | .error | .cancelled => true
  | .idle | .running => false

structure AiWorkerContext where
  progress : F32
  cancelRequest : Bool
  statusText : Bytes

def AiWorkerContext.setProgress (c : AiWorkerContext) (p : F32) : AiWorkerContext :=
  let p := if F32.lt p F32.zero then F32.zero else p
  let p := if F32.lt F32.one p then F32.one else p
  {c with progress := p}

-- thread_ and where its run() is: not joinable; inside task(context_); past the
-- try block with final_state and err chosen; error_message_ stored; returned.
inductive Thread (R : Type) where
  | none
  | body (run : R)
  | ended (run : R) (final : AiWorkerState) (err : Bytes)
  | publishing (run : R) (final : AiWorkerState)
  | exited (run : R)

def Thread.run? : Thread R → Option R
  | .none => Option.none
  | .body run | .ended run _ _ | .publishing run _ | .exited run => some run

structure AiWorker (R : Type) where
  state : AiWorkerState
  context : AiWorkerContext
  errorMessage : Bytes
  thread : Thread R

namespace AiWorker
variable {R : Type}

def fresh : AiWorker R := ⟨.idle,⟨F32.zero,false,[]⟩,[],.none⟩

-- The compare-exchange, the clearing of stale state and the new thread. Thread
-- creation is taken to succeed.
def start (w : AiWorker R) (run : R) : AiWorker R × Bool :=
  match w.state with
  | .idle => (⟨.running,⟨F32.zero,false,ascii "Starting"⟩,w.errorMessage,.body run⟩,true)
  | _ => (w,false)

def cancel (w : AiWorker R) : AiWorker R := {w with context := {w.context with cancelRequest := true}}

-- A thread in a terminal state has nothing left to do but return, so the join
-- does not wait for anything that can still change the worker.
def reset (w : AiWorker R) : AiWorker R :=
  match w.state with
  | .idle | .running => w
  | _ => ⟨.idle,{w.context with progress := F32.zero,statusText := []},[],.none⟩

def Coherent (w : AiWorker R) : Prop :=
  match w.thread with
  | .none => w.state = .idle
  | .body _ => w.state = .running
  | .ended _ final _ | .publishing _ final => w.state = .running ∧ final.terminal = true
  | .exited _ => w.state.terminal = true

theorem fresh_coherent : Coherent (fresh : AiWorker R) := rfl

theorem start_idle {w : AiWorker R} (idle : w.state = .idle) (run : R) :
    w.start run = (⟨.running,⟨F32.zero,false,ascii "Starting"⟩,w.errorMessage,.body run⟩,true) := by
  simp [start,idle]

theorem start_refused {w : AiWorker R} (busy : w.state ≠ .idle) (run : R) : w.start run = (w,false) := by
  unfold start
  split
  · contradiction
  · rfl

theorem start_accepts (w : AiWorker R) (run : R) : (w.start run).2 = true ↔ w.state = .idle := by
  by_cases idle : w.state = .idle
  · simp [start_idle idle,idle]
  · simp [start_refused idle,idle]

theorem start_coherent {w : AiWorker R} (coherent : w.Coherent) (run : R) : Coherent (w.start run).1 := by
  by_cases idle : w.state = .idle
  · rw [start_idle idle]
    rfl
  · rw [start_refused idle]
    exact coherent

theorem reset_coherent {w : AiWorker R} (coherent : w.Coherent) : w.reset.Coherent := by
  unfold reset
  split
  · exact coherent
  · exact coherent
  · rfl

theorem terminal_of (notIdle : s ≠ AiWorkerState.idle) (notRunning : s ≠ .running) : s.terminal = true := by
  cases s <;> simp_all [AiWorkerState.terminal]

theorem reset_idle {w : AiWorker R} (notRunning : w.state ≠ .running) : w.reset.state = .idle := by
  unfold reset
  split
  · assumption
  · contradiction
  · rfl

theorem run_of_busy {w : AiWorker R} (coherent : w.Coherent) (busy : w.state ≠ .idle) :
    ∃ run, w.thread.run? = some run := by
  unfold Coherent at coherent
  split at coherent
  · contradiction
  all_goals
    rename_i thread
    rw [thread]
    exact ⟨_,rfl⟩

end AiWorker

end SmartFill
