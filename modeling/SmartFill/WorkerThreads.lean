import SmartFill.Worker
import SmartFill.Lib.JobCycle
import SmartFill.Lib.Transition

namespace SmartFill

-- How task(context_) is left: it returns, or a std::exception or anything else
-- is thrown out of it.
inductive TaskEnd where
  | returned
  | threw (what : Bytes)
  | unknown

def TaskEnd.message : TaskEnd → Bytes
  | .returned => []
  | .threw what => what
  | .unknown => ascii "Unknown exception in worker"

-- Where run() is in one std::thread: not entered; inside task(context_); back
-- from it; past the try block; past the store of error_message_; past the store
-- of state_; returned.
inductive Phase where
  | created
  | body
  | returned
  | ended (final : AiWorkerState) (err : Bytes)
  | stored (final : AiWorkerState)
  | published
  | exited

structure RunThread (R : Type) where
  task : R
  phase : Phase

-- The statements of start() after the compare-exchange, each the next to run.
inductive StartStep where
  | clearCancel
  | setProgress
  | setStatusText
  | join
  | spawn

-- The statements of reset() after its test of state_.
inductive ResetStep where
  | join
  | clearError
  | setProgress
  | setStatusText
  | store

-- The main thread is between calls, or inside one. std::terminate is what
-- assigning to a joinable std::thread does.
inductive Main (R : Type) where
  | ready
  | starting (task : R) (found : AiWorkerState) (next : StartStep)
  | joining
  | resetting (next : ResetStep)
  | destroying
  | destroyed
  | terminated

-- What has happened so far; no step depends on it. `starts` has for each start()
-- that returned the state it found and its result; `cancelled` and `requested`
-- are the requests of cancel() and of the task itself since start() last
-- returned true; `read` is what state() last returned since a start() or reset().
structure History (R : Type) where
  ledger : JobCycle.Ledger R TaskEnd AiWorkerState
  starts : List (AiWorkerState × Bool)
  cancelled : Bool
  requested : Bool
  read : Option AiWorkerState

-- `threads` has every std::thread ever created, oldest first; `handle` is the
-- one that thread_ can join.
structure WorkerThreads (R : Type) where
  state : AiWorkerState
  context : AiWorkerContext
  errorMessage : Bytes
  threads : List (RunThread R)
  handle : Option Nat
  main : Main R
  history : History R

inductive MainCall (R : Type) where
  | start (task : R)
  | cancel
  | join
  | reset
  | state
  | errorMessage
  | progress
  | statusText
  | destroy

-- The calls a task makes on its context, how it is left, and the rest of run().
inductive RunAction where
  | enter
  | setProgress (p : F32)
  | setStatusText (text : Bytes)
  | requestCancel
  | leave (outcome : TaskEnd)
  | shouldCancel
  | storeError
  | storeState
  | exit

inductive WorkerAction (R : Type) where
  | call (call : MainCall R)
  | proceed
  | run (tid : Nat) (action : RunAction)

def AiWorkerContext.requestCancel (c : AiWorkerContext) : AiWorkerContext := {c with cancelRequest := true}
def AiWorkerContext.clearCancelForRun (c : AiWorkerContext) : AiWorkerContext := {c with cancelRequest := false}
def AiWorkerContext.setStatusText (c : AiWorkerContext) (text : Bytes) : AiWorkerContext := {c with statusText := text}

namespace WorkerThreads
variable {R : Type}

def fresh : WorkerThreads R :=
  ⟨.idle,⟨F32.zero,false,[]⟩,[],[],none,.ready,⟨.empty,[],false,false,none⟩⟩

-- if (thread_.joinable()) thread_.join(). It waits until run() has returned.
def joined (s : WorkerThreads R) : Option (WorkerThreads R) :=
  match s.handle with
  | none => some s
  | some tid =>
    match s.threads[tid]? with
    | some ⟨_,.exited⟩ => some {s with handle := none}
    | _ => none

def cancel (s : WorkerThreads R) : WorkerThreads R :=
  {s with context := s.context.requestCancel,history := {s.history with cancelled := true}}

-- A call of the main thread up to its first statement that another thread can
-- take part in: the compare-exchange of start(), the load of reset().
def call (s : WorkerThreads R) : MainCall R → WorkerThreads R
  | .start task =>
    match s.state with
    | .idle =>
      {s with
        state := .running
        main := .starting task s.state .clearCancel
        history := {s.history with ledger := s.history.ledger.accept task,read := none}}
    | found => {s with history := {s.history with starts := s.history.starts ++ [(found,false)],read := none}}
  | .cancel => s.cancel
  | .join => {s with main := .joining}
  | .reset =>
    match s.state with
    | .idle | .running => {s with history := {s.history with read := none}}
    | _ => {s with main := .resetting .join,history := {s.history with read := none}}
  | .state => {s with history := {s.history with read := some s.state}}
  | .errorMessage | .progress | .statusText => s
  | .destroy => {s.cancel with main := .destroying}

-- thread_ = std::thread(&AiWorker::run, this, std::move(task)); return true;
def spawn (s : WorkerThreads R) (task : R) (found : AiWorkerState) : WorkerThreads R :=
  match s.handle with
  | some _ => {s with main := .terminated}
  | none =>
    {s with
      threads := s.threads ++ [⟨task,.created⟩]
      handle := some s.threads.length
      main := .ready
      history := {s.history with starts := s.history.starts ++ [(found,true)],cancelled := false,requested := false}}

-- The next statement of the call the main thread is in.
def proceed (s : WorkerThreads R) : Option (WorkerThreads R) :=
  match s.main with
  | .ready | .destroyed | .terminated => none
  | .starting task found .clearCancel =>
    some {s with context := s.context.clearCancelForRun,main := .starting task found .setProgress}
  | .starting task found .setProgress =>
    some {s with context := s.context.setProgress F32.zero,main := .starting task found .setStatusText}
  | .starting task found .setStatusText =>
    some {s with context := s.context.setStatusText (ascii "Starting"),main := .starting task found .join}
  | .starting task found .join => s.joined.map (fun s => {s with main := .starting task found .spawn})
  | .starting task found .spawn => some (s.spawn task found)
  | .joining => s.joined.map (fun s => {s with main := .ready})
  | .resetting .join => s.joined.map (fun s => {s with main := .resetting .clearError})
  | .resetting .clearError => some {s with errorMessage := [],main := .resetting .setProgress}
  | .resetting .setProgress => some {s with context := s.context.setProgress F32.zero,main := .resetting .setStatusText}
  | .resetting .setStatusText => some {s with context := s.context.setStatusText [],main := .resetting .store}
  | .resetting .store => some {s with state := .idle,main := .ready}
  | .destroying => s.joined.map (fun s => {s with main := .destroyed})

def seat (s : WorkerThreads R) (tid : Nat) (task : R) (phase : Phase) : WorkerThreads R :=
  {s with threads := s.threads.set tid ⟨task,phase⟩}

def record (s : WorkerThreads R)
    (entry : JobCycle.Ledger R TaskEnd AiWorkerState → JobCycle.Ledger R TaskEnd AiWorkerState) : WorkerThreads R :=
  {s with history := {s.history with ledger := entry s.history.ledger}}

-- One statement of AiWorker::run, or of the task it is in.
def runStep (s : WorkerThreads R) (tid : Nat) (task : R) : Phase → RunAction → Option (WorkerThreads R)
  | .created,.enter => some ((s.seat tid task .body).record (·.begin task))
  | .body,.setProgress p => some {s with context := s.context.setProgress p}
  | .body,.setStatusText text => some {s with context := s.context.setStatusText text}
  | .body,.requestCancel =>
    some {s with context := s.context.requestCancel,history := {s.history with requested := true}}
  | .body,.leave .returned => some ((s.seat tid task .returned).record (·.finish task .returned))
  | .body,.leave outcome => some ((s.seat tid task (.ended .error outcome.message)).record (·.finish task outcome))
  | .returned,.shouldCancel =>
    some (s.seat tid task (.ended (if s.context.cancelRequest then .cancelled else .done) []))
  | .ended .error err,.storeError => some {s.seat tid task (.stored .error) with errorMessage := err}
  | .ended final _,.storeError => some (s.seat tid task (.stored final))
  | .stored final,.storeState => some ({s.seat tid task .published with state := final}.record (·.settle task final))
  | .published,.exit => some (s.seat tid task .exited)
  | _,_ => none

def step (s : WorkerThreads R) : WorkerAction R → Option (WorkerThreads R)
  | .call c =>
    match s.main with
    | .ready => some (s.call c)
    | _ => none
  | .proceed => s.proceed
  | .run tid action =>
    match s.threads[tid]? with
    | some ⟨task,phase⟩ => s.runStep tid task phase action
    | none => none

def system (R : Type) : Transition.System (WorkerThreads R) (WorkerAction R) := ⟨(· = fresh),step⟩

end WorkerThreads

end SmartFill
