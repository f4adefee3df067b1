import SmartFill.Worker
import SmartFill.ImageCacheWrite

namespace SmartFill

-- How a computation outside the worker ends when it does not return: by an
-- exception, or by leaving what C++ defines.
inductive Fault where
  | threw (msg : Bytes)
  | undefined
  deriving DecidableEq

-- One statement of a bake's task. load and produce are the calls into the
-- backend, write is image_cache_write.
inductive TaskOp where
  | setStatusText (text : Bytes)
  | setProgress (p : F32)
  | load
  | produce
  | write
  deriving DecidableEq

-- What start_bake captures by value. The key is not captured; it is kept here
-- beside the path computed from it.
structure BakeJob (T : Type) where
  task : T
  key : Bytes
  path : Path
  width : Int
  height : Int

structure BakeRun (T : Type) where
  job : BakeJob T
  todo : List TaskOp
  pixels : Option (List F32)

-- What the backend makes of a task. The number tells repeated calls apart; the
-- option is the first progress report that finds a cancellation requested.
abbrev Backend (T : Type) := T → Nat → Option Nat → Except Fault (List F32)

structure Written (T : Type) where
  run : BakeRun T
  pixels : List F32
  ok : Bool
  content : Option Bytes

inductive WorkStep where
  | next
  | report (p : F32)
  | produce (call : Nat) (cancels : Option Nat)
  | write (faults : ImageCache.Faults)
  | throws (err : Bytes)
  | returns
  | storeError
  | publish

def writeFailedText (path : Path) : Bytes := ascii "failed to write cache file: " ++ path

section Work
variable {T : Type}

def finalState (context : AiWorkerContext) : AiWorkerState :=
  if context.cancelRequest then .cancelled else .done

def writeRun (faults : ImageCache.Faults) (job : BakeJob T) (pixels : List F32) (disk : Files) : ImageCache.WriteRun :=
  ImageCache.imageCacheWrite faults job.path (some pixels) job.width job.height 3 disk

-- One step of the worker thread: inside task(context_), or in what run() does
-- after it. A write also says what it wrote.
def workStep (backend : Backend T) (w : AiWorker (BakeRun T)) (disk : Files) :
    WorkStep → Option (AiWorker (BakeRun T) × Files × Option (Written T))
  | .next =>
    match w.thread with
    | .body ⟨job,.setStatusText text :: rest,pixels⟩ =>
      some ({w with context := {w.context with statusText := text},thread := .body ⟨job,rest,pixels⟩},disk,none)
    | .body ⟨job,.setProgress p :: rest,pixels⟩ =>
      some ({w with context := w.context.setProgress p,thread := .body ⟨job,rest,pixels⟩},disk,none)
    | .body ⟨job,.load :: rest,pixels⟩ => some ({w with thread := .body ⟨job,rest,pixels⟩},disk,none)
    | _ => none
  | .report p =>
    match w.thread with
    | .body ⟨_,.produce :: _,_⟩ => some ({w with context := w.context.setProgress p},disk,none)
    | _ => none
  | .produce call cancels =>
    match w.thread with
    | .body ⟨job,.produce :: rest,pixels⟩ =>
      if cancels.isSome && !w.context.cancelRequest then none else
      match backend job.task call cancels with
      | .ok made => some ({w with thread := .body ⟨job,rest,some made⟩},disk,none)
      | .error (.threw msg) => some ({w with thread := .ended ⟨job,.produce :: rest,pixels⟩ .error msg},disk,none)
      | .error .undefined => none
    | _ => none
  | .write faults =>
    match w.thread with
    | .body ⟨job,.write :: rest,some pixels⟩ =>
      let result := writeRun faults job pixels disk
      let thread := if result.ok then .body ⟨job,rest,some pixels⟩
        else .ended ⟨job,.write :: rest,some pixels⟩ .error (writeFailedText job.path)
      some ({w with thread := thread},result.final,
        some ⟨⟨job,.write :: rest,some pixels⟩,pixels,result.ok,result.final.read job.path⟩)
    | _ => none
  | .throws err =>
    match w.thread with
    | .body run => some ({w with thread := .ended run .error err},disk,none)
    | _ => none
  | .returns =>
    match w.thread with
    | .body ⟨job,[],pixels⟩ => some ({w with thread := .ended ⟨job,[],pixels⟩ (finalState w.context) []},disk,none)
    | _ => none
  | .storeError =>
    match w.thread with
    | .ended run final err =>
      let stored := if final = .error then err else w.errorMessage
      some ({w with errorMessage := stored,thread := .publishing run final},disk,none)
    | _ => none
  | .publish =>
    match w.thread with
    | .publishing run final => some ({w with state := final,thread := .exited run},disk,none)
    | _ => none

def BakeRun.Made (backend : Backend T) (run : BakeRun T) : Prop :=
  ∀ pixels, run.pixels = some pixels → ∃ call cancels, backend run.job.task call cancels = .ok pixels

-- What any one step leaves alone or can do, for every invariant to use.
structure Worked (backend : Backend T) (before after : AiWorker (BakeRun T)) : Prop where
  coherent : after.Coherent
  busy : before.state = .running
  still : after.state ≠ .idle
  same : ∀ run, after.thread.run? = some run → ∃ old, before.thread.run? = some old ∧
    run.job = old.job ∧ (old.Made backend → run.Made backend)

theorem finalState_terminal (context : AiWorkerContext) : (finalState context).terminal = true := by
  unfold finalState
  split <;> rfl

variable {backend : Backend T} {w next : AiWorker (BakeRun T)} {run : BakeRun T}

theorem running_of_body (coherent : w.Coherent) (body : w.thread = .body run) : w.state = .running := by
  simpa [AiWorker.Coherent,body] using coherent

theorem worked_body {context : AiWorkerContext} {new : BakeRun T} (coherent : w.Coherent)
    (body : w.thread = .body run) (job : new.job = run.job)
    (made : run.Made backend → new.Made backend) :
    Worked backend w {w with context := context,thread := .body new} := by
  have running := running_of_body coherent body
  refine ⟨running,running,by simp [running],?_⟩
  intro run found
  cases found
  exact ⟨run,by rw [body]; rfl,job,made⟩

theorem worked_ended {final : AiWorkerState} {err : Bytes} (coherent : w.Coherent)
    (body : w.thread = .body run) (terminal : final.terminal = true) :
    Worked backend w {w with thread := .ended run final err} := by
  have running := running_of_body coherent body
  refine ⟨⟨running,terminal⟩,running,by simp [running],?_⟩
  intro run found
  cases found
  exact ⟨run,by rw [body]; rfl,rfl,id⟩

theorem workStep_worked (coherent : w.Coherent)
    (ran : workStep backend w disk step = some (next,after,wrote)) : Worked backend w next := by
  cases step with
  | next =>
    simp only [workStep] at ran
    split at ran <;> cases ran
    all_goals
      rename_i body
      exact worked_body coherent body rfl id
  | report p =>
    simp only [workStep] at ran
    split at ran <;> cases ran
    rename_i body
    rw [body]
    exact worked_body coherent body rfl id
  | produce call cancels =>
    simp only [workStep] at ran
    split at ran
    · rename_i job rest pixels body
      split at ran
      · cases ran
      · split at ran <;> cases ran
        · rename_i made result
          refine worked_body coherent body rfl ?_
          intro _ _ found
          cases found
          exact ⟨call,cancels,result⟩
        · exact worked_ended coherent body rfl
    · cases ran
  | write faults =>
    simp only [workStep] at ran
    split at ran <;> cases ran
    rename_i body
    split
    · exact worked_body coherent body rfl id
    · exact worked_ended coherent body rfl
  | throws err =>
    simp only [workStep] at ran
    split at ran <;> cases ran
    rename_i body
    exact worked_ended coherent body rfl
  | returns =>
    simp only [workStep] at ran
    split at ran <;> cases ran
    rename_i body
    exact worked_ended coherent body (finalState_terminal _)
  | storeError =>
    simp only [workStep] at ran
    split at ran <;> cases ran
    rename_i run final err ended
    have parts : w.state = .running ∧ final.terminal = true := by simpa [AiWorker.Coherent,ended] using coherent
    refine ⟨parts,parts.1,by simp [parts.1],?_⟩
    intro run found
    cases found
    exact ⟨run,by rw [ended]; rfl,rfl,id⟩
  | publish =>
    simp only [workStep] at ran
    split at ran <;> cases ran
    rename_i run final publishing
    have parts : w.state = .running ∧ final.terminal = true := by simpa [AiWorker.Coherent,publishing] using coherent
    refine ⟨parts.2,parts.1,?_,?_⟩
    · intro idle
      dsimp only at idle
      have terminal := parts.2
      rw [idle] at terminal
      cases terminal
    · intro run found
      cases found
      exact ⟨run,by rw [publishing]; rfl,rfl,id⟩

def Written.Faithful (b : Written T) : Prop :=
  ∃ faults disk, b.ok = (writeRun faults b.run.job b.pixels disk).ok ∧
    b.content = (writeRun faults b.run.job b.pixels disk).final.read b.run.job.path

theorem workStep_wrote {written : Written T}
    (ran : workStep backend w disk step = some (next,after,some written)) :
    w.thread.run? = some written.run ∧ written.run.pixels = some written.pixels ∧ written.Faithful := by
  cases step with
  | write faults =>
    simp only [workStep] at ran
    split at ran <;> cases ran
    rename_i body
    exact ⟨by rw [body]; rfl,rfl,faults,disk,rfl,rfl⟩
  | produce call cancels =>
    simp only [workStep] at ran
    repeat' split at ran
    all_goals cases ran
  | _ =>
    simp only [workStep] at ran
    split at ran <;> cases ran

end Work

end SmartFill
