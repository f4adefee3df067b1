import SmartFill.Exact
import SmartFill.LamaTiler
import SmartFill.SdSession
import SmartFill.WorkerThreads

namespace SmartFill

open Transition

-- Why a task was left by an exception: it saw the request to cancel, or not.
inductive Cause where
  | observed (what : Bytes)
  | other (what : Bytes)
  | undefined

namespace Cause
variable {α β : Type}

def fault : Cause → Fault
  | .observed what | .other what => .threw what
  | .undefined => .undefined

def ofFault : Fault → Cause
  | .threw what => .other what
  | .undefined => .undefined

-- A part of a task that does not look at the flag.
def blind (x : Except Fault α) : Except Cause α := x.mapError ofFault

def Observed (result : Except Cause α) : Prop := ∃ what, result = .error (.observed what)

theorem ok_unobserved (a : α) : ¬ Observed (.ok a) := by
  rintro ⟨what,same⟩
  cases same

theorem other_unobserved (what : Bytes) : ¬ Observed (.error (.other what) : Except Cause α) := by
  rintro ⟨what,same⟩
  cases same

theorem blind_observed (x : Except Fault α) (f : α → Except Cause β) :
    Observed (blind x >>= f) ↔ ∃ a, x = .ok a ∧ Observed (f a) := by
  cases x with
  | ok a => simp only [Except.ok.injEq,exists_eq_left']; rfl
  | error e =>
    apply iff_of_false
    · rintro ⟨what,same⟩
      cases e with
      | threw _ => cases same
      | undefined => cases same
    · rintro ⟨a,same,_⟩
      cases same

theorem erase_bind (x : Except Cause α) (f : α → Except Cause β) :
    (x >>= f).mapError fault = x.mapError fault >>= (fun a => (f a).mapError fault) := by
  cases x <;> rfl

theorem erase_blind (x : Except Fault α) : (blind x).mapError fault = x := by
  cases x with
  | ok a => rfl
  | error e => cases e <;> rfl

end Cause

-- The flag's reads tell one moment of cancel() from another: how many of them
-- came before it.
def raised : Option Nat → Nat → Bool
  | none,_ => false
  | some arrival,n => decide (arrival ≤ n)

theorem raised_below {arrival : Option Nat} {k : Nat} :
    (∃ n < k, raised arrival n = true) ↔ ¬ ∀ a, arrival = some a → k ≤ a := by
  cases arrival with
  | none => simp [raised]
  | some a =>
    simp only [raised,decide_eq_true_eq,Option.some.injEq,forall_eq',not_le]
    constructor
    · rintro ⟨n,less,arrived⟩
      omega
    · intro less
      exact ⟨a,less,le_rfl⟩

namespace LamaTiler
open Cause
variable {F : Type} {ops : FloatOps F} {run : List F → List F → Except Bytes (List F)} {rgb mask : List F}
  {width height : Int} {progress : Nat → Bool}

def tracedReport (progress : Nat → Bool) (n : Nat) : Except Cause Unit :=
  if progress n then .ok () else .error (.observed (ascii "cancelled"))

-- inpaint_image, telling its own "cancelled" from whatever else is thrown.
def tracedInpaint (ops : FloatOps F) (run : List F → List F → Except Bytes (List F)) (rgb mask : List F)
    (width height : Int) (progress : Nat → Bool) : Except Cause (List F) :=
  if width ≤ 0 ∨ height ≤ 0 then .error (.other (ascii "inpaint_image: non-positive dimensions")) else do
  tracedReport progress 0
  let (img,msk) ← blind (canvases ops rgb mask width.toNat height.toNat)
  tracedReport progress 1
  let out ← blind (ran (run img msk))
  tracedReport progress 2
  let inpainted ← blind (restored ops out width.toNat height.toNat)
  let pixels ← blind (defined (compositeInts width.toNat height.toNat)
    (compositeMasked ops rgb inpainted mask width.toNat height.toNat ops.half))
  tracedReport progress 3
  return pixels

theorem erase_report (progress : Nat → Bool) (n : Nat) :
    (tracedReport progress n).mapError fault = reportProgress progress n := by
  unfold tracedReport reportProgress
  split <;> rfl

theorem tracedInpaint_erases (ops : FloatOps F) (run : List F → List F → Except Bytes (List F)) (rgb mask : List F)
    (width height : Int) (progress : Nat → Bool) :
    (tracedInpaint ops run rgb mask width height progress).mapError fault =
      inpaintImage ops run rgb mask width height progress := by
  unfold tracedInpaint inpaintImage
  split
  · rfl
  · simp only [erase_bind,erase_blind,erase_report]
    rfl

-- How many reports a call makes that is not cancelled.
def reports (ops : FloatOps F) (run : List F → List F → Except Bytes (List F)) (rgb mask : List F)
    (width height : Int) : Nat :=
  if width ≤ 0 ∨ height ≤ 0 then 0 else
  match canvases ops rgb mask width.toNat height.toNat with
  | .error _ => 1
  | .ok (img,msk) =>
    match run img msk with
    | .error _ => 2
    | .ok out =>
      match restored ops out width.toNat height.toNat with
      | .error _ => 3
      | .ok _ => if (compositeInts width.toNat height.toNat).all fitsInt then 4 else 3

theorem report_observed {α : Type} (n : Nat) (f : Unit → Except Cause α) :
    Observed (tracedReport progress n >>= f) ↔ progress n = false ∨ Observed (f ()) := by
  unfold tracedReport
  by_cases goesOn : progress n = true
  · rw [if_pos goesOn,goesOn]
    simp [ok_bind]
  · rw [if_neg goesOn]
    exact iff_of_true ⟨_,rfl⟩ (.inl (by simpa using goesOn))

theorem ran_ok {x : Except Bytes (List F)} {out : List F} : ran x = .ok out ↔ x = .ok out := by
  cases x with
  | ok a => simp [ran,Except.mapError]
  | error e => simp [ran,Except.mapError]

theorem defined_iff {α : Type} {ints : List Int} {value made : α} :
    defined ints value = .ok made ↔ ints.all fitsInt = true ∧ made = value := by
  unfold defined
  split
  · rename_i fits
    simp [fits,eq_comm]
  · rename_i wide
    simp [wide]

theorem inpaint_observed (ops : FloatOps F) (run : List F → List F → Except Bytes (List F)) (rgb mask : List F)
    (width height : Int) (progress : Nat → Bool) :
    Observed (tracedInpaint ops run rgb mask width height progress) ↔
      ∃ n < reports ops run rgb mask width height, progress n = false := by
  have zero : ¬ ∃ n < 0, progress n = false := by simp
  have one : (∃ n < 1, progress n = false) ↔ progress 0 = false := by simp
  have two : (∃ n < 2, progress n = false) ↔ progress 0 = false ∨ progress 1 = false := by rw [Nat.exists_lt_succ_right,one]
  have three : (∃ n < 3, progress n = false) ↔ (progress 0 = false ∨ progress 1 = false) ∨ progress 2 = false := by
    rw [Nat.exists_lt_succ_right,two]
  have four : (∃ n < 4, progress n = false) ↔
      ((progress 0 = false ∨ progress 1 = false) ∨ progress 2 = false) ∨ progress 3 = false := by
    rw [Nat.exists_lt_succ_right,three]
  unfold tracedInpaint reports
  by_cases empty : width ≤ 0 ∨ height ≤ 0
  · rw [if_pos empty,if_pos empty]
    exact iff_of_false (other_unobserved _) zero
  rw [if_neg empty,if_neg empty]
  simp only [report_observed,blind_observed,ran_ok,defined_iff]
  cases made : canvases ops rgb mask width.toNat height.toNat with
  | error e => simp
  | ok pair =>
    obtain ⟨img,msk⟩ := pair
    dsimp only
    cases answer : run img msk with
    | error what =>
      rw [two]
      simp [answer]
    | ok out =>
      dsimp only
      cases resized : restored ops out width.toNat height.toNat with
      | error e => simp [answer,resized,three,or_assoc]
      | ok inpainted =>
        have done : ¬ Observed (pure (compositeMasked ops rgb inpainted mask width.toNat height.toNat ops.half)) :=
          ok_unobserved _
        by_cases fits : (compositeInts width.toNat height.toNat).all fitsInt = true
        · simp only [fits,if_true]
          simp [answer,resized,done,four,or_assoc]
        · simp only [fits]
          simp [answer,three,or_assoc]

-- AISmartFill's task from its call of inpaint_image on: each report reads the
-- flag, `written` is what image_cache_write returns.
def fillTask (ops : FloatOps F) (run : List F → List F → Except Bytes (List F)) (rgb mask : List F) (width height : Int)
    (path : Path) (written : Bool) (arrival : Option Nat) : Except Cause Unit := do
  let _ ← tracedInpaint ops run rgb mask width height (fun n => !raised arrival n)
  if written then .ok () else .error (.other (writeFailedText path))

theorem fill_observed (path : Path) (written : Bool) (arrival : Option Nat) :
    Observed (fillTask ops run rgb mask width height path written arrival) ↔
      ¬ ∀ a, arrival = some a → reports ops run rgb mask width height ≤ a := by
  have stops := inpaint_observed ops run rgb mask width height (fun n => !raised arrival n)
  simp only [Bool.not_eq_false',raised_below] at stops
  rw [←stops,fillTask]
  cases tracedInpaint ops run rgb mask width height (fun n => !raised arrival n) with
  | error cause =>
    constructor
    · rintro ⟨what,same⟩
      exact ⟨what,congrArg Except.error (Except.error.inj same)⟩
    · rintro ⟨what,same⟩
      exact ⟨what,congrArg Except.error (Except.error.inj same)⟩
  | ok pixels =>
    apply iff_of_false
    · rw [ok_bind]
      cases written with
      | true => exact ok_unobserved _
      | false => exact other_unobserved _
    · exact ok_unobserved _

end LamaTiler

namespace SdSession
open Cause
variable {ι : Type} {arrival : Option Nat}

-- sd.cpp's calls of progress_callback_thunk during one generate_image, each
-- reading the flag once.
def called (cb : CallbackState ι) (arrival : Option Nat) (calls : Nat) : CallbackState ι :=
  (List.range calls).foldl (fun cb n => progressThunk cb (fun _ => raised arrival n)) cb

-- generate's "cancelled" is the one error it returns for a request.
def stopped (cb : CallbackState ι) : RawImage → Bytes → Cause
  | .null,err => .other (ascii "Generation failed: " ++ err)
  | .image _ _ _,err =>
    if cb.cancelRequested then .observed (ascii "Generation failed: " ++ err)
    else .other (ascii "Generation failed: " ++ err)

-- AIGenerate's task from its call of ensure_loaded on.
def generateTask (impl : SdImpl) (paths : SdModelPaths) (fails : Bool) (owner : ι) (params : SdGenerateParams)
    (calls : Nat) (result : RawImage) (path : Path) (written : Bool) (arrival : Option Nat) : Except Cause Unit :=
  match ensureLoaded impl paths fails with
  | (_,some err) => .error (.other (ascii "Model load failed: " ++ err))
  | (impl,none) =>
    match generateStart impl owner params with
    | .error err => .error (.other (ascii "Generation failed: " ++ err))
    | .ok (cb,_,_) =>
      let cb := called cb arrival calls
      match (generateEnd cb result).2 with
      | .error err => .error (stopped cb result err)
      | .ok (width,height) =>
        if (width : Int) ≠ params.width.toInt ∨ (height : Int) ≠ params.height.toInt then
          .error (.other (ascii "Output dimensions mismatch"))
        else if written then .ok () else .error (.other (writeFailedText path))

-- The model is there and generate_image returns an image.
def Answered (impl : SdImpl) (paths : SdModelPaths) (fails : Bool) (owner : ι) (params : SdGenerateParams)
    (result : RawImage) : Prop :=
  (ensureLoaded impl paths fails).2 = none ∧
    (∃ begun, generateStart (ensureLoaded impl paths fails).1 owner params = .ok begun) ∧ result ≠ .null

theorem called_installed (owner : ι) (arrival : Option Nat) (calls : Nat) :
    (called ⟨true,some owner,false⟩ arrival calls).inUse = true ∧
      (called ⟨true,some owner,false⟩ arrival calls).callback = some owner ∧
      ((called ⟨true,some owner,false⟩ arrival calls).cancelRequested = true ↔ ∃ n < calls, raised arrival n = true) := by
  induction calls with
  | zero => simp [called]
  | succ calls ih =>
    obtain ⟨inUse,callback,flag⟩ := ih
    have next : called ⟨true,some owner,false⟩ arrival (calls+1) =
        progressThunk (called ⟨true,some owner,false⟩ arrival calls) (fun _ => raised arrival calls) := by
      simp [called,List.range_succ]
    rw [next]
    generalize called ⟨true,some owner,false⟩ arrival calls = cb at inUse callback flag
    rw [Nat.exists_lt_succ_right,←flag]
    unfold progressThunk
    rw [inUse,callback]
    cases raised arrival calls with
    | true => simp
    | false => simp [inUse,callback]

theorem end_observed (cb : CallbackState ι) (result : RawImage) (err : Bytes)
    (failed : (generateEnd cb result).2 = .error err) :
    Observed (.error (stopped cb result err) : Except Cause Unit) ↔ result ≠ .null ∧ cb.cancelRequested = true := by
  cases result with
  | null => exact iff_of_false (other_unobserved _) (by simp)
  | image hasData width height =>
    by_cases requested : cb.cancelRequested = true
    · rw [stopped,if_pos requested]
      exact iff_of_true ⟨_,rfl⟩ ⟨by simp,requested⟩
    · rw [stopped,if_neg requested]
      exact iff_of_false (other_unobserved _) (fun both => requested both.2)

theorem generateStart_installs {impl : SdImpl} {owner : ι} {params : SdGenerateParams} {cb : CallbackState ι} {ctx : SdCtx}
    {gen : SdImgGenParams} (begun : generateStart impl owner params = .ok (cb,ctx,gen)) : cb = ⟨true,some owner,false⟩ := by
  unfold generateStart at begun
  split at begun
  · cases begun
  · split at begun <;> cases begun
    rfl

theorem generateEnd_quiet {cb : CallbackState ι} {result : RawImage} {size : Nat × Nat}
    (ended : (generateEnd cb result).2 = .ok size) : ¬ (result ≠ .null ∧ cb.cancelRequested = true) := by
  rintro ⟨image,requested⟩
  cases result with
  | null => exact image rfl
  | image hasData width height =>
    simp only [generateEnd,requested,if_true] at ended
    cases ended

theorem generate_observed (impl : SdImpl) (paths : SdModelPaths) (fails : Bool) (owner : ι) (params : SdGenerateParams)
    (calls : Nat) (result : RawImage) (path : Path) (written : Bool) (arrival : Option Nat) :
    Observed (generateTask impl paths fails owner params calls result path written arrival) ↔
      Answered impl paths fails owner params result ∧ ¬ ∀ a, arrival = some a → calls ≤ a := by
  unfold generateTask Answered
  cases loaded : ensureLoaded impl paths fails with
  | mk impl' failed =>
    cases failed with
    | some err => exact iff_of_false (other_unobserved _) (by simp)
    | none =>
      dsimp only
      cases begun : generateStart impl' owner params with
      | error err => exact iff_of_false (other_unobserved _) (by simp)
      | ok started =>
        obtain ⟨cb,ctx,gen⟩ := started
        obtain ⟨_,_,flag⟩ := called_installed owner arrival calls
        rw [raised_below] at flag
        rw [generateStart_installs begun]
        dsimp only
        rw [←flag]
        generalize called ⟨true,some owner,false⟩ arrival calls = cb
        cases ended : (generateEnd cb result).2 with
        | error err => simp [end_observed cb result err ended]
        | ok size =>
          obtain ⟨width,height⟩ := size
          apply iff_of_false
          · dsimp only
            split
            · exact other_unobserved _
            · split
              · exact ok_unobserved _
              · exact other_unobserved _
          · rintro ⟨⟨_,_,image⟩,requested⟩
            exact generateEnd_quiet ended ⟨image,requested⟩

end SdSession

-- What AiWorker::run makes of the end of a task; the flag is read only after a
-- return.
def runEnd : TaskEnd → Bool → AiWorkerState
  | .returned,flag => if flag then .cancelled else .done
  | .threw _,_ | .unknown,_ => .error

def TaskEnd.rest : TaskEnd → List RunAction
  | .returned => [.leave .returned,.shouldCancel,.storeError,.storeState]
  | outcome => [.leave outcome,.storeError,.storeState]

section Run
variable {R : Type} {s : WorkerThreads R} {tid : Nat} {task : R}

theorem seat_found {phase : Phase} (found : s.threads[tid]? = some ⟨task,phase⟩) (later : Phase) :
    (s.seat tid task later).threads[tid]? = some ⟨task,later⟩ := by
  obtain ⟨inside,_⟩ := List.getElem?_eq_some_iff.mp found
  simp [WorkerThreads.seat,inside]

theorem run_step {phase : Phase} (found : s.threads[tid]? = some ⟨task,phase⟩) (action : RunAction) :
    s.step (.run tid action) = s.runStep tid task phase action := by
  simp [WorkerThreads.step,found]

theorem stored_run {final : AiWorkerState} (found : s.threads[tid]? = some ⟨task,.stored final⟩) :
    ∃ next, (WorkerThreads.system R).run s [.run tid .storeState] = some next ∧ next.state = final := by
  have ran : (WorkerThreads.system R).step s (.run tid .storeState) = _ := run_step found .storeState
  exact ⟨_,System.run_cons ran [],rfl⟩

theorem ended_run {final : AiWorkerState} {err : Bytes} (found : s.threads[tid]? = some ⟨task,.ended final err⟩) :
    ∃ next, (WorkerThreads.system R).run s [.run tid .storeError,.run tid .storeState] = some next ∧ next.state = final := by
  have ran : (WorkerThreads.system R).step s (.run tid .storeError) = _ := run_step found .storeError
  cases final
  all_goals
    rw [System.run_cons ran]
    exact stored_run (seat_found found _)

-- The statements of run() after the task, taken without a break.
theorem run_rest (body : s.threads[tid]? = some ⟨task,.body⟩) (outcome : TaskEnd) :
    ∃ next, (WorkerThreads.system R).run s (outcome.rest.map (.run tid)) = some next ∧
      next.state = runEnd outcome s.context.cancelRequest := by
  have left : (WorkerThreads.system R).step s (.run tid (.leave outcome)) = _ := run_step body (.leave outcome)
  cases outcome with
  | returned =>
    have there : ((s.seat tid task .returned).record (·.finish task .returned)).threads[tid]? =
        some ⟨task,.returned⟩ := seat_found body _
    have read : (WorkerThreads.system R).step _ (.run tid .shouldCancel) = _ := run_step there .shouldCancel
    simp only [TaskEnd.rest,List.map_cons,List.map_nil]
    rw [System.run_cons left,System.run_cons read]
    exact ended_run (seat_found there _)
  | threw what =>
    simp only [TaskEnd.rest,List.map_cons,List.map_nil]
    rw [System.run_cons left]
    exact ended_run (seat_found body _)
  | unknown =>
    simp only [TaskEnd.rest,List.map_cons,List.map_nil]
    rw [System.run_cons left]
    exact ended_run (seat_found body _)

end Run

namespace Cause
variable {α : Type}

def taskEnd : Except Cause α → Option TaskEnd
  | .ok _ => some .returned
  | .error (.observed what) | .error (.other what) => some (.threw what)
  | .error .undefined => none

-- The state a task ends the worker in tells a request it saw from an error.
def Told (result : Except Cause α) (flag : Bool) : Prop :=
  ∀ outcome, taskEnd result = some outcome →
    (Observed result → runEnd outcome flag = .cancelled) ∧
      (runEnd outcome flag = .error → ∃ what, result = .error (.other what))

theorem told_iff (result : Except Cause α) (flag : Bool) : Told result flag ↔ ¬ Observed result := by
  cases result with
  | ok a =>
    refine iff_of_true ?_ (ok_unobserved a)
    intro outcome ended
    cases ended
    refine ⟨fun observed => absurd observed (ok_unobserved a),?_⟩
    cases flag <;> simp [runEnd]
  | error cause =>
    cases cause with
    | observed what =>
      refine iff_of_false ?_ (fun quiet => quiet ⟨what,rfl⟩)
      intro told
      cases (told _ rfl).1 ⟨what,rfl⟩
    | other what =>
      refine iff_of_true ?_ (other_unobserved what)
      intro outcome ended
      cases ended
      exact ⟨fun observed => absurd observed (other_unobserved what),fun _ => ⟨what,rfl⟩⟩
    | undefined =>
      refine iff_of_true ?_ ?_
      · intro outcome ended
        cases ended
      · rintro ⟨what,same⟩
        cases same

end Cause

-- A request is told from an error exactly where no report or callback meets it:
-- where one does, the exception it makes of it is an error like any other.
theorem cancel_told_iff {F ι : Type} (ops : FloatOps F) (path : Path) (written : Bool) (arrival : Option Nat) :
    (∀ run rgb mask width height,
      Cause.Told (LamaTiler.fillTask ops run rgb mask width height path written arrival) (raised arrival 4) ↔
        ∀ a, arrival = some a → LamaTiler.reports ops run rgb mask width height ≤ a) ∧
    (∀ impl paths fails (owner : ι) params calls result,
      Cause.Told (SdSession.generateTask impl paths fails owner params calls result path written arrival)
          (raised arrival calls) ↔
        (SdSession.Answered impl paths fails owner params result → ∀ a, arrival = some a → calls ≤ a)) := by
  constructor
  · intro run rgb mask width height
    rw [Cause.told_iff,LamaTiler.fill_observed,not_not]
  · intro impl paths fails owner params calls result
    rw [Cause.told_iff,SdSession.generate_observed,not_and,not_not]

-- A request before the first report.
theorem cancel_untold : ¬ ∀ (run : List Rat → List Rat → Except Bytes (List Rat)) rgb mask width height path written arrival,
    Cause.Told (LamaTiler.fillTask exactOps run rgb mask width height path written arrival) (raised arrival 4) := by
  intro claim
  have told := claim (fun img _ => .ok img) [0,0,0] [1] 1 1 (ascii "result.nuke_ai") true (some 0)
  cases (told _ rfl).1 ⟨_,rfl⟩

end SmartFill
