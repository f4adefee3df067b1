import Mathlib.Logic.Function.Basic
import Mathlib.Tactic.FinCases
import SmartFill.AIGenerate
import SmartFill.Lib.Transition

namespace SmartFill.SdConcurrency
open Transition AIGenerate

-- How an image came about: the context and parameters generate_image was
-- called with, and whether the context was still there when it returned.
structure Made where
  ctx : SdCtx
  gen : SdImgGenParams
  live : Bool

inductive Stage where
  | starting
  | loaded
  | generating (ctx : SdCtx) (gen : SdImgGenParams)
  | generated (made : Made)
  | finished
  | failed (err : Bytes)

structure State (ι : Type) where
  impl : SdImpl
  cb : CallbackState ι
  stage : ι → Stage
  cancelled : ι → Bool
  files : List (ι × Made)

-- One task per job that start_bake hands over. Each call into the session is
-- one step; generate is three kinds of them.
inductive Action (ι : Type) where
  | cancel (i : ι)
  | ensureLoaded (i : ι) (fails : Bool)
  | generateStart (i : ι)
  | progress (i : ι)
  | generateEnd (i : ι) (result : RawImage)
  | write (i : ι)

section Tasks
variable {ι : Type} (tasks : ι → SdJob)

def setStage [DecidableEq ι] (s : State ι) (i : ι) (stage : Stage) : State ι :=
  {s with stage := Function.update s.stage i stage}

def loadFailed (err : Bytes) : Stage := .failed (ascii "Model load failed: " ++ err)
def generateFailed (err : Bytes) : Stage := .failed (ascii "Generation failed: " ++ err)

def afterGenerate (task : SdJob) (made : Made) : Except Bytes (Nat × Nat) → Stage
  | .error err => generateFailed err
  | .ok (width,height) =>
    if (width : Int) ≠ task.params.width.toInt ∨ (height : Int) ≠ task.params.height.toInt then
      .failed (ascii "Output dimensions mismatch")
    else .generated made

def step [DecidableEq ι] (s : State ι) : Action ι → Option (State ι)
  | .cancel i => some {s with cancelled := Function.update s.cancelled i true}
  | .ensureLoaded i fails =>
    match s.stage i with
    | .starting =>
      match SdSession.ensureLoaded s.impl (tasks i).paths fails with
      | (impl,none) => some (setStage {s with impl := impl} i .loaded)
      | (impl,some err) => some (setStage {s with impl := impl} i (loadFailed err))
    | _ => none
  | .generateStart i =>
    match s.stage i with
    | .loaded =>
      match SdSession.generateStart s.impl i (tasks i).params with
      | .error err => some (setStage s i (generateFailed err))
      | .ok (cb,ctx,gen) => some (setStage {s with cb := cb} i (.generating ctx gen))
    | _ => none
  | .progress i =>
    match s.stage i with
    | .generating _ _ => some {s with cb := SdSession.progressThunk s.cb s.cancelled}
    | _ => none
  | .generateEnd i result =>
    match s.stage i with
    | .generating ctx gen =>
      let (cb,answer) := SdSession.generateEnd s.cb result
      let made : Made := ⟨ctx,gen,decide (s.impl.ctx = some ctx)⟩
      some (setStage {s with cb := cb} i (afterGenerate (tasks i) made answer))
    | _ => none
  | .write i =>
    match s.stage i with
    | .generated made => some (setStage {s with files := (i,made) :: s.files} i .finished)
    | _ => none

def start : State ι := ⟨SdSession.fresh,SdSession.idle,fun _ => .starting,fun _ => false,[]⟩

def system [DecidableEq ι] : System (State ι) (Action ι) := ⟨fun s => s = start,step tasks⟩

def Own (i : ι) (ctx : SdCtx) (gen : SdImgGenParams) : Prop :=
  ctx.params = ctxParams (tasks i).paths ∧ gen = genParams (tasks i).paths (tasks i).params

def cancelledStage : Stage := generateFailed (ascii "cancelled")

def FilesOwn (s : State ι) : Prop := ∀ file ∈ s.files, Own tasks file.1 file.2.ctx file.2.gen ∧ file.2.live = true

def CancelledOwn (s : State ι) : Prop := ∀ i, s.stage i = cancelledStage → s.cancelled i = true

structure Isolated (s : State ι) : Prop where
  files : FilesOwn tasks s
  cancelled : CancelledOwn s

def Inside (s : State ι) (i : ι) : Prop := ∃ ctx gen, s.stage i = .generating ctx gen

-- The steps that do not meet another task half way: the model is replaced only
-- while nobody generates, generate starts on the model its task asked for, and
-- a callback raises the one cancel flag only when it speaks for everybody
-- inside.
def Exclusive (s : State ι) : Action ι → Prop
  | .ensureLoaded i _ =>
    ((tasks i).paths.diffusionModel = [] ∨ SdSession.reuses s.impl (tasks i).paths = true) ∨ ∀ j, ¬ Inside s j
  | .generateStart i => s.impl.loaded = true → s.impl.loadedPaths = (tasks i).paths
  | .progress _ => ∀ owner, s.cb.callback = some owner → s.cancelled owner = true → ∀ j, Inside s j → s.cancelled j = true
  | _ => True

structure Coherent (s : State ι) : Prop where
  impl : SdSession.FromPaths s.impl
  inside : ∀ i ctx gen, s.stage i = .generating ctx gen → s.impl.ctx = some ctx ∧ Own tasks i ctx gen
  made : ∀ i made, s.stage i = .generated made → Own tasks i made.ctx made.gen ∧ made.live = true
  flag : s.cb.cancelRequested = true → ∀ i, Inside s i → s.cancelled i = true
  isolated : Isolated tasks s

variable {tasks} {s next : State ι} {action : Action ι} {fails : Bool} {i : ι} {stage : Stage}

theorem coherent_ensureLoaded (coherent : Coherent tasks s) (permitted : Exclusive tasks s (.ensureLoaded i fails)) :
    Coherent tasks {s with impl := (SdSession.ensureLoaded s.impl (tasks i).paths fails).1} := by
  refine ⟨SdSession.ensureLoaded_fromPaths coherent.impl,?_,coherent.made,coherent.flag,
    coherent.isolated.files,coherent.isolated.cancelled⟩
  intro j ctx gen at_
  rcases permitted with kept | nobody
  · rw [SdSession.ensureLoaded_keeps kept]
    exact coherent.inside j ctx gen at_
  · exact absurd ⟨ctx,gen,at_⟩ (nobody j)

theorem coherent_cb {cb : CallbackState ι} (coherent : Coherent tasks s)
    (flag : cb.cancelRequested = true → ∀ i, Inside s i → s.cancelled i = true) : Coherent tasks {s with cb := cb} :=
  ⟨coherent.impl,coherent.inside,coherent.made,flag,coherent.isolated.files,coherent.isolated.cancelled⟩

theorem start_coherent : Coherent tasks start :=
  ⟨by rintro _ ⟨⟩,by rintro _ _ _ ⟨⟩,by rintro _ _ ⟨⟩,by rintro ⟨⟩,by simp [start,FilesOwn],by rintro _ ⟨⟩⟩

variable [DecidableEq ι]

theorem setStage_self (i : ι) (stage : Stage) : (setStage s i stage).stage i = stage := Function.update_self ..

theorem setStage_other {j : ι} (stage : Stage) (different : j ≠ i) : (setStage s i stage).stage j = s.stage j :=
  Function.update_of_ne different ..

theorem setStage_at {j : ι} {found : Stage} (at_ : (setStage s i stage).stage j = found) :
    (j = i ∧ stage = found) ∨ (j ≠ i ∧ s.stage j = found) := by
  by_cases same : j = i
  · subst same
    rw [setStage_self] at at_
    exact .inl ⟨rfl,at_⟩
  · rw [setStage_other stage same] at at_
    exact .inr ⟨same,at_⟩

theorem coherent_setStage (coherent : Coherent tasks s)
    (inside : ∀ ctx gen, stage = .generating ctx gen →
      s.impl.ctx = some ctx ∧ Own tasks i ctx gen ∧ s.cb.cancelRequested = false)
    (made : ∀ made, stage = .generated made → Own tasks i made.ctx made.gen ∧ made.live = true)
    (cancelled : stage = cancelledStage → s.cancelled i = true) : Coherent tasks (setStage s i stage) := by
  refine ⟨coherent.impl,?_,?_,?_,coherent.isolated.files,?_⟩
  · intro j ctx gen at_
    rcases setStage_at at_ with ⟨rfl,same⟩ | ⟨_,at_⟩
    · have own := inside ctx gen same
      exact ⟨own.1,own.2.1⟩
    · exact coherent.inside j ctx gen at_
  · intro j made' at_
    rcases setStage_at at_ with ⟨rfl,same⟩ | ⟨_,at_⟩
    · exact made made' same
    · exact coherent.made j made' at_
  · intro raised j inside
    rcases inside with ⟨ctx,gen,at_⟩
    rcases setStage_at at_ with ⟨rfl,same⟩ | ⟨_,at_⟩
    · exact absurd (raised.symm.trans (inside ctx gen same).2.2) (by decide)
    · exact coherent.flag raised j ⟨ctx,gen,at_⟩
  · intro j at_
    rcases setStage_at at_ with ⟨rfl,same⟩ | ⟨_,at_⟩
    · exact cancelled same
    · exact coherent.isolated.cancelled j at_

theorem coherent_leaves (coherent : Coherent tasks s) (outside : ∀ ctx gen, stage ≠ .generating ctx gen)
    (empty : ∀ made, stage ≠ .generated made) (other : stage ≠ cancelledStage) : Coherent tasks (setStage s i stage) :=
  coherent_setStage coherent (fun ctx gen same => absurd same (outside ctx gen))
    (fun made same => absurd same (empty made))
    (fun same => absurd same other)

theorem loadFailed_other (err : Bytes) : loadFailed err ≠ cancelledStage := by
  intro same
  have texts : ascii "Model load failed: " ++ err = ascii "Generation failed: " ++ ascii "cancelled" :=
      Stage.failed.inj same
  exact absurd (show some (77 : UInt8) = some 71 from congrArg List.head? texts) (by decide)

theorem generateFailed_cancelled {err : Bytes} (same : generateFailed err = cancelledStage) : err = ascii "cancelled" :=
  List.append_cancel_left (Stage.failed.inj same)

theorem afterGenerate_cancelled {task : SdJob} {made : Made} {answer : Except Bytes (Nat × Nat)}
    (same : afterGenerate task made answer = cancelledStage) : answer = .error (ascii "cancelled") := by
  unfold afterGenerate at same
  split at same
  · rw [generateFailed_cancelled same]
  · split at same
    · exact absurd (Stage.failed.inj same) (by decide)
    · cases same

theorem afterGenerate_made {task : SdJob} {made made' : Made} {answer : Except Bytes (Nat × Nat)}
    (same : afterGenerate task made answer = .generated made') : made' = made := by
  unfold afterGenerate at same
  split at same
  · cases same
  · split at same <;> cases same
    rfl

theorem afterGenerate_outside {task : SdJob} {made : Made} {answer : Except Bytes (Nat × Nat)} (ctx : SdCtx)
    (gen : SdImgGenParams) : afterGenerate task made answer ≠ .generating ctx gen := by
  intro same
  unfold afterGenerate at same
  split at same
  · cases same
  · split at same <;> cases same

theorem coherent_cancel (coherent : Coherent tasks s) :
    Coherent tasks {s with cancelled := Function.update s.cancelled i true} := by
  have kept : ∀ j, s.cancelled j = true → Function.update s.cancelled i true j = true := by
    intro j requested
    by_cases same : j = i
    · rw [same,Function.update_self]
    · rw [Function.update_of_ne same,requested]
  exact ⟨coherent.impl,coherent.inside,coherent.made,fun raised j inside => kept j (coherent.flag raised j inside),
    coherent.isolated.files,fun j at_ => kept j (coherent.isolated.cancelled j at_)⟩

theorem step_coherent (coherent : Coherent tasks s) (permitted : Exclusive tasks s action)
    (ran : step tasks s action = some next) : Coherent tasks next := by
  cases action with
  | cancel i =>
    cases ran
    exact coherent_cancel coherent
  | ensureLoaded i fails =>
    simp only [step] at ran
    split at ran
    · have loaded := coherent_ensureLoaded coherent permitted
      split at ran
      all_goals
        rename_i result
        rw [result] at loaded
        cases ran
      · exact coherent_leaves loaded (by simp) (by simp) (by rintro ⟨⟩)
      · exact coherent_leaves loaded (by simp [loadFailed]) (by simp [loadFailed]) (loadFailed_other _)
    · cases ran
  | generateStart i =>
    simp only [step] at ran
    split at ran
    · split at ran
      · rename_i err refused
        cases ran
        refine coherent_leaves coherent (by simp [generateFailed]) (by simp [generateFailed]) ?_
        intro same
        have text := (SdSession.generateStart_error refused).symm.trans (generateFailed_cancelled same)
        exact absurd text (by decide)
      · rename_i cb ctx gen started
        cases ran
        obtain ⟨found,loaded,gen_eq,lowered⟩ := SdSession.generateStart_ok started
        refine coherent_setStage (coherent_cb coherent (by simp [lowered])) ?_ (by simp) (by rintro ⟨⟩)
        rintro ctx' gen' ⟨⟩
        have paths : s.impl.loadedPaths = (tasks i).paths := permitted loaded
        exact ⟨found,⟨(coherent.impl ctx found).trans (by rw [paths]),by rw [gen_eq,paths]⟩,lowered⟩
    · cases ran
  | progress i =>
    simp only [step] at ran
    split at ran
    · cases ran
      refine coherent_cb coherent ?_
      intro raised
      rcases SdSession.progressThunk_raises raised with before | ⟨owner,found,stop⟩
      · exact coherent.flag before
      · exact permitted owner found stop
    · cases ran
  | generateEnd i result =>
    simp only [step] at ran
    split at ran
    · rename_i ctx gen at_
      cases ran
      have own := coherent.inside i ctx gen at_
      refine coherent_setStage (coherent_cb coherent ?_) ?_ ?_ ?_
      · rw [SdSession.generateEnd_flag]
        exact coherent.flag
      · exact fun ctx' gen' same => absurd same (afterGenerate_outside ctx' gen')
      · intro made same
        rw [afterGenerate_made same]
        exact ⟨own.2,decide_eq_true own.1⟩
      · intro same
        exact coherent.flag (SdSession.generateEnd_cancelled (afterGenerate_cancelled same)) i ⟨ctx,gen,at_⟩
    · cases ran
  | write i =>
    simp only [step] at ran
    split at ran
    · rename_i made at_
      cases ran
      have kept := coherent.made i made at_
      have logged : Coherent tasks {s with files := (i,made) :: s.files} :=
        ⟨coherent.impl,coherent.inside,coherent.made,coherent.flag,
          fun file member => (List.mem_cons.mp member).elim (by rintro rfl; exact kept) (coherent.isolated.files file),
          coherent.isolated.cancelled⟩
      exact coherent_leaves logged (by simp) (by simp) (by rintro ⟨⟩)
    · cases ran

-- In any interleaving of such steps every file shows its own bake, and nobody
-- is cancelled by somebody else.
theorem bakes_isolated (tasks : ι → SdJob) (path : Guarded (system tasks) (Exclusive tasks) s) : Isolated tasks s := by
  have coherent : Coherent tasks s := by
    refine Guarded.keeps (Coherent tasks) path ?_ ?_
    · intro s start
      cases start
      exact start_coherent
    · intro s action next coherent permitted ran
      exact step_coherent coherent permitted ran
  exact coherent.isolated

end Tasks

def twoParams : SdGenerateParams := ⟨ascii "x",[],64,64,4,5,F32.one,[],RgbImage.none,F32.half,RgbImage.none,F32.half⟩

def twoTasks (i : Bool) : SdJob := ⟨⟨if i then ascii "b" else ascii "a",[],[],[],[]⟩,twoParams,none,none⟩

-- Two nodes with one model and different prompts, and a third with another model.
def threeTasks (i : Fin 3) : SdJob :=
  ⟨⟨if i = 2 then ascii "b" else ascii "a",[],[],[],[]⟩,{twoParams with prompt := if i = 1 then ascii "y" else ascii "x"},
    none,none⟩

-- The first two generate at the same time, with a callback of the second's
-- between; then the third replaces the model and is cancelled.
theorem bakes_isolated_three :
    (∃ s, Inside s 0 ∧ Inside s 1 ∧ s.cb.callback = some 1 ∧ Isolated threeTasks s) ∧
    ∃ s, s.files.map Prod.fst = [1,0] ∧ s.stage 2 = cancelledStage ∧ Isolated threeTasks s := by
  have begin_ : Guarded (system threeTasks) (Exclusive threeTasks) start := .initial rfl
  have first := begin_.act (.ensureLoaded 0 false) (.inr (by rintro j ⟨_,_,⟨⟩⟩)) rfl
  have inside := first.act (.generateStart 0) (fun _ => rfl) rfl
  have second := inside.act (.ensureLoaded 1 false) (.inl (.inr rfl)) rfl
  have both := second.act (.generateStart 1) (fun _ => rfl) rfl
  have told := both.act (.progress 0) (by rintro owner ⟨⟩ ⟨⟩) rfl
  have image := told.act (.generateEnd 0 (.image true 64 64)) trivial rfl
  have written := image.act (.write 0) trivial rfl
  have other := written.act (.generateEnd 1 (.image true 64 64)) trivial rfl
  have written' := other.act (.write 1) trivial rfl
  have third := written'.act (.ensureLoaded 2 false)
    (.inr (fun j => by rintro ⟨_,_,at_⟩; fin_cases j <;> cases at_)) rfl
  have alone := third.act (.generateStart 2) (fun _ => rfl) rfl
  have cancelled := alone.act (.cancel 2) trivial rfl
  have told' := cancelled.act (.progress 2)
    (by
      rintro owner ⟨⟩ _ j ⟨_,_,at_⟩
      fin_cases j
      · cases at_
      · cases at_
      · rfl) rfl
  have discarded := told'.act (.generateEnd 2 (.image true 64 64)) trivial rfl
  exact ⟨⟨_,⟨_,_,rfl⟩,⟨_,_,rfl⟩,rfl,bakes_isolated threeTasks told⟩,_,rfl,rfl,bakes_isolated threeTasks discarded⟩

-- The second model is loaded between the first bake's load and its generate:
-- the first writes an image of the second one's model. And with both inside,
-- cancelling the second discards the first.
theorem bakes_collide :
    (¬ ∀ (ι : Type) [DecidableEq ι] (tasks : ι → SdJob) (s : State ι), Reached (system tasks) s → FilesOwn tasks s) ∧
    (¬ ∀ (ι : Type) [DecidableEq ι] (tasks : ι → SdJob) (s : State ι), Reached (system tasks) s → CancelledOwn s) := by
  have begin_ : Reached (system twoTasks) start := .initial rfl
  have first := begin_.act (.ensureLoaded false false) trivial rfl
  constructor
  · intro claim
    have second := first.act (.ensureLoaded true false) trivial rfl
    have inside := second.act (.generateStart false) trivial rfl
    have generated := inside.act (.generateEnd false (.image true 64 64)) trivial rfl
    have written := generated.act (.write false) trivial rfl
    have own := (claim Bool twoTasks _ written _ (List.mem_cons_self ..)).1.1
    exact absurd (show ctxParams (twoTasks true).paths = ctxParams (twoTasks false).paths from own) (by decide)
  · intro claim
    have inside := first.act (.generateStart false) trivial rfl
    have second := inside.act (.ensureLoaded true false) trivial rfl
    have both := second.act (.generateStart true) trivial rfl
    have cancelled := both.act (.cancel true) trivial rfl
    have told := cancelled.act (.progress false) trivial rfl
    have discarded := told.act (.generateEnd false (.image true 64 64)) trivial rfl
    have own := claim Bool twoTasks _ discarded false rfl
    exact absurd (show false = true from own) (by decide)

end SmartFill.SdConcurrency
