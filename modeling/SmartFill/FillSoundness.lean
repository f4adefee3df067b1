import SmartFill.AISmartFillRuns

namespace SmartFill.AISmartFill
open Transition

-- What a job owes to its press: the file is that of the hashed inputs and
-- knobs, the pixels are the source's, thresholded with the hashed threshold.
structure Extracted (job : BakeJob FillTask) : Prop where
  key : job.key = cacheKey (keyFields (some job.task.press.source) (some job.task.press.mask)
    job.task.press.maskThreshold job.task.press.backend job.task.press.modelPath)
  path : ∃ dir, job.path = cachePath extension dir job.key
  rgb : job.task.rgb = extractRgb job.task.press.source
  mask : job.task.mask =
    extractMask job.task.press.source.box job.task.press.mask job.task.press.maskThreshold
  width : job.task.width = job.task.press.source.box.w ∧ job.width = job.task.width
  height : job.task.height = job.task.press.source.box.h ∧ job.height = job.task.height

def OwnSession (job : BakeJob FillTask) : Prop :=
  job.task.session = ⟨normalizePath job.task.press.modelPath,backendOf job.task.press.backend⟩

-- Every file written so far holds what LaMa made, in a session for the hashed
-- model and backend, of the hashed inputs.
def CacheSound (host : Host) (s : State) : Prop :=
  ∀ b ∈ s.bakes, Extracted b.run.job ∧ OwnSession b.run.job ∧
    ∃ call progress, LamaTiler.inpaintImage host.rounding.ops
      (LamaSession.run host.rounding.ops host.onnx b.run.job.task.session call) b.run.job.task.rgb b.run.job.task.mask
      b.run.job.task.width b.run.job.task.height progress = .ok b.pixels

structure Launches (host : Host) (s : State) : Prop where
  stopped : s.node.rt.worker.state ≠ .running
  inputs : ∃ source mask, InputsPass s.node source mask
  absent : fileExists s.disk (pressPath host s.node) = false

def SessionFits (host : Host) (s : State) : Action → Prop
  | .bake _ => Launches host s →
    s.node.session = none ∨ s.node.session = some (wantedSession (pressKnobs host s.node))
  | _ => True

variable {host : Host} {s : State} {source mask : Input}

theorem pressJob_extracted (passes : InputsPass s.node source mask) : Extracted (pressJob host s.node source mask) := by
  refine ⟨?_,?_,rfl,rfl,⟨rfl,rfl⟩,⟨rfl,rfl⟩⟩
  · simp only [pressJob,pressKey,computeCacheKey,setKnobs,passes.connected.1,passes.connected.2]
  · exact ⟨_,resultPath_cachePath (pressKey_nonempty _ _)⟩

theorem pressJob_session (fits : s.node.session = none ∨ s.node.session = some (wantedSession (pressKnobs host s.node))) :
    OwnSession (pressJob host s.node source mask) := by
  unfold OwnSession
  rcases fits with none | own
  · simp only [pressJob,none]
    rfl
  · simp only [pressJob,own]
    rfl

theorem ready_extracted {validated : Option (Option Stop)} {after : Node} {job : BakeJob FillTask}
    (ready : prepareBake host s.disk validated s.node = .ready after job) : Extracted job := by
  obtain ⟨source,mask,passes,rfl⟩ := (prepareBake_ready ready).press
  exact pressJob_extracted passes

-- The bake's own step decides: its job is sound when the session fits, and
-- the worker, the log and the disk never change a job.
theorem bakes_sound_of_session (path : Guarded (system host) (SessionFits host) s) : CacheSound host s := by
  have logged : s.node.rt.worker.Logged (backend host) (fun job => Extracted job ∧ OwnSession job) s.bakes := by
    refine guarded_logged path ?_
    intro s validated after job permitted ready
    have facts := prepareBake_ready ready
    obtain ⟨source,mask,passes,rfl⟩ := facts.press
    have fits := permitted ⟨facts.stopped,⟨source,mask,passes⟩,facts.absent⟩
    exact ⟨pressJob_extracted passes,pressJob_session fits⟩
  intro b member
  obtain ⟨⟨extracted,own⟩,_,call,cancels,made⟩ := logged.writes b member
  exact ⟨extracted,own,call,_,made⟩

theorem bakes_sound_first : ∃ s : State, s.bakes ≠ [] ∧ CacheSound blackHost s := by
  have ready : Guarded (system blackHost) (SessionFits blackHost) blackStart :=
    blackNode_reached (fun _ => trivial) (fun _ _ => trivial)
  obtain ⟨node,err,_,working⟩ := blackStart_works ready (fun _ => .inl rfl)
  obtain ⟨pixels,_,made⟩ := blackHost_bakes (pressJob blackHost blackStart.node blackPixel blackPixel).task ⟨rfl,rfl⟩
  obtain ⟨later,_,writing⟩ := bake_produces (fun _ _ => trivial) working made
  have written := writing.act (.work (.write (ImageCache.noFaults 100))) trivial rfl
  exact ⟨_,List.cons_ne_nil _ _,bakes_sound_of_session written⟩

-- A bake under one model path fails, the path is changed, the next bake writes:
-- it ran on the session made for the first path.
theorem bakes_unsound_after_edit : ¬ ∀ (host : Host) (s : State), Reached (system host) s → CacheSound host s := by
  intro claim
  have ready : Reached (system blackHost) blackStart := blackNode_reached (fun _ => trivial) (fun _ _ => trivial)
  obtain ⟨node,err,started,first⟩ := blackStart_works ready trivial
  have failed := bake_fails (fun _ _ => trivial) first (ascii "out of memory")
  have edited := failed.act (.edit ⟨F32.half,1,ascii "b",[]⟩) trivial rfl
  obtain ⟨node',err',_,second⟩ :=
    bake_starts none edited trivial (by simp [setWorker]) ⟨⟨started.source,started.mask⟩,by decide,by decide⟩
      (fileExists_empty _)
  obtain ⟨pixels,_,made⟩ := blackHost_bakes (pressJob blackHost _ blackPixel blackPixel).task ⟨rfl,rfl⟩
  obtain ⟨later,_,writing⟩ := bake_produces (fun _ _ => trivial) second made
  have written := writing.act (.work (.write (ImageCache.noFaults 100))) trivial rfl
  obtain ⟨_,own,_⟩ := claim _ _ written _ (List.mem_cons_self ..)
  -- The second job's key hashes "b"; its session still holds "a".
  have kept : (node.session.getD (wantedSession (pressKnobs blackHost (blackNode (ascii "b") node)))).modelPath =
      normalizePath (ascii "b") := congrArg LamaSession.modelPath own
  rw [started.session] at kept
  exact absurd (show normalizePath (ascii "a") = normalizePath (ascii "b") from kept) (by decide)

end SmartFill.AISmartFill
