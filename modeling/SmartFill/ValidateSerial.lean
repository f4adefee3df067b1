import SmartFill.ValidateSteps

namespace SmartFill.ValidateSteps
open Transition SmartFill.Graph

theorem load_absent {e dir key : Bytes} {accepts : ImageCache.ImageCacheReadResult → Bool} {disk : Files}
    (absent : fileExists disk (cachePath e dir key) = false) :
    (CacheBuffer.load accepts dir key disk : Option (CacheBuffer e)) = none := by
  by_contra loads
  obtain ⟨⟨named,_⟩,ok,_⟩ := CacheBuffer.load_isSome.mp (Option.isSome_iff_ne_none.mpr loads)
  have read : disk.read (cachePath e dir key) ≠ none := by
    intro nothing
    rw [nothing] at ok
    cases ok
  simp [fileExists,cachePath_nonempty named,Disk.present,read] at absent

section Presses
variable {Node T Act : Type} {k : Kind Node T Act} {e : Bytes} {v : Pieces k e} {a b : Node} {strict : Prop}

-- A Bake press ends alike for two nodes that differ in what they display: what
-- it leaves is shown alike once it returns.
inductive Alike (strict : Prop) (v : Pieces k e) : Outcome Node T → Outcome Node T → Prop where
  | stopped {a b : Node} : Shown strict v a b → Alike strict v (.stopped a) (.stopped b)
  | cached {a b : Node} : Shown strict v a b → Alike strict v (.cached a) (.cached b)
  | ready {a b : Node} {job : BakeJob T} :
    Shown strict v (v.setRt a ((v.rt a).announce job.key)) (v.setRt b ((v.rt b).announce job.key)) →
    Alike strict v (.ready a job) (.ready b job)

theorem shown_launched (lawful : Lawful v) {job : BakeJob T} (todo : List TaskOp)
    (shown : Shown strict v (v.setRt a ((v.rt a).announce job.key)) (v.setRt b ((v.rt b).announce job.key))) :
    Shown strict v (v.setRt a ((v.rt a).launch job todo)) (v.setRt b ((v.rt b).launch job todo)) := by
  have display := shown.display
  have worker := shown.worker
  rw [lawful.rt_setRt,lawful.rt_setRt] at display worker
  have same : (v.rt b).worker = (v.rt a).worker := worker
  have started : ((v.rt a).worker.start ⟨job,todo,none⟩).1.state ≠ .idle := by
    by_cases idle : (v.rt a).worker.state = .idle
    · rw [AiWorker.start_idle idle]
      nofun
    · rwa [AiWorker.start_refused idle]
  have launched := @shown_rt _ _ _ _ _ strict v _ _ lawful shown ((v.rt a).launch job todo) ((v.rt b).launch job todo)
    (display_seated display (fun _ _ => started)) (by rw [Runtime.launch_worker,Runtime.launch_worker,same])
  rwa [lawful.setRt_setRt,lawful.setRt_setRt] at launched

theorem related_ite {α β : Type} {R : α → β → Prop} {c c' : Prop} [Decidable c] [Decidable c'] {x y : α} {x' y' : β}
    (same : c ↔ c') (left : R x x') (right : R y y') : R (if c then x else y) (if c' then x' else y') := by
  by_cases holds : c
  · rw [if_pos holds,if_pos (same.mp holds)]
    exact left
  · rw [if_neg holds,if_neg (fun holds' => holds (same.mpr holds'))]
    exact right

def veil (v : Pieces k e) (text : Bytes) (progress : F32) (node : Node) : Node :=
  v.setRt node {v.rt node with statusText := text,progress := progress}

theorem shown_veil (shown : Shown strict v a b) : b = veil v (v.rt b).statusText (v.rt b).progress a := by
  have same : v.rt b = {v.rt a with statusText := (v.rt b).statusText,progress := (v.rt b).progress} := by
    refine shown.display.same.trans ?_
    rw [shown.worker]
  exact shown.node.trans (congrArg (v.setRt a) same)

-- Whatever was shown before, a message leaves two nodes alike.
theorem veil_told (lawful : Lawful v) {text : Bytes} {progress : F32} (f : Runtime T e → Runtime T e)
    (same : ∃ p, f {v.rt a with statusText := text,progress := progress} = {f (v.rt a) with progress := p} ∧
      (p = (f (v.rt a)).progress ∨ (strict → (f (v.rt a)).worker.state ≠ .idle))) :
    Shown strict v (v.setRt a (f (v.rt a))) (v.setRt (veil v text progress a) (f (v.rt (veil v text progress a)))) := by
  obtain ⟨p,same,shows⟩ := same
  rw [veil,lawful.rt_setRt,lawful.setRt_setRt,same]
  refine ⟨?_,?_,?_⟩
  · rw [lawful.rt_setRt,lawful.setRt_setRt]
  · rw [lawful.rt_setRt,lawful.rt_setRt]
    exact ⟨rfl,.inl rfl,shows⟩
  · rw [lawful.rt_setRt,lawful.rt_setRt]

theorem shown_cancel (lawful : Lawful v) (shown : Shown strict v a b) :
    Shown strict v (v.setRt a {v.rt a with worker := (v.rt a).worker.cancel})
      (v.setRt b {v.rt b with worker := (v.rt b).worker.cancel}) := by
  rw [shown.worker]
  exact shown_rt lawful shown (display_seated shown.display (fun _ => id)) rfl

end Presses

def fillPieces (host : AISmartFill.Host) : Pieces (fillKind host) AISmartFill.extension where
  toPolls := fillPolls host
  setRt node rt := {node with rt := rt}
  enter := AISmartFill.enter host
  key _ node := AISmartFill.computeCacheKey node
  path := AISmartFill.resultPath
  kept cache key :=
    if key = [] then some .cleared
    else if key = cache.loadedKey ∧ cache.pixels ≠ [] then some cache
    else none
  missing _ := .cleared
  reads disk node key _ :=
    (CacheBuffer.load (fun _ => true) (AISmartFill.normalizePath node.knobs.cacheDir) key disk).getD .cleared
  watched _ := False
  resets
    | .bake _ | .bakeThrown _ _ => True
    | .work _ | .files _ | .edit _ | .connect _ _ | .validate _ | .cancel | .clearCache _ => False

-- The files that compute_effective_paths looks for; the path of the result is
-- not among what they decide.
def generatePieces (host : AIGenerate.Host) : Pieces (generateKind host) AIGenerate.extension where
  toPolls := generatePolls host
  setRt node rt := {node with rt := rt}
  enter := id
  key := AIGenerate.computeCacheKey host
  path node key := cachePath AIGenerate.extension (AIGenerate.pick node.knobs.cacheDir host.defaultCacheDir) key
  kept cache key := if key = [] ∨ key = cache.loadedKey then some cache else none
  missing cache := cache
  reads disk node key cache := (CacheBuffer.load AIGenerate.imageUsable
    (AIGenerate.pick node.knobs.cacheDir host.defaultCacheDir) key disk).getD cache
  watched q :=
    ascii "/ae.safetensors" <:+ q ∨ ascii "/clip_l.safetensors" <:+ q ∨ ascii "/t5-v1_1-xxl-encoder-Q8_0.gguf" <:+ q
  resets _ := False

section Fill
variable {strict : Prop} {host : AISmartFill.Host} {disk : Files} {a b node : AISmartFill.Node}

theorem fill_loads : AISmartFill.loadedCache disk node.rt.currentKey node =
    ((fillPieces host).found disk node).getD ((fillPieces host).image disk node) := by
  unfold AISmartFill.loadedCache
  by_cases empty : node.rt.currentKey = []
  · rw [found_kept (v := fillPieces host) (if_pos empty),if_pos empty]
    rfl
  · by_cases shown : node.rt.currentKey = node.rt.cache.loadedKey ∧ node.rt.cache.pixels ≠ []
    · rw [found_kept (v := fillPieces host) ((if_neg empty).trans (if_pos shown)),if_neg empty,if_pos shown]
      rfl
    · have path : (fillPieces host).found disk node =
          if AISmartFill.resultPath node node.rt.currentKey = [] then some node.rt.cache
          else if !fileExists disk (AISmartFill.resultPath node node.rt.currentKey) then some .cleared else none :=
        found_path ((if_neg empty).trans (if_neg shown))
      rw [path,if_neg empty,if_neg shown]
      by_cases nowhere : AISmartFill.resultPath node node.rt.currentKey = []
      · rw [if_pos nowhere,if_pos nowhere,Option.getD_some]
      · rw [if_neg nowhere,if_neg nowhere]
        split <;> rfl

theorem fill_validated (thrown : Option Stop) :
    AISmartFill.validate host disk thrown node = (fillPieces host).validated disk thrown node := by
  unfold AISmartFill.validate Pieces.validated
  dsimp only
  split
  · rfl
  · split
    · rfl
    · split
      · rfl
      · show AISmartFill.setCache _ (AISmartFill.loadedCache disk _ _) = _
        exact congrArg (AISmartFill.setCache _) fill_loads

theorem fill_lawful : Lawful (fillPieces host) where
  rt_setRt _ _ := rfl
  setRt_rt _ := rfl
  setRt_setRt _ _ _ := rfl
  worker _ _ := rfl
  enter _ _ := rfl
  key _ _ _ := rfl
  path _ _ _ := rfl
  reads _ _ _ _ _ := rfl
  steady _ _ _ _ := rfl
  unread disk node key _ absent := by
    show (CacheBuffer.load (fun _ => true) (AISmartFill.normalizePath node.knobs.cacheDir) key disk).getD _ = _
    by_cases empty : key = []
    · simp only [CacheBuffer.load,empty,ne_eq,not_true_eq_false,and_false,dite_false]
      rfl
    · rw [load_absent (by rw [←AISmartFill.resultPath_cachePath empty]; exact absent)]
      rfl
  validate node disk thrown := by
    rw [←fill_validated]
    rfl

theorem fill_validate_veil (idle : node.rt.worker.state = .idle) (thrown : Option Stop) (text : Bytes) (progress : F32) :
    AISmartFill.validate host disk thrown (veil (fillPieces host) text progress node) =
      veil (fillPieces host) text progress (AISmartFill.validate host disk thrown node) := by
  have polled : AISmartFill.pollWorker host (AISmartFill.enter host node) = AISmartFill.enter host node :=
    AISmartFill.pollWorker_idle idle
  have veiled : AISmartFill.pollWorker host (AISmartFill.enter host (veil (fillPieces host) text progress node)) =
      AISmartFill.enter host (veil (fillPieces host) text progress node) := AISmartFill.pollWorker_idle idle
  unfold AISmartFill.validate
  dsimp only
  rw [polled,veiled]
  split
  · rfl
  · split
    · rfl
    · split <;> rfl

theorem fill_revalidate_veil (idle : node.rt.worker.state = .idle) (validated : Option (Option Stop)) (text : Bytes)
    (progress : F32) : AISmartFill.revalidate host disk validated (veil (fillPieces host) text progress node) =
      veil (fillPieces host) text progress (AISmartFill.revalidate host disk validated node) := by
  cases validated with
  | none => rfl
  | some thrown => exact fill_validate_veil idle thrown text progress

theorem fill_pressNode_veil (stopped : node.rt.worker.state ≠ .running) (validated : Option (Option Stop)) (text : Bytes)
    (progress : F32) : AISmartFill.pressNode host disk validated (veil (fillPieces host) text progress node) =
      veil (fillPieces host) text progress (AISmartFill.pressNode host disk validated node) :=
  @fill_revalidate_veil host disk (AISmartFill.setKnobs (AISmartFill.setWorker node node.rt.worker.reset)
    (AISmartFill.pressKnobs host node)) (AiWorker.reset_idle stopped) validated text progress

theorem fill_told (node : AISmartFill.Node) (text said : Bytes) (progress : F32)
    (busy : strict → node.rt.worker.state ≠ .idle) : Shown strict (fillPieces host) (AISmartFill.setStatus node said)
      (AISmartFill.setStatus (veil (fillPieces host) text progress node) said) :=
  veil_told fill_lawful (fun rt => rt.setStatus said) ⟨progress,rfl,.inr busy⟩

theorem fill_pressNode (host : AISmartFill.Host) (disk : Files) (validated : Option (Option Stop)) (node : AISmartFill.Node) :
    AISmartFill.revalidate host disk validated (AISmartFill.setKnobs (AISmartFill.setWorker node node.rt.worker.reset)
      (AISmartFill.resolveDefaultPaths host (AISmartFill.setWorker node node.rt.worker.reset).knobs)) =
      AISmartFill.pressNode host disk validated node := rfl

theorem fill_alike {text : Bytes} {progress : F32} (veiled : b = veil (fillPieces host) text progress a)
    (validated : Option (Option Stop)) (bakes : strict → a.rt.worker.state = .running) : Alike strict (fillPieces host)
      (AISmartFill.prepareBake host disk validated a) (AISmartFill.prepareBake host disk validated b) := by
  have worker : b.rt.worker = a.rt.worker := by rw [veiled]; rfl
  have left : (AISmartFill.setWorker a a.rt.worker.reset).source = a.source := rfl
  have right : (AISmartFill.setWorker b b.rt.worker.reset).source = a.source := by rw [veiled]; rfl
  have left' : (AISmartFill.setWorker a a.rt.worker.reset).mask = a.mask := rfl
  have right' : (AISmartFill.setWorker b b.rt.worker.reset).mask = a.mask := by rw [veiled]; rfl
  by_cases running : a.rt.worker.state = .running
  · rw [AISmartFill.prepareBake_running running,AISmartFill.prepareBake_running (worker ▸ running),veiled]
    exact .stopped (fill_told a _ _ _ (fun _ => by rw [running]; nofun))
  · have told (n : AISmartFill.Node) (said : Bytes) := @fill_told strict host n text said progress
      (fun only => absurd (bakes only) running)
    have pressed : AISmartFill.pressNode host disk validated b =
        veil (fillPieces host) text progress (AISmartFill.pressNode host disk validated a) := by
      rw [veiled]
      exact fill_pressNode_veil running validated text progress
    have entered := fill_pressNode host disk validated a
    have entered' := (fill_pressNode host disk validated b).trans pressed
    rw [AISmartFill.prepareBake,AISmartFill.prepareBake,if_neg running,if_neg (worker ▸ running)]
    simp only [left,left',right,right',entered,entered']
    generalize AISmartFill.pressNode host disk validated a = n
    cases a.source with
    | none =>
      rw [veiled]
      exact .stopped (told (AISmartFill.setWorker a a.rt.worker.reset) _)
    | some source =>
      cases a.mask with
      | none =>
        rw [veiled]
        exact .stopped (told (AISmartFill.setWorker a a.rt.worker.reset) _)
      | some mask =>
        refine related_ite Iff.rfl (.stopped (told n _)) (related_ite Iff.rfl (.cached ?_)
          (related_ite Iff.rfl (.stopped (told n _)) ?_))
        · have hit : Shown strict (fillPieces host) (AISmartFill.announceHit n _)
              (AISmartFill.announceHit (veil (fillPieces host) text progress n) (AISmartFill.computeCacheKey n)) :=
            veil_told fill_lawful (fun rt => {(rt.setStatus (ascii "Already cached for this input")).setProgress F32.one with
              currentKey := AISmartFill.computeCacheKey n}) ⟨F32.one,rfl,.inl rfl⟩
          exact shown_cached fill_lawful hit (AISmartFill.loadedCache disk _ (AISmartFill.announceHit n _))
        · have announced (key : Bytes) := @veil_told _ _ _ _ _ (fillPieces host)
            {n with session := some (n.session.getD (AISmartFill.wantedSession n.knobs))} strict fill_lawful text progress
            (fun rt => ({rt with currentKey := AISmartFill.computeCacheKey n}).announce key) ⟨F32.zero,rfl,.inl rfl⟩
          exact .ready (announced _)

section Thrown
variable {validated : Option (Option Stop)} {stop : AISmartFill.BakeStop} {after : AISmartFill.Node}

theorem fill_reset (loose : ¬strict) (shown : Shown strict (fillPieces host) a b) : Shown strict (fillPieces host)
    (AISmartFill.setWorker a a.rt.worker.reset) (AISmartFill.setWorker b b.rt.worker.reset) := by
  rw [show b.rt.worker = a.rt.worker from shown.worker]
  exact shown_rt fill_lawful shown (display_seated shown.display (fun only => absurd only loose)) rfl

theorem fill_pressed (loose : ¬strict) (shown : Shown strict (fillPieces host) a b) : Shown strict (fillPieces host)
    (AISmartFill.pressNode host disk validated a) (AISmartFill.pressNode host disk validated b) := by
  have knobs : b.knobs = a.knobs := (congrArg AISmartFill.Node.knobs shown.node).trans rfl
  have reset := fill_reset loose shown
  have set : Shown strict (fillPieces host)
      (AISmartFill.setKnobs (AISmartFill.setWorker a a.rt.worker.reset) (AISmartFill.pressKnobs host a))
      (AISmartFill.setKnobs (AISmartFill.setWorker b b.rt.worker.reset) (AISmartFill.pressKnobs host b)) := by
    rw [AISmartFill.pressKnobs,AISmartFill.pressKnobs,knobs]
    refine ⟨?_,reset.display,reset.worker⟩
    exact congrArg (fun node => AISmartFill.setKnobs node (AISmartFill.resolveDefaultPaths host a.knobs)) reset.node
  cases validated with
  | none => exact set
  | some stopped =>
    have ended := shown_validated fill_lawful disk set stopped
    rw [←fill_validated,←fill_validated] at ended
    exact ended

theorem fill_hit (shown : Shown strict (fillPieces host) a b) : Shown strict (fillPieces host)
    (AISmartFill.announceHit a (AISmartFill.computeCacheKey a))
    (AISmartFill.announceHit b (AISmartFill.computeCacheKey b)) := by
  have key : AISmartFill.computeCacheKey b = AISmartFill.computeCacheKey a :=
    (congrArg AISmartFill.computeCacheKey shown.node).trans rfl
  have display := congrArg (fun rt : Runtime AISmartFill.FillTask AISmartFill.extension =>
    {(rt.setStatus (ascii "Already cached for this input")).setProgress F32.one with
      currentKey := AISmartFill.computeCacheKey a}) shown.display.same
  rw [key]
  exact shown_rt fill_lawful shown ⟨display,.inl rfl,.inl rfl⟩ shown.worker

-- Wherever an exception ends it, too.
theorem fill_thrown (loose : ¬strict) (shown : Shown strict (fillPieces host) a b)
    (thrown : AISmartFill.thrownBake host disk validated stop b = some after) :
    ∃ left, AISmartFill.thrownBake host disk validated stop a = some left ∧ Shown strict (fillPieces host) left after := by
  have worker : b.rt.worker = a.rt.worker := shown.worker
  have source : b.source = a.source := (congrArg AISmartFill.Node.source shown.node).trans rfl
  have mask : b.mask = a.mask := (congrArg AISmartFill.Node.mask shown.node).trans rfl
  have later := @fill_pressed strict host disk a b validated loose shown
  have alike := @fill_alike strict host disk a b _ _ (shown_veil shown) validated (fun only => absurd only loose)
  unfold AISmartFill.thrownBake at thrown ⊢
  split at thrown
  · cases thrown
  · rename_i stopped
    rw [if_neg (worker ▸ stopped)]
    dsimp only at thrown ⊢
    rw [fill_pressNode] at thrown ⊢
    rw [source,mask] at thrown
    generalize AISmartFill.prepareBake host disk validated a = x at alike ⊢
    generalize AISmartFill.prepareBake host disk validated b = y at alike thrown
    cases stop with
    | entered =>
      cases thrown
      exact ⟨_,rfl,fill_reset loose shown⟩
    | validated =>
      dsimp only at thrown ⊢
      split at thrown
      · rename_i connected
        cases thrown
        exact ⟨_,if_pos connected,later⟩
      · cases thrown
    | hit =>
      cases alike with
      | cached _ =>
        cases thrown
        exact ⟨_,rfl,fill_hit later⟩
      | stopped _ | ready _ => cases thrown
    | session =>
      cases alike with
      | @ready _ _ job _ =>
        cases thrown
        refine ⟨_,rfl,?_,later.display,later.worker⟩
        exact congrArg (fun node : AISmartFill.Node => {node with session := some job.task.session}) later.node
      | stopped _ | cached _ => cases thrown
    | announced =>
      cases alike with
      | ready announced =>
        cases thrown
        exact ⟨_,rfl,announced⟩
      | stopped _ | cached _ => cases thrown

end Thrown

theorem fill_clear {text : Bytes} {progress : F32} (veiled : b = veil (fillPieces host) text progress a)
    (refused : Path → Bool) (busy : strict → a.rt.worker.state ≠ .idle) :
    Shown strict (fillPieces host) (AISmartFill.clearCacheDir host refused a disk).1
      (AISmartFill.clearCacheDir host refused b disk).1 ∧
    (AISmartFill.clearCacheDir host refused b disk).2 = (AISmartFill.clearCacheDir host refused a disk).2 := by
  subst veiled
  have told (n : AISmartFill.Node) (said : Bytes) := @fill_told strict host n text said progress
  refine @related_ite _ _ (fun x y : AISmartFill.Node × Files => Shown strict (fillPieces host) x.1 y.1 ∧ y.2 = x.2)
    _ _ _ _ _ _ _ _ Iff.rfl ⟨told _ _ busy,rfl⟩ ?_
  refine @related_ite _ _ (fun x y : AISmartFill.Node × Files => Shown strict (fillPieces host) x.1 y.1 ∧ y.2 = x.2)
    _ _ _ _ _ _ _ _ Iff.rfl ⟨told _ _ busy,rfl⟩ ?_
  exact ⟨told (AISmartFill.setCache (AISmartFill.setKnobs a _) .cleared) _ busy,rfl⟩

theorem fill_blind : Blind strict (fillPieces host) := by
  intro a b disk act moved shown ran strictly
  have bakes (resets : (fillPieces host).resets act) (only : strict) : a.rt.worker.state = .running := by
    have parts := strictly only
    by_contra stopped
    have terminal : a.rt.worker.state.terminal = true := AiWorker.terminal_of parts.1 stopped
    rw [show a.rt.worker.state.terminal = false from parts.2 resets] at terminal
    cases terminal
  cases act with
  | work _ | files _ => cases ran
  | edit knobs =>
    cases ran
    refine ⟨_,rfl,?_,shown.display,shown.worker⟩
    exact congrArg (fun node : AISmartFill.Node => {node with knobs := knobs}) shown.node
  | connect source mask =>
    cases ran
    refine ⟨_,rfl,?_,shown.display,shown.worker⟩
    exact congrArg (fun node : AISmartFill.Node => {node with source := source,mask := mask}) shown.node
  | cancel =>
    cases ran
    exact ⟨_,rfl,shown_cancel fill_lawful shown⟩
  | validate thrown =>
    cases ran
    refine ⟨_,rfl,?_⟩
    show Shown strict _ (AISmartFill.validate host disk thrown a) (AISmartFill.validate host disk thrown b)
    rw [fill_validated,fill_validated]
    exact shown_validated fill_lawful _ shown thrown
  | bake validated =>
    cases ran
    refine ⟨_,rfl,?_⟩
    show Shown strict _ (AISmartFill.startBake host disk validated a) (AISmartFill.startBake host disk validated b)
    have alike := @fill_alike strict host disk a b _ _ (shown_veil shown) validated (bakes trivial)
    unfold AISmartFill.startBake
    generalize AISmartFill.prepareBake host disk validated a = x at alike ⊢
    generalize AISmartFill.prepareBake host disk validated b = y at alike ⊢
    cases alike with
    | stopped shown | cached shown => exact shown
    | ready announced => exact shown_launched fill_lawful AISmartFill.taskOps announced
  | bakeThrown validated stop =>
    obtain ⟨after,thrown,rfl⟩ := Graph.fill_main_thrown ran
    have loose : ¬strict := by
      intro only
      have stopped := (AISmartFill.thrownBake_worker thrown).1
      have worker : b.rt.worker = a.rt.worker := shown.worker
      rw [worker] at stopped
      exact stopped (bakes trivial only)
    obtain ⟨left,same,shown⟩ := fill_thrown loose shown thrown
    exact ⟨left,fill_thrown_main same,shown⟩
  | clearCache refused =>
    cases ran
    have cleared := @fill_clear strict host disk a b _ _ (shown_veil shown) refused (fun only => (strictly only).1)
    exact ⟨_,congrArg some (Prod.ext rfl cleared.2.symm),cleared.1⟩

end Fill

section Generate
variable {strict : Prop} {host : AIGenerate.Host} {disk later : Files} {a b node : AIGenerate.Node}

theorem generate_loads : AIGenerate.loadedCache host disk node.rt.currentKey node =
    ((generatePieces host).found disk node).getD ((generatePieces host).image disk node) := by
  unfold AIGenerate.loadedCache
  by_cases shown : node.rt.currentKey = [] ∨ node.rt.currentKey = node.rt.cache.loadedKey
  · rw [found_kept (v := generatePieces host) (if_pos shown),if_pos shown]
    rfl
  · have path : (generatePieces host).found disk node =
        if AIGenerate.resultPath host disk node node.rt.currentKey = [] then some node.rt.cache
        else if !fileExists disk (AIGenerate.resultPath host disk node node.rt.currentKey) then some node.rt.cache
        else none := found_path (if_neg shown)
    rw [path,if_neg shown]
    by_cases nowhere : AIGenerate.resultPath host disk node node.rt.currentKey = []
    · rw [if_pos nowhere,if_pos nowhere,Option.getD_some]
    · rw [if_neg nowhere,if_neg nowhere]
      split <;> rfl

theorem generate_validated (thrown : Option Stop) :
    AIGenerate.validate host disk thrown node = (generatePieces host).validated disk thrown node := by
  unfold AIGenerate.validate Pieces.validated
  dsimp only
  split
  · rfl
  · split
    · rfl
    · split
      · rfl
      · show AIGenerate.setCache _ (AIGenerate.loadedCache host disk _ _) = _
        exact congrArg (AIGenerate.setCache _) generate_loads

theorem pickOptional_same (knob path : Bytes) (tries : Bool) (present : later.present path = disk.present path) :
    AIGenerate.pickOptional later knob path tries = AIGenerate.pickOptional disk knob path tries := by
  have same : fileExists later path = fileExists disk path := by rw [fileExists,fileExists,present]
  unfold AIGenerate.pickOptional
  rw [same]

theorem generate_steady (same : ∀ q, (generatePieces host).watched q → later.present q = disk.present q) :
    AIGenerate.computeCacheKey host later node = AIGenerate.computeCacheKey host disk node := by
  have paths : AIGenerate.nodePaths host later node = AIGenerate.nodePaths host disk node := by
    have vae (dir : Bytes) := same (dir ++ ascii "/ae.safetensors") (.inl (List.suffix_append _ _))
    have clip (dir : Bytes) := same (dir ++ ascii "/clip_l.safetensors") (.inr (.inl (List.suffix_append _ _)))
    have t5 (dir : Bytes) := same (dir ++ ascii "/t5-v1_1-xxl-encoder-Q8_0.gguf") (.inr (.inr (List.suffix_append _ _)))
    simp only [AIGenerate.nodePaths,AIGenerate.computeEffectivePaths,pickOptional_same _ _ _ (vae _),
      pickOptional_same _ _ _ (clip _),pickOptional_same _ _ _ (t5 _)]
  simp only [AIGenerate.computeCacheKey,AIGenerate.keyFields,AIGenerate.nodeLoras,paths]

theorem generate_lawful : Lawful (generatePieces host) where
  rt_setRt _ _ := rfl
  setRt_rt _ := rfl
  setRt_setRt _ _ _ := rfl
  worker _ _ := rfl
  enter _ _ := rfl
  key _ _ _ := rfl
  path _ _ _ := rfl
  reads _ _ _ _ _ := rfl
  steady _ _ _ same := generate_steady same
  unread disk node key cache absent := by
    show (CacheBuffer.load AIGenerate.imageUsable _ key disk).getD cache = cache
    rw [load_absent absent]
    rfl
  validate node disk thrown := by
    rw [←generate_validated]
    rfl

theorem generate_told (node : AIGenerate.Node) (text said : Bytes) (progress : F32)
    (busy : strict → node.rt.worker.state ≠ .idle) : Shown strict (generatePieces host) (AIGenerate.setStatus node said)
      (AIGenerate.setStatus (veil (generatePieces host) text progress node) said) :=
  veil_told generate_lawful (fun rt => rt.setStatus said) ⟨progress,rfl,.inr busy⟩

theorem generate_alike {text : Bytes} {progress : F32} (veiled : b = veil (generatePieces host) text progress a)
    (chance : AIGenerate.Chance) (busy : strict → a.rt.worker.state ≠ .idle) : Alike strict (generatePieces host)
      (AIGenerate.prepareBake host disk chance a).1 (AIGenerate.prepareBake host disk chance b).1 ∧
    (AIGenerate.prepareBake host disk chance b).2 = (AIGenerate.prepareBake host disk chance a).2 := by
  have told (n : AIGenerate.Node) (said : Bytes) := @generate_told strict host n text said progress
  have refusal : AIGenerate.refusal host disk b = AIGenerate.refusal host disk a := by rw [veiled]; rfl
  have images : AIGenerate.readImages host disk chance b = AIGenerate.readImages host disk chance a := by rw [veiled]; rfl
  by_cases running : a.rt.worker.state = .running
  · rw [AIGenerate.prepareBake_running running,AIGenerate.prepareBake_running (by rw [veiled]; exact running),veiled]
    exact ⟨.stopped (told a _ busy),rfl⟩
  · rw [AIGenerate.prepareBake,AIGenerate.prepareBake,if_neg running,if_neg (by rw [veiled]; exact running),refusal,images]
    cases AIGenerate.refusal host disk a with
    | some status =>
      rw [veiled]
      exact ⟨.stopped (told a _ busy),rfl⟩
    | none =>
      cases AIGenerate.readImages host disk chance a with
      | error status =>
        rw [veiled]
        exact ⟨.stopped (told a _ busy),rfl⟩
      | ok images =>
        have seeded : AIGenerate.resolveSeed chance b =
            veil (generatePieces host) text progress (AIGenerate.resolveSeed chance a) := by rw [veiled]; rfl
        rw [seeded]
        generalize AIGenerate.resolveSeed chance a = n
        refine @related_ite _ _ (fun x y : Outcome AIGenerate.Node AIGenerate.SdJob × Files =>
          Alike strict (generatePieces host) x.1 y.1 ∧ y.2 = x.2) _ _ _ _ _ _ _ _ Iff.rfl ⟨.cached ?_,rfl⟩ ?_
        · have hit : Shown strict (generatePieces host) (AIGenerate.announceHit n _)
              (AIGenerate.announceHit (veil (generatePieces host) text progress n)
                (AIGenerate.computeCacheKey host disk n)) :=
            veil_told generate_lawful (fun rt => {(rt.setStatus (ascii "Already cached for this input")).setProgress F32.one
              with currentKey := AIGenerate.computeCacheKey host disk n}) ⟨F32.one,rfl,.inl rfl⟩
          exact shown_cached generate_lawful hit (AIGenerate.loadedCache host _ _ (AIGenerate.announceHit n _))
        · have announced (key : Bytes) := @veil_told _ _ _ _ _ (generatePieces host) n strict generate_lawful
            text progress (fun rt => rt.announce key) ⟨F32.zero,rfl,.inl rfl⟩
          exact ⟨.ready (announced _),rfl⟩

theorem generate_clear {text : Bytes} {progress : F32} (veiled : b = veil (generatePieces host) text progress a)
    (refused : Path → Bool) (shown : Shown strict (generatePieces host) a b) (busy : strict → a.rt.worker.state ≠ .idle) :
    Shown strict (generatePieces host) (AIGenerate.clearCacheOnDisk host refused a disk).1
      (AIGenerate.clearCacheOnDisk host refused b disk).1 ∧
    (AIGenerate.clearCacheOnDisk host refused b disk).2 = (AIGenerate.clearCacheOnDisk host refused a disk).2 := by
  subst veiled
  have told (n : AIGenerate.Node) (said : Bytes) := @generate_told strict host n text said progress
  refine @related_ite _ _ (fun x y : AIGenerate.Node × Files => Shown strict (generatePieces host) x.1 y.1 ∧ y.2 = x.2)
    _ _ _ _ _ _ _ _ Iff.rfl ⟨shown,rfl⟩ ?_
  refine @related_ite _ _ (fun x y : AIGenerate.Node × Files => Shown strict (generatePieces host) x.1 y.1 ∧ y.2 = x.2)
    _ _ _ _ _ _ _ _ Iff.rfl ⟨told _ _ busy,rfl⟩ ?_
  exact ⟨shown_cached generate_lawful (told a _ busy) .cleared,rfl⟩

theorem generate_blind : Blind strict (generatePieces host) := by
  intro a b disk act moved shown ran strictly
  have busy (only : strict) : a.rt.worker.state ≠ .idle := (strictly only).1
  cases act with
  | work _ | files _ => cases ran
  | edit knobs =>
    cases ran
    refine ⟨_,rfl,?_,shown.display,shown.worker⟩
    exact congrArg (fun node : AIGenerate.Node => {node with knobs := knobs}) shown.node
  | connect source control =>
    cases ran
    refine ⟨_,rfl,?_,shown.display,shown.worker⟩
    exact congrArg (fun node : AIGenerate.Node => {node with source := source,control := control}) shown.node
  | cancel =>
    cases ran
    exact ⟨_,rfl,shown_cancel generate_lawful shown⟩
  | validate thrown =>
    cases ran
    refine ⟨_,rfl,?_⟩
    show Shown strict _ (AIGenerate.validate host disk thrown a) (AIGenerate.validate host disk thrown b)
    rw [generate_validated,generate_validated]
    exact shown_validated generate_lawful _ shown thrown
  | bake chance =>
    cases ran
    have alike := @generate_alike strict host disk a b _ _ (shown_veil shown) chance busy
    show ∃ after, some (AIGenerate.startBake host disk chance a) = some (after,(AIGenerate.startBake host disk chance b).2) ∧
      Shown strict _ after (AIGenerate.startBake host disk chance b).1
    unfold AIGenerate.startBake
    generalize AIGenerate.prepareBake host disk chance a = x at alike ⊢
    generalize AIGenerate.prepareBake host disk chance b = y at alike ⊢
    obtain ⟨x,made⟩ := x
    obtain ⟨y,made'⟩ := y
    obtain ⟨alike,same⟩ := alike
    cases same
    cases alike with
    | stopped shown | cached shown => exact ⟨_,rfl,shown⟩
    | ready announced => exact ⟨_,rfl,shown_launched generate_lawful AIGenerate.taskOps announced⟩
  | clearCache refused =>
    cases ran
    have cleared := @generate_clear strict host disk a b _ _ (shown_veil shown) refused shown busy
    exact ⟨_,congrArg some (Prod.ext rfl cleared.2.symm),cleared.1⟩

end Generate

theorem stepwise_serial {Node T Act S : Type} {strict : Prop} {k : Kind Node T Act} {e : Bytes} {v : Pieces k e}
    {s : Midway Node T}
    (serial : Serial k S) (lawful : Lawful v) (blind : Blind strict v) (unused : k.worker k.fresh = AiWorker.fresh)
    (path : Guarded (stepwise v) (Undisturbed strict v) s) (outside : s.within = none) :
    ∃ node, Reached serial.sys (serial.view node s.disk s.part.bakes) ∧ Shown strict v node s.part.node := by
  obtain ⟨p,serves⟩ := @stepwise_serves _ _ _ _ _ _ strict v serial _ lawful blind unused path
  have along := serves.along
  rw [outside] at along
  rw [serves.bakes]
  exact ⟨p.node,serves.serialized.path,along⟩

-- A _validate whose statements other threads and programs run between is a
-- _validate at one moment, but for the progress it shows; in a strict run only
-- while the node's worker is not idle.
theorem validate_serial (strict : Prop) (fillHost : AISmartFill.Host) (host : AIGenerate.Host) :
    (∀ s, Guarded (stepwise (fillPieces fillHost)) (Undisturbed strict (fillPieces fillHost)) s → s.within = none →
      ∃ node, Reached (AISmartFill.system fillHost) ⟨node,s.disk,s.part.bakes⟩ ∧
        Shown strict (fillPieces fillHost) node s.part.node) ∧
    ∀ s, Guarded (stepwise (generatePieces host)) (Undisturbed strict (generatePieces host)) s → s.within = none →
      ∃ node, Reached (AIGenerate.system host) ⟨node,s.disk,s.part.bakes⟩ ∧
        Shown strict (generatePieces host) node s.part.node :=
  ⟨fun _ path outside => stepwise_serial (fillSerial fillHost) fill_lawful fill_blind rfl path outside,
    fun _ path outside => stepwise_serial (generateSerial host) generate_lawful generate_blind rfl path outside⟩

section Raced
open AIGenerate

def raced (node : Node) (within : Option (Statement × Option Stop)) : Midway Node SdJob := ⟨⟨node,[],none⟩,sdDisk,within⟩

abbrev Races (s : Midway Node SdJob) : Prop :=
  Guarded (stepwise (generatePieces sdHost)) (Undisturbed True (generatePieces sdHost)) s

theorem raced_turn {node next : Node} {within within' : Option (Statement × Option Stop)} (path : Races (raced node within))
    (turn : Turn Action) (ran : Midway.step (generatePieces sdHost) (raced node within) turn = some (raced next within')) :
    Races (raced next within') := by
  refine path.act turn ⟨?_,?_,fun _ _ _ resets => resets.elim⟩ ran
  · rintro s' moved - q ⟨f,⟨⟩,_⟩
  · intro s' moved _ q _
    rw [ran] at moved
    cases moved
    rfl

theorem raced_called {node next : Node} {act : Action} (path : Races (raced node none))
    (called : (generateKind sdHost).main node sdDisk act = some (next,sdDisk)) : Races (raced next none) := by
  refine raced_turn path (.move (.main act)) ?_
  simp only [raced,Midway.step,Kind.step,called,Option.map_some]
  rfl

theorem raced_baking : ∃ node run,
    Races (raced (setWorker node ⟨.running,⟨F32.zero,false,ascii "Starting"⟩,[],.body run⟩) none) := by
  have begun : Races (raced fresh none) := .initial ⟨rfl,rfl⟩
  have edited : Races (raced sdStart.node none) := @raced_called _ _ (.edit (sdKnobs (ascii "x"))) begun rfl
  obtain ⟨images,_,started⟩ := startBake_launches sdStart_launches
  have press : (generateKind sdHost).main sdStart.node sdDisk (.bake sdChance) =
      some (launched sdHost sdDisk sdChance sdStart.node images,sdDisk) := by
    have moved := congrArg some (started.trans (congrArg (Prod.mk _) (sdNode_pressDisk sdDisk sdStart.node)))
    exact moved
  refine ⟨launched sdHost sdDisk sdChance sdStart.node images,
    ⟨pressJob sdHost sdDisk sdChance sdStart.node images,taskOps,none⟩,?_⟩
  have worker : (launched sdHost sdDisk sdChance sdStart.node images).rt.worker =
      ⟨.running,⟨F32.zero,false,ascii "Starting"⟩,[],
        .body ⟨pressJob sdHost sdDisk sdChance sdStart.node images,taskOps,none⟩⟩ :=
    congrArg Prod.fst (AiWorker.start_idle rfl _)
  rw [←worker]
  exact raced_called edited press

-- The bake fails between poll_worker's reading of the state and of the progress.
theorem validate_serial_raced : ∃ s, Races s ∧ s.part.node.rt.worker.state = .error ∧
    s.part.node.rt.statusText = Runtime.cookingText sdHost.rounding F32.zero ∧
    ∃ node, Reached (system sdHost) ⟨node,s.disk,s.part.bakes⟩ ∧ Shown True (generatePieces sdHost) node s.part.node := by
  obtain ⟨node,run,baking⟩ := raced_baking
  have thrown := raced_turn baking (.move (.work (.throws (ascii "no model")))) rfl
  have stored := raced_turn thrown (.move (.work .storeError)) rfl
  have paused := raced_turn stored (.validate (some .beforeKey)) rfl
  have published := raced_turn paused (.move (.work .publish)) rfl
  have ended := raced_turn published .next rfl
  exact ⟨_,ended,rfl,rfl,(validate_serial True AISmartFill.blackHost sdHost).2 _ ended rfl⟩

end Raced

end SmartFill.ValidateSteps
