import SmartFill.Graph

namespace SmartFill.Graph
open Transition Parallel ImageCache DiskOp

-- A kind whose nodes are also modelled one at a time, with a bake's write as
-- one step: what the two models owe each other.
structure Serial {Node T Act : Type} (k : Kind Node T Act) (S : Type) where
  sys : System S Act
  view : Node → Files → List (Written T) → S
  work : WorkStep → Act
  files : Files → Act
  begins : ∀ disk, sys.initial (view k.fresh disk [])
  mains : ∀ {node disk act moved} bakes, k.main node disk act = some moved →
    sys.step (view node disk bakes) act = some (view moved.1 moved.2 bakes)
  works : ∀ {node disk w worker later wrote} bakes, workStep k.backend (k.worker node) disk w = some (worker,later,wrote) →
    sys.step (view node disk bakes) (work w) = some (view (k.setWorker node worker) later (wrote.toList ++ bakes))
  changes : ∀ node disk bakes later, sys.step (view node disk bakes) (files later) = some (view node later bakes)
  starts : Node → Files → Act → BakeJob T → Prop
  carries : ∀ {ok node disk act moved}, (∀ job, starts node disk act job → ok job) → k.main node disk act = some moved →
    (k.worker node).Carries k.backend ok → (k.worker moved.1).Carries k.backend ok
  keeps : ∀ {node disk act moved}, k.main node disk act = some moved → (k.worker node).state = .running →
    (k.worker moved.1).thread = (k.worker node).thread
  setWorker_worker : ∀ node worker, k.worker (k.setWorker node worker) = worker

section Kinds
variable {host : AISmartFill.Host} {generator : AIGenerate.Host}

theorem fill_main_thrown {node : AISmartFill.Node} {disk : Files} {validated : Option (Option Stop)}
    {stop : AISmartFill.BakeStop} {moved : AISmartFill.Node × Files}
    (ran : (fillKind host).main node disk (.bakeThrown validated stop) = some moved) :
    ∃ after, AISmartFill.thrownBake host disk validated stop node = some after ∧ moved = (after,disk) := by
  obtain ⟨s,stepped,rfl⟩ := Option.map_eq_some_iff.mp ran
  obtain ⟨after,thrown,rfl⟩ := AISmartFill.step_thrown stepped
  exact ⟨after,thrown,rfl⟩

theorem fill_thrown_main {node after : AISmartFill.Node} {disk : Files} {validated : Option (Option Stop)}
    {stop : AISmartFill.BakeStop} (thrown : AISmartFill.thrownBake host disk validated stop node = some after) :
    (fillKind host).main node disk (.bakeThrown validated stop) = some (after,disk) := by
  have stepped : AISmartFill.step host ⟨node,disk,[]⟩ (.bakeThrown validated stop) = some ⟨after,disk,[]⟩ :=
    congrArg (Option.map _) thrown
  exact congrArg (Option.map _) stepped

theorem fill_mains {node : AISmartFill.Node} {disk : Files} {act : AISmartFill.Action} {moved : AISmartFill.Node × Files}
    (bakes : List (Written AISmartFill.FillTask)) (ran : (fillKind host).main node disk act = some moved) :
    (AISmartFill.system host).step ⟨node,disk,bakes⟩ act = some ⟨moved.1,moved.2,bakes⟩ := by
  cases act with
  | bakeThrown validated stop =>
    obtain ⟨after,thrown,rfl⟩ := fill_main_thrown ran
    exact congrArg (Option.map _) thrown
  | work _ | files _ => cases ran
  | edit _ | connect _ _ | validate _ | bake _ | clearCache _ | cancel =>
    cases ran
    rfl

theorem generate_mains {node : AIGenerate.Node} {disk : Files} {act : AIGenerate.Action} {moved : AIGenerate.Node × Files}
    (bakes : List (Written AIGenerate.SdJob)) (ran : (generateKind generator).main node disk act = some moved) :
    (AIGenerate.system generator).step ⟨node,disk,bakes⟩ act = some ⟨moved.1,moved.2,bakes⟩ := by
  cases act with
  | work _ | files _ => cases ran
  | edit _ | connect _ _ | validate _ | bake _ | clearCache _ | cancel =>
    cases ran
    rfl

theorem poll_same {T : Type} {extension : Bytes} {r : Rounding} {stale : CacheBuffer extension → Bytes → Bool}
    {rt : Runtime T extension} (running : rt.worker.state = .running) : Runtime.SameBake rt (rt.pollWorker r stale) := by
  rcases Runtime.poll_worker rt with ⟨_,same⟩ | ⟨terminal,_⟩
  · exact same
  · rw [running] at terminal
    cases terminal

theorem fill_keeps {node : AISmartFill.Node} {disk : Files} {act : AISmartFill.Action} {moved : AISmartFill.Node × Files}
    (ran : (fillKind host).main node disk act = some moved) (running : node.rt.worker.state = .running) :
    moved.1.rt.worker.thread = node.rt.worker.thread := by
  cases act with
  | work _ | files _ => cases ran
  | edit _ | connect _ _ | cancel =>
    cases ran
    rfl
  | clearCache refused =>
    cases ran
    exact congrArg AiWorker.thread (AISmartFill.clearCacheDir_same refused).worker
  | bakeThrown validated stop =>
    obtain ⟨after,thrown,rfl⟩ := fill_main_thrown ran
    exact absurd running (AISmartFill.thrownBake_worker thrown).1
  | bake validated =>
    cases ran
    rcases AISmartFill.startBake_cases host disk validated node with ⟨_,said⟩ | ⟨stopped,_⟩ | ⟨after,job,ready,_⟩
    · show (AISmartFill.startBake host disk validated node).rt.worker.thread = _
      rw [said]
      rfl
    · contradiction
    · exact absurd running (AISmartFill.prepareBake_ready ready).stopped
  | validate thrown =>
    cases ran
    have same : Runtime.SameBake node.rt (AISmartFill.validate host disk thrown node).rt := by
      apply AISmartFill.validate_rt (Runtime.SameBake node.rt)
      · intro rt same
        exact same.trans (poll_same (by rw [same.worker,running]))
      · intro a b quiet same
        exact same.trans quiet.toSameBake
      · exact ⟨rfl,rfl⟩
    exact congrArg AiWorker.thread same.worker

theorem generate_keeps {node : AIGenerate.Node} {disk : Files} {act : AIGenerate.Action} {moved : AIGenerate.Node × Files}
    (ran : (generateKind generator).main node disk act = some moved) (running : node.rt.worker.state = .running) :
    moved.1.rt.worker.thread = node.rt.worker.thread := by
  cases act with
  | work _ | files _ => cases ran
  | edit _ | connect _ _ | cancel =>
    cases ran
    rfl
  | clearCache refused =>
    cases ran
    exact congrArg AiWorker.thread (AIGenerate.clearCacheOnDisk_same refused).worker
  | bake chance =>
    cases ran
    rcases AIGenerate.startBake_cases generator disk chance node with ⟨_,same⟩ | ⟨_,_,launches,_⟩
    · exact congrArg AiWorker.thread same.worker
    · exact absurd running launches.stopped
  | validate thrown =>
    cases ran
    have same : Runtime.SameBake node.rt (AIGenerate.validate generator disk thrown node).rt := by
      apply AIGenerate.validate_rt (Runtime.SameBake node.rt)
      · intro rt same
        exact same.trans (poll_same (by rw [same.worker,running]))
      · intro a b quiet same
        exact same.trans quiet.toSameBake
      · exact ⟨rfl,rfl⟩
    exact congrArg AiWorker.thread same.worker

theorem fill_works {node : AISmartFill.Node} {disk later : Files} {w : WorkStep}
    {worker : AiWorker (BakeRun AISmartFill.FillTask)} {wrote : Option (Written AISmartFill.FillTask)}
    (bakes : List (Written AISmartFill.FillTask))
    (ran : workStep (AISmartFill.backend host) node.rt.worker disk w = some (worker,later,wrote)) :
    (AISmartFill.system host).step ⟨node,disk,bakes⟩ (.work w) =
      some ⟨AISmartFill.setWorker node worker,later,wrote.toList ++ bakes⟩ := by
  simp only [AISmartFill.system,AISmartFill.step,ran]

theorem generate_works {node : AIGenerate.Node} {disk later : Files} {w : WorkStep}
    {worker : AiWorker (BakeRun AIGenerate.SdJob)} {wrote : Option (Written AIGenerate.SdJob)}
    (bakes : List (Written AIGenerate.SdJob))
    (ran : workStep generator.backend node.rt.worker disk w = some (worker,later,wrote)) :
    (AIGenerate.system generator).step ⟨node,disk,bakes⟩ (.work w) =
      some ⟨AIGenerate.setWorker node worker,later,wrote.toList ++ bakes⟩ := by
  simp only [AIGenerate.system,AIGenerate.step,ran]

def fillStarts (host : AISmartFill.Host) (node : AISmartFill.Node) (disk : Files) (act : AISmartFill.Action)
    (job : BakeJob AISmartFill.FillTask) : Prop :=
  ∃ validated after, act = .bake validated ∧ AISmartFill.prepareBake host disk validated node = .ready after job

def generateStarts (host : AIGenerate.Host) (node : AIGenerate.Node) (disk : Files) (act : AIGenerate.Action)
    (job : BakeJob AIGenerate.SdJob) : Prop :=
  ∃ chance after made, act = .bake chance ∧ AIGenerate.prepareBake host disk chance node = (.ready after job,made)

theorem fill_carries {ok : BakeJob AISmartFill.FillTask → Prop} {node : AISmartFill.Node} {disk : Files}
    {act : AISmartFill.Action} {moved : AISmartFill.Node × Files} (valid : ∀ job, fillStarts host node disk act job → ok job)
    (ran : (fillKind host).main node disk act = some moved)
    (carries : node.rt.worker.Carries (AISmartFill.backend host) ok) :
    moved.1.rt.worker.Carries (AISmartFill.backend host) ok :=
  (AISmartFill.step_logged (s := ⟨node,disk,[]⟩) ⟨carries,by simp⟩
    (fun validated after job pressed ready => valid job ⟨validated,after,pressed,ready⟩) (fill_mains [] ran)).carries

theorem generate_carries {ok : BakeJob AIGenerate.SdJob → Prop} {node : AIGenerate.Node} {disk : Files}
    {act : AIGenerate.Action} {moved : AIGenerate.Node × Files}
    (valid : ∀ job, generateStarts generator node disk act job → ok job)
    (ran : (generateKind generator).main node disk act = some moved)
    (carries : node.rt.worker.Carries generator.backend ok) : moved.1.rt.worker.Carries generator.backend ok :=
  (AIGenerate.step_logged (s := ⟨node,disk,[]⟩) ⟨carries,by simp⟩
    (fun chance after job made pressed ready => valid job ⟨chance,after,made,pressed,ready⟩) (generate_mains [] ran)).carries

def fillSerial (host : AISmartFill.Host) : Serial (fillKind host) AISmartFill.State where
  sys := AISmartFill.system host
  view node disk bakes := ⟨node,disk,bakes⟩
  work := .work
  files := .files
  begins disk := ⟨disk,rfl⟩
  mains := fill_mains
  works := fill_works
  changes _ _ _ _ := rfl
  starts := fillStarts host
  carries := fill_carries
  keeps := fill_keeps
  setWorker_worker _ _ := rfl

def generateSerial (host : AIGenerate.Host) : Serial (generateKind host) AIGenerate.State where
  sys := AIGenerate.system host
  view node disk bakes := ⟨node,disk,bakes⟩
  work := .work
  files := .files
  begins disk := ⟨disk,rfl⟩
  mains := generate_mains
  works := generate_works
  changes _ _ _ _ := rfl
  starts := generateStarts host
  carries := generate_carries
  keeps := generate_keeps
  setWorker_worker _ _ := rfl

end Kinds

section Steps
variable {Node T Act : Type} {k : Kind Node T Act} {p : Part Node T} {disk : Files} {moved : Part Node T × Files}

-- The thread is at the statement whose call is under way.
structure Flying (k : Kind Node T Act) (node : Node) (f : Flight T) : Prop where
  thread : (k.worker node).thread = .body f.run
  todo : ∃ rest, f.run = ⟨f.run.job,.write :: rest,some f.pixels⟩

-- All that a move can do.
inductive Moved (k : Kind Node T Act) (p : Part Node T) (disk : Files) : Move Act → Part Node T × Files → Prop where
  | called {act : Act} {node : Node} {later : Files} : k.main p.node disk act = some (node,later) →
    Moved k p disk (.main act) (⟨node,p.bakes,p.flight⟩,later)
  | worked {w : WorkStep} {worker : AiWorker (BakeRun T)} : p.flight = none →
    workStep k.backend (k.worker p.node) disk w = some (worker,disk,none) →
    Moved k p disk (.work w) (⟨k.setWorker p.node worker,p.bakes,p.flight⟩,disk)
  | entered {f : Flight T} : p.flight = none → f.done = 0 → Flying k p.node f →
    Moved k p disk (.enter f.faults) (⟨p.node,p.bakes,some f⟩,disk)
  | operated {f : Flight T} {op : FileOp} : p.flight = some f → f.call.ops[f.done]? = some op →
    Moved k p disk .operation (⟨p.node,p.bakes,some {f with done := f.done+1}⟩,apply disk op)
  | left {f : Flight T} : p.flight = some f → f.call.ops.length ≤ f.done →
    Moved k p disk .leave (⟨k.setWorker p.node {k.worker p.node with thread := afterWrite f (f.call.run disk).ok},
      ⟨f.run,f.pixels,(f.call.run disk).ok,disk.read f.path⟩ :: p.bakes,none⟩,disk)

theorem workStep_quiet {backend : Backend T} {w worker : AiWorker (BakeRun T)} {later : Files} {step : WorkStep}
    {wrote : Option (Written T)} (other : ∀ faults, step ≠ .write faults)
    (ran : workStep backend w disk step = some (worker,later,wrote)) : later = disk ∧ wrote = none := by
  cases step with
  | write faults => exact absurd rfl (other faults)
  | produce call cancels =>
    simp only [workStep] at ran
    repeat' split at ran
    all_goals cases ran
    all_goals exact ⟨rfl,rfl⟩
  | next | report p | throws err | returns | storeError | publish =>
    simp only [workStep] at ran
    split at ran <;> cases ran
    all_goals exact ⟨rfl,rfl⟩

theorem step_work (p : Part Node T) (disk : Files) {w : WorkStep} (other : ∀ faults, w ≠ .write faults) :
    k.step p disk (.work w) = if p.flight.isSome then none else
      (workStep k.backend (k.worker p.node) disk w).map (fun moved => ({p with node := k.setWorker p.node moved.1},disk)) := by
  cases w with
  | write faults => exact absurd rfl (other faults)
  | next | report _ | throws _ | returns | storeError | publish | produce _ _ => rfl

theorem step_moved {a : Move Act} (ran : k.step p disk a = some moved) : Moved k p disk a moved := by
  cases a with
  | main act =>
    obtain ⟨⟨node,later⟩,called,rfl⟩ := Option.map_eq_some_iff.mp ran
    exact .called called
  | enter faults =>
    simp only [Kind.step] at ran
    split at ran <;> cases ran
    rename_i idle body
    exact .entered (f := ⟨faults,_,_,0⟩) idle rfl ⟨body,_,rfl⟩
  | operation =>
    simp only [Kind.step] at ran
    split at ran
    · cases ran
    · rename_i f flying
      obtain ⟨op,found,rfl⟩ := Option.map_eq_some_iff.mp ran
      exact .operated flying found
  | leave =>
    simp only [Kind.step] at ran
    split at ran
    · cases ran
    · rename_i f flying
      split at ran
      · cases ran
      · rename_i unfinished
        cases ran
        exact .left flying (not_lt.mp unfinished)
  | work w =>
    by_cases writes : ∃ faults, w = .write faults
    · obtain ⟨faults,rfl⟩ := writes
      cases ran
    · have other : ∀ faults, w ≠ .write faults := fun faults same => writes ⟨faults,same⟩
      rw [step_work p disk other] at ran
      split at ran
      · cases ran
      · rename_i idle
        obtain ⟨⟨worker,later,wrote⟩,worked,rfl⟩ := Option.map_eq_some_iff.mp ran
        obtain ⟨rfl,rfl⟩ := workStep_quiet other worked
        exact .worked (Option.not_isSome_iff_eq_none.mp idle) worked

theorem call_ok (c : WriteCall) (disk disk' : Files) : (c.run disk).ok = (c.run disk').ok := by
  rw [WriteCall.run_ranged,WriteCall.run_ranged]
  split
  · unfold writeImage
    split
    · rfl
    · split
      · rfl
      · split <;> rfl
  · rfl

theorem flying_write {node : Node} {f : Flight T} (flying : Flying k node f) (disk : Files) :
    workStep k.backend (k.worker node) disk (.write f.faults) =
      some ({k.worker node with thread := afterWrite f (f.call.run disk).ok},(f.call.run disk).final,
        some ⟨f.run,f.pixels,(f.call.run disk).ok,(f.call.run disk).final.read f.path⟩) := by
  obtain ⟨faults,⟨job,_,_⟩,pixels,done⟩ := f
  obtain ⟨body,rest,same⟩ := flying
  simp only [BakeRun.mk.injEq,true_and] at same
  obtain ⟨rfl,rfl⟩ := same
  simp only [workStep,body]
  rfl

end Steps

section Crew
variable {Node T Act S : Type} {k : Kind Node T Act} {p : Part Node T} {disk : Files} {moved : Part Node T × Files}

-- A node's worker, and its thread while a write is under way.
structure Crewed (k : Kind Node T Act) (ok : BakeJob T → Prop) (p : Part Node T) : Prop where
  carries : (k.worker p.node).Carries k.backend ok
  flying : ∀ f, p.flight = some f → Flying k p.node f

variable {serial : Serial k S} {ok : BakeJob T → Prop}

theorem crewed_job (crewed : Crewed k ok p) {f : Flight T} (flying : p.flight = some f) : ok f.run.job := by
  apply crewed.carries.job f.run
  rw [(crewed.flying f flying).thread]
  rfl

theorem crewed_step (serial : Serial k S) (crewed : Crewed k ok p) {a : Move Act}
    (valid : ∀ act job, a = .main act → serial.starts p.node disk act job → ok job)
    (moves : Moved k p disk a moved) : Crewed k ok moved.1 := by
  cases moves with
  | called called =>
    refine ⟨serial.carries (fun job => valid _ job rfl) called crewed.carries,fun f flies => ?_⟩
    obtain ⟨thread,todo⟩ := crewed.flying f flies
    exact ⟨(serial.keeps called (running_of_body crewed.carries.coherent thread)).trans thread,todo⟩
  | worked idle worked =>
    refine ⟨?_,fun f flies => ?_⟩
    · rw [serial.setWorker_worker]
      exact AiWorker.carries_work crewed.carries worked
    · rw [idle] at flies
      cases flies
  | entered idle fresh flying =>
    refine ⟨crewed.carries,fun f flies => ?_⟩
    cases flies
    exact flying
  | operated flies found =>
    refine ⟨crewed.carries,fun f flies' => ?_⟩
    cases flies'
    obtain ⟨thread,todo⟩ := crewed.flying _ flies
    exact ⟨thread,todo⟩
  | left flies over_ =>
    refine ⟨?_,fun f flies' => nomatch flies'⟩
    rw [serial.setWorker_worker]
    exact AiWorker.carries_work crewed.carries (flying_write (crewed.flying _ flies) disk)

end Crew

section Serialize
variable {Node T Act S : Type} {k : Kind Node T Act} {p : Part Node T} {disk : Files} {moved : Part Node T × Files}

-- A file under way holds what the operations made so far leave of some disk.
def Begun (p : Part Node T) (disk : Files) : Prop :=
  ∀ f, p.flight = some f → ∃ begun, Agree (Own f.path) disk (run begun (f.call.ops.take f.done))

variable (serial : Serial k S) {allowed : S → Act → Prop}

structure Free (allowed : S → Act → Prop) : Prop where
  work : ∀ s w, allowed s (serial.work w)
  files : ∀ s disk, allowed s (serial.files disk)

variable {serial}

-- A step of a node is a step of its serial model. The pieces of a write are
-- changes from outside there, until the last of them is made.
theorem serial_step (free : Free serial allowed) (path : Guarded serial.sys allowed (serial.view p.node disk p.bakes))
    (crew : ∀ f, p.flight = some f → Flying k p.node f) (begun : Begun p disk) {a : Move Act}
    (permitted : ∀ act, a = .main act → allowed (serial.view p.node disk p.bakes) act)
    (moves : Moved k p disk a moved) : Guarded serial.sys allowed (serial.view moved.1.node moved.2 moved.1.bakes) := by
  cases moves with
  | called called => exact path.act _ (permitted _ rfl) (serial.mains p.bakes called)
  | worked idle worked => exact path.act _ (free.work _ _) (serial.works p.bakes worked)
  | entered idle fresh flying => exact path
  | operated flies found => exact path.act _ (free.files _ _) (serial.changes _ _ _ _)
  | left flies over_ =>
    rename_i f
    obtain ⟨first,agree⟩ := begun f flies
    rw [List.take_of_length_le over_,←WriteCall.ops_final] at agree
    have restarted := path.act _ (free.files _ first) (serial.changes _ _ _ first)
    have written := restarted.act _ (free.work _ _) (serial.works p.bakes (flying_write (crew f flies) first))
    have back := written.act _ (free.files _ disk) (serial.changes _ _ _ disk)
    rw [call_ok f.call disk first,agree f.path (.inl rfl)]
    exact back

theorem begun_step (begun : Begun p disk) {a : Move Act} (moves : Moved k p disk a moved)
    (apart : ∀ q, p.Writes q → a ≠ .operation → moved.2.read q = disk.read q) : Begun moved.1 moved.2 := by
  intro f flies
  cases moves with
  | called called =>
    obtain ⟨first,agree⟩ := begun f flies
    refine ⟨first,fun q own => ?_⟩
    rw [apart q ⟨f,flies,own⟩ (by simp),agree q own]
  | worked idle worked =>
    rw [idle] at flies
    cases flies
  | entered idle fresh flying =>
    cases flies
    refine ⟨disk,?_⟩
    rw [fresh]
    exact fun _ _ => rfl
  | @operated f op flies' found =>
    cases flies
    obtain ⟨first,agree⟩ := begun f flies'
    have next : f.call.ops.take (f.done+1) = f.call.ops.take f.done ++ [op] := by rw [List.take_add_one,found]; rfl
    refine ⟨first,?_⟩
    show Agree (Own f.path) (apply disk op) (run first (f.call.ops.take (f.done+1)))
    rw [next,run_append]
    exact apply_agree agree (WriteCall.ops_within op (List.mem_of_getElem? found))
  | left flies' over_ => cases flies

theorem begun_other (begun : Begun p disk) {later : Files} (apart : ∀ q, p.Writes q → later.read q = disk.read q) :
    Begun p later := by
  intro f flies
  obtain ⟨first,agree⟩ := begun f flies
  refine ⟨first,fun q own => ?_⟩
  rw [apart q ⟨f,flies,own⟩,agree q own]

structure Serialized (serial : Serial k S) (allowed : S → Act → Prop) (p : Part Node T) (disk : Files) : Prop where
  path : Guarded serial.sys allowed (serial.view p.node disk p.bakes)
  crewed : Crewed k (fun _ => True) p
  begun : Begun p disk

theorem serialized_begins (unused : k.worker k.fresh = AiWorker.fresh) (disk : Files) :
    Serialized serial allowed ⟨k.fresh,[],none⟩ disk := by
  refine ⟨.initial (serial.begins disk),⟨?_,?_⟩,?_⟩
  · rw [unused]
    exact AiWorker.carries_fresh
  · rintro f ⟨⟩
  · rintro f ⟨⟩

theorem serialized_own (free : Free serial allowed) (serialized : Serialized serial allowed p disk) {a : Move Act}
    (permitted : ∀ act, a = .main act → allowed (serial.view p.node disk p.bakes) act) (ran : k.step p disk a = some moved)
    (apart : ∀ q, p.Writes q → a ≠ .operation → moved.2.read q = disk.read q) :
    Serialized serial allowed moved.1 moved.2 :=
  ⟨serial_step free serialized.path serialized.crewed.flying serialized.begun permitted (step_moved ran),
    crewed_step serial serialized.crewed (fun _ _ _ _ => trivial) (step_moved ran),
    begun_step serialized.begun (step_moved ran) apart⟩

theorem serialized_other (free : Free serial allowed) (serialized : Serialized serial allowed p disk) (later : Files)
    (apart : ∀ q, p.Writes q → later.read q = disk.read q) : Serialized serial allowed p later :=
  ⟨serialized.path.act _ (free.files _ later) (serial.changes _ _ _ later),serialized.crewed,
    begun_other serialized.begun apart⟩

end Serialize

section Views
variable {ι κ : Type} [DecidableEq ι] [DecidableEq κ] {fill : ι → AISmartFill.Host} {generate : κ → AIGenerate.Host}
  {start : Files → Prop} {permitted : State ι κ → (Σ p : Party ι κ, Act p) → Prop} {s : State ι κ}

theorem fill_view {i : ι} {allowed : AISmartFill.State → AISmartFill.Action → Prop}
    (free : Free (fillSerial (fill i)) allowed) (path : Guarded (graph fill generate start) permitted s)
    (apart : ∀ s act, permitted s act → Apart fill generate s act)
    (own : ∀ s act, permitted s ⟨.fill i,(.main act : Move AISmartFill.Action)⟩ → allowed (fillView s i) act) :
    Serialized (fillSerial (fill i)) allowed (fillPart s i) s.store := by
  apply together_keeps (.fill i) (Serialized (fillSerial (fill i)) allowed) path
  · rintro l store rfl _
    exact serialized_begins rfl store
  · intro s a moved _ before permits ran
    refine serialized_own free before ?_ ran (fun q writes other => apart s _ permits moved ran (.fill i) q writes ?_)
    · rintro act rfl
      exact own s act permits
    · exact fun same => other same.2
  · intro s j a moved other before permits ran
    exact serialized_other free before moved.2 (fun q writes =>
      apart s _ permits moved ran (.fill i) q writes (fun same => other same.1.symm))

theorem generate_view {i : κ} {allowed : AIGenerate.State → AIGenerate.Action → Prop}
    (free : Free (generateSerial (generate i)) allowed) (path : Guarded (graph fill generate start) permitted s)
    (apart : ∀ s act, permitted s act → Apart fill generate s act)
    (own : ∀ s act, permitted s ⟨.generate i,(.main act : Move AIGenerate.Action)⟩ → allowed (generateView s i) act) :
    Serialized (generateSerial (generate i)) allowed (generatePart s i) s.store := by
  apply together_keeps (.generate i) (Serialized (generateSerial (generate i)) allowed) path
  · rintro l store rfl _
    exact serialized_begins rfl store
  · intro s a moved _ before permits ran
    refine serialized_own free before ?_ ran (fun q writes other => apart s _ permits moved ran (.generate i) q writes ?_)
    · rintro act rfl
      exact own s act permits
    · exact fun same => other same.2
  · intro s j a moved other before permits ran
    exact serialized_other free before moved.2 (fun q writes =>
      apart s _ permits moved ran (.generate i) q writes (fun same => other same.1.symm))

end Views

end SmartFill.Graph
