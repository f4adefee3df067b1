import SmartFill.PollRound

namespace SmartFill.ValidateSteps
open Transition ImageCache SmartFill.Graph

-- The statements of _validate that look at what other threads and programs
-- change, where each is the next to run: worker_.progress() in poll_worker,
-- compute_cache_key, try_load_cache_for_key up to fs::exists, image_cache_read.
inductive Statement where
  | progress
  | key
  | find
  | read
  deriving DecidableEq

variable {Node T Act : Type} {k : Kind Node T Act} {e : Bytes}

-- An Op's _validate in parts. `kept` is what try_load_cache_for_key returns with
-- before it has a path, `missing` what it does where there is no file, `reads`
-- what it makes of the file. The key looks at whether `watched` files are there.
-- The calls that are `resets` reset a worker that has ended without a poll.
structure Pieces (k : Kind Node T Act) (e : Bytes) extends Polls k e where
  setRt : Node → Runtime T e → Node
  enter : Node → Node
  key : Files → Node → Bytes
  path : Node → Bytes → Path
  kept : CacheBuffer e → Bytes → Option (CacheBuffer e)
  missing : CacheBuffer e → CacheBuffer e
  reads : Files → Node → Bytes → CacheBuffer e → CacheBuffer e
  watched : Path → Prop
  resets : Act → Prop

namespace Pieces
variable (v : Pieces k e)

def polls (node : Node) : Node := v.setRt node ((v.rt node).pollWorker v.rounding v.stale)

def keyed (disk : Files) (node : Node) : Node := v.setRt node {v.rt node with currentKey := v.key disk node}

def cached (node : Node) (cache : CacheBuffer e) : Node := v.setRt node {v.rt node with cache := cache}

-- The buffer try_load_cache_for_key returns with, unless the file is there.
def found (disk : Files) (node : Node) : Option (CacheBuffer e) :=
  match v.kept (v.rt node).cache (v.rt node).currentKey with
  | some cache => some cache
  | none =>
    let path := v.path node (v.rt node).currentKey
    if path = [] then some (v.rt node).cache
    else if !fileExists disk path then some (v.missing (v.rt node).cache)
    else none

def image (disk : Files) (node : Node) : CacheBuffer e :=
  v.reads disk node (v.rt node).currentKey (v.rt node).cache

def loaded (disk : Files) (node : Node) : Node := v.cached node ((v.found disk node).getD (v.image disk node))

-- All of them in a row.
def validated (disk : Files) (thrown : Option Stop) (node : Node) : Node :=
  let node := v.enter node
  if thrown = some .beforePoll then node else
  let node := v.polls node
  if thrown = some .beforeKey then node else
  let node := v.keyed disk node
  if thrown = some .beforeLoad then node else
  v.loaded disk node

end Pieces

-- A node with the statement its _validate is at, and the exception that will
-- end it.
structure Midway (Node T : Type) where
  part : Part Node T
  disk : Files
  within : Option (Statement × Option Stop)

inductive Turn (Act : Type) where
  | move (m : Move Act)
  | others (disk : Files)
  | validate (thrown : Option Stop)
  | next

namespace Midway

def ended (s : Midway Node T) (node : Node) : Midway Node T :=
  {s with part := {s.part with node := node},within := none}

def pause (s : Midway Node T) (node : Node) (statement : Statement) (thrown : Option Stop) : Midway Node T :=
  {s with part := {s.part with node := node},within := some (statement,thrown)}

def afterPoll (s : Midway Node T) (node : Node) (thrown : Option Stop) : Midway Node T :=
  if thrown = some .beforeKey then s.ended node else s.pause node .key thrown

variable (v : Pieces k e)

-- A worker that is not running any more changes nothing, so what poll_worker
-- does about it is one statement with its reading of the state.
def begin (s : Midway Node T) (thrown : Option Stop) : Midway Node T :=
  let node := v.enter s.part.node
  if thrown = some .beforePoll then s.ended node
  else if (v.rt node).worker.state = .running then s.pause node .progress thrown
  else s.afterPoll (v.polls node) thrown

def next (s : Midway Node T) : Option (Midway Node T) :=
  let node := s.part.node
  match s.within with
  | none => none
  | some (.progress,thrown) =>
    let p := (v.rt node).worker.context.progress
    let shown := ((v.rt node).setProgress p).setStatus (Runtime.cookingText v.rounding p)
    some (s.afterPoll (v.setRt node shown) thrown)
  | some (.key,thrown) =>
    let node := v.keyed s.disk node
    if thrown = some .beforeLoad then some (s.ended node) else some (s.pause node .find thrown)
  | some (.find,thrown) =>
    match v.found s.disk node with
    | some cache => some (s.ended (v.cached node cache))
    | none => some (s.pause node .read thrown)
  | some (.read,_) => some (s.ended (v.cached node (v.image s.disk node)))

-- The other calls on the main thread wait for a _validate to end; the worker
-- and other programs do not.
def step (s : Midway Node T) : Turn Act → Option (Midway Node T)
  | .move (.main act) =>
    if s.within.isSome then none else
    (k.step s.part s.disk (.main act)).map (fun moved => {s with part := moved.1,disk := moved.2})
  | .move m => (k.step s.part s.disk m).map (fun moved => {s with part := moved.1,disk := moved.2})
  | .others disk => some {s with disk := disk}
  | .validate thrown => if s.within.isSome then none else some (s.begin v thrown)
  | .next => s.next v

end Midway

def stepwise (v : Pieces k e) : System (Midway Node T) (Turn Act) where
  initial s := s.part = ⟨k.fresh,[],none⟩ ∧ s.within = none
  step := Midway.step v

-- Others leave the file that is being written alone; and while a key that has
-- been computed waits for its file, no file that went into it comes or goes. In
-- a strict run no worker that has ended is reset before a _validate notices.
structure Undisturbed (strict : Prop) (v : Pieces k e) (s : Midway Node T) (turn : Turn Act) : Prop where
  apart : ∀ s', Midway.step v s turn = some s' → turn ≠ .move .operation →
    ∀ q, s.part.Writes q → s'.disk.read q = s.disk.read q
  steady : ∀ s', Midway.step v s turn = some s' →
    (∃ thrown, s.within = some (.find,thrown) ∨ s.within = some (.read,thrown)) →
    ∀ q, v.watched q → s'.disk.present q = s.disk.present q
  noticed : strict → ∀ act, turn = .move (.main act) → v.resets act → (v.rt s.part.node).worker.state.terminal = false

-- What the parts of a _validate owe each other and the Op.
structure Lawful (v : Pieces k e) : Prop where
  rt_setRt : ∀ node rt, v.rt (v.setRt node rt) = rt
  setRt_rt : ∀ node, v.setRt node (v.rt node) = node
  setRt_setRt : ∀ node rt rt', v.setRt (v.setRt node rt) rt' = v.setRt node rt'
  worker : ∀ node w, k.setWorker node w = v.setRt node {v.rt node with worker := w}
  enter : ∀ node rt, v.enter (v.setRt node rt) = v.setRt (v.enter node) rt
  key : ∀ disk node rt, v.key disk (v.setRt node rt) = v.key disk node
  path : ∀ node rt key, v.path (v.setRt node rt) key = v.path node key
  reads : ∀ disk node rt key cache, v.reads disk (v.setRt node rt) key cache = v.reads disk node key cache
  steady : ∀ disk later node, (∀ q, v.watched q → later.present q = disk.present q) → v.key later node = v.key disk node
  unread : ∀ disk node key cache, fileExists disk (v.path node key) = false → v.reads disk node key cache = v.missing cache
  validate : ∀ node disk thrown, k.main node disk (v.validate thrown) = some (v.validated disk thrown node,disk)

section Display
variable {strict : Prop} {r : Rounding} {a b : Runtime T e} {w w' : AiWorker (BakeRun T)}

def Cooking (r : Rounding) (text : Bytes) : Prop := ∃ p, text = Runtime.cookingText r p

-- The second runtime is the first, but for how far it shows a bake to be, in a
-- strict run only while there is one, and for its worker.
structure Display (strict : Prop) (r : Rounding) (a b : Runtime T e) : Prop where
  same : b = {a with statusText := b.statusText,progress := b.progress,worker := b.worker}
  text : b.statusText = a.statusText ∨ ((strict → a.worker.state ≠ .idle) ∧ Cooking r a.statusText ∧ Cooking r b.statusText)
  progress : b.progress = a.progress ∨ (strict → a.worker.state ≠ .idle)

-- The second worker has published what the first one is about to.
def Published (w w' : AiWorker (BakeRun T)) : Prop :=
  ∃ task final, w.thread = .publishing task final ∧ w' = {w with state := final,thread := .exited task}

def Ahead (w w' : AiWorker (BakeRun T)) : Prop := w' = w ∨ Published w w'

theorem Display.refl (r : Rounding) (a : Runtime T e) : Display strict r a a := ⟨rfl,.inl rfl,.inl rfl⟩

-- Poll after poll, two workers alike are shown alike.
theorem display_poll (stale : CacheBuffer e → Bytes → Bool) (display : Display strict r a b) (worker : b.worker = a.worker) :
    Display strict r (a.pollWorker r stale) (b.pollWorker r stale) ∧
      (b.pollWorker r stale).worker = (a.pollWorker r stale).worker := by
  obtain ⟨text,progress,current,baking,cache,w⟩ := a
  obtain ⟨text',progress',current',baking',cache',w'⟩ := b
  obtain ⟨same,text,shows⟩ := display
  cases worker
  cases same
  cases state : w.state with
  | idle =>
    rw [Runtime.poll_idle state,Runtime.poll_idle state]
    exact ⟨⟨rfl,text,shows⟩,rfl⟩
  | running =>
    rw [Runtime.poll_running state,Runtime.poll_running state]
    exact ⟨⟨rfl,.inl rfl,.inl rfl⟩,rfl⟩
  | done | error | cancelled =>
    simp only [Runtime.pollWorker,state,Runtime.setStatus,Runtime.setProgress]
    exact ⟨⟨rfl,.inl rfl,.inl rfl⟩,trivial⟩

theorem display_seated (display : Display strict r a b) (busy : strict → a.worker.state ≠ .idle → w.state ≠ .idle) :
    Display strict r {a with worker := w} {b with worker := w'} := by
  obtain ⟨_,_,_,_,_,_⟩ := a
  obtain ⟨_,_,_,_,_,_⟩ := b
  obtain ⟨same,text,shows⟩ := display
  cases same
  refine ⟨rfl,?_,?_⟩
  · rcases text with text | ⟨was,cooking⟩
    · exact .inl text
    · exact .inr ⟨fun only => busy only (was only),cooking⟩
  · rcases shows with shows | was
    · exact .inl shows
    · exact .inr (fun only => busy only (was only))

-- A running bake shows some progress, earlier or later.
theorem display_later {p p' : F32} {key : Bytes} (busy : w.state ≠ .idle)
    (display : Display strict r {a with progress := p,statusText := Runtime.cookingText r p,currentKey := key} b) :
    Display strict r {a with worker := w,progress := p',statusText := Runtime.cookingText r p',currentKey := key}
      {b with worker := w'} := by
  have cooks : Cooking r b.statusText := by
    rcases display.text with same | ⟨_,_,cooks⟩
    · exact ⟨p,same⟩
    · exact cooks
  obtain ⟨_,_,_,_,_,_⟩ := a
  obtain ⟨_,_,_,_,_,_⟩ := b
  obtain ⟨same,_,_⟩ := display
  cases same
  exact ⟨rfl,.inr ⟨fun _ => busy,⟨p',rfl⟩,cooks⟩,.inr (fun _ => busy)⟩

end Display

section Relation
variable {S : Type} {strict : Prop} {v : Pieces k e} {serial : Serial k S} {disk later : Files} {a b : Node} {p q : Part Node T}
  {w w' : AiWorker (BakeRun T)} {statement : Statement} {thrown : Option Stop} {m : Move Act}
  {moved : Part Node T × Files} {s : Midway Node T}

-- One node between two calls, but for the progress shown.
structure Shown (strict : Prop) (v : Pieces k e) (a b : Node) : Prop where
  node : b = v.setRt a (v.rt b)
  display : Display strict v.rounding (v.rt a) (v.rt b)
  worker : (v.rt b).worker = (v.rt a).worker

-- What the statements before this one come to when they are all made now.
def base (v : Pieces k e) (disk : Files) (a : Node) : Statement → Runtime T e
  | .progress => v.rt a
  | .key => (v.rt a).pollWorker v.rounding v.stale
  | .find | .read => {(v.rt a).pollWorker v.rounding v.stale with currentKey := v.key disk (v.enter a)}

def Reaches : Statement → Option Stop → Prop
  | .progress,thrown => thrown ≠ some .beforePoll
  | .key,thrown => thrown ≠ some .beforePoll ∧ thrown ≠ some .beforeKey
  | .find,thrown | .read,thrown => thrown ≠ some .beforePoll ∧ thrown ≠ some .beforeKey ∧ thrown ≠ some .beforeLoad

-- The second node is at a statement of a _validate that the first one has still
-- before it, with its worker where it was before it published, if it has.
structure Behind (strict : Prop) (v : Pieces k e) (disk : Files) (a b : Node) (statement : Statement)
    (thrown : Option Stop) : Prop where
  node : b = v.setRt (v.enter a) (v.rt b)
  display : Display strict v.rounding (base v disk a statement) (v.rt b)
  worker : Ahead (base v disk a statement).worker (v.rt b).worker
  reaches : Reaches statement thrown
  running : statement = .progress → (v.rt a).worker.state = .running
  passes : statement = .read → v.kept (v.rt b).cache (v.rt b).currentKey = none ∧ v.path (v.enter a) (v.rt b).currentKey ≠ []

def Along (strict : Prop) (v : Pieces k e) (disk : Files) (a b : Node) : Option (Statement × Option Stop) → Prop
  | none => Shown strict v a b
  | some (statement,thrown) => Behind strict v disk a b statement thrown

structure Serves (strict : Prop) (v : Pieces k e) (serial : Serial k S) (s : Midway Node T) (p : Part Node T) : Prop where
  serialized : Serialized serial (fun _ _ => True) p s.disk
  bakes : s.part.bakes = p.bakes
  flight : s.part.flight = p.flight
  along : Along strict v s.disk p.node s.part.node s.within

theorem free (serial : Serial k S) : Free serial (fun _ _ => True) := ⟨fun _ _ => trivial,fun _ _ => trivial⟩

theorem rt_enter (lawful : Lawful v) (node : Node) : v.rt (v.enter node) = v.rt node := by
  have entered := lawful.enter node (v.rt node)
  rw [lawful.setRt_rt] at entered
  rw [entered,lawful.rt_setRt]

theorem rt_setWorker (lawful : Lawful v) (node : Node) (w : AiWorker (BakeRun T)) :
    v.rt (k.setWorker node w) = {v.rt node with worker := w} := by
  rw [lawful.worker,lawful.rt_setRt]

theorem setWorker_self (lawful : Lawful v) (node : Node) : k.setWorker node (k.worker node) = node := by
  rw [lawful.worker,v.worker]
  exact lawful.setRt_rt node

-- The steps of a worker come from its state, its flight and the disk alone.
theorem move_like (lawful : Lawful v) (own : ∀ act, m ≠ .main act) (ran : k.step q disk m = some moved)
    (worker : k.worker p.node = k.worker q.node) (bakes : q.bakes = p.bakes) (flight : q.flight = p.flight) :
    ∃ w, moved.1.node = k.setWorker q.node w ∧
      k.step p disk m = some (⟨k.setWorker p.node w,moved.1.bakes,moved.1.flight⟩,moved.2) := by
  obtain ⟨node,bakes',flight'⟩ := p
  obtain ⟨node',_,_⟩ := q
  cases bakes
  cases flight
  cases m with
  | main act => exact absurd rfl (own act)
  | work step =>
    by_cases writes : ∃ faults, step = .write faults
    · obtain ⟨faults,rfl⟩ := writes
      cases ran
    · have other : ∀ faults, step ≠ .write faults := fun faults same => writes ⟨faults,same⟩
      rw [step_work _ _ other] at ran ⊢
      split at ran
      · cases ran
      · rename_i idle
        obtain ⟨⟨w,_,_⟩,worked,rfl⟩ := Option.map_eq_some_iff.mp ran
        refine ⟨w,rfl,?_⟩
        rw [if_neg idle,worker,worked]
        rfl
  | enter faults =>
    have entered := ran
    simp only [Kind.step] at entered
    split at entered
    · rename_i body
      cases entered
      refine ⟨k.worker node',(setWorker_self lawful node').symm,?_⟩
      rw [←worker,setWorker_self lawful]
      simp only [Kind.step,worker,body]
    · cases entered
  | operation =>
    refine ⟨k.worker node',?_,?_⟩
    · simp only [Kind.step] at ran
      split at ran
      · cases ran
      · obtain ⟨op,_,rfl⟩ := Option.map_eq_some_iff.mp ran
        exact (setWorker_self lawful node').symm
    · rw [←worker,setWorker_self lawful]
      simp only [Kind.step] at ran ⊢
      split at ran
      · cases ran
      · obtain ⟨op,found,rfl⟩ := Option.map_eq_some_iff.mp ran
        simp only [found,Option.map_some]
  | leave =>
    simp only [Kind.step] at ran ⊢
    split at ran
    · cases ran
    · split at ran
      · cases ran
      · rename_i over_
        cases ran
        refine ⟨_,rfl,?_⟩
        simp only [if_neg over_,worker]

-- A thread that is not there any more makes no step.
def Still (w : AiWorker (BakeRun T)) : Prop := w.thread = .none ∨ ∃ task, w.thread = .exited task

theorem still_workStep {backend : Backend T} (still : Still w) (step : WorkStep) : workStep backend w disk step = none := by
  rcases still with gone | ⟨task,gone⟩
  all_goals cases step <;> simp only [workStep,gone]

theorem still_moves (still : Still (k.worker q.node)) (idle : q.flight = none) (own : ∀ act, m ≠ .main act) :
    k.step q disk m = none := by
  cases m with
  | main act => exact absurd rfl (own act)
  | work step =>
    by_cases writes : ∃ faults, step = .write faults
    · obtain ⟨faults,rfl⟩ := writes
      rfl
    · rw [step_work _ _ (fun faults same => writes ⟨faults,same⟩),still_workStep still]
      split <;> rfl
  | enter faults =>
    rcases still with gone | ⟨task,gone⟩
    all_goals simp only [Kind.step,idle,gone]
  | operation | leave => simp only [Kind.step,idle]

theorem workStep_state {backend : Backend T} {step : WorkStep} {wrote : Option (Written T)}
    (ran : workStep backend w disk step = some (w',later,wrote)) :
    w'.state = w.state ∨ (step = .publish ∧ Published w w' ∧ later = disk) := by
  cases step with
  | publish =>
    simp only [workStep] at ran
    split at ran <;> cases ran
    rename_i task final publishing
    exact .inr ⟨rfl,⟨task,final,publishing,rfl⟩,rfl⟩
  | produce call cancels =>
    simp only [workStep] at ran
    repeat' split at ran
    all_goals cases ran
    all_goals exact .inl rfl
  | next | report p | write faults | throws err | returns | storeError =>
    simp only [workStep] at ran
    split at ran <;> cases ran
    all_goals exact .inl rfl

-- A worker's move leaves its state alone, or publishes.
theorem move_state (lawful : Lawful v) (own : ∀ act, m ≠ .main act) (ran : k.step q disk m = some moved) :
    (k.worker moved.1.node).state = (k.worker q.node).state ∨
      (Published (k.worker q.node) (k.worker moved.1.node) ∧ moved.1.bakes = q.bakes ∧
        moved.1.flight = q.flight ∧ moved.2 = disk) := by
  have seated (node : Node) (w : AiWorker (BakeRun T)) : k.worker (k.setWorker node w) = w := by
    rw [v.worker,rt_setWorker lawful]
  cases step_moved ran with
  | called _ => exact absurd rfl (own _)
  | worked idle worked =>
    rw [seated]
    rcases workStep_state worked with same | ⟨_,published,_⟩
    · exact .inl same
    · exact .inr ⟨published,rfl,rfl,rfl⟩
  | entered _ _ _ | operated _ _ => exact .inl rfl
  | left _ _ =>
    rw [seated]
    exact .inl rfl

theorem published_final (coherent : w.Coherent) (published : Published w w') : w.state = .running ∧ w'.state ≠ .idle := by
  obtain ⟨task,final,publishing,rfl⟩ := published
  have parts : w.state = .running ∧ final.terminal = true := by simpa [AiWorker.Coherent,publishing] using coherent
  refine ⟨parts.1,fun idle => ?_⟩
  have terminal := parts.2
  rw [show final = .idle from idle] at terminal
  cases terminal

-- The first node makes the call whose last statement the second one has made,
-- and publishes after it what the second one's worker has published.
theorem settle (lawful : Lawful v) (served : Serialized serial (fun _ _ => True) p disk) {act : Act} {after : Node}
    (called : k.main p.node disk act = some (after,disk)) (node : b = v.setRt after (v.rt b))
    (display : Display strict v.rounding (v.rt after) (v.rt b)) (ahead : Ahead (v.rt after).worker (v.rt b).worker) :
    ∃ a, Serialized serial (fun _ _ => True) ⟨a,p.bakes,p.flight⟩ disk ∧ Shown strict v a b := by
  have moved : Serialized serial (fun _ _ => True) ⟨after,p.bakes,p.flight⟩ disk := by
    have ran : k.step p disk (.main act) = some (⟨after,p.bakes,p.flight⟩,disk) := by
      simp only [Kind.step,called,Option.map_some]
    exact serialized_own (free serial) served (fun _ _ => trivial) ran (fun _ _ _ => rfl)
  rcases ahead with same | published
  · exact ⟨after,moved,node,display,same⟩
  · have worker : k.worker after = (v.rt after).worker := v.worker after
    have finals := published_final (worker ▸ moved.crewed.carries.coherent) published
    obtain ⟨task,final,publishing,same⟩ := published
    have idle : p.flight = none := by
      by_contra busy
      obtain ⟨f,flies⟩ := Option.ne_none_iff_exists'.mp busy
      have body := (moved.crewed.flying f flies).thread
      rw [worker,publishing] at body
      cases body
    have ran : k.step ⟨after,p.bakes,p.flight⟩ disk (.work .publish) =
        some (⟨k.setWorker after (v.rt b).worker,p.bakes,p.flight⟩,disk) := by
      simp only [Kind.step,idle,Option.isSome_none,Bool.false_eq_true,if_false,workStep,worker,publishing,
        Option.map_some,same]
    refine ⟨k.setWorker after (v.rt b).worker,?_,?_⟩
    · exact serialized_own (free serial) moved (fun _ _ => trivial) ran (fun _ _ _ => rfl)
    · refine ⟨?_,⟨?_,?_,?_⟩,?_⟩
      · rw [lawful.worker,lawful.setRt_setRt]
        exact node
      · rw [rt_setWorker lawful]
        exact display.same
      · rw [rt_setWorker lawful]
        rcases display.text with text | ⟨_,cooking⟩
        · exact .inl text
        · exact .inr ⟨fun _ => finals.2,cooking⟩
      · exact .inr (fun _ => by rw [rt_setWorker lawful]; exact finals.2)
      · rw [rt_setWorker lawful]

theorem setRt_of (lawful : Lawful v) {c : Node} (node : b = v.setRt c (v.rt b)) (rt : Runtime T e) :
    v.setRt b rt = v.setRt c rt := (congrArg (fun node => v.setRt node rt) node).trans (lawful.setRt_setRt c _ rt)

theorem base_running (running : (v.rt a).worker.state = .running) (statement : Statement) :
    (base v disk a statement).worker = (v.rt a).worker := by
  cases statement with
  | progress => rfl
  | key | find | read =>
    simp only [base]
    rw [Runtime.poll_running running]

-- A worker that goes on running moves both nodes on.
theorem behind_moved (lawful : Lawful v) (running : (v.rt a).worker.state = .running) (runs : w.state = .running)
    (behind : Behind strict v disk a b statement thrown)
    (key : statement = .find ∨ statement = .read → v.key later (v.enter a) = v.key disk (v.enter a)) :
    Behind strict v later (v.setRt a {v.rt a with worker := w}) (v.setRt b {v.rt b with worker := w}) statement thrown := by
  have busy : w.state ≠ .idle := by rw [runs]; nofun
  have seated := lawful.rt_setRt a {v.rt a with worker := w}
  have keeps : (v.rt (v.setRt a {v.rt a with worker := w})).worker.state = .running := by rw [seated]; exact runs
  refine ⟨?_,?_,?_,behind.reaches,fun _ => keeps,?_⟩
  · rw [lawful.enter,lawful.rt_setRt,lawful.setRt_setRt]
    exact setRt_of lawful behind.node _
  · have display := behind.display
    rw [lawful.rt_setRt]
    cases statement with
    | progress =>
      simp only [base,seated] at display ⊢
      exact display_seated display (fun _ _ => busy)
    | key =>
      simp only [base,seated] at display ⊢
      rw [Runtime.poll_running running] at display
      rw [Runtime.poll_running (by exact runs)]
      exact display_later (a := v.rt a) busy display
    | find | read =>
      simp only [base,seated,lawful.enter,lawful.key] at display ⊢
      rw [Runtime.poll_running running] at display
      rw [Runtime.poll_running (by exact runs),key (by simp)]
      exact display_later (a := v.rt a) busy display
  · rw [base_running keeps,seated,lawful.rt_setRt]
    exact .inl rfl
  · intro reading
    rw [lawful.enter,lawful.path,lawful.rt_setRt]
    exact behind.passes reading

theorem behind_disk (behind : Behind strict v disk a b statement thrown)
    (key : statement = .find ∨ statement = .read → v.key later (v.enter a) = v.key disk (v.enter a)) :
    Behind strict v later a b statement thrown := by
  have same : base v later a statement = base v disk a statement := by
    cases statement with
    | progress | key => rfl
    | find | read =>
      simp only [base]
      rw [key (by simp)]
  obtain ⟨node,display,worker,reaches,running,passes⟩ := behind
  exact ⟨node,same ▸ display,same ▸ worker,reaches,running,passes⟩

theorem behind_published (lawful : Lawful v) (behind : Behind strict v disk a b statement thrown)
    (published : Published (base v disk a statement).worker w) :
    Behind strict v disk a (v.setRt b {v.rt b with worker := w}) statement thrown := by
  refine ⟨?_,?_,?_,behind.reaches,behind.running,?_⟩
  · rw [lawful.rt_setRt]
    exact setRt_of lawful behind.node _
  · rw [lawful.rt_setRt]
    exact ⟨congrArg (fun rt : Runtime T e => {rt with worker := w}) behind.display.same,behind.display.text,
      behind.display.progress⟩
  · rw [lawful.rt_setRt]
    exact .inr published
  · rw [lawful.rt_setRt]
    exact behind.passes

-- Nothing is left of a worker that a _validate has found stopped.
theorem behind_stopped (served : Serialized serial (fun _ _ => True) p disk)
    (behind : Behind strict v disk p.node b statement thrown) (stopped : (v.rt p.node).worker.state ≠ .running) :
    Still (v.rt b).worker ∧ p.flight = none := by
  have coherent := served.crewed.carries.coherent
  rw [v.worker] at coherent
  have polled : ((v.rt p.node).pollWorker v.rounding v.stale).worker.thread = .none := by
    rcases @Runtime.poll_worker _ _ v.rounding v.stale (v.rt p.node) with ⟨idle | running,same⟩ | ⟨terminal,reset,_⟩
    · rw [same.worker]
      unfold AiWorker.Coherent at coherent
      split at coherent
      · assumption
      all_goals simp_all [AiWorkerState.terminal]
    · exact absurd running stopped
    · rw [reset]
      cases state : (v.rt p.node).worker.state with
      | idle | running => rw [state] at terminal; cases terminal
      | done | error | cancelled => simp only [AiWorker.reset,state]
  have thread : (base v disk p.node statement).worker.thread = .none := by
    cases statement with
    | progress => exact absurd (behind.running rfl) stopped
    | key | find | read => exact polled
  constructor
  · rcases behind.worker with same | ⟨task,final,publishing,_⟩
    · exact .inl (by rw [same]; exact thread)
    · rw [thread] at publishing
      cases publishing
  · by_contra busy
    obtain ⟨f,flies⟩ := Option.ne_none_iff_exists'.mp busy
    have body := (served.crewed.flying f flies).thread
    rw [v.worker] at body
    exact stopped (running_of_body coherent body)

theorem published_still (published : Published w w') : Still w' := by
  obtain ⟨task,final,_,rfl⟩ := published
  exact .inr ⟨task,rfl⟩

theorem published_idle (served : Serialized serial (fun _ _ => True) p disk) (published : Published (v.rt p.node).worker w) :
    p.flight = none := by
  by_contra busy
  obtain ⟨f,flies⟩ := Option.ne_none_iff_exists'.mp busy
  have body := (served.crewed.flying f flies).thread
  obtain ⟨task,final,publishing,_⟩ := published
  rw [v.worker,publishing] at body
  cases body

theorem serves_likewise (lawful : Lawful v) (serves : Serves strict v serial s p) (own : ∀ act, m ≠ .main act)
    (ran : k.step s.part s.disk m = some moved)
    (apart : m ≠ .operation → ∀ q, s.part.Writes q → moved.2.read q = s.disk.read q)
    (worker : (v.rt s.part.node).worker = (v.rt p.node).worker) :
    ∃ w, moved.1.node = k.setWorker s.part.node w ∧
      Serialized serial (fun _ _ => True) ⟨k.setWorker p.node w,moved.1.bakes,moved.1.flight⟩ moved.2 := by
  obtain ⟨w,node,same⟩ := move_like lawful own ran (by rw [v.worker,v.worker,worker]) serves.bakes serves.flight
  refine ⟨w,node,serialized_own (free serial) serves.serialized (fun act main => absurd main (own act)) same ?_⟩
  intro q writes other
  apply apart other q
  rwa [Part.Writes,serves.flight]

-- A worker's move between two calls.
theorem serves_between (lawful : Lawful v) (serves : Serves strict v serial s p) (outside : s.within = none)
    (own : ∀ act, m ≠ .main act) (ran : k.step s.part s.disk m = some moved)
    (apart : m ≠ .operation → ∀ q, s.part.Writes q → moved.2.read q = s.disk.read q) :
    ∃ p, Serves strict v serial {s with part := moved.1,disk := moved.2} p := by
  have shown : Shown strict v p.node s.part.node := by
    have along := serves.along
    rwa [outside] at along
  obtain ⟨w,node,next⟩ := serves_likewise lawful serves own ran apart shown.worker
  have changed := move_state lawful own ran
  rw [v.worker,v.worker,node,rt_setWorker lawful,shown.worker] at changed
  have stays : (v.rt p.node).worker.state ≠ .idle → w.state ≠ .idle := by
    intro busy
    rcases changed with same | ⟨published,_⟩
    · rwa [same]
    · have coherent := serves.serialized.crewed.carries.coherent
      rw [v.worker] at coherent
      exact (published_final coherent published).2
  refine ⟨_,next,rfl,rfl,?_⟩
  show Along strict v moved.2 (k.setWorker p.node w) moved.1.node s.within
  rw [outside]
  refine ⟨?_,?_,?_⟩
  · rw [node,lawful.worker,lawful.worker,lawful.setRt_setRt,lawful.rt_setRt]
    exact setRt_of lawful shown.node _
  · rw [node,rt_setWorker lawful,rt_setWorker lawful]
    exact display_seated shown.display (fun _ => stays)
  · rw [node,rt_setWorker lawful,rt_setWorker lawful]

-- A worker's move beside a call: the first node makes it too, unless it is the
-- one that publishes.
theorem serves_beside (lawful : Lawful v) (serves : Serves strict v serial s p) (within : s.within = some (statement,thrown))
    (own : ∀ act, m ≠ .main act) (ran : k.step s.part s.disk m = some moved)
    (apart : m ≠ .operation → ∀ q, s.part.Writes q → moved.2.read q = s.disk.read q)
    (key : statement = .find ∨ statement = .read → v.key moved.2 (v.enter p.node) = v.key s.disk (v.enter p.node)) :
    ∃ p, Serves strict v serial {s with part := moved.1,disk := moved.2} p := by
  have behind : Behind strict v s.disk p.node s.part.node statement thrown := by
    have along := serves.along
    rwa [within] at along
  have moves (still : Still (v.rt s.part.node).worker) : p.flight ≠ none := by
    intro idle
    rw [still_moves (by rw [v.worker]; exact still) (serves.flight.trans idle) own] at ran
    cases ran
  by_cases running : (v.rt p.node).worker.state = .running
  · have worker := behind.worker
    rw [base_running running] at worker
    rcases worker with same | published
    · obtain ⟨w,node,next⟩ := serves_likewise lawful serves own ran apart same
      have changed := move_state lawful own ran
      rw [v.worker,v.worker,node,rt_setWorker lawful,same] at changed
      rcases changed with state | ⟨published,bakes,flight,still⟩
      · have after := behind_moved lawful running (state.trans running) behind key
        rw [←lawful.worker,←lawful.worker,←node] at after
        refine ⟨⟨k.setWorker p.node w,moved.1.bakes,moved.1.flight⟩,next,rfl,rfl,?_⟩
        show Along strict v moved.2 (k.setWorker p.node w) moved.1.node s.within
        rwa [within]
      · refine ⟨p,?_,bakes.trans serves.bakes,flight.trans serves.flight,?_⟩
        · show Serialized serial (fun _ _ => True) p moved.2
          rw [still]
          exact serves.serialized
        · show Along strict v moved.2 p.node moved.1.node s.within
          rw [within,still,node,lawful.worker]
          exact behind_published lawful behind (by rw [base_running running]; exact published)
    · exact absurd (published_idle serves.serialized published) (moves (published_still published))
  · have gone := behind_stopped serves.serialized behind running
    exact absurd gone.2 (moves gone.1)

theorem serves_own (lawful : Lawful v) (serves : Serves strict v serial s p) (own : ∀ act, m ≠ .main act)
    (ran : k.step s.part s.disk m = some moved)
    (apart : m ≠ .operation → ∀ q, s.part.Writes q → moved.2.read q = s.disk.read q)
    (steady : (∃ thrown, s.within = some (.find,thrown) ∨ s.within = some (.read,thrown)) →
      ∀ q, v.watched q → moved.2.present q = s.disk.present q) :
    ∃ p, Serves strict v serial {s with part := moved.1,disk := moved.2} p := by
  rcases Option.eq_none_or_eq_some s.within with within | ⟨⟨statement,thrown⟩,within⟩
  · exact serves_between lawful serves within own ran apart
  · refine serves_beside lawful serves within own ran apart (fun late => ?_)
    refine lawful.steady _ _ _ (steady ⟨thrown,?_⟩)
    rcases late with rfl | rfl
    · exact .inl within
    · exact .inr within

theorem serves_others (lawful : Lawful v) (serves : Serves strict v serial s p)
    (apart : ∀ q, s.part.Writes q → later.read q = s.disk.read q)
    (steady : (∃ thrown, s.within = some (.find,thrown) ∨ s.within = some (.read,thrown)) →
      ∀ q, v.watched q → later.present q = s.disk.present q) : Serves strict v serial {s with disk := later} p := by
  obtain ⟨served,bakes,flight,along⟩ := serves
  refine ⟨serialized_other (free serial) served later (fun q writes => apart q ?_),bakes,flight,?_⟩
  · rwa [Part.Writes,flight]
  · cases within : s.within with
    | none =>
      rw [within] at along
      exact along
    | some at_ =>
      obtain ⟨statement,thrown⟩ := at_
      rw [within] at along
      refine behind_disk along ?_
      intro late
      refine lawful.steady _ _ _ (steady ⟨thrown,?_⟩)
      rcases late with rfl | rfl
      · exact .inl within
      · exact .inr within

-- The other calls do the same to a node whatever progress it shows.
def Blind (strict : Prop) (v : Pieces k e) : Prop :=
  ∀ a b disk act moved, Shown strict v a b → k.main b disk act = some moved →
    (strict → (v.rt a).worker.state ≠ .idle ∧ (v.resets act → (v.rt a).worker.state.terminal = false)) →
    ∃ after, k.main a disk act = some (after,moved.2) ∧ Shown strict v after moved.1

theorem shown_idle (lawful : Lawful v) (shown : Shown strict v a b) (only : strict)
    (idle : (v.rt a).worker.state = .idle) : b = a := by
  have text : (v.rt b).statusText = (v.rt a).statusText :=
    shown.display.text.resolve_right (fun busy => busy.1 only idle)
  have shows : (v.rt b).progress = (v.rt a).progress := shown.display.progress.resolve_right (fun busy => busy only idle)
  have same : v.rt b = v.rt a := by
    refine shown.display.same.trans ?_
    rw [text,shows,shown.worker]
  exact shown.node.trans ((congrArg (v.setRt a) same).trans (lawful.setRt_rt a))

theorem serves_main (lawful : Lawful v) (blind : Blind strict v) (serves : Serves strict v serial s p)
    (outside : s.within = none) {act : Act} (ran : k.step s.part s.disk (.main act) = some moved)
    (noticed : strict → v.resets act → (v.rt s.part.node).worker.state.terminal = false)
    (apart : ∀ q, s.part.Writes q → moved.2.read q = s.disk.read q) :
    ∃ p, Serves strict v serial {s with part := moved.1,disk := moved.2} p := by
  obtain ⟨served,bakes,flight,along⟩ := serves
  rw [outside] at along
  obtain ⟨⟨node,after⟩,called,rfl⟩ := Option.map_eq_some_iff.mp ran
  have likewise : ∃ a, k.main p.node s.disk act = some (a,after) ∧ Shown strict v a node := by
    by_cases quiet : strict ∧ (v.rt p.node).worker.state = .idle
    · rw [←shown_idle lawful along quiet.1 quiet.2]
      exact ⟨node,called,(lawful.setRt_rt node).symm,.refl _ _,rfl⟩
    · refine blind _ _ _ _ _ along called (fun only => ⟨fun idle => quiet ⟨only,idle⟩,fun resets => ?_⟩)
      rw [←along.worker]
      exact noticed only resets
  obtain ⟨a,likewise,shown⟩ := likewise
  have calls : k.step p s.disk (.main act) = some (⟨a,p.bakes,p.flight⟩,after) := by
    simp only [Kind.step,likewise,Option.map_some]
  refine ⟨⟨a,p.bakes,p.flight⟩,?_,bakes,flight,?_⟩
  · refine serialized_own (free serial) served (fun _ _ => trivial) calls (fun q writes _ => apart q ?_)
    rwa [Part.Writes,flight]
  · show Along strict v after a node s.within
    rw [outside]
    exact shown

-- A call that ends where the second node is.
theorem serves_ended (lawful : Lawful v) (serves : Serves strict v serial s p) (thrown : Option Stop) (after : Node)
    {node : Node}
    (called : v.validated s.disk thrown p.node = after) (same : node = v.setRt after (v.rt node))
    (display : Display strict v.rounding (v.rt after) (v.rt node)) (ahead : Ahead (v.rt after).worker (v.rt node).worker) :
    ∃ p, Serves strict v serial (s.ended node) p := by
  have calls : k.main p.node s.disk (v.validate thrown) = some (after,s.disk) := by
    rw [lawful.validate,called]
  obtain ⟨a,served,shown⟩ := settle lawful serves.serialized calls same display ahead
  exact ⟨⟨a,p.bakes,p.flight⟩,served,serves.bakes,serves.flight,shown⟩

theorem serves_pause (serves : Serves strict v serial s p) {node : Node}
    (behind : Behind strict v s.disk p.node node statement thrown) :
    Serves strict v serial (s.pause node statement thrown) p :=
  ⟨serves.serialized,serves.bakes,serves.flight,behind⟩

-- Past poll_worker.
theorem serves_polled (lawful : Lawful v) (serves : Serves strict v serial s p) {node : Node}
    (passed : thrown ≠ some .beforePoll)
    (same : node = v.setRt (v.enter p.node) (v.rt node))
    (display : Display strict v.rounding ((v.rt p.node).pollWorker v.rounding v.stale) (v.rt node))
    (ahead : Ahead ((v.rt p.node).pollWorker v.rounding v.stale).worker (v.rt node).worker) :
    ∃ p, Serves strict v serial (s.afterPoll node thrown) p := by
  unfold Midway.afterPoll
  split
  · rename_i stops
    have rt : v.rt (v.polls (v.enter p.node)) = (v.rt p.node).pollWorker v.rounding v.stale := by
      rw [Pieces.polls,lawful.rt_setRt,rt_enter lawful]
    refine serves_ended lawful serves thrown (v.polls (v.enter p.node)) ?_ ?_ ?_ ?_
    · simp only [Pieces.validated,if_neg passed,if_pos stops]
    · rw [Pieces.polls,lawful.setRt_setRt]
      exact same
    · rwa [rt]
    · rwa [rt]
  · rename_i stays
    exact ⟨p,serves_pause serves ⟨same,display,ahead,⟨passed,stays⟩,nofun,nofun⟩⟩

theorem serves_begin (lawful : Lawful v) (serves : Serves strict v serial s p) (outside : s.within = none) :
    ∃ p, Serves strict v serial (s.begin v thrown) p := by
  have shown : Shown strict v p.node s.part.node := by
    have along := serves.along
    rwa [outside] at along
  have rt : v.rt (v.enter s.part.node) = v.rt s.part.node := rt_enter lawful _
  have entered : v.enter s.part.node = v.setRt (v.enter p.node) (v.rt s.part.node) :=
    (congrArg v.enter shown.node).trans (lawful.enter _ _)
  have worker : (v.rt s.part.node).worker = (v.rt p.node).worker := shown.worker
  unfold Midway.begin
  dsimp only
  split
  · rename_i stops
    refine serves_ended lawful serves thrown (v.enter p.node) ?_ ?_ ?_ ?_
    · simp only [Pieces.validated,if_pos stops]
    · rw [rt]
      exact entered
    · rw [rt,rt_enter lawful]
      exact shown.display
    · rw [rt,rt_enter lawful]
      exact .inl worker
  · rename_i passed
    split
    · rename_i running
      rw [rt,worker] at running
      refine ⟨p,serves_pause serves ⟨?_,?_,?_,passed,fun _ => running,nofun⟩⟩
      · rw [rt]
        exact entered
      · rw [rt]
        exact shown.display
      · rw [rt]
        exact .inl worker
    · have polled := display_poll v.stale shown.display worker
      have rts : v.rt (v.polls (v.enter s.part.node)) = (v.rt s.part.node).pollWorker v.rounding v.stale := by
        rw [Pieces.polls,lawful.rt_setRt,rt]
      refine serves_polled lawful serves passed ?_ ?_ ?_
      · rw [rts,Pieces.polls,rt]
        exact setRt_of lawful (by rw [rt]; exact entered) _
      · rw [rts]
        exact polled.1
      · rw [rts]
        exact .inl polled.2

theorem path_of (lawful : Lawful v) {c : Node} (node : b = v.setRt c (v.rt b)) (key : Bytes) : v.path b key = v.path c key :=
  (congrArg (fun node => v.path node key) node).trans (lawful.path _ _ _)

-- The buffer comes from what the node has on its runtime and the path.
theorem found_same (lawful : Lawful v) {c : Node} (node : b = v.setRt c (v.rt b)) (rt : Runtime T e)
    (cache : rt.cache = (v.rt b).cache) (key : rt.currentKey = (v.rt b).currentKey) :
    v.found disk (v.setRt c rt) = v.found disk b ∧ v.image disk (v.setRt c rt) = v.image disk b := by
  have path : v.path b (v.rt b).currentKey = v.path c (v.rt b).currentKey := path_of lawful node _
  have reads : v.reads disk b (v.rt b).currentKey (v.rt b).cache = v.reads disk c (v.rt b).currentKey (v.rt b).cache :=
    (congrArg (fun node => v.reads disk node (v.rt b).currentKey (v.rt b).cache) node).trans (lawful.reads _ _ _ _ _)
  constructor
  · simp only [Pieces.found,lawful.rt_setRt,lawful.path,cache,key,path]
  · simp only [Pieces.image,lawful.rt_setRt,lawful.reads,cache,key,reads]

theorem found_kept {cache : CacheBuffer e} (kept : v.kept (v.rt b).cache (v.rt b).currentKey = some cache) :
    v.found disk b = some cache := by
  unfold Pieces.found
  rw [kept]

theorem found_path (kept : v.kept (v.rt b).cache (v.rt b).currentKey = none) :
    v.found disk b = if v.path b (v.rt b).currentKey = [] then some (v.rt b).cache
      else if !fileExists disk (v.path b (v.rt b).currentKey) then some (v.missing (v.rt b).cache) else none := by
  unfold Pieces.found
  rw [kept]

theorem found_none (found : v.found disk b = none) :
    v.kept (v.rt b).cache (v.rt b).currentKey = none ∧ v.path b (v.rt b).currentKey ≠ [] := by
  cases kept : v.kept (v.rt b).cache (v.rt b).currentKey with
  | some cache =>
    rw [found_kept kept] at found
    cases found
  | none =>
    refine ⟨rfl,fun nowhere => ?_⟩
    rw [found_path kept,if_pos nowhere] at found
    cases found

-- A file that has gone since fs::exists reads like one that was not there.
theorem found_read (lawful : Lawful v) (kept : v.kept (v.rt b).cache (v.rt b).currentKey = none)
    (named : v.path b (v.rt b).currentKey ≠ []) : (v.found disk b).getD (v.image disk b) = v.image disk b := by
  rw [found_path kept,if_neg named]
  split
  · rename_i gone
    exact (lawful.unread disk b _ _ (by simpa using gone)).symm
  · rfl

theorem keyed_base (lawful : Lawful v) :
    v.keyed disk (v.polls (v.enter a)) = v.setRt (v.enter a) (base v disk a .find) := by
  rw [Pieces.keyed,Pieces.polls,lawful.rt_setRt,lawful.setRt_setRt,lawful.key,rt_enter lawful]
  rfl

theorem serves_keyed (lawful : Lawful v) (serves : Serves strict v serial s p)
    (behind : Behind strict v s.disk p.node s.part.node .key thrown) :
    ∃ p, Serves strict v serial (if thrown = some .beforeLoad then s.ended (v.keyed s.disk s.part.node)
      else s.pause (v.keyed s.disk s.part.node) .find thrown) p := by
  obtain ⟨passed,polls⟩ := behind.reaches
  have key : v.key s.disk s.part.node = v.key s.disk (v.enter p.node) :=
    (congrArg (v.key s.disk) behind.node).trans (lawful.key _ _ _)
  have rt : v.rt (v.keyed s.disk s.part.node) = {v.rt s.part.node with currentKey := v.key s.disk (v.enter p.node)} := by
    rw [Pieces.keyed,lawful.rt_setRt,key]
  have node : v.keyed s.disk s.part.node = v.setRt (v.enter p.node) (v.rt (v.keyed s.disk s.part.node)) := by
    rw [rt,Pieces.keyed,key]
    exact setRt_of lawful behind.node _
  have display : Display strict v.rounding (base v s.disk p.node .find) (v.rt (v.keyed s.disk s.part.node)) := by
    rw [rt]
    exact ⟨congrArg (fun rt : Runtime T e => {rt with currentKey := v.key s.disk (v.enter p.node)}) behind.display.same,
      behind.display.text,behind.display.progress⟩
  have ahead : Ahead (base v s.disk p.node .find).worker (v.rt (v.keyed s.disk s.part.node)).worker := by
    rw [rt]
    exact behind.worker
  split
  · rename_i stops
    have whole : v.validated s.disk thrown p.node = v.setRt (v.enter p.node) (base v s.disk p.node .find) := by
      simp only [Pieces.validated,if_neg passed,if_neg polls,if_pos stops,keyed_base lawful]
    refine serves_ended lawful serves thrown _ whole ?_ ?_ ?_
    · rw [lawful.setRt_setRt]
      exact node
    · rwa [lawful.rt_setRt]
    · rwa [lawful.rt_setRt]
  · rename_i stays
    exact ⟨p,serves_pause serves ⟨node,display,ahead,⟨passed,polls,stays⟩,nofun,nofun⟩⟩

-- The last statement, or fs::exists where there is no file.
theorem serves_loaded (lawful : Lawful v) (serves : Serves strict v serial s p)
    (behind : Behind strict v s.disk p.node s.part.node statement thrown) (late : statement = .find ∨ statement = .read)
    {cache : CacheBuffer e} (loads : (v.found s.disk s.part.node).getD (v.image s.disk s.part.node) = cache) :
    ∃ p, Serves strict v serial (s.ended (v.cached s.part.node cache)) p := by
  obtain ⟨open1,open2,open3⟩ : thrown ≠ some .beforePoll ∧ thrown ≠ some .beforeKey ∧ thrown ≠ some .beforeLoad := by
    rcases late with rfl | rfl <;> exact behind.reaches
  have based : base v s.disk p.node .find = base v s.disk p.node statement := by
    rcases late with rfl | rfl <;> rfl
  have display := behind.display
  have fields := display.same
  have sameCache : (base v s.disk p.node statement).cache = (v.rt s.part.node).cache := (congrArg Runtime.cache fields).symm
  have sameKey : (base v s.disk p.node statement).currentKey = (v.rt s.part.node).currentKey :=
    (congrArg Runtime.currentKey fields).symm
  have same := @found_same _ _ _ _ _ v s.disk _ lawful _ behind.node _ sameCache sameKey
  have whole : v.validated s.disk thrown p.node =
      v.setRt (v.enter p.node) {base v s.disk p.node statement with cache := cache} := by
    simp only [Pieces.validated,if_neg open1,if_neg open2,if_neg open3,keyed_base lawful,based,Pieces.loaded,same,loads,
      Pieces.cached,lawful.rt_setRt,lawful.setRt_setRt]
  refine serves_ended lawful serves thrown _ whole ?_ ?_ ?_
  · rw [Pieces.cached,lawful.rt_setRt,lawful.setRt_setRt]
    exact setRt_of lawful behind.node _
  · rw [Pieces.cached,lawful.rt_setRt,lawful.rt_setRt]
    exact ⟨congrArg (fun rt : Runtime T e => {rt with cache := cache}) display.same,display.text,display.progress⟩
  · rw [Pieces.cached,lawful.rt_setRt,lawful.rt_setRt]
    exact behind.worker

theorem serves_next (lawful : Lawful v) (serves : Serves strict v serial s p) {next : Midway Node T}
    (ran : s.next v = some next) :
    ∃ p, Serves strict v serial next p := by
  unfold Midway.next at ran
  dsimp only at ran
  cases within : s.within with
  | none =>
    rw [within] at ran
    cases ran
  | some at_ =>
    obtain ⟨statement,thrown⟩ := at_
    have behind : Behind strict v s.disk p.node s.part.node statement thrown := by
      have along := serves.along
      rwa [within] at along
    rw [within] at ran
    cases statement with
    | progress =>
      cases ran
      have running := behind.running rfl
      have polled := @Runtime.poll_running _ _ v.rounding v.stale _ running
      have busy : (v.rt p.node).worker.state ≠ .idle := by rw [running]; nofun
      refine serves_polled lawful serves behind.reaches ?_ ?_ ?_
      · rw [lawful.rt_setRt]
        exact setRt_of lawful behind.node _
      · rw [lawful.rt_setRt,polled]
        refine ⟨?_,.inr ⟨fun _ => busy,⟨_,rfl⟩,⟨_,rfl⟩⟩,.inr (fun _ => busy)⟩
        exact congrArg (fun rt : Runtime T e => (rt.setProgress (v.rt s.part.node).worker.context.progress).setStatus
          (Runtime.cookingText v.rounding (v.rt s.part.node).worker.context.progress)) behind.display.same
      · rw [lawful.rt_setRt,polled]
        exact behind.worker
    | key =>
      have keyed := serves_keyed lawful serves behind
      dsimp only at ran
      split at ran
      · rename_i stops
        cases ran
        rwa [if_pos stops] at keyed
      · rename_i stays
        cases ran
        rwa [if_neg stays] at keyed
    | find =>
      dsimp only at ran
      split at ran
      · rename_i cache found
        cases ran
        exact serves_loaded lawful serves behind (.inl rfl) (by rw [found,Option.getD_some])
      · rename_i found
        cases ran
        obtain ⟨node,display,ahead,reaches,_,_⟩ := behind
        refine ⟨p,serves_pause serves ⟨node,display,ahead,reaches,nofun,fun _ => ?_⟩⟩
        rw [←path_of lawful node]
        exact found_none found
    | read =>
      cases ran
      refine serves_loaded lawful serves behind (.inr rfl) ?_
      have passes := behind.passes rfl
      rw [←path_of lawful behind.node] at passes
      exact found_read lawful passes.1 passes.2

theorem step_move (own : ∀ act, m ≠ .main act) : Midway.step v s (.move m) =
    (k.step s.part s.disk m).map (fun moved => {s with part := moved.1,disk := moved.2}) := by
  cases m with
  | main act => exact absurd rfl (own act)
  | work _ | enter _ | operation | leave => rfl

theorem serves_step (lawful : Lawful v) (blind : Blind strict v) (serves : Serves strict v serial s p) {turn : Turn Act}
    {next : Midway Node T} (undisturbed : Undisturbed strict v s turn) (ran : Midway.step v s turn = some next) :
    ∃ p, Serves strict v serial next p := by
  cases turn with
  | move m =>
    by_cases main : ∃ act, m = .main act
    · obtain ⟨act,rfl⟩ := main
      have called := ran
      simp only [Midway.step] at called
      split at called
      · cases called
      · rename_i outside
        obtain ⟨moved,made,rfl⟩ := Option.map_eq_some_iff.mp called
        exact serves_main lawful blind serves (Option.not_isSome_iff_eq_none.mp outside) made
          (fun only resets => undisturbed.noticed only _ rfl resets) (fun q writes => undisturbed.apart _ ran nofun q writes)
    · have own (act : Act) : m ≠ .main act := fun same => main ⟨act,same⟩
      have called := ran
      rw [step_move own] at called
      obtain ⟨moved,made,rfl⟩ := Option.map_eq_some_iff.mp called
      refine serves_own lawful serves own made (fun other q writes => ?_) (undisturbed.steady _ ran)
      exact undisturbed.apart _ ran (fun same => other (Turn.move.inj same)) q writes
  | others later =>
    cases ran
    exact ⟨p,serves_others lawful serves (undisturbed.apart _ rfl nofun) (undisturbed.steady _ rfl)⟩
  | validate thrown =>
    simp only [Midway.step] at ran
    split at ran
    · cases ran
    · rename_i outside
      cases ran
      exact serves_begin lawful serves (Option.not_isSome_iff_eq_none.mp outside)
  | next => exact serves_next lawful serves ran

theorem stepwise_serves (lawful : Lawful v) (blind : Blind strict v) (unused : k.worker k.fresh = AiWorker.fresh)
    (path : Guarded (stepwise v) (Undisturbed strict v) s) : ∃ p, Serves strict v serial s p := by
  apply Guarded.keeps (fun s => ∃ p, Serves strict v serial s p) path
  · rintro ⟨part,disk,within⟩ ⟨rfl,rfl⟩
    exact ⟨_,serialized_begins unused disk,rfl,rfl,(lawful.setRt_rt _).symm,.refl _ _,rfl⟩
  · rintro s turn next ⟨p,serves⟩ undisturbed ran
    exact serves_step lawful blind serves undisturbed ran

theorem shown_rt (lawful : Lawful v) (shown : Shown strict v a b) {x y : Runtime T e} (display : Display strict v.rounding x y)
    (worker : y.worker = x.worker) : Shown strict v (v.setRt a x) (v.setRt b y) := by
  refine ⟨?_,?_,?_⟩
  · rw [lawful.rt_setRt,lawful.setRt_setRt]
    exact setRt_of lawful shown.node _
  · rw [lawful.rt_setRt,lawful.rt_setRt]
    exact display
  · rw [lawful.rt_setRt,lawful.rt_setRt]
    exact worker

theorem shown_cached (lawful : Lawful v) (shown : Shown strict v a b) (cache : CacheBuffer e) :
    Shown strict v (v.cached a cache) (v.cached b cache) :=
  shown_rt lawful shown ⟨congrArg (fun rt : Runtime T e => {rt with cache := cache}) shown.display.same,shown.display.text,
    shown.display.progress⟩ shown.worker

theorem shown_loaded (lawful : Lawful v) (shown : Shown strict v a b) :
    Shown strict v (v.loaded disk a) (v.loaded disk b) := by
  have same := @found_same _ _ _ _ _ v disk _ lawful _ shown.node (v.rt a)
    (congrArg Runtime.cache shown.display.same).symm (congrArg Runtime.currentKey shown.display.same).symm
  rw [lawful.setRt_rt] at same
  rw [Pieces.loaded,Pieces.loaded,same.1,same.2]
  exact shown_cached lawful shown _

theorem shown_validated (lawful : Lawful v) (disk : Files) (shown : Shown strict v a b) (thrown : Option Stop) :
    Shown strict v (v.validated disk thrown a) (v.validated disk thrown b) := by
  have entered : Shown strict v (v.enter a) (v.enter b) := by
    refine ⟨?_,?_,?_⟩
    · rw [rt_enter lawful]
      exact (congrArg v.enter shown.node).trans (lawful.enter _ _)
    · rw [rt_enter lawful,rt_enter lawful]
      exact shown.display
    · rw [rt_enter lawful,rt_enter lawful]
      exact shown.worker
  have display := display_poll v.stale entered.display entered.worker
  have polled : Shown strict v (v.polls (v.enter a)) (v.polls (v.enter b)) := shown_rt lawful entered display.1 display.2
  have key : v.key disk (v.polls (v.enter b)) = v.key disk (v.polls (v.enter a)) :=
    (congrArg (v.key disk) polled.node).trans (lawful.key _ _ _)
  have keyed : Shown strict v (v.keyed disk (v.polls (v.enter a))) (v.keyed disk (v.polls (v.enter b))) := by
    refine shown_rt lawful polled ⟨?_,polled.display.text,polled.display.progress⟩ polled.worker
    rw [key]
    exact congrArg (fun rt : Runtime T e => {rt with currentKey := v.key disk (v.polls (v.enter a))}) polled.display.same
  unfold Pieces.validated
  dsimp only
  split
  · exact entered
  · split
    · exact polled
    · split
      · exact keyed
      · exact shown_loaded lawful keyed

end Relation

end SmartFill.ValidateSteps
