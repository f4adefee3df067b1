import SmartFill.Delivery
import SmartFill.GraphFiles

namespace SmartFill.Graph
open Transition Parallel

section Kinds
variable {Node T Act : Type} {k : Kind Node T Act} {extension : Bytes} {r : Rounding}
  {stale : CacheBuffer extension → Bytes → Bool} {ok : BakeJob T → Prop} {p : Part Node T} {disk : Files}
  {moved : Part Node T × Files} {a : Move Act}

-- An Op as menu.py has to do with it: _validate polls the worker unless it
-- throws before it comes to that.
structure Polls (k : Kind Node T Act) (extension : Bytes) where
  rt : Node → Runtime T extension
  rounding : Rounding
  stale : CacheBuffer extension → Bytes → Bool
  validate : Option Stop → Act
  worker : ∀ node, k.worker node = (rt node).worker
  setWorker : ∀ node w, rt (k.setWorker node w) = {rt node with worker := w}
  missed : ∀ {node disk moved}, k.main node disk (validate (some .beforePoll)) = some moved → rt moved.1 = rt node
  polled : ∀ {node disk thrown moved}, k.main node disk (validate thrown) = some moved → thrown ≠ some .beforePoll →
    Runtime.Quiet ((rt node).pollWorker rounding stale) (rt moved.1)

-- The status an ended bake leaves.
def endText {R : Type} (w : AiWorker R) : Bytes :=
  match w.state with
  | .done => ascii "Ready"
  | .error => (ascii "Error: " ++ w.errorMessage).take 80
  | .cancelled => ascii "Cancelled"
  | .idle | .running => []

structure Told (before after : Runtime T extension) : Prop where
  worker : after.worker = before.worker.reset
  bakingKey : after.bakingKey = []
  statusText : after.statusText = endText before.worker

-- What a round has made of a node it has been to, and what it still finds when
-- it gets there.
structure Seen (r : Rounding) (before after : Runtime T extension) : Prop where
  ended : before.worker.state.terminal = true → Told before after
  running : before.worker.state = .running → (after.worker.state = .idle ∧ after.bakingKey = []) ∨
    (after.worker.state ≠ .idle ∧ ∃ progress, after.statusText = Runtime.cookingText r progress)

structure Unseen (before after : Runtime T extension) : Prop where
  ended : before.worker.state.terminal = true → after = before
  running : before.worker.state = .running → after.worker.state ≠ .idle

variable {first before after : Runtime T extension}

theorem terminal_busy {s : AiWorkerState} (terminal : s.terminal = true) : s ≠ .idle ∧ s ≠ .running := by
  cases s <;> cases terminal <;> exact ⟨nofun,nofun⟩

theorem told_poll (terminal : before.worker.state.terminal = true) : Told before (before.pollWorker r stale) := by
  have reset : (before.pollWorker r stale).worker = before.worker.reset ∧ (before.pollWorker r stale).bakingKey = [] :=
    Runtime.poll_terminal terminal
  refine ⟨reset.1,reset.2,?_⟩
  cases state : before.worker.state with
  | idle | running =>
    rw [state] at terminal
    cases terminal
  | done | error | cancelled => simp only [Runtime.pollWorker,state,endText,Runtime.setStatus,Runtime.setProgress]

theorem told_quiet (told : Told first before) (quiet : Runtime.Quiet before after) : Told first after :=
  ⟨quiet.worker.trans told.worker,quiet.bakingKey.trans told.bakingKey,quiet.statusText.trans told.statusText⟩

theorem told_idle (terminal : first.worker.state.terminal = true) (told : Told first after) : after.worker.state = .idle := by
  rw [told.worker]
  exact AiWorker.reset_idle (terminal_busy terminal).2

-- poll_worker of a worker that is not idle.
theorem polled_busy (busy : before.worker.state ≠ .idle) (quiet : Runtime.Quiet (before.pollWorker r stale) after) :
    (after.worker.state = .idle ∧ after.bakingKey = []) ∨
      (after.worker.state ≠ .idle ∧ ∃ progress, after.statusText = Runtime.cookingText r progress) := by
  by_cases running : before.worker.state = .running
  · rw [Runtime.poll_running running] at quiet
    refine .inr ⟨?_,_,quiet.statusText⟩
    rw [quiet.worker]
    exact busy
  · have terminal := AiWorker.terminal_of busy running
    have told := told_quiet (told_poll terminal) quiet
    exact .inl ⟨told_idle terminal told,told.bakingKey⟩

theorem unseen_polled (unseen : Unseen first before) (quiet : Runtime.Quiet (before.pollWorker r stale) after) :
    Seen r first after := by
  refine ⟨fun terminal => ?_,fun running => polled_busy (unseen.running running) quiet⟩
  rw [unseen.ended terminal] at quiet
  exact told_quiet (told_poll terminal) quiet

theorem seen_polled (seen : Seen r first before) (quiet : Runtime.Quiet (before.pollWorker r stale) after) :
    Seen r first after := by
  constructor
  · intro terminal
    have told := seen.ended terminal
    rw [Runtime.poll_idle (told_idle terminal told)] at quiet
    exact told_quiet told quiet
  · intro running
    rcases seen.running running with ⟨idle,cleared⟩ | ⟨busy,_⟩
    · rw [Runtime.poll_idle idle] at quiet
      refine .inl ⟨?_,quiet.bakingKey.trans cleared⟩
      rw [quiet.worker]
      exact idle
    · exact polled_busy busy quiet

-- A worker thread that moves is one of a bake under way.
theorem beside_moved (polls : Polls k extension) (crewed : Crewed k ok p) (moves : Moved k p disk a moved)
    (off : ∀ act, a ≠ .main act) : (polls.rt p.node).worker.state = .running ∧
      ∃ w, polls.rt moved.1.node = {polls.rt p.node with worker := w} ∧ w.state ≠ .idle := by
  have coherent := crewed.carries.coherent
  rw [polls.worker] at coherent
  have flying : ∀ f, Flying k p.node f → (polls.rt p.node).worker.state = .running := by
    intro f flying
    have thread := flying.thread
    rw [polls.worker] at thread
    exact running_of_body coherent thread
  cases moves with
  | called _ => exact absurd rfl (off _)
  | worked idle worked =>
    rw [polls.worker] at worked
    have kept := workStep_worked coherent worked
    exact ⟨kept.busy,_,polls.setWorker _ _,kept.still⟩
  | entered idle unmade flies =>
    have running := flying _ flies
    exact ⟨running,_,rfl,by rw [running]; decide⟩
  | operated flies found =>
    have running := flying _ (crewed.flying _ flies)
    exact ⟨running,_,rfl,by rw [running]; decide⟩
  | left flies over_ =>
    have running := flying _ (crewed.flying _ flies)
    refine ⟨running,_,polls.setWorker _ _,?_⟩
    rw [polls.worker]
    show (polls.rt p.node).worker.state ≠ .idle
    rw [running]
    decide

theorem beside_seen (polls : Polls k extension) (crewed : Crewed k ok p) (moves : Moved k p disk a moved)
    (off : ∀ act, a ≠ .main act) :
    (Unseen first (polls.rt p.node) → Unseen first (polls.rt moved.1.node)) ∧
      (Seen r first (polls.rt p.node) → Seen r first (polls.rt moved.1.node)) := by
  obtain ⟨running,w,became,busy⟩ := beside_moved polls crewed moves off
  rw [became]
  constructor
  · intro unseen
    refine ⟨fun terminal => ?_,fun _ => busy⟩
    rw [unseen.ended terminal] at running
    exact absurd running (terminal_busy terminal).2
  · intro seen
    constructor
    · intro terminal
      have idle := told_idle terminal (seen.ended terminal)
      rw [running] at idle
      cases idle
    · intro was
      rcases seen.running was with ⟨idle,_⟩ | ⟨_,said⟩
      · rw [running] at idle
        cases idle
      · exact .inr ⟨busy,said⟩

theorem beside_announced (polls : Polls k extension) (crewed : Crewed k ok p) (next : Crewed k ok moved.1)
    (moves : Moved k p disk a moved) (off : ∀ act, a ≠ .main act) (announced : (polls.rt p.node).Announced) :
    (polls.rt moved.1.node).Announced := by
  obtain ⟨running,w,became,busy⟩ := beside_moved polls crewed moves off
  have coherent := next.carries.coherent
  rw [polls.worker] at coherent
  refine ⟨coherent,fun _ => ?_⟩
  rw [became]
  exact announced.2 (by rw [running]; decide)

theorem visit_seen (polls : Polls k extension) {thrown : Option Stop}
    (ran : k.step p disk (.main (polls.validate thrown)) = some moved) :
    (Seen polls.rounding first (polls.rt p.node) → Seen polls.rounding first (polls.rt moved.1.node)) ∧
      (Unseen first (polls.rt p.node) → if thrown = some .beforePoll then Unseen first (polls.rt moved.1.node)
        else Seen polls.rounding first (polls.rt moved.1.node)) := by
  obtain ⟨called⟩ := step_moved ran
  by_cases missed : thrown = some .beforePoll
  · subst missed
    rw [if_pos rfl,polls.missed called]
    exact ⟨id,id⟩
  · rw [if_neg missed]
    exact ⟨fun seen => seen_polled seen (polls.polled called missed),
      fun waits => unseen_polled waits (polls.polled called missed)⟩

-- A visit that found nothing to do, in a script whose bakes are all announced.
theorem unseen_passed (announced : before.Announced) (silent : MenuPoll.isActive before.statusText = false)
    (unseen : Unseen first before) : Seen r first before := by
  have idle : before.worker.state = .idle := by
    by_contra busy
    rw [announced.2 busy] at silent
    cases silent
  constructor
  · intro terminal
    rw [unseen.ended terminal] at idle
    exact absurd idle (terminal_busy terminal).1
  · intro running
    exact absurd idle (unseen.running running)

end Kinds

-- A press meanwhile leaves the status that announces a bake under way, or puts
-- up another that does.
def Heard {ι κ : Type} (generate : κ → AIGenerate.Host) (s : State ι κ) : (Σ p : Party ι κ, Act p) → Prop
  | ⟨.fill i,(.main act : Move AISmartFill.Action)⟩ => Delivery.FillKeepsText (fillView s i) act
  | ⟨.generate i,(.main act : Move AIGenerate.Action)⟩ => Delivery.GenerateKeepsText (generate i) (generateView s i) act
  | _ => True

def onMain {ι κ : Type} : ∀ p : Party ι κ, Act p → Bool
  | .fill _,(.main _ : Move AISmartFill.Action) => true
  | .generate _,(.main _ : Move AIGenerate.Action) => true
  | _,_ => false

-- What _poll_step of scripts/menu.py does about one of nuke.allNodes(), if its
-- class is a managed one and its status is active: cook_revision is bumped, so
-- that Nuke does run _validate, and what that throws is dropped.
def forceValidate {ι κ : Type} : ∀ p : Party ι κ, Local p → Option Stop → Option (Act p)
  | .fill _,(l : Part AISmartFill.Node AISmartFill.FillTask),thrown =>
    if MenuPoll.isActive l.node.rt.statusText then some (Move.main (.validate thrown) : Move AISmartFill.Action) else none
  | .generate _,(l : Part AIGenerate.Node AIGenerate.SdJob),thrown =>
    if MenuPoll.isActive l.node.rt.statusText then some (Move.main (.validate thrown) : Move AIGenerate.Action) else none
  | .outside,_,_ => none

structure Round (ι κ : Type) where
  script : State ι κ
  todo : List (Party ι κ × Option Stop)

inductive Beat (ι κ : Type) where
  | visit
  | beside (act : Σ p : Party ι κ, Act p)

section Beats
variable {ι κ : Type} {generate : κ → AIGenerate.Host} {s : State ι κ}

theorem heard_free {act : Σ p : Party ι κ, Act p} (off : onMain act.1 act.2 = false) : Heard generate s act := by
  obtain ⟨_ | _ | _,act⟩ := act
  · cases act <;> first | exact trivial | cases off
  · cases act <;> first | exact trivial | cases off
  · exact trivial

theorem heard_visit {p : Party ι κ} {thrown : Option Stop} {act : Act p}
    (visits : forceValidate p (s.locals p) thrown = some act) : Heard generate s ⟨p,act⟩ := by
  cases p with
  | fill i =>
    simp only [forceValidate] at visits
    split at visits <;> cases visits
    exact trivial
  | generate i =>
    simp only [forceValidate] at visits
    split at visits <;> cases visits
    exact trivial
  | outside => cases visits

end Beats

section System
variable {ι κ : Type} [DecidableEq ι] [DecidableEq κ]

-- _poll_step holds the main thread from its first node to its last; the worker
-- threads and other programs go on beside it.
def pollStep (fill : ι → AISmartFill.Host) (generate : κ → AIGenerate.Host) (start : Files → Prop) :
    System (Round ι κ) (Beat ι κ) where
  initial r := Guarded (graph fill generate start) (Heard generate) r.script
  step r
  | .visit =>
    match r.todo with
    | [] => none
    | (p,thrown) :: rest =>
      match forceValidate p (r.script.locals p) thrown with
      | none => some ⟨r.script,rest⟩
      | some act => ((graph fill generate start).step r.script ⟨p,act⟩).map (⟨·,rest⟩)
  | .beside act =>
    if onMain act.1 act.2 then none else ((graph fill generate start).step r.script act).map (⟨·,r.todo⟩)

variable {fill : ι → AISmartFill.Host} {generate : κ → AIGenerate.Host} {start : Files → Prop}

theorem pollStep_cases {r next : Round ι κ} {beat : Beat ι κ} (ran : (pollStep fill generate start).step r beat = some next) :
    (∃ p thrown rest, r.todo = (p,thrown) :: rest ∧ next.todo = rest ∧
      ((forceValidate p (r.script.locals p) thrown = none ∧ next.script = r.script) ∨
        ∃ act, forceValidate p (r.script.locals p) thrown = some act ∧
          (graph fill generate start).step r.script ⟨p,act⟩ = some next.script)) ∨
    ∃ act, onMain act.1 act.2 = false ∧ next.todo = r.todo ∧
      (graph fill generate start).step r.script act = some next.script := by
  obtain ⟨script,todo⟩ := r
  cases beat with
  | visit =>
    refine .inl ?_
    rcases todo with _ | ⟨⟨p,thrown⟩,rest⟩
    · cases ran
    · refine ⟨p,thrown,rest,rfl,?_⟩
      simp only [pollStep] at ran
      split at ran
      · rename_i silent
        cases ran
        exact ⟨rfl,.inl ⟨silent,rfl⟩⟩
      · rename_i act active
        obtain ⟨later,moved,rfl⟩ := Option.map_eq_some_iff.mp ran
        exact ⟨rfl,.inr ⟨act,active,moved⟩⟩
  | beside act =>
    refine .inr ⟨act,?_⟩
    simp only [pollStep] at ran
    split at ran
    · cases ran
    · rename_i off
      obtain ⟨later,moved,rfl⟩ := Option.map_eq_some_iff.mp ran
      exact ⟨by simpa using off,rfl,moved⟩

theorem pollStep_heard {r next : Round ι κ} {beat : Beat ι κ}
    (path : Guarded (graph fill generate start) (Heard generate) r.script)
    (ran : (pollStep fill generate start).step r beat = some next) :
    Guarded (graph fill generate start) (Heard generate) next.script := by
  rcases pollStep_cases ran with ⟨p,thrown,rest,_,_,⟨_,same⟩ | ⟨act,visits,moved⟩⟩ | ⟨act,off,_,moved⟩
  · exact same ▸ path
  · exact path.act _ (heard_visit visits) moved
  · exact path.act _ (heard_free off) moved

-- What a round means for one party: what it still finds there, and what it
-- leaves.
structure Watched (fill : ι → AISmartFill.Host) (generate : κ → AIGenerate.Host) (start : Files → Prop) (p : Party ι κ)
    (unseen seen : Local p → Prop) : Prop where
  beside : ∀ s a moved, Guarded (graph fill generate start) (Heard generate) s → onMain p a = false →
    (component fill generate p).step (s.locals p) s.store a = some moved →
    (unseen (s.locals p) → unseen moved.1) ∧ (seen (s.locals p) → seen moved.1)
  passed : ∀ s thrown, Guarded (graph fill generate start) (Heard generate) s →
    forceValidate p (s.locals p) thrown = none → unseen (s.locals p) → seen (s.locals p)
  visited : ∀ (s : State ι κ) thrown act moved, forceValidate p (s.locals p) thrown = some act →
    (component fill generate p).step (s.locals p) s.store act = some moved →
    (seen (s.locals p) → seen moved.1) ∧
      (unseen (s.locals p) → if thrown = some .beforePoll then unseen moved.1 else seen moved.1)

section Rule
variable {p : Party ι κ} {unseen seen : Local p → Prop} {thrown : Option Stop} {r next : Round ι κ} {beat : Beat ι κ}

def Phase (unseen seen : Local p → Prop) (thrown : Option Stop) (r : Round ι κ) : Prop :=
  seen (r.script.locals p) ∨ ((p,thrown) ∈ r.todo ∧ unseen (r.script.locals p))

theorem watched_beat (watched : Watched fill generate start p unseen seen) (reaches : thrown ≠ some .beforePoll)
    (path : Guarded (graph fill generate start) (Heard generate) r.script) (phase : Phase unseen seen thrown r)
    (ran : (pollStep fill generate start).step r beat = some next) : Phase unseen seen thrown next := by
  obtain ⟨later,todo⟩ := next
  rcases pollStep_cases ran with ⟨q,thrown',rest,was,left,visit⟩ | ⟨⟨q,a⟩,off,left,moved⟩
  · cases left
    rw [Phase,was,List.mem_cons] at phase
    by_cases here : q = p
    · subst here
      rcases visit with ⟨silent,rfl⟩ | ⟨act,visits,moved⟩
      · refine .inl (phase.elim id ?_)
        exact fun waits => watched.passed _ _ path silent waits.2
      · obtain ⟨moved,step,same⟩ := together_step moved
        have became : later.locals q = moved.1 := (congrArg (·.locals q) same).trans (Function.update_self ..)
        obtain ⟨again,first⟩ := watched.visited _ _ _ _ visits step
        simp only [Phase,became]
        rcases phase with done | ⟨listed,waits⟩
        · exact .inl (again done)
        · by_cases missed : thrown' = some .beforePoll
          · have waiting := first waits
            rw [if_pos missed] at waiting
            refine .inr ⟨listed.resolve_left ?_,waiting⟩
            intro same
            cases same
            exact reaches missed
          · have done := first waits
            rw [if_neg missed] at done
            exact .inl done
    · have same : later.locals p = r.script.locals p := by
        rcases visit with ⟨_,rfl⟩ | ⟨act,_,moved⟩
        · rfl
        · obtain ⟨moved,_,rfl⟩ := together_step moved
          exact Function.update_of_ne (Ne.symm here) ..
      simp only [Phase,same]
      refine phase.imp_right (And.imp_left ?_)
      intro listed
      refine listed.resolve_left ?_
      intro same
      cases same
      exact here rfl
  · cases left
    obtain ⟨moved,step,same⟩ := together_step moved
    by_cases here : q = p
    · subst here
      have became : later.locals q = moved.1 := (congrArg (·.locals q) same).trans (Function.update_self ..)
      obtain ⟨waiting,done⟩ := watched.beside _ _ _ path off step
      simp only [Phase,became]
      exact phase.imp done (And.imp_right waiting)
    · have kept : later.locals p = r.script.locals p :=
        (congrArg (·.locals p) same).trans (Function.update_of_ne (Ne.symm here) ..)
      simp only [Phase,kept]
      exact phase

theorem round_watched {s later : State ι κ} {todo : List (Party ι κ × Option Stop)}
    (watched : Watched fill generate start p unseen seen) (path : Guarded (graph fill generate start) (Heard generate) s)
    (leads : Leads (pollStep fill generate start) ⟨s,todo⟩ ⟨later,[]⟩) (listed : (p,thrown) ∈ todo)
    (reaches : thrown ≠ some .beforePoll) (waits : unseen (s.locals p)) : seen (later.locals p) := by
  have held : Guarded (graph fill generate start) (Heard generate) later ∧ Phase unseen seen thrown ⟨later,[]⟩ := by
    apply Leads.keeps (fun r => Guarded (graph fill generate start) (Heard generate) r.script ∧
      Phase unseen seen thrown r) leads ⟨path,.inr ⟨listed,waits⟩⟩
    intro r beat next held ran
    exact ⟨pollStep_heard held.1 ran,watched_beat watched reaches held.1 held.2 ran⟩
  exact held.2.resolve_right (fun left => nomatch left.1)

theorem round_still {s later : State ι κ} {todo left : List (Party ι κ × Option Stop)}
    (path : Guarded (graph fill generate start) (Heard generate) s)
    (leads : Leads (pollStep fill generate start) ⟨s,todo⟩ ⟨later,left⟩)
    (silent : ∀ thrown, forceValidate p (s.locals p) thrown = none)
    (resting : ∀ now a moved, Guarded (graph fill generate start) (Heard generate) now → now.locals p = s.locals p →
      onMain p a = false → (component fill generate p).step (now.locals p) now.store a ≠ some moved) :
    later.locals p = s.locals p := by
  have held : Guarded (graph fill generate start) (Heard generate) later ∧ later.locals p = s.locals p := by
    apply Leads.keeps (fun r => Guarded (graph fill generate start) (Heard generate) r.script ∧
      r.script.locals p = s.locals p) leads ⟨path,rfl⟩
    intro r beat next held ran
    refine ⟨pollStep_heard held.1 ran,?_⟩
    rcases pollStep_cases ran with ⟨q,thrown,rest,_,_,⟨_,same⟩ | ⟨act,visits,moved⟩⟩ | ⟨⟨q,a⟩,off,_,moved⟩
    · rw [same]
      exact held.2
    all_goals
      obtain ⟨moved,step,same⟩ := together_step moved
      refine Eq.trans ?_ held.2
      rw [same]
      by_cases here : q = p
      · subst here
        first
        | rw [held.2,silent] at visits; cases visits
        | exact absurd step (resting _ _ _ held.1 held.2 off)
      · exact Function.update_of_ne (Ne.symm here) ..
  exact held.2

end Rule

section Kinds
variable {i : ι} {g : κ} {host : AISmartFill.Host} {generator : AIGenerate.Host} {s later : State ι κ}

theorem fill_polled {disk : Files} {thrown : Option Stop} (reaches : thrown ≠ some .beforePoll) (node : AISmartFill.Node) :
    Runtime.Quiet (node.rt.pollWorker host.rounding AISmartFill.stale) (AISmartFill.validate host disk thrown node).rt := by
  unfold AISmartFill.validate
  dsimp only
  rw [if_neg reaches]
  split
  · exact ⟨⟨rfl,rfl⟩,rfl⟩
  · split <;> exact ⟨⟨rfl,rfl⟩,rfl⟩

theorem generate_polled {disk : Files} {thrown : Option Stop} (reaches : thrown ≠ some .beforePoll)
    (node : AIGenerate.Node) : Runtime.Quiet (node.rt.pollWorker generator.rounding AIGenerate.stale)
      (AIGenerate.validate generator disk thrown node).rt := by
  unfold AIGenerate.validate
  dsimp only
  rw [if_neg reaches]
  split
  · exact ⟨⟨rfl,rfl⟩,rfl⟩
  · split <;> exact ⟨⟨rfl,rfl⟩,rfl⟩

def fillPolls (host : AISmartFill.Host) : Polls (fillKind host) AISmartFill.extension where
  rt node := node.rt
  rounding := host.rounding
  stale := AISmartFill.stale
  validate := .validate
  worker _ := rfl
  setWorker _ _ := rfl
  missed called := by cases called; rfl
  polled called reaches := by cases called; exact fill_polled reaches _

def generatePolls (host : AIGenerate.Host) : Polls (generateKind host) AIGenerate.extension where
  rt node := node.rt
  rounding := host.rounding
  stale := AIGenerate.stale
  validate := .validate
  worker _ := rfl
  setWorker _ _ := rfl
  missed called := by cases called; rfl
  polled called reaches := by cases called; exact generate_polled reaches _

theorem fill_crew (path : Guarded (graph fill generate start) (Heard generate) s) :
    Crewed (fillKind (fill i)) (fun _ => True) (fillPart s i) := fill_crewed (fun _ _ _ _ _ => trivial) path

theorem generate_crew (path : Guarded (graph fill generate start) (Heard generate) s) :
    Crewed (generateKind (generate g)) (fun _ => True) (generatePart s g) :=
  generate_crewed (fun _ _ _ _ _ => trivial) path

theorem fill_announced_move {p : Part AISmartFill.Node AISmartFill.FillTask} {disk : Files}
    {moved : Part AISmartFill.Node AISmartFill.FillTask × Files} {a : Move AISmartFill.Action}
    (crewed : Crewed (fillKind host) (fun _ => True) p) (moves : Moved (fillKind host) p disk a moved)
    (permits : ∀ act, a = .main act → Delivery.FillKeepsText ⟨p.node,disk,p.bakes⟩ act)
    (announced : p.node.rt.Announced) : moved.1.node.rt.Announced := by
  have next := crewed_step (fillSerial host) crewed (fun _ _ _ _ => trivial) moves
  cases a with
  | main act =>
    obtain ⟨called⟩ := moves
    exact Delivery.fill_announced_step announced (permits act rfl) (fill_mains p.bakes called)
  | work _ | enter _ | operation | leave => exact beside_announced (fillPolls host) crewed next moves (by simp) announced

theorem generate_announced_move {p : Part AIGenerate.Node AIGenerate.SdJob} {disk : Files}
    {moved : Part AIGenerate.Node AIGenerate.SdJob × Files} {a : Move AIGenerate.Action}
    (crewed : Crewed (generateKind generator) (fun _ => True) p) (moves : Moved (generateKind generator) p disk a moved)
    (permits : ∀ act, a = .main act → Delivery.GenerateKeepsText generator ⟨p.node,disk,p.bakes⟩ act)
    (announced : p.node.rt.Announced) : moved.1.node.rt.Announced := by
  have next := crewed_step (generateSerial generator) crewed (fun _ _ _ _ => trivial) moves
  cases a with
  | main act =>
    obtain ⟨called⟩ := moves
    exact Delivery.generate_announced_step announced (permits act rfl) (generate_mains p.bakes called)
  | work _ | enter _ | operation | leave =>
    exact beside_announced (generatePolls generator) crewed next moves (by simp) announced

theorem fill_announced (path : Guarded (graph fill generate start) (Heard generate) s) :
    (fillPart s i).node.rt.Announced := by
  apply together_keeps (.fill i)
    (fun (p : Part AISmartFill.Node AISmartFill.FillTask) _ => p.node.rt.Announced) path
  · rintro l store rfl _
    exact Runtime.announced_fresh _
  · intro s a moved path before permits ran
    refine fill_announced_move (fill_crew path) (step_moved ran) ?_ before
    rintro act rfl
    exact permits
  · intro s j a moved _ before _ _
    exact before

theorem generate_announced (path : Guarded (graph fill generate start) (Heard generate) s) :
    (generatePart s g).node.rt.Announced := by
  apply together_keeps (.generate g)
    (fun (p : Part AIGenerate.Node AIGenerate.SdJob) _ => p.node.rt.Announced) path
  · rintro l store rfl _
    exact Runtime.announced_fresh _
  · intro s a moved path before permits ran
    refine generate_announced_move (generate_crew path) (step_moved ran) ?_ before
    rintro act rfl
    exact permits
  · intro s j a moved _ before _ _
    exact before

theorem fill_watched (first : Runtime AISmartFill.FillTask AISmartFill.extension) :
    Watched fill generate start (.fill i)
      (fun p : Part AISmartFill.Node AISmartFill.FillTask => Unseen first p.node.rt)
      (fun p : Part AISmartFill.Node AISmartFill.FillTask => Seen (fill i).rounding first p.node.rt) := by
  refine ⟨?_,?_,?_⟩
  · intro s a moved path off ran
    refine beside_seen (fillPolls (fill i)) (fill_crew path) (step_moved ran) ?_
    rintro act rfl
    cases off
  · intro s thrown path silent waits
    refine unseen_passed (fill_announced path) ?_ waits
    simpa [forceValidate] using silent
  · intro s thrown act moved visits ran
    simp only [forceValidate] at visits
    split at visits <;> cases visits
    exact visit_seen (fillPolls (fill i)) ran

theorem generate_watched (first : Runtime AIGenerate.SdJob AIGenerate.extension) :
    Watched fill generate start (.generate g)
      (fun p : Part AIGenerate.Node AIGenerate.SdJob => Unseen first p.node.rt)
      (fun p : Part AIGenerate.Node AIGenerate.SdJob => Seen (generate g).rounding first p.node.rt) := by
  refine ⟨?_,?_,?_⟩
  · intro s a moved path off ran
    refine beside_seen (generatePolls (generate g)) (generate_crew path) (step_moved ran) ?_
    rintro act rfl
    cases off
  · intro s thrown path silent waits
    refine unseen_passed (generate_announced path) ?_ waits
    simpa [forceValidate] using silent
  · intro s thrown act moved visits ran
    simp only [forceValidate] at visits
    split at visits <;> cases visits
    exact visit_seen (generatePolls (generate g)) ran

theorem unseen_now {T : Type} {extension : Bytes} (rt : Runtime T extension) : Unseen rt rt :=
  ⟨fun _ => rfl,fun running => by rw [running]; decide⟩

theorem fill_resting (path : Guarded (graph fill generate start) (Heard generate) s)
    (idle : (fillPart s i).node.rt.worker.state = .idle) {a : Move AISmartFill.Action}
    (off : @onMain ι κ (.fill i) a = false) {moved : Part AISmartFill.Node AISmartFill.FillTask × Files} :
    (fillKind (fill i)).step (fillPart s i) s.store a ≠ some moved := by
  intro ran
  have running := (beside_moved (fillPolls (fill i)) (fill_crew path) (step_moved ran)
    (by rintro act rfl; cases off)).1
  exact absurd (idle.symm.trans running) (by decide)

theorem generate_resting (path : Guarded (graph fill generate start) (Heard generate) s)
    (idle : (generatePart s g).node.rt.worker.state = .idle) {a : Move AIGenerate.Action}
    (off : @onMain ι κ (.generate g) a = false) {moved : Part AIGenerate.Node AIGenerate.SdJob × Files} :
    (generateKind (generate g)).step (generatePart s g) s.store a ≠ some moved := by
  intro ran
  have running := (beside_moved (generatePolls (generate g)) (generate_crew path) (step_moved ran)
    (by rintro act rfl; cases off)).1
  exact absurd (idle.symm.trans running) (by decide)

-- A round gets to its end whatever it meets.
theorem round_ends (s : State ι κ) (todo : List (Party ι κ × Option Stop)) :
    ∃ later, Leads (pollStep fill generate start) ⟨s,todo⟩ ⟨later,[]⟩ := by
  induction todo generalizing s with
  | nil => exact ⟨s,.refl⟩
  | cons visit rest ih =>
    obtain ⟨p,thrown⟩ := visit
    obtain ⟨next,moved⟩ : ∃ next, (pollStep fill generate start).step ⟨s,(p,thrown) :: rest⟩ .visit = some ⟨next,rest⟩ := by
      cases p with
      | outside => exact ⟨s,rfl⟩
      | fill i | generate i =>
        simp only [pollStep,forceValidate]
        split
        · exact ⟨s,rfl⟩
        · rename_i act visits
          split at visits <;> cases visits
          exact ⟨_,rfl⟩
    obtain ⟨later,leads⟩ := ih next
    exact ⟨later,.head ⟨.visit,moved⟩ leads⟩

-- Every bake that has ended by the time of a round is told and forgotten in it,
-- every bake under way shows its progress, and no node at rest is touched.
theorem round_delivers (fill : ι → AISmartFill.Host) (generate : κ → AIGenerate.Host) (start : Files → Prop)
    (path : Guarded (graph fill generate start) (Heard generate) s) (todo : List (Party ι κ × Option Stop)) :
    (∃ later, Leads (pollStep fill generate start) ⟨s,todo⟩ ⟨later,[]⟩) ∧
    ∀ later, Leads (pollStep fill generate start) ⟨s,todo⟩ ⟨later,[]⟩ →
      Guarded (graph fill generate start) (Heard generate) later ∧
      (∀ i thrown, (.fill i,thrown) ∈ todo → thrown ≠ some .beforePoll →
        Seen (fill i).rounding (fillPart s i).node.rt (fillPart later i).node.rt) ∧
      (∀ g thrown, (.generate g,thrown) ∈ todo → thrown ≠ some .beforePoll →
        Seen (generate g).rounding (generatePart s g).node.rt (generatePart later g).node.rt) ∧
      (∀ i, (fillPart s i).node.rt.worker.state = .idle → MenuPoll.isActive (fillPart s i).node.rt.statusText = false →
        fillPart later i = fillPart s i) ∧
      ∀ g, (generatePart s g).node.rt.worker.state = .idle →
        MenuPoll.isActive (generatePart s g).node.rt.statusText = false → generatePart later g = generatePart s g := by
  refine ⟨round_ends s todo,fun later leads => ⟨?_,?_,?_,?_,?_⟩⟩
  · apply Leads.keeps (fun r => Guarded (graph fill generate start) (Heard generate) r.script) leads path
    intro r beat next path ran
    exact pollStep_heard path ran
  · intro i thrown listed reaches
    exact round_watched (fill_watched _) path leads listed reaches (unseen_now _)
  · intro g thrown listed reaches
    exact round_watched (generate_watched _) path leads listed reaches (unseen_now _)
  · intro i idle silent
    refine round_still (p := .fill i) path leads (fun thrown => ?_) ?_
    · exact if_neg (by rw [show s.locals (.fill i) = fillPart s i from rfl,silent]; decide)
    · intro now a moved reached same off
      exact fill_resting reached ((congrArg (fun p : Part _ _ => p.node.rt.worker.state) same).trans idle) off
  · intro g idle silent
    refine round_still (p := .generate g) path leads (fun thrown => ?_) ?_
    · exact if_neg (by rw [show s.locals (.generate g) = generatePart s g from rfl,silent]; decide)
    · intro now a moved reached same off
      exact generate_resting reached ((congrArg (fun p : Part _ _ => p.node.rt.worker.state) same).trans idle) off

end Kinds

end System

section Failed
open AIGenerate

abbrev oneNode : System (State Unit Unit) (Σ p : Party Unit Unit, Act p) :=
  graph (fun _ => AISmartFill.blackHost) (fun _ => sdHost) (· = sdDisk)

def oneNodeState (node : Node) : State Unit Unit := place (grounded sdDisk) (.generate ()) ⟨node,[],none⟩ sdDisk

theorem oneNode_part (node : Node) : generatePart (oneNodeState node) () = ⟨node,[],none⟩ := place_local ..

theorem oneNode_called {node next : Node} {act : Action} (path : Guarded oneNode (Heard (fun _ => sdHost)) (oneNodeState node))
    (called : (generateKind sdHost).main node sdDisk act = some (next,sdDisk))
    (permits : Delivery.GenerateKeepsText sdHost ⟨node,sdDisk,[]⟩ act) :
    Guarded oneNode (Heard (fun _ => sdHost)) (oneNodeState next) := by
  have ran : (generateKind sdHost).step ⟨node,[],none⟩ sdDisk (.main act) = some (⟨next,[],none⟩,sdDisk) := by
    simp only [Kind.step,called,Option.map_some]
  exact place_act path (.main act) permits ran

theorem oneNode_worked {node : Node} {w : WorkStep} {worker : AiWorker (BakeRun SdJob)}
    (path : Guarded oneNode (Heard (fun _ => sdHost)) (oneNodeState node)) (other : ∀ faults, w ≠ .write faults)
    (worked : workStep sdHost.backend node.rt.worker sdDisk w = some (worker,sdDisk,none)) :
    Guarded oneNode (Heard (fun _ => sdHost)) (oneNodeState (setWorker node worker)) := by
  have ran : (generateKind sdHost).step ⟨node,[],none⟩ sdDisk (.work w) = some (⟨setWorker node worker,[],none⟩,sdDisk) := by
    rw [step_work _ _ other]
    exact congrArg (Option.map _) worked
  exact place_act path (.work w) trivial ran

-- A node whose bake has thrown.
theorem oneNode_fails (msg : Bytes) : ∃ node context run, Guarded oneNode (Heard (fun _ => sdHost))
    (oneNodeState (setWorker node ⟨.error,context,msg,.exited run⟩)) := by
  have begun : Guarded oneNode (Heard (fun _ => sdHost)) (oneNodeState fresh) := by
    have self : oneNodeState fresh = grounded sdDisk := place_self ..
    rw [self]
    exact .initial (grounded_start sdDisk)
  have edit : (generateKind sdHost).main fresh sdDisk (.edit (sdKnobs (ascii "x"))) = some (sdStart.node,sdDisk) := rfl
  have edited : Guarded oneNode (Heard (fun _ => sdHost)) (oneNodeState sdStart.node) := oneNode_called begun edit trivial
  obtain ⟨images,_,started⟩ := startBake_launches sdStart_launches
  have press : (generateKind sdHost).main sdStart.node sdDisk (.bake sdChance) =
      some (launched sdHost sdDisk sdChance sdStart.node images,sdDisk) := by
    have moved := congrArg some (started.trans (congrArg (Prod.mk _) (sdNode_pressDisk sdDisk sdStart.node)))
    exact moved
  have pressed := oneNode_called edited press (.inl rfl)
  obtain ⟨node,context,run,working⟩ : ∃ node context run, Guarded oneNode (Heard (fun _ => sdHost))
      (oneNodeState (setWorker node ⟨.running,context,[],.body run⟩)) := by
    refine ⟨launched sdHost sdDisk sdChance sdStart.node images,⟨F32.zero,false,ascii "Starting"⟩,
      ⟨pressJob sdHost sdDisk sdChance sdStart.node images,taskOps,none⟩,?_⟩
    have worker : (launched sdHost sdDisk sdChance sdStart.node images).rt.worker =
      ⟨.running,⟨F32.zero,false,ascii "Starting"⟩,
        [],.body ⟨pressJob sdHost sdDisk sdChance sdStart.node images,taskOps,none⟩⟩ :=
      congrArg Prod.fst (AiWorker.start_idle rfl _)
    rw [←worker]
    exact pressed
  have thrown := oneNode_worked working (by simp) (show workStep sdHost.backend _ sdDisk (.throws msg) = _ from rfl)
  have stored := oneNode_worked thrown (by simp) (show workStep sdHost.backend _ sdDisk .storeError = _ from rfl)
  have published := oneNode_worked stored (by simp) (show workStep sdHost.backend _ sdDisk .publish = _ from rfl)
  exact ⟨node,context,run,published⟩

theorem round_delivers_thrown : ∃ s later : State Unit Unit, (generatePart s ()).node.rt.worker.state = .error ∧
    (generatePart later ()).node.rt.worker.state = .idle ∧
    (generatePart later ()).node.rt.statusText = ascii "Error: no model" := by
  obtain ⟨node,context,run,failed⟩ := oneNode_fails (ascii "no model")
  obtain ⟨⟨later,leads⟩,delivers⟩ := round_delivers _ _ _ failed [(.generate (),none)]
  have seen := (delivers later leads).2.2.1 () none (by simp) (by simp)
  rw [oneNode_part] at seen
  have told := seen.ended rfl
  have was := congrArg (fun p : Part Node SdJob => p.node.rt.worker.state)
    (oneNode_part (setWorker node ⟨.error,context,ascii "no model",.exited run⟩))
  exact ⟨_,later,was,told_idle rfl told,told.statusText⟩

end Failed

end SmartFill.Graph
