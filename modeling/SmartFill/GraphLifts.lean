import SmartFill.GraphRuns

namespace SmartFill.Graph
open Transition Parallel ImageCache DiskOp

section Lifts
variable {Node T Act : Type} {k : Kind Node T Act}

-- Moves of one node that change no file being written, save by the write.
def Solo (k : Kind Node T Act) : Part Node T × Files → Part Node T × Files → Prop :=
  Relation.ReflTransGen (fun x y => ∃ a, k.step x.1 x.2 a = some y ∧
    (a = .operation ∨ ∀ q, x.1.Writes q → y.2.read q = x.2.read q))

theorem solo_idle {p : Part Node T} {disk : Files} {moved : Part Node T × Files} (a : Move Act) (idle : p.flight = none)
    (ran : k.step p disk a = some moved) : Solo k (p,disk) moved := by
  refine .single ⟨a,ran,.inr ?_⟩
  rintro q ⟨f,flying,_⟩
  rw [idle] at flying
  cases flying

theorem solo_operations (node : Node) (bakes : List (Written T)) (f : Flight T) (disk : Files) (rest : List FileOp)
    (left : f.call.ops.drop f.done = rest) : Solo k (⟨node,bakes,some f⟩,disk)
      (⟨node,bakes,some {f with done := f.done + rest.length}⟩,run disk rest) := by
  induction rest generalizing f disk with
  | nil => exact .refl
  | cons op rest ih =>
    have found : f.call.ops[f.done]? = some op := by
      have head := congrArg List.head? left
      rwa [List.head?_drop,List.head?_cons] at head
    have tail : f.call.ops.drop (f.done+1) = rest := by
      rw [←List.drop_drop,left]
      rfl
    have others := ih {f with done := f.done+1} (apply disk op) tail
    rw [show f.done + (op :: rest).length = f.done+1 + rest.length by simp only [List.length_cons]; omega]
    refine .head ⟨.operation,?_,.inl rfl⟩ others
    simp only [Kind.step,found,Option.map_some]

-- A bake's write in one step, made piece by piece.
theorem solo_write {node : Node} {bakes : List (Written T)} {disk : Files} {f : Flight T} (unmade : f.done = 0)
    (flying : Flying k node f) :
    Solo k (⟨node,bakes,none⟩,disk) (⟨k.setWorker node {k.worker node with thread := afterWrite f (f.call.run disk).ok},
      ⟨f.run,f.pixels,(f.call.run disk).ok,(f.call.run disk).final.read f.path⟩ :: bakes,none⟩,(f.call.run disk).final) := by
  have entered : Solo k (⟨node,bakes,none⟩,disk) (⟨node,bakes,some f⟩,disk) := by
    apply solo_idle (.enter f.faults) rfl
    obtain ⟨faults,⟨job,_,_⟩,pixels,done⟩ := f
    obtain ⟨body,rest,same⟩ := flying
    simp only [BakeRun.mk.injEq,true_and] at same
    obtain ⟨rfl,rfl⟩ := same
    cases unmade
    simp only [Kind.step,body]
  have written := solo_operations (k := k) node bakes f disk f.call.ops (by rw [unmade,List.drop_zero])
  rw [←WriteCall.ops_final,unmade,Nat.zero_add] at written
  refine (entered.trans written).trans (.single ⟨.leave,?_,.inr fun _ _ => rfl⟩)
  have over_ : ¬ f.call.ops.length < f.call.ops.length := lt_irrefl _
  simp only [Kind.step]
  rw [show (Flight.call {f with done := f.call.ops.length}) = f.call from rfl,if_neg over_,
    call_ok f.call (f.call.run disk).final disk]
  rfl

theorem solo_work {node : Node} {bakes : List (Written T)} {disk later : Files} {w : WorkStep}
    {worker : AiWorker (BakeRun T)} {wrote : Option (Written T)}
    (ran : workStep k.backend (k.worker node) disk w = some (worker,later,wrote)) :
    Solo k (⟨node,bakes,none⟩,disk) (⟨k.setWorker node worker,wrote.toList ++ bakes,none⟩,later) := by
  by_cases writes : ∃ faults, w = .write faults
  · obtain ⟨faults,rfl⟩ := writes
    cases thread : (k.worker node).thread with
    | body run =>
      obtain ⟨job,_ | ⟨_ | _ | _ | _ | _,rest⟩,_ | pixels⟩ := run
      all_goals simp only [workStep,thread] at ran
      all_goals cases ran
      exact solo_write (f := ⟨faults,⟨job,.write :: rest,some pixels⟩,pixels,0⟩) rfl ⟨thread,rest,rfl⟩
    | none | ended _ _ _ | publishing _ _ | exited _ =>
      simp only [workStep,thread] at ran
      cases ran
  · have other : ∀ faults, w ≠ .write faults := fun faults same => writes ⟨faults,same⟩
    obtain ⟨rfl,rfl⟩ := workStep_quiet other ran
    apply solo_idle (.work w) rfl
    rw [step_work _ _ other,ran]
    rfl

end Lifts

section Lifted
variable {ι κ : Type} [DecidableEq ι] [DecidableEq κ] {fill : ι → AISmartFill.Host} {generate : κ → AIGenerate.Host}
  {start : Files → Prop} {permitted : State ι κ → (Σ p : Party ι κ, Act p) → Prop}

theorem fill_calls {host : AISmartFill.Host} {node : AISmartFill.Node} {disk : Files}
    {bakes : List (Written AISmartFill.FillTask)} {act : AISmartFill.Action} {c : AISmartFill.State}
    (ran : AISmartFill.step host ⟨node,disk,bakes⟩ act = some c) : (∃ w, act = .work w) ∨ (∃ later, act = .files later) ∨
      (fillKind host).main node disk act = some (c.node,c.disk) ∧ c.bakes = bakes := by
  cases act with
  | work w => exact .inl ⟨w,rfl⟩
  | files later => exact .inr (.inl ⟨later,rfl⟩)
  | bakeThrown validated stop =>
    obtain ⟨after,thrown,rfl⟩ := AISmartFill.step_thrown ran
    exact .inr (.inr ⟨fill_thrown_main thrown,rfl⟩)
  | edit _ | connect _ _ | validate _ | bake _ | clearCache _ | cancel =>
    cases ran
    exact .inr (.inr ⟨rfl,rfl⟩)

theorem generate_calls {host : AIGenerate.Host} {node : AIGenerate.Node} {disk : Files}
    {bakes : List (Written AIGenerate.SdJob)} {act : AIGenerate.Action} {c : AIGenerate.State}
    (ran : AIGenerate.step host ⟨node,disk,bakes⟩ act = some c) : (∃ w, act = .work w) ∨ (∃ later, act = .files later) ∨
      (generateKind host).main node disk act = some (c.node,c.disk) ∧ c.bakes = bakes := by
  cases act with
  | work w => exact .inl ⟨w,rfl⟩
  | files later => exact .inr (.inl ⟨later,rfl⟩)
  | edit _ | connect _ _ | validate _ | bake _ | clearCache _ | cancel =>
    cases ran
    exact .inr (.inr ⟨rfl,rfl⟩)

theorem solo_main {Node T Act : Type} {k : Kind Node T Act} {node node' : Node} {bakes : List (Written T)}
    {disk later : Files} {act : Act} (called : k.main node disk act = some (node',later)) :
    Solo k (⟨node,bakes,none⟩,disk) (⟨node',bakes,none⟩,later) := by
  apply solo_idle (.main act) rfl
  simp only [Kind.step,called,Option.map_some]

theorem fill_solo {host : AISmartFill.Host} {c next : AISmartFill.State} {act : AISmartFill.Action}
    (ran : AISmartFill.step host c act = some next) :
    (∃ later, act = .files later ∧ next = ⟨c.node,later,c.bakes⟩) ∨
      Solo (fillKind host) (⟨c.node,c.bakes,none⟩,c.disk) (⟨next.node,next.bakes,none⟩,next.disk) := by
  rcases fill_calls ran with ⟨w,rfl⟩ | ⟨later,rfl⟩ | ⟨called,same⟩
  · obtain ⟨worker,later,wrote,worked,rfl⟩ := AISmartFill.step_work ran
    exact .inr (solo_work (k := fillKind host) worked)
  · cases ran
    exact .inl ⟨later,rfl,rfl⟩
  · rw [same]
    exact .inr (solo_main called)

theorem generate_solo {host : AIGenerate.Host} {c next : AIGenerate.State} {act : AIGenerate.Action}
    (ran : AIGenerate.step host c act = some next) :
    (∃ later, act = .files later ∧ next = ⟨c.node,later,c.bakes⟩) ∨
      Solo (generateKind host) (⟨c.node,c.bakes,none⟩,c.disk) (⟨next.node,next.bakes,none⟩,next.disk) := by
  rcases generate_calls ran with ⟨w,rfl⟩ | ⟨later,rfl⟩ | ⟨called,same⟩
  · obtain ⟨worker,later,wrote,worked,rfl⟩ := AIGenerate.step_work ran
    exact .inr (solo_work (k := generateKind host) worked)
  · cases ran
    exact .inl ⟨later,rfl,rfl⟩
  · rw [same]
    exact .inr (solo_main called)

-- Nobody is in a write.
def Grounded (s : State ι κ) : Prop := ∀ p q, ¬ Writes p (s.locals p) q

def grounded (disk : Files) : State ι κ where
  locals
  | .fill _ => (⟨AISmartFill.fresh,[],none⟩ : Part AISmartFill.Node AISmartFill.FillTask)
  | .generate _ => (⟨AIGenerate.fresh,[],none⟩ : Part AIGenerate.Node AIGenerate.SdJob)
  | .outside => ()
  store := disk

omit [DecidableEq ι] [DecidableEq κ] in
theorem idle_writes {Node T : Type} {p : Part Node T} (idle : p.flight = none) (q : Path) : ¬ p.Writes q := by
  rintro ⟨f,flying,_⟩
  rw [idle] at flying
  cases flying

omit [DecidableEq ι] [DecidableEq κ] in
theorem grounded_clear (disk : Files) : Grounded (grounded disk : State ι κ) := by
  rintro (_ | _ | _) q writes
  · exact idle_writes rfl q writes
  · exact idle_writes rfl q writes
  · exact writes

omit [DecidableEq ι] [DecidableEq κ] in
theorem apart_grounded {s : State ι κ} (clear : Grounded s) (act : Σ p : Party ι κ, Act p) : Apart fill generate s act :=
  fun _ _ p q writes => absurd writes (clear p q)

theorem grounded_start (disk : Files) : (graph fill generate (· = disk)).initial (grounded disk : State ι κ) := by
  refine ⟨fun p => ?_,rfl⟩
  cases p <;> trivial

theorem place_grounded {s : State ι κ} (clear : Grounded s) {p : Party ι κ} {l : Local p} (idle : ∀ q, ¬ Writes p l q)
    (disk : Files) : Grounded (place s p l disk) := by
  intro q file
  by_cases own : q = p
  · subst own
    rw [place_local]
    exact idle file
  · rw [place_other s _ _ own]
    exact clear q file

-- One move of a party that changes no file it is writing, save by the write.
def Calm (fill : ι → AISmartFill.Host) (generate : κ → AIGenerate.Host) (p : Party ι κ) (x y : Local p × Files) : Prop :=
  ∃ a, (component fill generate p).step x.1 x.2 a = some y ∧
    (Operates p a ∨ ∀ q, Writes p x.1 q → y.2.read q = x.2.read q)

theorem calm_place {s : State ι κ} {p : Party ι κ} {x y : Local p × Files}
    (inside : ∀ s a, Apart fill generate s ⟨p,a⟩ → permitted s ⟨p,a⟩) (clear : Grounded s)
    (calm : Relation.ReflTransGen (Calm fill generate p) x y)
    (path : Guarded (graph fill generate start) permitted (place s p x.1 x.2)) :
    Guarded (graph fill generate start) permitted (place s p y.1 y.2) := by
  induction calm with
  | refl => exact path
  | tail _ move ih =>
    rename_i b c
    obtain ⟨a,ran,calm⟩ := move
    refine place_act ih a (inside _ a ?_) ran
    intro moved step q file writes other
    by_cases own : q = p
    · subst own
      rw [place_local] at writes step
      cases step.symm.trans ran
      exact (calm.resolve_left (fun same => other ⟨rfl,same⟩)) file writes
    · rw [place_other s _ _ own] at writes
      exact absurd writes (clear q file)

theorem outside_act {s : State ι κ} (path : Guarded (graph fill generate start) permitted s)
    (later : Files) (permits : permitted s ⟨.outside,later⟩) :
    Guarded (graph fill generate start) permitted ⟨s.locals,later⟩ := by
  have changed : (graph fill generate start).step s ⟨.outside,later⟩ =
      some ⟨Function.update s.locals .outside (s.locals .outside),later⟩ := rfl
  rw [Function.update_eq_self] at changed
  exact path.act _ permits changed

-- A machine whose steps one party can make, or that are changes from outside,
-- runs in the graph while the others rest.
theorem party_lifts {p : Party ι κ} {S A : Type} {sys : System S A} {allowed : S → A → Prop} {c : S}
    (part : S → Local p) (store : S → Files) (idle : ∀ c q, ¬ Writes p (part c) q)
    (begins : ∀ c, sys.initial c → part c = (grounded (store c) : State ι κ).locals p)
    (inside : ∀ s a, Apart fill generate s ⟨p,a⟩ → permitted s ⟨p,a⟩)
    (steps : ∀ c a next, allowed c a → sys.step c a = some next →
      (part next = part c ∧ ∀ s : State ι κ, Grounded s → permitted s ⟨.outside,store next⟩) ∨
        Relation.ReflTransGen (Calm fill generate p) (part c,store c) (part next,store next))
    (path : Guarded sys allowed c) : ∃ disk s, Guarded (graph fill generate (· = disk)) permitted s ∧
      s.locals p = part c ∧ s.store = store c ∧ Grounded s := by
  have lifted : ∃ disk s, Guarded (graph fill generate (· = disk)) permitted (place s p (part c) (store c)) ∧ Grounded s := by
    apply Guarded.keeps (fun c => ∃ disk s, Guarded (graph fill generate (· = disk)) permitted
      (place s p (part c) (store c)) ∧ Grounded s) path
    · intro c initial
      refine ⟨store c,grounded (store c),?_,grounded_clear _⟩
      have start : Guarded (graph fill generate (· = store c)) permitted (grounded (store c)) :=
        .initial (grounded_start (store c))
      rwa [←place_self (grounded (store c)) p,←begins c initial] at start
    · rintro c a next ⟨disk,s,path,clear⟩ permits ran
      rcases steps c a next permits ran with ⟨same,outer⟩ | calm
      · refine ⟨disk,s,?_,clear⟩
        rw [same]
        exact outside_act path (store next) (outer _ (place_grounded clear (idle c) _))
      · exact ⟨disk,s,calm_place inside clear calm path,clear⟩
  obtain ⟨disk,s,path,clear⟩ := lifted
  exact ⟨disk,_,path,place_local ..,rfl,place_grounded clear (idle c) _⟩

theorem fill_lifts {i : ι} {allowed : AISmartFill.State → AISmartFill.Action → Prop} {c : AISmartFill.State}
    (inside : ∀ s a, Apart fill generate s ⟨.fill i,a⟩ → permitted s ⟨.fill i,a⟩)
    (outer : ∀ c later, allowed c (.files later) → ∀ s : State ι κ, Grounded s → permitted s ⟨.outside,later⟩)
    (path : Guarded (AISmartFill.system (fill i)) allowed c) :
    ∃ disk s, Guarded (graph fill generate (· = disk)) permitted s ∧ fillView s i = c := by
  obtain ⟨disk,s,path,part,store,_⟩ := party_lifts (p := .fill i)
    (fun c : AISmartFill.State => (⟨c.node,c.bakes,none⟩ : Part AISmartFill.Node AISmartFill.FillTask)) (·.disk)
    (fun _ => idle_writes rfl) (by rintro c ⟨disk,rfl⟩; rfl) inside (fun c a next permits ran => by
      rcases fill_solo ran with ⟨later,rfl,rfl⟩ | solo
      · exact .inl ⟨rfl,outer c later permits⟩
      · exact .inr solo) path
  refine ⟨disk,s,path,?_⟩
  rw [fillView,fillPart,part,store]

theorem generate_lifts {i : κ} {allowed : AIGenerate.State → AIGenerate.Action → Prop} {c : AIGenerate.State}
    (inside : ∀ s a, Apart fill generate s ⟨.generate i,a⟩ → permitted s ⟨.generate i,a⟩)
    (outer : ∀ c later, allowed c (.files later) → ∀ s : State ι κ, Grounded s → permitted s ⟨.outside,later⟩)
    (path : Guarded (AIGenerate.system (generate i)) allowed c) :
    ∃ disk s, Guarded (graph fill generate (· = disk)) permitted s ∧ generateView s i = c := by
  obtain ⟨disk,s,path,part,store,_⟩ := party_lifts (p := .generate i)
    (fun c : AIGenerate.State => (⟨c.node,c.bakes,none⟩ : Part AIGenerate.Node AIGenerate.SdJob)) (·.disk)
    (fun _ => idle_writes rfl) (by rintro c ⟨disk,rfl⟩; rfl) inside (fun c a next permits ran => by
      rcases generate_solo ran with ⟨later,rfl,rfl⟩ | solo
      · exact .inl ⟨rfl,outer c later permits⟩
      · exact .inr solo) path
  refine ⟨disk,s,path,?_⟩
  rw [generateView,generatePart,part,store]

-- However the steps of a graph's nodes fall between each other, each node is in
-- a state that its own model reaches, and its own model reaches no other.
theorem graph_serial (fill : ι → AISmartFill.Host) (generate : κ → AIGenerate.Host) :
    (∀ i c, Reached (AISmartFill.system (fill i)) c ↔
      ∃ disk s, Guarded (graph fill generate (· = disk)) (Apart fill generate) s ∧ fillView s i = c) ∧
    ∀ i c, Reached (AIGenerate.system (generate i)) c ↔
      ∃ disk s, Guarded (graph fill generate (· = disk)) (Apart fill generate) s ∧ generateView s i = c := by
  refine ⟨fun i c => ⟨fun path => ?_,?_⟩,fun i c => ⟨fun path => ?_,?_⟩⟩
  · exact fill_lifts (fun _ _ => id) (fun _ _ _ _ clear => apart_grounded clear _) path
  · rintro ⟨disk,s,path,rfl⟩
    exact (fill_view ⟨fun _ _ => trivial,fun _ _ => trivial⟩ path (fun _ _ => id) (fun _ _ _ => trivial)).path
  · exact generate_lifts (fun _ _ => id) (fun _ _ _ _ clear => apart_grounded clear _) path
  · rintro ⟨disk,s,path,rfl⟩
    exact (generate_view ⟨fun _ _ => trivial,fun _ _ => trivial⟩ path (fun _ _ => id) (fun _ _ _ => trivial)).path

end Lifted

-- One node that bakes a black pixel and loads it.
theorem blackStart_displays (allowed : AISmartFill.State → AISmartFill.Action → Prop)
    (calm : ∀ s a, (∀ later, a ≠ .files later) → allowed s a) :
    ∃ (c : AISmartFill.State) (l : Loaded AISmartFill.extension), Guarded (AISmartFill.system AISmartFill.blackHost) allowed c ∧
      c.bakes ≠ [] ∧ c.node.rt.cache = l.buffer := by
  have ready := AISmartFill.blackNode_reached (fun s => calm s _ (by simp)) (fun s _ => calm s _ (by simp))
  obtain ⟨node,worker,disk,b,pixels,started,_,finished,_,_,length,content,file⟩ :=
    AISmartFill.blackStart_bakes ready (calm _ _ (by simp)) (fun s w => calm s _ (by simp))
  obtain ⟨l,loaded,_⟩ := AISmartFill.blackStart_loads started length (file.trans content) worker
  exact ⟨_,l,finished.act (.validate none) (calm _ _ (by simp)) rfl,List.cons_ne_nil _ _,loaded⟩

end SmartFill.Graph
