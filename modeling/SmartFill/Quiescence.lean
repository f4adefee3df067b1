import SmartFill.SavedSeed

open SmartFill.Runtime

namespace SmartFill
open Transition MenuPoll

namespace MenuPoll

def isCapital (c : UInt8) : Bool := decide (65 ≤ c ∧ c ≤ 90)

theorem marker_capital {marker : Bytes} (listed : marker ∈ activeStatusMarkers) :
    ∃ c rest, marker = c :: rest ∧ isCapital c = true := by
  simp only [activeStatusMarkers,List.mem_cons,List.not_mem_nil,or_false] at listed
  rcases listed with rfl | rfl | rfl | rfl | rfl | rfl | rfl <;> exact ⟨_,_,rfl,by decide⟩

-- Every marker starts with a capital letter; so where a text has none but its
-- first, only the start counts.
theorem isActive_first {c : UInt8} {text : Bytes} (small : ∀ x ∈ text, isCapital x = false)
    (apart : ∀ marker ∈ activeStatusMarkers, ¬ marker.take 2 <+: (c :: text).take 2) : isActive (c :: text) = false := by
  refine List.any_eq_false.mpr (fun marker listed => ?_)
  intro held
  rcases List.infix_cons_iff.mp (of_decide_eq_true held) with start | later
  · exact apart marker listed (start.take 2)
  · obtain ⟨first,rest,rfl,capital⟩ := marker_capital listed
    have inside := later.subset (List.mem_cons_self)
    rw [small first inside] at capital
    cases capital

end MenuPoll

theorem decimal_small (n : Nat) : ∀ x ∈ decimal n, isCapital x = false := by
  intro x member
  obtain ⟨c,digit,rfl⟩ := List.mem_map.mp (show x ∈ (Nat.toDigits 10 n).map (fun c => c.toNat.toUInt8) from member)
  have bounds : 48 ≤ c.toNat ∧ c.toNat ≤ 57 :=
    Char.isDigit_iff_toNat.mp (Nat.isDigit_of_mem_toDigits (by decide) (by decide) digit)
  refine decide_eq_false (fun capital => ?_)
  have above := UInt8.le_iff_toNat_le.mp capital.1
  simp only [Nat.toUInt8_eq,UInt8.toNat_ofNat'] at above
  have small : (65 : UInt8).toNat = 65 := rfl
  omega

theorem clearedText_inactive (n : Nat) : isActive (clearedText n) = false := by
  have first : clearedText n = 67 :: (ascii "leared " ++ decimal n ++ ascii " cached file(s)") := rfl
  rw [first]
  refine isActive_first ?_ ?_
  · intro x member
    rcases List.mem_append.mp member with before | after
    · rcases List.mem_append.mp before with word | digit
      · exact (by decide +kernel : ∀ x ∈ ascii "leared ", isCapital x = false) x word
      · exact decimal_small n x digit
    · exact (by decide +kernel : ∀ x ∈ ascii " cached file(s)", isCapital x = false) x after
  · exact (by decide +kernel : ∀ marker ∈ activeStatusMarkers, ¬ marker.take 2 <+: [67,108])

namespace Runtime
variable {T : Type} {extension : Bytes} {r : Rounding} {stale : CacheBuffer extension → Bytes → Bool}
  {rt before after : Runtime T extension} {job : BakeJob T} {todo : List TaskOp} {backend : Backend T}

-- menu.py goes on polling this node only if its worker has something to do.
def Quiesces (rt : Runtime T extension) : Prop := isActive rt.statusText = true → rt.worker.state ≠ .idle

-- The text a poll shows for a failed bake has no marker in it.
def Harmless (rt : Runtime T extension) : Prop :=
  rt.worker.state = .error → isActive ((ascii "Error: " ++ rt.worker.errorMessage).take 80) = false

theorem quiesces_inactive (inactive : isActive rt.statusText = false) : Quiesces rt := by
  intro active
  rw [inactive] at active
  cases active

theorem quiesces_quiet (quiet : Quiet before after) : Quiesces after ↔ Quiesces before := by
  rw [Quiesces,Quiesces,quiet.worker,quiet.statusText]

theorem harmless_same (same : SameBake before after) : Harmless after ↔ Harmless before := by
  rw [Harmless,Harmless,same.worker]

theorem poll_quiesces_iff (rt : Runtime T extension) : Quiesces (rt.pollWorker r stale) ↔ Quiesces rt ∧ Harmless rt := by
  cases state : rt.worker.state with
  | idle =>
    rw [poll_idle state]
    exact ⟨fun held => ⟨held,fun error => absurd (state.symm.trans error) (by decide)⟩,And.left⟩
  | running =>
    have busy : rt.worker.state ≠ .idle := by simp [state]
    rw [poll_running state]
    exact iff_of_true (fun _ => busy) ⟨fun _ => busy,fun error => absurd (state.symm.trans error) (by decide)⟩
  | done =>
    have busy : rt.worker.state ≠ .idle := by simp [state]
    refine iff_of_true (quiesces_inactive ?_) ⟨fun _ => busy,fun error => absurd (state.symm.trans error) (by decide)⟩
    simp only [pollWorker,state]
    show isActive (ascii "Ready") = false
    decide +kernel
  | cancelled =>
    have busy : rt.worker.state ≠ .idle := by simp [state]
    refine iff_of_true (quiesces_inactive ?_) ⟨fun _ => busy,fun error => absurd (state.symm.trans error) (by decide)⟩
    simp only [pollWorker,state]
    show isActive (ascii "Cancelled") = false
    decide +kernel
  | error =>
    have busy : rt.worker.state ≠ .idle := by simp [state]
    have idle : (rt.pollWorker r stale).worker.state = .idle := by
      rw [(poll_terminal (by rw [state]; rfl)).1]
      exact AiWorker.reset_idle (by simp [state])
    have text : (rt.pollWorker r stale).statusText = (ascii "Error: " ++ rt.worker.errorMessage).take 80 := by
      simp only [pollWorker,state]
      rfl
    rw [Quiesces,idle,text,Harmless]
    simp [state,Quiesces]

theorem poll_harmless (harmless : rt.Harmless) : Harmless (rt.pollWorker r stale) := by
  rcases poll_worker rt with ⟨_,same⟩ | ⟨terminal,worker,_⟩
  · exact (harmless_same same).mpr harmless
  · have stopped : rt.worker.state ≠ .running := by
      intro running
      rw [running] at terminal
      cases terminal
    intro error
    rw [worker,AiWorker.reset_idle stopped] at error
    cases error

theorem poll_done (done : rt.worker.state = .done) : (rt.pollWorker r stale).statusText = ascii "Ready" := by
  simp only [pollWorker,done]
  rfl

theorem harmless_of {state : AiWorkerState} (found : rt.worker.state = state) (different : state ≠ .error) : Harmless rt :=
  fun error => absurd (found.symm.trans error) different

theorem launch_quiesces : Quiesces (rt.launch job todo) := by
  intro _ idle
  rw [launch_worker] at idle
  by_cases was : rt.worker.state = .idle
  · rw [AiWorker.start_idle was] at idle
    cases idle
  · rw [AiWorker.start_refused was] at idle
    exact was idle

theorem work_quiesces {next : AiWorker (BakeRun T)} (coherent : rt.worker.Coherent)
    (ran : workStep backend rt.worker disk step = some (next,left,wrote)) : Quiesces {rt with worker := next} :=
  fun _ => (workStep_worked coherent ran).still

end Runtime

namespace AISmartFill
variable {host : Host} {disk : Files} {node : Node} {thrown : Option Stop} {validated : Option (Option Stop)}

theorem reopened_harmless (saved : Node) : Harmless (reopenedNode saved).rt := by
  intro error
  cases error

theorem validate_polls : Quiet (pollWorker host (enter host node)).rt (validate host disk none node).rt := by
  rw [validate_normal]
  exact (setCurrentKey_quiet _).trans tryLoad_quiet

theorem validate_quiesces_iff :
    Quiesces (validate host disk none node).rt ↔ Quiesces node.rt ∧ Harmless node.rt := by
  rw [quiesces_quiet validate_polls]
  exact poll_quiesces_iff node.rt

theorem validate_quiesces (quiesces : Quiesces node.rt) (harmless : Harmless node.rt) :
    Quiesces (validate host disk thrown node).rt ∧ Harmless (validate host disk thrown node).rt := by
  refine validate_rt (fun rt => Quiesces rt ∧ Harmless rt) ?_ ?_ ⟨quiesces,harmless⟩
  · intro rt held
    exact ⟨(poll_quiesces_iff rt).mpr held,poll_harmless held.2⟩
  · intro before after quiet held
    exact ⟨(quiesces_quiet quiet).mpr held.1,(harmless_same quiet.toSameBake).mpr held.2⟩

def Silent (outcome : Outcome Node FillTask) : Prop :=
  match outcome with
  | .stopped after | .cached after => isActive after.rt.statusText = false
  | .ready _ _ => True

theorem prepareBake_silent (host : Host) (disk : Files) (validated : Option (Option Stop)) (node : Node) :
    Silent (prepareBake host disk validated node) := by
  rw [prepareBake]
  split
  · exact (by decide +kernel : isActive (ascii "Already cooking") = false)
  · dsimp only
    split
    · exact (by decide +kernel : isActive (ascii "Error: no source") = false)
    · exact (by decide +kernel : isActive (ascii "Error: no mask") = false)
    · split
      · exact (by decide +kernel : isActive (ascii "Error: empty source") = false)
      · split
        · exact (by decide +kernel : isActive (ascii "Already cached for this input") = false)
        · split
          · exact (by decide +kernel : isActive (ascii "Error: invalid inputs") = false)
          · trivial

theorem startBake_quiesces (host : Host) (disk : Files) (validated : Option (Option Stop)) (node : Node) :
    Quiesces (startBake host disk validated node).rt := by
  have silent := prepareBake_silent host disk validated node
  rw [startBake]
  cases outcome : prepareBake host disk validated node with
  | stopped after =>
    rw [outcome] at silent
    exact quiesces_inactive silent
  | cached after =>
    rw [outcome] at silent
    exact quiesces_inactive silent
  | ready after job => exact launch_quiesces

theorem clearCacheDir_quiesces (refused : Path → Bool) : Quiesces (clearCacheDir host refused node disk).1.rt := by
  unfold clearCacheDir
  dsimp only
  split
  · exact quiesces_inactive (by decide +kernel : isActive (ascii "Cache dir not set") = false)
  · split
    · exact quiesces_inactive (by decide +kernel : isActive (ascii "Cache dir does not exist") = false)
    · exact quiesces_inactive (clearedText_inactive _)

-- A press that an exception leaves keeps the text it found, but where it has
-- set its own.
theorem thrownBake_quiesces {stop : BakeStop} {after : Node} (unannounced : stop ≠ .announced)
    (inactive : stop = .hit ∨ isActive node.rt.statusText = false)
    (thrown : thrownBake host disk validated stop node = some after) : Quiesces after.rt := by
  obtain ⟨stopped,left⟩ := thrownBake_cases thrown
  have pressed : (pressNode host disk validated node).rt.statusText = node.rt.statusText :=
    (revalidate_quiet (setKnobs (setWorker node node.rt.worker.reset) (pressKnobs host node))
      (AiWorker.reset_idle stopped)).statusText
  apply quiesces_inactive
  rcases left with ⟨rfl,rfl⟩ | ⟨rfl,_,rfl⟩ | ⟨_,_,rfl⟩ | ⟨_,ready,job,_,⟨rfl,rfl⟩ | ⟨announced,_⟩⟩
  · exact inactive.resolve_left (by decide)
  · rw [pressed]
    exact inactive.resolve_left (by decide)
  · exact (by decide +kernel : isActive (ascii "Already cached for this input") = false)
  · show isActive (pressNode host disk validated node).rt.statusText = false
    rw [pressed]
    exact inactive.resolve_left (by decide)
  · contradiction

-- A status text saved to a script, and one shown for a failed bake, has no
-- marker in it; no exception leaves a press between its "Cooking 0%" and
-- worker_.start, or with a text with a marker that it has reset the worker of.
def TextsInactive (s : State) : ScriptAction Action → Prop
  | .reopen => isActive s.node.rt.statusText = false
  | .op (.validate _) => Harmless s.node.rt
  | .op (.bakeThrown _ stop) => stop ≠ .announced ∧ (stop = .hit ∨ isActive s.node.rt.statusText = false)
  | .op _ => True

structure Settled (host : Host) (s : State) : Prop where
  logged : s.node.rt.worker.Logged (backend host) (fun _ => True) s.bakes
  quiesces : Quiesces s.node.rt

theorem step_settled {s next : State} {action : Action} (settled : Settled host s)
    (harmless : TextsInactive s (.op action)) (ran : step host s action = some next) : Settled host next := by
  refine ⟨step_logged settled.logged (fun _ _ _ _ _ => trivial) ran,?_⟩
  cases action with
  | work w =>
    obtain ⟨worker,disk,wrote,worked,rfl⟩ := step_work ran
    exact work_quiesces settled.logged.carries.coherent worked
  | validate thrown =>
    cases ran
    exact (validate_quiesces settled.quiesces harmless).1
  | bake validated =>
    cases ran
    exact startBake_quiesces _ _ _ _
  | bakeThrown validated stop =>
    obtain ⟨after,thrown,rfl⟩ := step_thrown ran
    exact thrownBake_quiesces harmless.1 harmless.2 thrown
  | clearCache refused =>
    cases ran
    exact clearCacheDir_quiesces refused
  | edit _ | connect _ _ | files _ | cancel =>
    cases ran
    exact settled.quiesces

theorem guarded_settled {s : State} (path : Guarded (scripts host) TextsInactive s) : Settled host s := by
  refine Guarded.keeps (Settled host) path ?_ ?_
  · rintro s ⟨disk,rfl⟩
    have resting : isActive (ascii "(idle) press Bake to inpaint") = false := by decide +kernel
    exact ⟨AiWorker.logged_fresh,quiesces_inactive resting⟩
  · intro s action next settled inactive ran
    cases action with
    | op action => exact step_settled settled inactive ran
    | reopen =>
      cases ran
      exact ⟨AiWorker.logged_fresh,quiesces_inactive inactive⟩

-- A finished bake is shown as "Ready", and saved so.
theorem done_saves {s : State} (path : Guarded (scripts host) TextsInactive s) (done : s.node.rt.worker.state = .done) :
    (validate host s.disk none s.node).rt.statusText = ascii "Ready" ∧
    Guarded (scripts host) TextsInactive (reopened ⟨validate host s.disk none s.node,s.disk,s.bakes⟩) := by
  have text : (validate host s.disk none s.node).rt.statusText = ascii "Ready" :=
    validate_polls.statusText.trans (poll_done done)
  have shown : Guarded (scripts host) TextsInactive ⟨validate host s.disk none s.node,s.disk,s.bakes⟩ :=
    path.act (.op (.validate none)) (harmless_of done (by decide)) rfl
  refine ⟨text,shown.act .reopen ?_ rfl⟩
  show isActive (validate host s.disk none s.node).rt.statusText = false
  rw [text]
  decide +kernel

end AISmartFill

namespace AIGenerate
variable {host : Host} {disk : Files} {node : Node} {thrown : Option Stop} {chance : Chance}

theorem reopened_harmless (saved : Node) : Harmless (reopenedNode saved).rt := by
  intro error
  cases error

theorem validate_polls : Quiet (pollWorker host node).rt (validate host disk none node).rt := by
  rw [validate_normal]
  exact (setCurrentKey_quiet _).trans tryLoad_quiet

theorem validate_quiesces_iff :
    Quiesces (validate host disk none node).rt ↔ Quiesces node.rt ∧ Harmless node.rt := by
  rw [quiesces_quiet validate_polls]
  exact poll_quiesces_iff node.rt

theorem validate_quiesces (quiesces : Quiesces node.rt) (harmless : Harmless node.rt) :
    Quiesces (validate host disk thrown node).rt ∧ Harmless (validate host disk thrown node).rt := by
  refine validate_rt (fun rt => Quiesces rt ∧ Harmless rt) ?_ ?_ ⟨quiesces,harmless⟩
  · intro rt held
    exact ⟨(poll_quiesces_iff rt).mpr held,poll_harmless held.2⟩
  · intro before after quiet held
    exact ⟨(quiesces_quiet quiet).mpr held.1,(harmless_same quiet.toSameBake).mpr held.2⟩

def SilentText (text : Option Bytes) : Prop := ∀ status, text = some status → isActive status = false

theorem silent_if {p : Prop} [Decidable p] {text : Bytes} {rest : Option Bytes} (inactive : isActive text = false)
    (others : SilentText rest) : SilentText (if p then some text else rest) := by
  split
  · rintro status ⟨⟩
    exact inactive
  · exact others

theorem refusal_silent (host : Host) (disk : Files) (node : Node) : SilentText (refusal host disk node) := by
  unfold refusal
  dsimp only
  repeat refine silent_if (by decide +kernel) ?_
  intro status absent
  cases absent

theorem readImages_inactive {status : Bytes} (failed : readImages host disk chance node = .error status) :
    isActive status = false := by
  unfold readImages at failed
  repeat' split at failed
  all_goals cases failed
  · decide +kernel
  · decide +kernel

def Silent (outcome : Outcome Node SdJob) : Prop :=
  match outcome with
  | .stopped after | .cached after => isActive after.rt.statusText = false
  | .ready _ _ => True

theorem prepareBake_silent (host : Host) (disk : Files) (chance : Chance) (node : Node) :
    Silent (prepareBake host disk chance node).1 := by
  rw [prepareBake]
  split
  · exact (by decide +kernel : isActive (ascii "Already cooking") = false)
  · split
    · rename_i refused
      exact refusal_silent host disk node _ refused
    · split
      · rename_i failed
        exact readImages_inactive failed
      · dsimp only
        split
        · exact (by decide +kernel : isActive (ascii "Already cached for this input") = false)
        · trivial

theorem startBake_quiesces (host : Host) (disk : Files) (chance : Chance) (node : Node) :
    Quiesces (startBake host disk chance node).1.rt := by
  have silent := prepareBake_silent host disk chance node
  rw [startBake]
  cases outcome : prepareBake host disk chance node with
  | mk result made =>
    rw [outcome] at silent
    cases result with
    | stopped after => exact quiesces_inactive silent
    | cached after => exact quiesces_inactive silent
    | ready after job => exact launch_quiesces

theorem clearCacheOnDisk_quiesces (quiesces : Quiesces node.rt) (refused : Path → Bool) :
    Quiesces (clearCacheOnDisk host refused node disk).1.rt := by
  unfold clearCacheOnDisk
  dsimp only
  split
  · exact quiesces
  · split
    · exact quiesces_inactive (by decide +kernel : isActive (ascii "Cache dir does not exist") = false)
    · exact quiesces_inactive (clearedText_inactive _)

def TextsInactive (s : State) : ScriptAction Action → Prop
  | .reopen => isActive s.node.rt.statusText = false
  | .op (.validate _) => Harmless s.node.rt
  | .op _ => True

structure Settled (host : Host) (s : State) : Prop where
  logged : s.node.rt.worker.Logged host.backend (fun _ => True) s.bakes
  quiesces : Quiesces s.node.rt

theorem step_settled {s next : State} {action : Action} (settled : Settled host s)
    (harmless : TextsInactive s (.op action)) (ran : step host s action = some next) : Settled host next := by
  refine ⟨step_logged settled.logged (fun _ _ _ _ _ _ => trivial) ran,?_⟩
  cases action with
  | work w =>
    obtain ⟨worker,disk,wrote,worked,rfl⟩ := step_work ran
    exact work_quiesces settled.logged.carries.coherent worked
  | validate thrown =>
    cases ran
    exact (validate_quiesces settled.quiesces harmless).1
  | bake chance =>
    cases ran
    exact startBake_quiesces _ _ _ _
  | clearCache refused =>
    cases ran
    exact clearCacheOnDisk_quiesces settled.quiesces refused
  | edit _ | connect _ _ | files _ | cancel =>
    cases ran
    exact settled.quiesces

theorem guarded_settled {s : State} (path : Guarded (scripts host) TextsInactive s) : Settled host s := by
  refine Guarded.keeps (Settled host) path ?_ ?_
  · rintro s ⟨disk,rfl⟩
    exact ⟨AiWorker.logged_fresh,quiesces_inactive (by decide +kernel : isActive (ascii "(idle)") = false)⟩
  · intro s action next settled inactive ran
    cases action with
    | op action => exact step_settled settled inactive ran
    | reopen =>
      cases ran
      exact ⟨AiWorker.logged_fresh,quiesces_inactive inactive⟩

-- A finished bake is shown as "Ready", and saved so.
theorem done_saves {s : State} (path : Guarded (scripts host) TextsInactive s) (done : s.node.rt.worker.state = .done) :
    (validate host s.disk none s.node).rt.statusText = ascii "Ready" ∧
    Guarded (scripts host) TextsInactive (reopened ⟨validate host s.disk none s.node,s.disk,s.bakes⟩) := by
  have text : (validate host s.disk none s.node).rt.statusText = ascii "Ready" :=
    validate_polls.statusText.trans (poll_done done)
  have shown : Guarded (scripts host) TextsInactive ⟨validate host s.disk none s.node,s.disk,s.bakes⟩ :=
    path.act (.op (.validate none)) (harmless_of done (by decide)) rfl
  refine ⟨text,shown.act .reopen ?_ rfl⟩
  show isActive (validate host s.disk none s.node).rt.statusText = false
  rw [text]
  decide +kernel

end AIGenerate

namespace Quiescence

theorem polling_quiesces (fillHost : AISmartFill.Host) (host : AIGenerate.Host) :
    (∀ s, Reached (AISmartFill.scripts fillHost) s →
      (Quiesces (AISmartFill.validate fillHost s.disk none s.node).rt ↔ Quiesces s.node.rt ∧ Harmless s.node.rt)) ∧
    (∀ s, Guarded (AISmartFill.scripts fillHost) AISmartFill.TextsInactive s → Harmless s.node.rt →
      Quiesces (AISmartFill.validate fillHost s.disk none s.node).rt) ∧
    (∀ s, Reached (AIGenerate.scripts host) s →
      (Quiesces (AIGenerate.validate host s.disk none s.node).rt ↔ Quiesces s.node.rt ∧ Harmless s.node.rt)) ∧
    (∀ s, Guarded (AIGenerate.scripts host) AIGenerate.TextsInactive s → Harmless s.node.rt →
      Quiesces (AIGenerate.validate host s.disk none s.node).rt) := by
  refine ⟨?_,?_,?_,?_⟩
  · intro s _
    exact AISmartFill.validate_quiesces_iff
  · intro s path harmless
    exact AISmartFill.validate_quiesces_iff.mpr ⟨(AISmartFill.guarded_settled path).quiesces,harmless⟩
  · intro s _
    exact AIGenerate.validate_quiesces_iff
  · intro s path harmless
    exact AIGenerate.validate_quiesces_iff.mpr ⟨(AIGenerate.guarded_settled path).quiesces,harmless⟩

-- A bake under way, and one shown as done that the script is saved after.
theorem blackStart_cooks : ∃ s : AISmartFill.State,
    Guarded (AISmartFill.scripts AISmartFill.blackHost) AISmartFill.TextsInactive s ∧
    isActive s.node.rt.statusText = true ∧ Harmless s.node.rt := by
  have start : Guarded (AISmartFill.system AISmartFill.blackHost) (fun s a => AISmartFill.TextsInactive s (.op a))
      AISmartFill.blackStart := AISmartFill.blackNode_reached (fun _ => trivial) (fun _ _ => trivial)
  obtain ⟨node,err,started,running⟩ := AISmartFill.blackStart_works start trivial
  refine ⟨_,op_guarded running (fun _ _ => id),?_,@harmless_of _ _ _ .running rfl (by decide)⟩
  show isActive node.rt.statusText = true
  rw [started.statusText]
  decide +kernel

theorem blackStart_saves : ∃ s : AISmartFill.State, s.bakes ≠ [] ∧ s.node.rt.statusText = ascii "Ready" ∧
    Guarded (AISmartFill.scripts AISmartFill.blackHost) AISmartFill.TextsInactive (AISmartFill.reopened s) := by
  have start : Guarded (AISmartFill.system AISmartFill.blackHost) (fun s a => AISmartFill.TextsInactive s (.op a))
      AISmartFill.blackStart := AISmartFill.blackNode_reached (fun _ => trivial) (fun _ _ => trivial)
  obtain ⟨node,worker,disk,b,_,_,done,finished,_⟩ := AISmartFill.blackStart_bakes start trivial (fun _ _ => trivial)
  obtain ⟨text,shown⟩ := AISmartFill.done_saves (op_guarded finished (fun _ _ => id)) done
  exact ⟨_,List.cons_ne_nil _ _,text,shown⟩

theorem sdStart_cooks : ∃ s : AIGenerate.State,
    Guarded (AIGenerate.scripts AIGenerate.sdHost) AIGenerate.TextsInactive s ∧
    isActive s.node.rt.statusText = true ∧ Harmless s.node.rt := by
  have start : Guarded (AIGenerate.system AIGenerate.sdHost) (fun s a => AIGenerate.TextsInactive s (.op a))
      AIGenerate.sdStart := AIGenerate.sdStart_reached (fun _ _ => trivial)
  obtain ⟨images,running⟩ := AIGenerate.sdStart_works start trivial
  refine ⟨_,op_guarded running (fun _ _ => id),?_,@harmless_of _ _ _ .running rfl (by decide)⟩
  show isActive (ascii "Cooking 0%") = true
  decide +kernel

theorem zeroNode_saves : ∃ s : AIGenerate.State, s.bakes ≠ [] ∧ s.node.rt.statusText = ascii "Ready" ∧
    Guarded (AIGenerate.scripts AIGenerate.paintHost) AIGenerate.TextsInactive (AIGenerate.reopened s) := by
  obtain ⟨images,worker,disk,b,done,finished,_⟩ := @AIGenerate.zeroNode_bakes
    (fun s a => AIGenerate.TextsInactive s (.op a)) (fun _ _ => trivial) (fun _ _ => trivial) trivial
  obtain ⟨text,shown⟩ := AIGenerate.done_saves (op_guarded finished (fun _ _ => id)) done
  exact ⟨_,List.cons_ne_nil _ _,text,shown⟩

theorem polling_quiesces_baked :
    (∃ cooking s : AISmartFill.State, isActive cooking.node.rt.statusText = true ∧
      Quiesces (AISmartFill.validate AISmartFill.blackHost cooking.disk none cooking.node).rt ∧
      s.bakes ≠ [] ∧ s.node.rt.statusText = ascii "Ready" ∧
      Quiesces (AISmartFill.validate AISmartFill.blackHost s.disk none (AISmartFill.reopenedNode s.node)).rt) ∧
    ∃ cooking s : AIGenerate.State, isActive cooking.node.rt.statusText = true ∧
      Quiesces (AIGenerate.validate AIGenerate.sdHost cooking.disk none cooking.node).rt ∧
      s.bakes ≠ [] ∧ s.node.rt.statusText = ascii "Ready" ∧
      Quiesces (AIGenerate.validate AIGenerate.paintHost s.disk none (AIGenerate.reopenedNode s.node)).rt := by
  have quiet := polling_quiesces AISmartFill.blackHost AIGenerate.sdHost
  have painted := polling_quiesces AISmartFill.blackHost AIGenerate.paintHost
  constructor
  · obtain ⟨cooking,path,active,harmless⟩ := blackStart_cooks
    obtain ⟨s,baked,text,saved⟩ := blackStart_saves
    exact ⟨cooking,s,active,quiet.2.1 _ path harmless,baked,text,
      quiet.2.1 (AISmartFill.reopened s) saved (AISmartFill.reopened_harmless s.node)⟩
  · obtain ⟨cooking,path,active,harmless⟩ := sdStart_cooks
    obtain ⟨s,baked,text,saved⟩ := zeroNode_saves
    exact ⟨cooking,s,active,quiet.2.2.2 _ path harmless,baked,text,
      painted.2.2.2 (AIGenerate.reopened s) saved (AIGenerate.reopened_harmless s.node)⟩

-- Saved while a bake is cooking: the new node has the text and an idle worker.
theorem polling_endless :
    ¬ (∀ host s, Reached (AISmartFill.scripts host) s → Quiesces (AISmartFill.validate host s.disk none s.node).rt) ∧
    ¬ (∀ host s, Reached (AIGenerate.scripts host) s → Quiesces (AIGenerate.validate host s.disk none s.node).rt) := by
  have cooking : isActive (ascii "Cooking 0%") = true := by decide +kernel
  constructor
  · intro claim
    have start : Reached (AISmartFill.system AISmartFill.blackHost) AISmartFill.blackStart :=
      AISmartFill.blackNode_reached (fun _ => trivial) (fun _ _ => trivial)
    have pressed := start.act (.bake none) trivial rfl
    have path : Reached (AISmartFill.scripts AISmartFill.blackHost) _ := op_guarded pressed (fun _ _ _ => trivial)
    have quiet := AISmartFill.validate_quiesces_iff.mp (claim _ _ (path.act .reopen trivial rfl))
    have text : (AISmartFill.startBake AISmartFill.blackHost Disk.empty none AISmartFill.blackStart.node).rt.statusText =
        ascii "Cooking 0%" := by
      have passes : AISmartFill.InputsPass AISmartFill.blackStart.node AISmartFill.blackPixel AISmartFill.blackPixel :=
        AISmartFill.blackNode_passes _ _
      rw [AISmartFill.startBake_miss (by decide) passes (AISmartFill.fileExists_empty _)]
      rfl
    exact quiet.1 ((congrArg isActive text).trans cooking) rfl
  · intro claim
    have start : Reached (AIGenerate.system AIGenerate.sdHost) AIGenerate.sdStart :=
      AIGenerate.sdStart_reached (fun _ _ => trivial)
    have pressed := start.act (.bake AIGenerate.sdChance) trivial rfl
    have path : Reached (AIGenerate.scripts AIGenerate.sdHost) _ := op_guarded pressed (fun _ _ _ => trivial)
    have quiet := AIGenerate.validate_quiesces_iff.mp (claim _ _ (path.act .reopen trivial rfl))
    have text : (AIGenerate.startBake AIGenerate.sdHost AIGenerate.sdDisk AIGenerate.sdChance
        AIGenerate.sdStart.node).1.rt.statusText = ascii "Cooking 0%" := by
      obtain ⟨images,_,started⟩ := AIGenerate.startBake_launches AIGenerate.sdStart_launches
      rw [started]
      rfl
    exact quiet.1 ((congrArg isActive text).trans cooking) rfl

end Quiescence

end SmartFill
