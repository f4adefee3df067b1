import SmartFill.Exact
import SmartFill.LamaSession
import SmartFill.Lib.Once

namespace SmartFill.LamaSession
open Transition Once

-- What the system and ONNX Runtime answer to one initialize(): the text of
-- whatever is thrown, or what the stage gives.
structure Attempt where
  env : Option Bytes
  cuda : Bool
  widened : Bool
  load : Option Bytes
  inputs : List Bytes
  inputsEnd : Option Bytes
  outputs : List Bytes
  outputsEnd : Option Bytes

structure Impl where
  activeBackend : LamaBackend
  session : Bool
  inputNames : List Bytes
  outputNames : List Bytes
  initError : Option Bytes

-- The constructor loads nothing; the backend it reports is not the preferred
-- one.
def blank : Impl := ⟨.cpu,false,[],[],none⟩

-- A refused CUDA provider is no error.
def withBackend (session : LamaSession) (a : Attempt) (impl : Impl) : Impl :=
  if session.backend = .cuda then {impl with activeBackend := if a.cuda then .cuda else .cpu} else impl

def checkNames (impl : Impl) : Option Bytes :=
  if impl.inputNames.length < 2 ∨ impl.outputNames = [] then
    some (ascii "LamaSession: model has unexpected I/O shape (" ++ natText impl.inputNames.length ++ ascii " inputs, " ++
      natText impl.outputNames.length ++ ascii " outputs); expected >=2 in, >=1 out")
  else none

def discover (a : Attempt) (impl : Impl) : Impl × Option Bytes :=
  let impl := {impl with inputNames := impl.inputNames ++ a.inputs}
  match a.inputsEnd with
  | some what => (impl,some what)
  | none =>
    let impl := {impl with outputNames := impl.outputNames ++ a.outputs}
    match a.outputsEnd with
    | some what => (impl,some what)
    | none => (impl,checkNames impl)

-- What is set before a throw stays set.
def implInitialize (session : LamaSession) (a : Attempt) (impl : Impl) : Impl × Option Bytes :=
  match a.env with
  | some what => (impl,some what)
  | none =>
    let impl := withBackend session a impl
    if !a.widened then (impl,some (ascii "LamaSession: failed to convert model path to wide string")) else
    match a.load with
    | some what => (impl,some (ascii "LamaSession: failed to load model: " ++ what))
    | none => discover a {impl with session := true}

-- The callable of call_once catches whatever initialize() throws.
def attempt (session : LamaSession) (a : Attempt) (impl : Impl) : Impl :=
  match implInitialize session a impl with
  | (impl,none) => impl
  | (impl,some what) => {impl with initError := some what}

variable {F : Type}

-- The part of run() behind ensure_initialized().
def infer (ops : FloatOps F) (answer : Except Bytes (List (Tensor F))) : Except Bytes (List F) :=
  match answer with
  | .error what => .error (ascii "LamaSession::run: inference failed: " ++ what)
  | .ok [] => .error (ascii "LamaSession::run: no outputs returned")
  | .ok (output :: _) =>
    if output.shape = expectedShape then .ok (outHwc ops output.data)
    else .error (ascii "LamaSession::run: unexpected output shape " ++ shapeText output.shape ++
      ascii ", expected " ++ shapeText expectedShape)

structure Call (F : Type) where
  rgb : List F
  mask : List F

-- A call that returned or threw, its place among those of the session, and the
-- answer of Session::Run. No outcome is that of a null session.
structure Finished (F : Type) where
  call : Call F
  number : Nat
  answer : Except Bytes (List (Tensor F))
  outcome : Option (Except Bytes (List F))

structure Shared (F : Type) where
  impl : Impl
  served : Nat
  log : List (Finished F)

def fresh : Shared F := ⟨blank,0,[]⟩

def outcome (ops : FloatOps F) (impl : Impl) (answer : Except Bytes (List (Tensor F))) : Option (Except Bytes (List F)) :=
  match impl.initError with
  | some what => some (.error what)
  | none => if impl.session then some (infer ops answer) else none

def body (ops : FloatOps F) (session : LamaSession) : Body (Call F) (Shared F) Attempt (Except Bytes (List (Tensor F))) where
  once a shared := ({shared with impl := attempt session a shared.impl},false)
  work call shared answer :=
    some (none,⟨shared.impl,shared.served+1,⟨call,shared.served,answer,outcome ops shared.impl answer⟩ :: shared.log⟩)

-- The threads that call run() on one session.
abbrev callers (ι : Type) [DecidableEq ι] (ops : FloatOps F) (session : LamaSession) :
    System (Threads ι (Call F) (Shared F)) (Σ _ : ι, Act (Call F) Attempt (Except Bytes (List (Tensor F)))) :=
  threads ι (body ops session) (· = fresh)

def initialized (session : LamaSession) (a : Attempt) : Except Bytes Unit :=
  match (implInitialize session a blank).2 with
  | none => .ok ()
  | some what => .error what

-- What holds of the session once an attempt was made: it is as the attempt left
-- it, and every call so far went by it.
structure Settled (ops : FloatOps F) (session : LamaSession) (a : Attempt) (shared : Shared F) : Prop where
  impl : shared.impl = attempt session a blank
  outcomes : ∀ c ∈ shared.log, c.outcome = some (initialized session a >>= fun _ => infer ops c.answer)
  below : ∀ c ∈ shared.log, c.number < shared.served
  numbered : (shared.log.map Finished.number).Nodup

variable {ops : FloatOps F} {session : LamaSession} {a : Attempt}

-- Without an error there is a session to run.
theorem implInitialize_session (impl : Impl) (ok : (implInitialize session a impl).2 = none) :
    (implInitialize session a impl).1.session = true := by
  unfold implInitialize at ok ⊢
  split
  · simp_all
  · split
    · simp_all
    · split
      · simp_all
      · unfold discover
        dsimp only
        split
        · rfl
        · split <;> rfl

theorem implInitialize_error (impl : Impl) : (implInitialize session a impl).1.initError = impl.initError := by
  have backend : (withBackend session a impl).initError = impl.initError := by
    unfold withBackend
    split <;> rfl
  unfold implInitialize
  split
  · rfl
  · dsimp only
    split
    · exact backend
    · split
      · exact backend
      · unfold discover
        dsimp only
        split
        · exact backend
        · split <;> exact backend

theorem outcome_attempt (answer : Except Bytes (List (Tensor F))) :
    outcome ops (attempt session a blank) answer = some (initialized session a >>= fun _ => infer ops answer) := by
  have error : (implInitialize session a blank).1.initError = none := implInitialize_error blank
  unfold outcome attempt initialized
  rcases ended : implInitialize session a blank with ⟨impl,_ | what⟩
  · have loaded := implInitialize_session blank (congrArg Prod.snd ended)
    rw [ended] at error loaded
    simp only at error loaded
    simp [error,loaded,bind,Except.bind]
  · rfl

theorem settled_attempt (a : Attempt) : Settled ops session a ⟨attempt session a blank,0,[]⟩ :=
  ⟨rfl,by simp,by simp,List.nodup_nil⟩

theorem settled_work {shared : Shared F} (settled : Settled ops session a shared) (call : Call F)
    (answer : Except Bytes (List (Tensor F))) : Settled ops session a ⟨shared.impl,shared.served+1,
      ⟨call,shared.served,answer,outcome ops shared.impl answer⟩ :: shared.log⟩ := by
  refine ⟨settled.impl,fun c member => ?_,fun c member => ?_,?_⟩
  · rcases List.mem_cons.mp member with rfl | member
    · rw [settled.impl]
      exact outcome_attempt answer
    · exact settled.outcomes c member
  · rcases List.mem_cons.mp member with rfl | member
    · exact Nat.lt_succ_self _
    · exact Nat.lt_succ_of_lt (settled.below c member)
  · refine List.nodup_cons.mpr ⟨fun member => ?_,settled.numbered⟩
    obtain ⟨c,member,same⟩ := List.mem_map.mp member
    exact absurd same (settled.below c member).ne

section Runs
variable {ι : Type} [DecidableEq ι] {s later : Threads ι (Call F) (Shared F)}
  {permitted : Threads ι (Call F) (Shared F) → (Σ _ : ι, Act (Call F) Attempt (Except Bytes (List (Tensor F)))) → Prop}

theorem callers_settled (known : Attempt → Prop) (told : Finished F → Prop)
    (permits : ∀ s i a, permitted s ⟨i,.finish a⟩ → known a)
    (tells : ∀ s i call answer, permitted s ⟨i,.work answer⟩ → s.locals i = .past call →
      told ⟨call,s.store.2.served,answer,outcome ops s.store.2.impl answer⟩)
    (path : Guarded (callers ι ops session) permitted s) :
    if s.store.1 = .ready then ∃ a, known a ∧ Settled ops session a s.store.2 ∧ ∀ c ∈ s.store.2.log, told c
    else s.store.2 = fresh := by
  apply once_rule (fun shared : Shared F => shared = fresh)
    (fun shared => ∃ a, known a ∧ Settled ops session a shared ∧ ∀ c ∈ shared.log, told c) path
  · exact fun _ => id
  · intro s i a shared permitted before done
    cases done
    rw [before]
    exact ⟨a,permits s i a permitted,settled_attempt a,nofun⟩
  · intro s i a shared _ _ done
    cases done
  · intro s i call answer next shared permitted calls ⟨a,known,settled,before⟩ done
    cases done
    refine ⟨a,known,settled_work settled call answer,fun c member => ?_⟩
    rcases List.mem_cons.mp member with rfl | member
    · exact tells s i call answer permitted calls
    · exact before c member

-- Once ready the flag stays so, and nothing but the calls behind it moves the
-- object.
theorem ready_settled (ready : s.store.1 = .ready ∧ Settled ops session a s.store.2) (ruled : Ruled s)
    {act : Σ _ : ι, Act (Call F) Attempt (Except Bytes (List (Tensor F)))}
    (ran : (callers ι ops session).step s act = some later) :
    later.store.1 = .ready ∧ Settled ops session a later.store.2 := by
  obtain ⟨moved,stepped,rfl⟩ := threads_step ran
  obtain ⟨locals,flag,shared⟩ := s
  simp only at stepped ready
  generalize was : locals act.1 = l at stepped
  generalize act.2 = what at stepped
  cases stepped with
  | enter => exact ready
  | start => exact nomatch ready.1
  | pass => exact ready
  | threw done => cases done
  | finish _ =>
    have busy := ruled.busy.mpr ⟨_,_,was⟩
    exact nomatch busy.symm.trans ready.1
  | work done =>
    cases done
    exact ⟨ready.1,settled_work ready.2 _ _⟩

-- No call can be left hanging: whatever the others do with the flag meanwhile,
-- there is a way on to its end.
theorem session_progress (path : Reached (callers ι ops session) s) (i : ι) (call : Call F)
    (answer : Except Bytes (List (Tensor F)))
    (called : s.locals i = .waiting call ∨ s.locals i = .inside call ∨ s.locals i = .past call) :
    ∃ later c, Leads (callers ι ops session) s later ∧ later.locals i = .away ∧ c ∈ later.store.2.log ∧ c.call = call ∧
      c.answer = answer := by
  have settles (shared : Shared F) : ∃ a after, (body ops session).once a shared = (after,false) :=
    ⟨⟨none,false,true,none,[],none,[],none⟩,_,rfl⟩
  obtain ⟨middle,leads,past⟩ := leads_past (threads_ruled path) settles called
  obtain ⟨locals,flag,shared⟩ := middle
  have ran : Once.step (body ops session) (locals i) (flag,shared) (.work answer) = some (.away,flag,
      ⟨shared.impl,shared.served+1,⟨call,shared.served,answer,outcome ops shared.impl answer⟩ :: shared.log⟩) := by
    rw [show locals i = .past call from past]
    rfl
  exact ⟨_,_,leads.trans (move_leads ran),Function.update_self ..,List.mem_cons_self,rfl,rfl⟩

-- The model is loaded at most once, whoever comes first, and every call of
-- every thread goes by what came of it.
theorem session_once (path : Reached (callers ι ops session) s) : (s.store.1 ≠ .ready → s.store.2 = fresh) ∧
    (s.store.1 = .ready → ∃ a, ∀ later, Leads (callers ι ops session) s later →
      later.store.1 = .ready ∧ later.store.2.impl = attempt session a blank ∧
        ∀ c ∈ later.store.2.log, c.outcome = some (initialized session a >>= fun _ => infer ops c.answer)) := by
  have settled := callers_settled (fun _ => True) (fun _ => True) (fun _ _ _ _ => trivial) (fun _ _ _ _ _ _ => trivial) path
  constructor
  · intro early
    rwa [if_neg early] at settled
  · intro ready
    rw [if_pos ready] at settled
    obtain ⟨a,_,settled,_⟩ := settled
    refine ⟨a,fun later leads => ?_⟩
    have lasts := leads.keeps (fun s => Ruled s ∧ s.store.1 = .ready ∧ Settled ops session a s.store.2)
      ⟨threads_ruled path,ready,settled⟩ ?_
    · exact ⟨lasts.2.1,lasts.2.2.impl,lasts.2.2.outcomes⟩
    · intro s act next ⟨ruled,now⟩ ran
      obtain ⟨moved,stepped,is⟩ := threads_step ran
      exact ⟨is ▸ ruled_step ruled stepped,ready_settled now ruled ran⟩

-- The failures that are those of loading a model.
structure Plain (a : Attempt) : Prop where
  env : a.env = none
  widened : a.widened = true
  inputsEnd : a.inputsEnd = none
  outputsEnd : a.outputsEnd = none

def loadOf (a : Attempt) : Except Bytes (Nat × Nat) :=
  match a.load with
  | some what => .error what
  | none => .ok (a.inputs.length,a.outputs.length)

-- One ONNX Runtime for the whole run: it loads the model as it does, and
-- answers every call by its number and by what is put in.
def Serves (ops : FloatOps F) (onnx : Onnx F) (session : LamaSession) (s : Threads ι (Call F) (Shared F))
    (act : Σ _ : ι, Act (Call F) Attempt (Except Bytes (List (Tensor F)))) : Prop :=
  (∀ a, act.2 = .finish a → Plain a ∧ onnx.load session = loadOf a) ∧
  ∀ answer call, act.2 = .work answer → s.locals act.1 = .past call →
    answer = onnx.run session s.store.2.served (imgChw ops call.rgb) (call.mask.take (kImageSize*kImageSize))

theorem plain_initialized {onnx : Onnx F} (plain : Plain a) (loads : onnx.load session = loadOf a) :
    initialized session a = ensureInitialized onnx session := by
  have backend : (withBackend session a blank).inputNames = [] ∧ (withBackend session a blank).outputNames = [] := by
    unfold withBackend
    split <;> exact ⟨rfl,rfl⟩
  unfold initialized implInitialize ensureInitialized
  rw [loads]
  simp only [plain.env,plain.widened,Bool.not_true,Bool.false_eq_true,if_false,loadOf]
  cases a.load with
  | some what => rfl
  | none =>
    simp only [discover,plain.inputsEnd,plain.outputsEnd,checkNames,backend,List.nil_append,List.length_eq_zero_iff]
    split_ifs <;> rfl

theorem run_infer (onnx : Onnx F) (number : Nat) (rgb mask : List F) : run ops onnx session number rgb mask =
    (ensureInitialized onnx session >>= fun _ => infer ops (onnx.run session number (imgChw ops rgb)
      (mask.take (kImageSize*kImageSize)))) := by
  unfold run infer
  apply bind_congr
  intro _
  generalize onnx.run session number (imgChw ops rgb) (mask.take (kImageSize*kImageSize)) = answer
  rcases answer with what | _ | ⟨output,_⟩
  · rfl
  · rfl
  · rfl

-- Threads that share a session see what one caller after another would see of a
-- model that is loaded for each call anew.
theorem session_refines (onnx : Onnx F) (path : Guarded (callers ι ops session) (Serves ops onnx session) s) :
    (s.store.2.log.map Finished.number).Nodup ∧
    ∀ c ∈ s.store.2.log, c.outcome = some (run ops onnx session c.number c.call.rgb c.call.mask) := by
  have settled := callers_settled (fun a => Plain a ∧ onnx.load session = loadOf a)
    (fun c => c.answer = onnx.run session c.number (imgChw ops c.call.rgb) (c.call.mask.take (kImageSize*kImageSize)))
    (fun _ _ a permitted => permitted.1 a rfl) (fun _ _ call answer permitted => permitted.2 answer call rfl) path
  split at settled
  · obtain ⟨a,⟨plain,loads⟩,settled,answered⟩ := settled
    refine ⟨settled.numbered,fun c member => ?_⟩
    rw [settled.outcomes c member,run_infer,plain_initialized plain loads,answered c member]
  · rw [settled]
    exact ⟨List.nodup_nil,fun c member => nomatch member⟩

end Runs

section TwoCallers

def bigLama : LamaSession := ⟨ascii "big-lama.onnx",.cuda⟩
def bigLamaLoads : Attempt :=
  ⟨none,true,true,none,[ascii "image",ascii "mask"],none,[ascii "output"],none⟩

def emptyCall : Call Rat := ⟨[],[]⟩

abbrev TwoCallers := Threads Bool (Call Rat) (Shared Rat)

-- One thread waits while the other loads the model; then both infer.
theorem two_callers (permitted : TwoCallers → (Σ _ : Bool, Act (Call Rat) Attempt (Except Bytes (List (Tensor Rat)))) → Prop)
    (permits : ∀ s act, (∀ a, act.2 = .finish a → a = bigLamaLoads) → permitted s act) :
    ∃ s : TwoCallers, Guarded (callers Bool exactOps bigLama) permitted s ∧ s.locals false = .waiting emptyCall ∧
      ∃ s' : TwoCallers, Guarded (callers Bool exactOps bigLama) permitted s' ∧ s'.store.1 = .ready ∧
        s'.store.2.log.length = 2 := by
  have begun : Guarded (callers Bool exactOps bigLama) permitted ⟨fun _ => .away,.fresh,fresh⟩ :=
    .initial ⟨fun _ => rfl,rfl,rfl⟩
  have first := begun.act ⟨true,.enter emptyCall⟩ (permits _ _ (by simp)) rfl
  have second := first.act ⟨false,.enter emptyCall⟩ (permits _ _ (by simp)) rfl
  have inside := second.act ⟨true,.start⟩ (permits _ _ (by simp)) rfl
  have loaded := inside.act ⟨true,.finish bigLamaLoads⟩ (permits _ _ (by simp)) rfl
  have passed := loaded.act ⟨false,.pass⟩ (permits _ _ (by simp)) rfl
  have one := passed.act ⟨false,.work (.ok [])⟩ (permits _ _ (by simp)) rfl
  have both := one.act ⟨true,.work (.error (ascii "out of memory"))⟩ (permits _ _ (by simp)) rfl
  exact ⟨_,inside,rfl,_,both,rfl,rfl⟩

theorem session_progress_two : ∃ (s later : TwoCallers) (c : Finished Rat), s.locals false = .waiting emptyCall ∧
    Leads (callers Bool exactOps bigLama) s later ∧ later.locals false = .away ∧ c ∈ later.store.2.log ∧
      c.call = emptyCall ∧ c.answer = .ok [] := by
  obtain ⟨s,path,waits,_⟩ := two_callers (fun _ _ => True) (fun _ _ _ => trivial)
  obtain ⟨later,c,progress⟩ := session_progress path false emptyCall (.ok []) (.inl waits)
  exact ⟨s,later,c,waits,progress⟩

theorem session_once_two : ∃ (s : TwoCallers) (a : Attempt), s.store.2.log.length = 2 ∧
    s.store.2.impl = attempt bigLama a blank ∧
      ∀ c ∈ s.store.2.log, c.outcome = some (initialized bigLama a >>= fun _ => infer exactOps c.answer) := by
  obtain ⟨_,_,_,s,path,ready,length⟩ := two_callers (fun _ _ => True) (fun _ _ _ => trivial)
  obtain ⟨a,lasts⟩ := (session_once path).2 ready
  exact ⟨s,a,length,(lasts s .refl).2⟩

-- A runtime that gives the image back, and gives up after the first call.
def echo : Onnx Rat where
  load _ := .ok (2,1)
  run _ number img _ := if number = 0 then .ok [⟨expectedShape,img⟩] else .error (ascii "out of memory")

theorem session_refines_two : ∃ s : TwoCallers, s.store.2.log.length = 2 ∧
    ∀ c ∈ s.store.2.log, c.outcome = some (run exactOps echo bigLama c.number c.call.rgb c.call.mask) := by
  let white : Call Rat := ⟨List.replicate (512*512*3) 1,[]⟩
  let echoed (number : Nat) (call : Call Rat) := echo.run bigLama number (imgChw exactOps call.rgb)
    (call.mask.take (kImageSize*kImageSize))
  have begun : Guarded (callers Bool exactOps bigLama) (Serves exactOps echo bigLama) ⟨fun _ => .away,.fresh,fresh⟩ :=
    .initial ⟨fun _ => rfl,rfl,rfl⟩
  have first := begun.act ⟨true,.enter emptyCall⟩ ⟨nofun,nofun⟩ rfl
  have second := first.act ⟨false,.enter white⟩ ⟨nofun,nofun⟩ rfl
  have inside := second.act ⟨true,.start⟩ ⟨nofun,nofun⟩ rfl
  have loaded := inside.act ⟨true,.finish bigLamaLoads⟩ ⟨by rintro a ⟨⟩; exact ⟨⟨rfl,rfl,rfl,rfl⟩,rfl⟩,nofun⟩ rfl
  have passed := loaded.act ⟨false,.pass⟩ ⟨nofun,nofun⟩ rfl
  have one := passed.act ⟨false,.work (echoed 0 white)⟩ ⟨nofun,by rintro answer call ⟨⟩ ⟨⟩; rfl⟩ rfl
  have both := one.act ⟨true,.work (echoed 1 emptyCall)⟩ ⟨nofun,by rintro answer call ⟨⟩ ⟨⟩; rfl⟩ rfl
  exact ⟨_,rfl,(session_refines echo both).2⟩

end TwoCallers

end SmartFill.LamaSession
