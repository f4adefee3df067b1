import SmartFill.BakeTask
import SmartFill.WorkerCycle

namespace SmartFill

open Transition JobCycle WorkerCycle

-- The worker the nodes are modelled with takes each call in one step. It is
-- what the two threads amount to: start() happens at its compare-exchange and
-- reset() at its load, and the statements after them change nothing it shows.
namespace WorkerView
variable {R : Type}

inductive Acts : AiWorker R → AiWorker R → Prop where
  | start : w.state = .idle → Acts w (w.start task).1
  | cancel : Acts w w.cancel
  | reset : Acts w w.reset
  | setProgress : w.thread = .body task → Acts w {w with context := w.context.setProgress p}
  | setStatusText : w.thread = .body task → Acts w {w with context := w.context.setStatusText text}
  | returns : w.thread = .body task → Acts w {w with thread := .ended task (finalState w.context) []}
  | throws : w.thread = .body task → Acts w {w with thread := .ended task .error err}
  | storeError : w.thread = .ended task final err →
      Acts w {w with errorMessage := if final = .error then err else w.errorMessage,thread := .publishing task final}
  | publish : w.thread = .publishing task final → Acts w {w with state := final,thread := .exited task}

def seen (thread : RunThread R) : Thread R :=
  match thread.phase with
  | .created | .body | .returned => .body thread.task
  | .ended final err => .ended thread.task final err
  | .stored final => .publishing thread.task final
  | .published | .exited => .exited thread.task

def view (s : WorkerThreads R) : AiWorker R :=
  match s.main with
  | .starting task _ _ => ⟨.running,⟨F32.zero,false,ascii "Starting"⟩,s.errorMessage,.body task⟩
  | .resetting _ => ⟨.idle,⟨F32.zero,s.context.cancelRequest,[]⟩,[],.none⟩
  | _ =>
    ⟨s.state,s.context,s.errorMessage,
      if s.state = .idle then .none else (s.threads.getLast?.map seen).getD .none⟩

-- What the statements of start() and reset() have done to the context so far.
def Prepared : Main R → AiWorkerContext → Prop
  | .starting _ _ .setProgress,c => c.cancelRequest = false
  | .starting _ _ .setStatusText,c => c.cancelRequest = false ∧ c.progress = F32.zero
  | .starting _ _ .join,c | .starting _ _ .spawn,c => c = ⟨F32.zero,false,ascii "Starting"⟩
  | .resetting .setStatusText,c => c.progress = F32.zero
  | .resetting .store,c => c.progress = F32.zero ∧ c.statusText = []
  | _,_ => True

theorem view_calm {s : WorkerThreads R} (handle : Option Nat) (calm : s.main.Calm handle) : view s =
    ⟨s.state,s.context,s.errorMessage,if s.state = .idle then .none else (s.threads.getLast?.map seen).getD .none⟩ := by
  obtain ⟨state,context,msg,threads,held,main,history⟩ := s
  cases main with
  | starting _ _ _ | resetting _ => cases calm
  | _ => rfl

theorem view_live {s : WorkerThreads R} (handle : Option Nat) (calm : s.main.Calm handle) (busy : s.state ≠ .idle)
    (last : s.threads = old ++ [thread]) : view s = ⟨s.state,s.context,s.errorMessage,seen thread⟩ := by
  rw [view_calm handle calm,if_neg busy,last,List.getLast?_concat]
  rfl

theorem prepared_calm {main : Main R} (calm : main.Calm handle ∨ main = .resetting .join) (context : AiWorkerContext) :
    Prepared main context := by
  cases main with
  | starting _ _ _ => rcases calm with calm | calm <;> cases calm
  | resetting _ =>
      rcases calm with calm | calm
      · cases calm
      · cases calm
        exact True.intro
  | _ => exact True.intro

theorem settled_busy {final : AiWorkerState} (fitting : TaskEnd.fits outcome final) : final ≠ .idle := by
  rintro rfl
  cases TaskEnd.fits_terminal fitting

def Shows (s next : WorkerThreads R) : Prop := view next = view s ∨ Acts (view s) (view next)

theorem call_shows {s : WorkerThreads R} (stage : Stage s slot) (ready : s.main = .ready) (c : MainCall R) :
    Shows s (s.call c) := by
  cases stage with
  | idle _ _ =>
      cases ready
      cases c with
      | start task => exact .inr (.start rfl)
      | cancel | destroy => exact .inr .cancel
      | join | reset | state | errorMessage | progress | statusText => exact .inl rfl
  | starting _ | clearing _ _ _ _ => cases ready
  | active _ _ _ =>
      cases ready
      cases c with
      | cancel | destroy => exact .inr .cancel
      | start _ | join | reset | state | errorMessage | progress | statusText => exact .inl rfl
  | @settled _ _ _ final _ _ _ _ _ _ _ _ fitting _ _ =>
      cases ready
      have terminal := TaskEnd.fits_terminal fitting
      cases final with
      | idle | running => cases terminal
      | done | error | cancelled =>
          cases c with
          | cancel | destroy => exact .inr .cancel
          | reset => exact .inr .reset
          | start _ | join | state | errorMessage | progress | statusText => exact .inl rfl

theorem joined_shows {s next : WorkerThreads R} {main : Main R} (joined : s.joined = some next)
    (calm : s.main.Calm s.handle) (calm' : main.Calm none) : view {next with main := main} = view s := by
  obtain ⟨rfl,_⟩ := joined_cases joined
  rw [view_calm s.handle calm]
  exact view_calm none calm'

theorem proceed_shows {s next : WorkerThreads R} (stage : Stage s slot) (prepared : Prepared s.main s.context)
    (ran : s.proceed = some next) : view next = view s := by
  cases stage with
  | @idle threads context main history _ calm =>
      cases main with
      | ready | destroyed => cases ran
      | joining | destroying =>
          cases ran
          rfl
      | starting _ _ _ | resetting _ | terminated => cases calm
  | @starting threads context task statement history _ =>
      cases statement with
      | clearCancel | setProgress | setStatusText | join =>
          cases ran
          rfl
      | spawn =>
          cases ran
          cases prepared
          refine (view_live none ?_ ?_ rfl).trans rfl
          · exact True.intro
          · exact nofun
  | @active old task phase msg slot context main history _ calm doing =>
      cases main with
      | ready => cases ran
      | joining | destroying =>
          obtain ⟨middle,joined,_⟩ := Option.map_eq_some_iff.mp ran
          exact absurd (joined_exited rfl rfl joined) (doing_unexited doing)
      | destroyed | starting _ _ _ | resetting _ | terminated => cases calm
  | @settled old main _ _ _ _ handle _ _ _ _ calm _ _ _ =>
      rcases calm with calm | rfl
      · cases main with
        | ready | destroyed => cases ran
        | joining =>
            obtain ⟨middle,joined,rfl⟩ := Option.map_eq_some_iff.mp ran
            exact joined_shows joined calm True.intro
        | destroying =>
            obtain ⟨middle,joined,rfl⟩ := Option.map_eq_some_iff.mp ran
            exact joined_shows joined calm rfl
        | starting _ _ _ | resetting _ | terminated => cases calm
      · cases joined_then ran
        rfl
  | @clearing threads statement msg _ _ context history _ _ later message _ =>
      cases statement with
      | join => contradiction
      | clearError | setProgress | setStatusText =>
          cases ran
          rfl
      | store =>
          cases message nofun
          cases ran
          obtain ⟨progress,cancelRequest,statusText⟩ := context
          obtain ⟨rfl,rfl⟩ := prepared
          rfl

theorem Shows.act {s next : WorkerThreads R} (handle : Option Nat) (calm : next.main.Calm handle)
    (busy : next.state ≠ .idle) (last : next.threads = old ++ [thread])
    (acted : Acts (view s) ⟨next.state,next.context,next.errorMessage,seen thread⟩) : Shows s next := by
  refine .inr ?_
  rw [view_live handle calm busy last]
  exact acted

theorem Shows.same {s next : WorkerThreads R} (handle : Option Nat) (calm : next.main.Calm handle)
    (busy : next.state ≠ .idle) (last : next.threads = old ++ [thread])
    (same : view s = ⟨next.state,next.context,next.errorMessage,seen thread⟩) : Shows s next :=
  .inl ((view_live handle calm busy last).trans same.symm)

theorem active_shows {s next : WorkerThreads R} (calm : s.main.Calm (some old.length))
    (doing : Doing task phase s.errorMessage slot) (running : s.state = .running)
    (last : s.threads = old ++ [⟨task,phase⟩]) (ran : s.runStep old.length task phase action = some next) :
    Shows s next := by
  have busy : s.state ≠ .idle := by rw [running]; nofun
  have now := view_live _ calm busy last
  obtain ⟨state,context,msg,threads,handle,main,history⟩ := s
  cases running
  cases last
  cases doing with
  | created =>
      cases action with
      | enter =>
          cases ran
          rw [seat_last rfl]
          exact .same _ calm nofun rfl now
      | _ => cases ran
  | body =>
      cases action with
      | setProgress p =>
          cases ran
          refine .act _ calm nofun rfl ?_
          rw [now]
          exact .setProgress rfl
      | setStatusText text =>
          cases ran
          refine .act _ calm nofun rfl ?_
          rw [now]
          exact .setStatusText rfl
      | requestCancel =>
          cases ran
          refine .act _ calm nofun rfl ?_
          rw [now]
          exact .cancel
      | leave outcome =>
          cases outcome with
          | returned =>
              cases ran
              rw [seat_last rfl]
              exact .same _ calm nofun rfl now
          | threw _ | unknown =>
              cases ran
              rw [seat_last rfl]
              refine .act _ calm nofun rfl ?_
              rw [now]
              exact .throws rfl
      | _ => cases ran
  | returned =>
      cases action with
      | shouldCancel =>
          cases ran
          rw [seat_last rfl]
          refine .act _ calm nofun rfl ?_
          rw [now]
          exact .returns rfl
      | _ => cases ran
  | ended fitting message =>
      obtain ⟨rfl,rfl⟩ := runStep_ended ran
      rw [seat_last rfl]
      refine .act _ calm nofun rfl ?_
      rw [now]
      exact .storeError rfl
  | stored fitting message =>
      cases action with
      | storeState =>
          cases ran
          rw [seat_last rfl]
          refine .act _ calm (settled_busy fitting) rfl ?_
          rw [now]
          exact .publish rfl
      | _ => cases ran

theorem run_shows {s next : WorkerThreads R} (stage : Stage s slot) (ran : s.step (.run tid action) = some next) :
    Shows s next := by
  cases stage with
  | idle retired _ | starting retired | clearing retired _ _ _ =>
      rw [run_none retired] at ran
      cases ran
  | active retired calm doing =>
      obtain ⟨rfl,ran⟩ := run_last retired rfl ran
      exact active_shows calm doing rfl rfl ran
  | @settled old main _ final msg _ handle context history task retired calm fitting _ exit =>
      obtain ⟨rfl,ran⟩ := run_last retired rfl ran
      rcases exit with ⟨rfl,_⟩ | ⟨rfl,_⟩
      · cases action with
        | exit =>
            cases ran
            rw [seat_last rfl]
            rcases calm with calm | rfl
            · have now := view_live (s := ⟨final,context,msg,old ++ [⟨task,.published⟩],handle,main,history⟩) _ calm
                (settled_busy fitting) rfl
              exact .same _ calm (settled_busy fitting) rfl now
            · exact .inl rfl
        | _ => cases ran
      · rw [runStep_exited] at ran
        cases ran

theorem step_shows {s next : WorkerThreads R} (stage : Stage s slot) (prepared : Prepared s.main s.context)
    (ran : s.step action = some next) : Shows s next := by
  cases action with
  | call c =>
      obtain ⟨ready,rfl⟩ := step_call ran
      exact call_shows stage ready c
  | proceed => exact .inl (proceed_shows stage prepared ran)
  | run tid action => exact run_shows stage ran

theorem proceed_prepared {s next : WorkerThreads R} (prepared : Prepared s.main s.context)
    (ran : s.proceed = some next) : Prepared next.main next.context := by
  obtain ⟨state,context,msg,threads,handle,main,history⟩ := s
  cases main with
  | ready | destroyed | terminated => cases ran
  | joining | destroying =>
      cases joined_then ran
      exact True.intro
  | starting task found statement =>
      cases statement with
      | clearCancel =>
          cases ran
          rfl
      | setProgress =>
          cases ran
          exact ⟨prepared,rfl⟩
      | setStatusText =>
          cases ran
          obtain ⟨progress,cancelRequest,statusText⟩ := context
          obtain ⟨rfl,rfl⟩ := prepared
          rfl
      | join =>
          cases joined_then ran
          exact prepared
      | spawn =>
          cases ran
          cases handle <;> exact True.intro
  | resetting statement =>
      cases statement with
      | join =>
          cases joined_then ran
          exact True.intro
      | clearError | store =>
          cases ran
          exact True.intro
      | setProgress =>
          cases ran
          rfl
      | setStatusText =>
          cases ran
          exact ⟨prepared,rfl⟩

theorem step_prepared {s next : WorkerThreads R} (stage : Stage s slot) (prepared : Prepared s.main s.context)
    (ran : s.step action = some next) : Prepared next.main next.context := by
  cases action with
  | call c =>
      obtain ⟨ready,rfl⟩ := step_call ran
      obtain ⟨state,context,msg,threads,handle,main,history⟩ := s
      cases ready
      cases c with
      | start _ | reset => cases state <;> exact True.intro
      | _ => exact True.intro
  | proceed => exact proceed_prepared prepared ran
  | run tid action =>
      obtain ⟨task,phase,found,moved⟩ := step_run ran
      obtain ⟨handle,calm⟩ := unexited_calm stage found (runStep_unexited moved)
      rw [(runStep_frame found moved).main]
      exact prepared_calm calm _

theorem acts_coherent {w later : AiWorker R} (coherent : w.Coherent) (acts : Acts w later) : later.Coherent := by
  cases acts with
  | start => exact AiWorker.start_coherent coherent _
  | cancel => exact coherent
  | reset => exact AiWorker.reset_coherent coherent
  | setProgress body | setStatusText body => exact coherent
  | returns body =>
      unfold AiWorker.Coherent at coherent
      rw [body] at coherent
      exact ⟨coherent,finalState_terminal _⟩
  | throws body =>
      unfold AiWorker.Coherent at coherent
      rw [body] at coherent
      exact ⟨coherent,rfl⟩
  | storeError ended =>
      unfold AiWorker.Coherent at coherent
      rw [ended] at coherent
      exact coherent
  | publish publishing =>
      unfold AiWorker.Coherent at coherent
      rw [publishing] at coherent
      exact coherent.2

-- Every run of the two threads is a run of the worker that takes calls in one
-- step, and between calls both hold the same state, context and error message.
theorem reached_view {s : WorkerThreads R} (path : Reached (WorkerThreads.system R) s) :
    Relation.ReflTransGen Acts .fresh (view s) ∧ (view s).Coherent ∧
      (s.main = .ready → (view s).state = s.state ∧ (view s).context = s.context ∧
        (view s).errorMessage = s.errorMessage) := by
  have staged (s : WorkerThreads R) (path : Reached (WorkerThreads.system R) s) : ∃ slot, Stage s slot := by
    obtain ⟨slot,stage,_⟩ := reached_cycle path
    exact ⟨slot,stage⟩
  obtain ⟨moves,_⟩ : Relation.ReflTransGen Acts .fresh (view s) ∧ Prepared s.main s.context := by
    apply Guarded.invariant (fun s => ∃ slot, Stage s slot)
      (fun s => Relation.ReflTransGen Acts .fresh (view s) ∧ Prepared s.main s.context) path staged
    · intro s start
      cases start
      exact ⟨.refl,True.intro⟩
    · intro s action next known holds _ ran
      obtain ⟨slot,stage⟩ := known
      obtain ⟨moves,prepared⟩ := holds
      refine ⟨?_,step_prepared stage prepared ran⟩
      rcases step_shows stage prepared ran with same | acts
      · rwa [same]
      · exact moves.tail acts
  refine ⟨moves,?_,?_⟩
  · suffices all : ∀ w : AiWorker R, Relation.ReflTransGen Acts .fresh w → w.Coherent from all _ moves
    intro w moves
    induction moves with
    | refl => exact AiWorker.fresh_coherent
    | tail _ acts ih => exact acts_coherent ih acts
  · intro ready
    rw [view_calm none (by rw [ready]; exact True.intro)]
    exact ⟨rfl,rfl,rfl⟩

end WorkerView

end SmartFill
