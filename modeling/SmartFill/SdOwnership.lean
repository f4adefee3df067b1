import SmartFill.SdCalls

namespace SmartFill

open Ownership

def Resource.isContext : Resource → Bool
  | .context _ => true
  | .result _ | .data _ => false

namespace SdCalls
variable {F ι : Type}

-- No context is created, and no path stored, while there is a context.
def exclusive : Rule Resource SdModelPaths
  | held,.acquire (.context _) | held,.note _ => !held.any Resource.isContext
  | _,_ => true

def live (impl : SdImpl) : List Resource := impl.ctx.toList.map (fun ctx => .context ctx.number)

def Past (s : Session ι) : Resource → Prop
  | .context number => number < s.impl.created
  | .result call | .data call => call < s.calls

-- What holds of a session between two calls.
structure Sound (s : Session ι) : Prop where
  audited : ∃ spent, audit exclusive s.log = some ⟨live s.impl,spent⟩ ∧ ∀ r ∈ spent, Past s r
  current : ∀ ctx, s.impl.ctx = some ctx → ctx.number < s.impl.created
  loaded : s.impl.loaded = s.impl.ctx.isSome
  params : SdSession.FromPaths s.impl
  quiet : s.cb.inUse = false ∧ s.cb.callback = none

section Book
variable {held spent : List Resource} {log : List SdEvent}

theorem audit_did {b : Book Resource} (audited : audit exclusive log = some b) (events : List SdEvent) :
    audit exclusive (log ++ events) = (ledger exclusive).run b events := by
  rw [audit_append,audited]
  rfl

theorem post_acquire {r : Resource} (plain : r.isContext = false) (absent : r ∉ held) (fresh : r ∉ spent) :
    (ledger exclusive).step ⟨held,spent⟩ (.acquire r) = some ⟨r :: held,spent⟩ := by
  cases r with
  | context _ => cases plain
  | result _ | data _ => simp [ledger,post,exclusive,absent,fresh]

theorem post_release (r : Resource) :
    (ledger exclusive).step ⟨r :: held,spent⟩ (.release r) = some ⟨held,r :: spent⟩ := by
  cases r <;> simp [ledger,post,exclusive]

-- An image is freed by the call that got it.
theorem image_round {call : Nat} (image : SdImage) (absent : .result call ∉ held ∧ .data call ∉ held)
    (fresh : .result call ∉ spent ∧ .data call ∉ spent) :
    ∃ freed, (ledger exclusive).run ⟨held,spent⟩ (returned call (some image) ++ freeResult call image) =
      some ⟨held,freed⟩ ∧ ∀ r ∈ freed, r = .result call ∨ r = .data call ∨ r ∈ spent := by
  obtain ⟨width,height,channel,data⟩ := image
  have first := post_acquire (r := .result call) rfl absent.1 fresh.1
  cases data with
  | none =>
    refine ⟨.result call :: spent,?_,?_⟩
    · rw [returned,freeResult,List.singleton_append,Transition.System.run_cons first]
      exact Transition.System.run_cons (post_release _) []
    · intro r member
      rcases List.mem_cons.mp member with same | old
      · exact .inl same
      · exact .inr (.inr old)
  | some data =>
    have second := @post_acquire (.result call :: held) spent (.data call) rfl (by simp [absent.2]) fresh.2
    refine ⟨.result call :: .data call :: spent,?_,?_⟩
    · rw [returned,freeResult,List.cons_append,Transition.System.run_cons first,List.singleton_append,
        Transition.System.run_cons second,Transition.System.run_cons (post_release _)]
      exact Transition.System.run_cons (post_release _) []
    · intro r member
      rcases List.mem_cons.mp member with same | member
      · exact .inl same
      · exact .inr (List.mem_cons.mp member)

end Book

section Calls
variable {s : Session ι}

theorem live_contexts (impl : SdImpl) (call : Nat) : .result call ∉ live impl ∧ .data call ∉ live impl := by
  simp [live]

theorem fresh_sound : Sound (fresh : Session ι) := by
  refine ⟨⟨[],rfl,?_⟩,?_,rfl,?_,rfl,rfl⟩
  · intro r member
    cases member
  · intro ctx found
    cases found
  · intro ctx found
    cases found

theorem freeContext_none (sound : Sound s) : (freeContext s).impl.ctx = none ∧ (freeContext s).impl.loaded = false := by
  have loaded := sound.loaded
  unfold freeContext
  cases held : s.impl.ctx with
  | none =>
    rw [held] at loaded
    exact ⟨held,loaded⟩
  | some ctx => exact ⟨rfl,rfl⟩

theorem freeContext_sound (sound : Sound s) : Sound (freeContext s) := by
  obtain ⟨⟨spent,audited,past⟩,current,loaded,params,quiet⟩ := sound
  unfold freeContext
  cases held : s.impl.ctx with
  | none => exact ⟨⟨spent,audited,past⟩,current,loaded,params,quiet⟩
  | some ctx =>
    have book : live s.impl = [.context ctx.number] := by simp [live,held]
    rw [book] at audited
    refine ⟨⟨.context ctx.number :: spent,?_,?_⟩,?_,rfl,?_,quiet⟩
    · exact (audit_did audited _).trans (Transition.System.run_cons (post_release _) [])
    · exact List.forall_mem_cons.mpr ⟨current ctx held,past⟩
    · intro ctx' found
      cases found
    · intro ctx' found
      cases found

def stored (s : Session ι) (paths : SdModelPaths) : Session ι :=
  did {s with impl := {s.impl with loadedPaths := paths}} [.note paths]

def created (s : Session ι) : Session ι :=
  did {s with impl := {s.impl with
    ctx := some ⟨s.impl.created,ctxParams s.impl.loadedPaths⟩,loaded := true,created := s.impl.created+1}}
    [.acquire (.context s.impl.created)]

theorem ensureLoaded_parts (s : Session ι) (paths : SdModelPaths) (fails : Bool) :
    ((ensureLoaded s paths fails).1 = s ∧
      ((ensureLoaded s paths fails).2 = none → s.impl.loaded = true ∧ s.impl.loadedPaths = paths)) ∨
    ((ensureLoaded s paths fails).1 = stored (freeContext s) paths ∧ (ensureLoaded s paths fails).2 ≠ none) ∨
    (ensureLoaded s paths fails).1 = created (stored (freeContext s) paths) := by
  unfold ensureLoaded
  split
  · exact .inl ⟨rfl,fun ok => by cases ok⟩
  · split
    · rename_i reused
      exact .inl ⟨rfl,fun _ => by simpa [SdSession.reuses] using reused⟩
    · cases fails with
      | true => exact .inr (.inl ⟨rfl,Option.some_ne_none _⟩)
      | false => exact .inr (.inr rfl)

theorem stored_sound (sound : Sound s) (nothing : s.impl.ctx = none) (paths : SdModelPaths) : Sound (stored s paths) := by
  obtain ⟨⟨spent,audited,past⟩,current,loaded,_,quiet⟩ := sound
  have book : live s.impl = [] := by simp [live,nothing]
  rw [book] at audited
  refine ⟨⟨spent,?_,past⟩,current,loaded,?_,quiet⟩
  · have still : live (stored s paths).impl = [] := by simp [stored,did,live,nothing]
    rw [still]
    exact audit_did audited [.note paths]
  · intro ctx found
    rw [stored,did,nothing] at found
    cases found

theorem created_sound (sound : Sound s) (nothing : s.impl.ctx = none) : Sound (created s) := by
  obtain ⟨⟨spent,audited,past⟩,current,loaded,_,quiet⟩ := sound
  have book : live s.impl = [] := by simp [live,nothing]
  rw [book] at audited
  have unspent : .context s.impl.created ∉ spent := fun member => absurd (past _ member) (lt_irrefl s.impl.created)
  refine ⟨⟨spent,?_,?_⟩,?_,rfl,?_,quiet⟩
  · refine (audit_did audited _).trans ?_
    simp [Transition.System.run,ledger,post,exclusive,unspent,live,created,did]
  · intro r member
    have before := past r member
    cases r with
    | context number => exact Nat.lt_succ_of_lt before
    | result _ | data _ => exact before
  · intro ctx found
    cases found
    exact Nat.lt_succ_self _
  · intro ctx found
    cases found
    rfl

theorem ensureLoaded_sound (sound : Sound s) (paths : SdModelPaths) (fails : Bool) :
    Sound (ensureLoaded s paths fails).1 := by
  have freed := freeContext_sound sound
  have nothing := (freeContext_none sound).1
  rcases ensureLoaded_parts s paths fails with ⟨same,_⟩ | ⟨same,_⟩ | same
  · rw [same]
    exact sound
  · rw [same]
    exact stored_sound freed nothing paths
  · rw [same]
    exact created_sound (stored_sound freed nothing paths) nothing

theorem generate_sound (sound : Sound s) (ops : FloatOps F) (owner : ι) (params : SdGenerateParams)
    (during : List During) (result : Option SdImage) (out : GenerateOut F) :
    Sound (generate ops s owner params during result out).1 := by
  rcases (generate_ended ops s owner params during result out).session with same | ⟨cb,inUse,callback,same⟩
  · rw [same]
    exact sound
  · rw [same]
    obtain ⟨⟨spent,audited,past⟩,current,loaded,params,_⟩ := sound
    have later (r : Resource) (member : r ∈ spent) : Past {s with cb := cb,calls := s.calls+1} r := by
      have before := past r member
      cases r with
      | context _ => exact before
      | result _ | data _ => exact Nat.lt_succ_of_lt before
    cases result with
    | none =>
      refine ⟨⟨spent,?_,later⟩,current,loaded,params,inUse,callback⟩
      simpa [returned] using audited
    | some image =>
      have unspent : .result s.calls ∉ spent ∧ .data s.calls ∉ spent :=
        ⟨fun member => absurd (past _ member) (lt_irrefl s.calls),fun member => absurd (past _ member) (lt_irrefl s.calls)⟩
      obtain ⟨freed,ran,among⟩ := image_round image (live_contexts s.impl s.calls) unspent
      refine ⟨⟨freed,(audit_did audited _).trans ran,?_⟩,current,loaded,params,inUse,callback⟩
      intro r member
      rcases among r member with same | same | old
      · rw [same]
        exact Nat.lt_succ_self _
      · rw [same]
        exact Nat.lt_succ_self _
      · exact later r old

theorem step_sound (sound : Sound s) (ops : FloatOps F) (call : SdCall F ι) : Sound (step ops s call) := by
  cases call with
  | ensureLoaded paths fails => exact ensureLoaded_sound sound paths fails
  | generate owner params during result out => exact generate_sound sound ops owner params during result out
  | requestCancel => exact ⟨sound.audited,sound.current,sound.loaded,sound.params,sound.quiet⟩

theorem session_sound (ops : FloatOps F) (calls : List (SdCall F ι)) : Sound (session ops calls) := by
  suffices all : ∀ s : Session ι, Sound s → Sound (calls.foldl (step ops) s) from all fresh fresh_sound
  induction calls with
  | nil => exact fun _ sound => sound
  | cons call rest ih => exact fun s sound => ih (step ops s call) (step_sound sound ops call)

end Calls

-- At any moment at most one context is held.
theorem one_context {log : List SdEvent} {b : Book Resource} (audited : audit exclusive log = some b) :
    b.held.countP Resource.isContext ≤ 1 := by
  refine audit_invariant (fun held => held.countP Resource.isContext ≤ 1) (by simp) ?_ audited
  intro b e c single posted
  have allowed := post_allowed posted
  unfold post at posted
  rw [if_pos allowed] at posted
  cases e with
  | acquire r =>
    dsimp only at posted
    split at posted
    · cases posted
    · cases posted
      cases r with
      | context number =>
        have none : b.held.countP Resource.isContext = 0 := by
          apply List.countP_eq_zero.mpr
          simpa [exclusive] using allowed
        simp [List.countP_cons,none,Resource.isContext]
      | result _ | data _ => simpa [Resource.isContext] using single
  | release r =>
    dsimp only at posted
    split at posted
    · cases posted
      exact (List.Sublist.countP_le List.erase_sublist).trans single
    · cases posted
  | note paths =>
    cases posted
    exact single

-- What a session promises after any calls, and of the next one.
structure Owned (ops : FloatOps F) (s : Session ι) : Prop where
  single : ∀ earlier, earlier <+: s.log → ∃ b, audit exclusive earlier = some b ∧ b.held.countP Resource.isContext ≤ 1
  once : ∀ r, s.log.count (.release r) ≤ s.log.count (.acquire r) ∧ s.log.count (.acquire r) ≤ 1
  alive : ∀ number, (∃ ctx, s.impl.ctx = some ctx ∧ ctx.number = number) ↔
    s.log.count (.release (.context number)) < s.log.count (.acquire (.context number))
  images : ∀ call, s.log.count (.release (.result call)) = s.log.count (.acquire (.result call)) ∧
    s.log.count (.release (.data call)) = s.log.count (.acquire (.data call))
  destroyed : ∀ r, (destroy s).log.count (.release r) = (destroy s).log.count (.acquire r) ∧
    (destroy s).log.count (.acquire r) ≤ 1
  loaded : s.impl.loaded = true ↔ ∃ ctx, s.impl.ctx = some ctx ∧ ctx.params = ctxParams s.impl.loadedPaths
  stored : ∀ earlier paths later, s.log = earlier ++ .note paths :: later →
    ∃ b, audit exclusive earlier = some b ∧ b.held.countP Resource.isContext = 0
  unchanged : ∀ (call : SdCall F ι) ctx, s.impl.ctx = some ctx → (step ops s call).impl.ctx = some ctx →
    (step ops s call).impl.loadedPaths = s.impl.loadedPaths
  ensured : ∀ paths fails, (ensureLoaded s paths fails).2 = none → (ensureLoaded s paths fails).1.impl.loadedPaths = paths ∧
    ∃ ctx, (ensureLoaded s paths fails).1.impl.ctx = some ctx ∧ ctx.params = ctxParams paths
  refused : ∀ owner params during result out err, (generate ops s owner params during result out).2.2 = some err →
    (generate ops s owner params during result out).2.1 = out ∧
      (generate ops s owner params during result out).1.cb.callback = none ∧
      (generate ops s owner params during result out).1.cb.inUse = false

section Whole
variable {s : Session ι}

theorem sound_loaded (sound : Sound s) :
    s.impl.loaded = true ↔ ∃ ctx, s.impl.ctx = some ctx ∧ ctx.params = ctxParams s.impl.loadedPaths := by
  rw [sound.loaded,Option.isSome_iff_exists]
  constructor
  · rintro ⟨ctx,found⟩
    exact ⟨ctx,found,sound.params ctx found⟩
  · rintro ⟨ctx,found,_⟩
    exact ⟨ctx,found⟩

theorem sound_alive (sound : Sound s) (number : Nat) : (∃ ctx, s.impl.ctx = some ctx ∧ ctx.number = number) ↔
    s.log.count (.release (.context number)) < s.log.count (.acquire (.context number)) := by
  obtain ⟨spent,audited,_⟩ := sound.audited
  have counts := run_counts s.log audited (.context number)
  have all := counts.all
  have back := counts.spent
  simp only [List.count_nil,Nat.zero_add] at all back
  have held : 0 < (live s.impl).count (.context number) ↔ ∃ ctx, s.impl.ctx = some ctx ∧ ctx.number = number := by
    rw [List.count_pos_iff]
    simp [live]
  rw [←held]
  omega

theorem sound_images (sound : Sound s) (call : Nat) :
    s.log.count (.release (.result call)) = s.log.count (.acquire (.result call)) ∧
      s.log.count (.release (.data call)) = s.log.count (.acquire (.data call)) := by
  obtain ⟨spent,audited,_⟩ := sound.audited
  have absent := live_contexts s.impl call
  exact ⟨(audit_once audited _).settled absent.1,(audit_once audited _).settled absent.2⟩

theorem sound_destroyed (sound : Sound s) (r : Resource) :
    (destroy s).log.count (.release r) = (destroy s).log.count (.acquire r) ∧ (destroy s).log.count (.acquire r) ≤ 1 := by
  obtain ⟨spent,audited,_⟩ := (freeContext_sound sound).audited
  have nothing : live (freeContext s).impl = [] := by simp [live,(freeContext_none sound).1]
  rw [nothing] at audited
  have once := audit_once audited r
  exact ⟨once.settled (List.not_mem_nil),once.acquired⟩

-- Only a new context comes with new paths.
theorem ensureLoaded_unchanged (sound : Sound s) (paths : SdModelPaths) (fails : Bool) {ctx : SdCtx}
    (found : s.impl.ctx = some ctx) (still : (ensureLoaded s paths fails).1.impl.ctx = some ctx) :
    (ensureLoaded s paths fails).1.impl.loadedPaths = s.impl.loadedPaths := by
  have nothing := (freeContext_none sound).1
  have number := sound.current ctx found
  rcases ensureLoaded_parts s paths fails with ⟨same,_⟩ | ⟨same,_⟩ | same
  · rw [same]
  · have gone : (stored (freeContext s) paths).impl.ctx = none := nothing
    rw [same,gone] at still
    cases still
  · have counter : (freeContext s).impl.created = s.impl.created := by
      unfold freeContext
      split <;> rfl
    have fresh : (created (stored (freeContext s) paths)).impl.ctx = some ⟨(freeContext s).impl.created,ctxParams paths⟩ :=
      rfl
    rw [same,fresh] at still
    have equal := congrArg SdCtx.number (Option.some.inj still)
    dsimp only at equal
    omega

theorem step_unchanged (sound : Sound s) (ops : FloatOps F) (call : SdCall F ι) {ctx : SdCtx}
    (found : s.impl.ctx = some ctx) (still : (step ops s call).impl.ctx = some ctx) :
    (step ops s call).impl.loadedPaths = s.impl.loadedPaths := by
  cases call with
  | ensureLoaded paths fails => exact ensureLoaded_unchanged sound paths fails found still
  | generate owner params during result out =>
    rcases (generate_ended ops s owner params during result out).session with same | ⟨cb,_,_,same⟩
    all_goals rw [step,same]
  | requestCancel => rfl

theorem ensureLoaded_ensured (sound : Sound s) (paths : SdModelPaths) (fails : Bool)
    (ok : (ensureLoaded s paths fails).2 = none) : (ensureLoaded s paths fails).1.impl.loadedPaths = paths ∧
      ∃ ctx, (ensureLoaded s paths fails).1.impl.ctx = some ctx ∧ ctx.params = ctxParams paths := by
  have loadedPaths : (ensureLoaded s paths fails).1.impl.loadedPaths = paths ∧
      (ensureLoaded s paths fails).1.impl.loaded = true := by
    rcases ensureLoaded_parts s paths fails with ⟨same,kept⟩ | ⟨_,failed⟩ | same
    · rw [same]
      exact (kept ok).symm
    · exact absurd ok failed
    · rw [same]
      exact ⟨rfl,rfl⟩
  obtain ⟨ctx,found,params⟩ := (sound_loaded (ensureLoaded_sound sound paths fails)).mp loadedPaths.2
  exact ⟨loadedPaths.1,ctx,found,by rw [params,loadedPaths.1]⟩

end Whole

theorem session_owned (ops : FloatOps F) (calls : List (SdCall F ι)) : Owned ops (session ops calls) := by
  have sound := session_sound ops calls
  obtain ⟨spent,audited,_⟩ := sound.audited
  refine ⟨?_,?_,sound_alive sound,sound_images sound,sound_destroyed sound,sound_loaded sound,?_,?_,
    ensureLoaded_ensured sound,?_⟩
  · intro earlier before
    obtain ⟨b,was⟩ := audit_prefix audited before
    exact ⟨b,was,one_context was⟩
  · intro r
    have once := audit_once audited r
    exact ⟨once.released,once.acquired⟩
  · intro earlier paths later split
    rw [split] at audited
    obtain ⟨b,was,allowed⟩ := audit_allowed audited
    refine ⟨b,was,List.countP_eq_zero.mpr ?_⟩
    simpa [exclusive] using allowed
  · intro call ctx found still
    exact step_unchanged sound ops call found still
  · intro owner params during result out err failed
    have next := generate_sound sound ops owner params during result out
    refine ⟨?_,next.quiet.2,next.quiet.1⟩
    rcases (generate_ended ops _ owner params during result out).outputs with ⟨_,kept⟩ | ⟨_,_,_,_,made⟩
    · rw [kept]
    · rw [made] at failed
      cases failed

end SdCalls

end SmartFill
