import SmartFill.BakeTask
import SmartFill.MenuPoll

namespace SmartFill

def cachePath (extension dir key : Bytes) : Path :=
  if dir = [] then [] else dir ++ ascii "/" ++ key ++ extension

theorem cachePath_nonempty (named : dir ≠ []) : cachePath extension dir key ≠ [] := by
  simp [cachePath,named]

theorem cachePath_injective {key' : Bytes} (named : dir ≠ [])
    (same : cachePath extension dir key = cachePath extension dir key') : key = key' := by
  rw [cachePath,cachePath,if_neg named,if_neg named] at same
  exact List.append_cancel_left (List.append_cancel_right same)

-- fs::exists; the empty path names nothing.
def fileExists (disk : Files) (path : Path) : Bool := decide (path ≠ []) && disk.present path

structure Loaded (extension : Bytes) where
  dir : Bytes
  key : Bytes
  disk : Files
  named : dir ≠ [] ∧ key ≠ []
  readable : (ImageCache.imageCacheRead (disk.read (cachePath extension dir key))).ok = true

def Loaded.content (l : Loaded extension) : Option Bytes := l.disk.read (cachePath extension l.dir l.key)

def Loaded.result (l : Loaded extension) : ImageCache.ImageCacheReadResult := ImageCache.imageCacheRead l.content

-- cached_pixels_, cached_w_, cached_h_ and loaded_key_. They are either cleared
-- or what one successful read returned, under the key that was read.
structure CacheBuffer (extension : Bytes) where
  pixels : List F32
  width : Int
  height : Int
  loadedKey : Bytes
  origin : (pixels = [] ∧ width = 0 ∧ height = 0 ∧ loadedKey = []) ∨ ∃ l : Loaded extension,
    pixels = l.result.pixels ∧ width = l.result.width ∧ height = l.result.height ∧ loadedKey = l.key

def Loaded.buffer (l : Loaded extension) : CacheBuffer extension :=
  ⟨l.result.pixels,l.result.width,l.result.height,l.key,.inr ⟨l,rfl,rfl,rfl,rfl⟩⟩

namespace CacheBuffer
variable {extension : Bytes}

def cleared : CacheBuffer extension := ⟨[],0,0,[],.inl ⟨rfl,rfl,rfl,rfl⟩⟩

-- The four assignments after image_cache_read, if the result is taken at all.
def load (accepts : ImageCache.ImageCacheReadResult → Bool) (dir key : Bytes) (disk : Files) :
    Option (CacheBuffer extension) :=
  if named : dir ≠ [] ∧ key ≠ [] then
    let result := ImageCache.imageCacheRead (disk.read (cachePath extension dir key))
    if readable : result.ok = true then
      if accepts result then
        some ⟨result.pixels,result.width,result.height,key,.inr ⟨⟨dir,key,disk,named,readable⟩,rfl,rfl,rfl,rfl⟩⟩
      else none
    else none
  else none

variable {accepts : ImageCache.ImageCacheReadResult → Bool} {dir key : Bytes} {disk : Files}

theorem cases_origin (b : CacheBuffer extension) : b = cleared ∨ ∃ l : Loaded extension, b = l.buffer := by
  obtain ⟨pixels,width,height,key,origin⟩ := b
  rcases origin with ⟨rfl,rfl,rfl,rfl⟩ | ⟨l,rfl,rfl,rfl,rfl⟩
  · exact .inl rfl
  · exact .inr ⟨l,rfl⟩

theorem load_some {b : CacheBuffer extension} (loaded : load accepts dir key disk = some b) :
    ∃ l : Loaded extension, b = l.buffer ∧ l.dir = dir ∧ l.key = key ∧ l.disk = disk ∧ accepts l.result = true := by
  unfold load at loaded
  split at loaded
  · rename_i named
    dsimp only at loaded
    split at loaded
    · rename_i readable
      split at loaded
      · rename_i accepted
        cases loaded
        exact ⟨⟨dir,key,disk,named,readable⟩,rfl,rfl,rfl,rfl,accepted⟩
      · cases loaded
    · cases loaded
  · cases loaded

theorem load_isSome : (load accepts dir key disk : Option (CacheBuffer extension)).isSome = true ↔
    (dir ≠ [] ∧ key ≠ []) ∧ (ImageCache.imageCacheRead (disk.read (cachePath extension dir key))).ok = true ∧
      accepts (ImageCache.imageCacheRead (disk.read (cachePath extension dir key))) = true := by
  unfold load
  split
  · dsimp only
    split
    · split <;> simp_all
    · simp_all
  · simp_all

theorem load_taken (accepts : ImageCache.ImageCacheReadResult → Bool) (named : dir ≠ [] ∧ key ≠ [])
    (readable : (ImageCache.imageCacheRead (disk.read (cachePath extension dir key))).ok = true)
    (accepted : accepts (ImageCache.imageCacheRead (disk.read (cachePath extension dir key))) = true) :
    ∃ l : Loaded extension, load accepts dir key disk = some l.buffer ∧ l.dir = dir ∧ l.key = key ∧ l.disk = disk := by
  obtain ⟨b,loaded⟩ := Option.isSome_iff_exists.mp (load_isSome.mpr ⟨named,readable,accepted⟩)
  obtain ⟨l,rfl,sameDir,sameKey,sameDisk,_⟩ := load_some loaded
  exact ⟨l,loaded,sameDir,sameKey,sameDisk⟩

end CacheBuffer

theorem Loaded.size (l : Loaded extension) : 0 < l.result.width ∧ 0 < l.result.height ∧ 0 < l.result.channels ∧
    (l.result.pixels.length : Int) = l.result.width*l.result.height*l.result.channels := by
  obtain ⟨range,length⟩ := ImageCache.read_ok_sized l.readable
  have parts := of_decide_eq_true range
  exact ⟨parts.1,parts.2.2.1,parts.2.2.2.2.1,length⟩

theorem Loaded.pixels_nonempty (l : Loaded extension) : l.result.pixels ≠ [] := by
  obtain ⟨wide,high,deep,length⟩ := l.size
  have positive : 0 < (l.result.pixels.length : Int) := by
    rw [length]
    exact mul_pos (mul_pos wide high) deep
  exact List.ne_nil_of_length_pos (by exact_mod_cast positive)

-- The members determine the whole result of the read.
theorem Loaded.buffer_result {l l' : Loaded extension} (same : l.buffer = l'.buffer) :
    l.result = l'.result ∧ l.key = l'.key := by
  obtain ⟨pixels,width,height,key⟩ := CacheBuffer.mk.inj same
  refine ⟨?_,key⟩
  have sizes := l.size
  have sizes' := l'.size
  have channels : l.result.channels = l'.result.channels := by
    have length : l.result.width*l.result.height*l.result.channels = l.result.width*l.result.height*l'.result.channels := by
      rw [← sizes.2.2.2,pixels,sizes'.2.2.2,width,height]
    exact mul_left_cancel₀ (mul_pos sizes.1 sizes.2.1).ne' length
  have ok : l.result.ok = l'.result.ok := l.readable.trans l'.readable.symm
  have error : l.result.error = l'.result.error :=
    (ImageCache.read_ok_error l.readable).trans (ImageCache.read_ok_error l'.readable).symm
  cases result : l.result
  cases result' : l'.result
  simp only [result,result'] at pixels width height channels ok error
  rw [pixels,width,height,channels,ok,error]

namespace CacheBuffer

theorem loadedKey_nonempty (b : CacheBuffer extension) : b.loadedKey ≠ [] ↔ ∃ l : Loaded extension, b = l.buffer := by
  rcases b.cases_origin with rfl | ⟨l,rfl⟩
  · refine iff_of_false (fun named => named rfl) ?_
    rintro ⟨l,same⟩
    exact l.named.2 (congrArg loadedKey same).symm
  · exact iff_of_true l.named.2 ⟨l,rfl⟩

theorem pixels_nonempty (b : CacheBuffer extension) : b.pixels ≠ [] ↔ ∃ l : Loaded extension, b = l.buffer := by
  rcases b.cases_origin with rfl | ⟨l,rfl⟩
  · refine iff_of_false (fun full => full rfl) ?_
    rintro ⟨l,same⟩
    exact l.pixels_nonempty (congrArg pixels same).symm
  · exact iff_of_true l.pixels_nonempty ⟨l,rfl⟩

end CacheBuffer

structure Runtime (T : Type) (extension : Bytes) where
  statusText : Bytes
  progress : F32
  currentKey : Bytes
  bakingKey : Bytes
  cache : CacheBuffer extension
  worker : AiWorker (BakeRun T)

namespace Runtime
variable {T : Type} {extension : Bytes}

def fresh (status : Bytes) : Runtime T extension := ⟨status,F32.zero,[],[],.cleared,AiWorker.fresh⟩

def setStatus (rt : Runtime T extension) (s : Bytes) : Runtime T extension := {rt with statusText := s}
def setProgress (rt : Runtime T extension) (v : F32) : Runtime T extension := {rt with progress := v}

def cookingText (r : Rounding) (p : F32) : Bytes :=
  ascii "Cooking " ++ (decimal (r.trunc (r.mul p (r.ofInt 100))) ++ ascii "%")

-- poll_worker; the Ops differ in when a finished bake makes the buffer stale.
def pollWorker (r : Rounding) (stale : CacheBuffer extension → Bytes → Bool) (rt : Runtime T extension) :
    Runtime T extension :=
  match rt.worker.state with
  | .idle => rt
  | .running =>
    let p := rt.worker.context.progress
    (rt.setProgress p).setStatus (cookingText r p)
  | .done =>
    let rt := (rt.setStatus (ascii "Ready")).setProgress F32.one
    {rt with worker := rt.worker.reset,bakingKey := [],cache := if stale rt.cache rt.bakingKey then .cleared else rt.cache}
  | .error =>
    let display := ascii "Error: " ++ rt.worker.errorMessage
    let rt := (rt.setStatus (display.take 80)).setProgress F32.zero
    {rt with worker := rt.worker.reset,bakingKey := []}
  | .cancelled =>
    let rt := (rt.setStatus (ascii "Cancelled")).setProgress F32.zero
    {rt with worker := rt.worker.reset,bakingKey := []}

def announce (rt : Runtime T extension) (key : Bytes) : Runtime T extension :=
  ({rt with bakingKey := key}.setProgress F32.zero).setStatus (ascii "Cooking 0%")

-- The end of start_bake; what start() returns is not looked at.
def launch (rt : Runtime T extension) (job : BakeJob T) (todo : List TaskOp) : Runtime T extension :=
  let rt := rt.announce job.key
  {rt with worker := (rt.worker.start ⟨job,todo,none⟩).1}

structure SameBake (before after : Runtime T extension) : Prop where
  worker : after.worker = before.worker
  bakingKey : after.bakingKey = before.bakingKey

structure Quiet (before after : Runtime T extension) : Prop extends SameBake before after where
  statusText : after.statusText = before.statusText

theorem SameBake.trans {a b c : Runtime T extension} (one : SameBake a b) (two : SameBake b c) : SameBake a c :=
  ⟨two.worker.trans one.worker,two.bakingKey.trans one.bakingKey⟩

theorem Quiet.trans {a b c : Runtime T extension} (one : Quiet a b) (two : Quiet b c) : Quiet a c :=
  ⟨one.toSameBake.trans two.toSameBake,two.statusText.trans one.statusText⟩

variable {r : Rounding} {stale : CacheBuffer extension → Bytes → Bool} {rt before after : Runtime T extension}
  {job : BakeJob T} {todo : List TaskOp}

theorem poll_idle (idle : rt.worker.state = .idle) : rt.pollWorker r stale = rt := by
  simp [pollWorker,idle]

theorem poll_running (running : rt.worker.state = .running) : rt.pollWorker r stale =
    {rt with progress := rt.worker.context.progress,statusText := cookingText r rt.worker.context.progress} := by
  simp [pollWorker,running,setProgress,setStatus]

theorem poll_terminal (terminal : rt.worker.state.terminal = true) :
    (rt.pollWorker r stale).worker = rt.worker.reset ∧ (rt.pollWorker r stale).bakingKey = [] := by
  cases state : rt.worker.state <;> simp_all [pollWorker,setStatus,setProgress,AiWorkerState.terminal]

theorem poll_cache (rt : Runtime T extension) :
    (rt.pollWorker r stale).cache =
      if rt.worker.state = .done ∧ stale rt.cache rt.bakingKey = true then .cleared else rt.cache := by
  cases state : rt.worker.state <;> simp [pollWorker,state,setStatus,setProgress]
  rfl

theorem poll_worker (rt : Runtime T extension) :
    ((rt.worker.state = .idle ∨ rt.worker.state = .running) ∧ SameBake rt (rt.pollWorker r stale)) ∨
    (rt.worker.state.terminal = true ∧ (rt.pollWorker r stale).worker = rt.worker.reset ∧
      (rt.pollWorker r stale).bakingKey = []) := by
  by_cases idle : rt.worker.state = .idle
  · exact .inl ⟨.inl idle,by rw [poll_idle idle]; exact ⟨rfl,rfl⟩⟩
  · by_cases running : rt.worker.state = .running
    · exact .inl ⟨.inr running,by rw [poll_running running]; exact ⟨rfl,rfl⟩⟩
    · have terminal := AiWorker.terminal_of idle running
      exact .inr ⟨terminal,poll_terminal terminal⟩

@[simp] theorem launch_worker : (rt.launch job todo).worker = (rt.worker.start ⟨job,todo,none⟩).1 := rfl

@[simp] theorem launch_bakingKey : (rt.launch job todo).bakingKey = job.key := rfl

@[simp] theorem launch_statusText : (rt.launch job todo).statusText = ascii "Cooking 0%" := rfl

end Runtime

-- The run on the thread, if there is one, has a job with the property and
-- pixels made from that job.
structure AiWorker.Carries {T : Type} (backend : Backend T) (ok : BakeJob T → Prop) (w : AiWorker (BakeRun T)) :
    Prop where
  coherent : w.Coherent
  job : ∀ run, w.thread.run? = some run → ok run.job
  made : ∀ run, w.thread.run? = some run → run.Made backend

namespace AiWorker
variable {T : Type} {backend : Backend T} {ok : BakeJob T → Prop} {w next : AiWorker (BakeRun T)}

theorem carries_fresh : Carries backend ok fresh := by
  refine ⟨fresh_coherent,?_,?_⟩ <;> rintro _ ⟨⟩

theorem carries_reset (carries : w.Carries backend ok) : w.reset.Carries backend ok := by
  refine ⟨reset_coherent carries.coherent,?_,?_⟩
  all_goals
    intro run found
    unfold reset at found
    split at found
  · exact carries.job run found
  · exact carries.job run found
  · cases found
  · exact carries.made run found
  · exact carries.made run found
  · cases found

theorem carries_start {todo : List TaskOp} {job : BakeJob T} (carries : w.Carries backend ok) (valid : ok job) :
    (w.start ⟨job,todo,none⟩).1.Carries backend ok := by
  by_cases idle : w.state = .idle
  · rw [start_idle idle]
    refine ⟨rfl,?_,?_⟩
    · rintro _ ⟨⟩
      exact valid
    · rintro _ ⟨⟩ _ ⟨⟩
  · rw [start_refused idle]
    exact carries

theorem carries_cancel (carries : w.Carries backend ok) : w.cancel.Carries backend ok :=
  ⟨carries.coherent,carries.job,carries.made⟩

theorem carries_work (carries : w.Carries backend ok)
    (ran : workStep backend w disk step = some (next,after,wrote)) : next.Carries backend ok := by
  have worked := workStep_worked carries.coherent ran
  refine ⟨worked.coherent,?_,?_⟩
  · intro run found
    obtain ⟨old,was,job,_⟩ := worked.same run found
    rw [job]
    exact carries.job old was
  · intro run found
    obtain ⟨old,was,_,made⟩ := worked.same run found
    exact made (carries.made old was)

structure Logged (backend : Backend T) (ok : BakeJob T → Prop) (w : AiWorker (BakeRun T))
    (bakes : List (Written T)) : Prop where
  carries : w.Carries backend ok
  writes : ∀ b ∈ bakes, ok b.run.job ∧ b.Faithful ∧
    ∃ call cancels, backend b.run.job.task call cancels = .ok b.pixels

theorem logged_fresh : Logged backend ok fresh [] := ⟨carries_fresh,by simp⟩

theorem logged_work {bakes : List (Written T)} (logged : Logged backend ok w bakes)
    (ran : workStep backend w disk step = some (next,after,wrote)) :
    Logged backend ok next (wrote.toList ++ bakes) := by
  refine ⟨carries_work logged.carries ran,?_⟩
  intro b member
  cases wrote with
  | none => exact logged.writes b member
  | some written =>
    rcases List.mem_cons.mp member with rfl | earlier
    · obtain ⟨found,pixels,faithful⟩ := workStep_wrote ran
      exact ⟨logged.carries.job _ found,faithful,logged.carries.made _ found _ pixels⟩
    · exact logged.writes b earlier

end AiWorker

namespace Runtime
variable {T : Type} {extension : Bytes} {r : Rounding} {stale : CacheBuffer extension → Bytes → Bool}
  {rt before after : Runtime T extension} {job : BakeJob T} {todo : List TaskOp} {backend : Backend T}

def Owned (rt : Runtime T extension) : Prop :=
  rt.worker.Coherent ∧
    (rt.bakingKey ≠ [] → ∀ run, rt.worker.thread.run? = some run → run.job.key = rt.bakingKey)

theorem owned_fresh (status : Bytes) : Owned (fresh status : Runtime T extension) :=
  ⟨AiWorker.fresh_coherent,fun named => absurd rfl named⟩

theorem owned_same (owned : before.Owned) (same : SameBake before after) : after.Owned := by
  unfold Owned
  rw [same.worker,same.bakingKey]
  exact owned

-- An idle worker has no thread whose job the key could be.
theorem owned_idle (coherent : rt.worker.Coherent) (idle : rt.worker.state = .idle) : rt.Owned := by
  refine ⟨coherent,fun _ run found => ?_⟩
  cases thread : rt.worker.thread <;> simp_all [AiWorker.Coherent,AiWorkerState.terminal,Thread.run?]

theorem owned_reset (owned : rt.Owned) : Owned {rt with worker := rt.worker.reset} := by
  refine ⟨AiWorker.reset_coherent owned.1,?_⟩
  intro named run found
  dsimp only [AiWorker.reset] at found
  split at found
  · exact owned.2 named run found
  · exact owned.2 named run found
  · cases found

theorem owned_poll (owned : rt.Owned) : (rt.pollWorker r stale).Owned := by
  rcases poll_worker rt with ⟨_,same⟩ | ⟨_,worker,cleared⟩
  · exact owned_same owned same
  · refine ⟨?_,fun named => absurd cleared named⟩
    rw [worker]
    exact AiWorker.reset_coherent owned.1

theorem owned_launch (idle : rt.worker.state = .idle) : (rt.launch job todo).Owned := by
  unfold Owned
  rw [launch_worker,launch_bakingKey,AiWorker.start_idle idle]
  refine ⟨rfl,?_⟩
  rintro _ _ ⟨⟩
  rfl

theorem owned_work {next : AiWorker (BakeRun T)} (owned : rt.Owned)
    (ran : workStep backend rt.worker disk step = some (next,left,wrote)) : Owned {rt with worker := next} := by
  have worked := workStep_worked owned.1 ran
  refine ⟨worked.coherent,?_⟩
  intro named run found
  obtain ⟨old,was,job,_⟩ := worked.same run found
  rw [job]
  exact owned.2 named old was

section Log
variable {ok : BakeJob T → Prop} {bakes : List (Written T)}

theorem logged_same (logged : before.worker.Logged backend ok bakes) (same : SameBake before after) :
    after.worker.Logged backend ok bakes := by
  rw [same.worker]
  exact logged

theorem logged_reset {w : AiWorker (BakeRun T)} (logged : w.Logged backend ok bakes) : w.reset.Logged backend ok bakes :=
  ⟨AiWorker.carries_reset logged.carries,logged.writes⟩

theorem logged_poll (logged : rt.worker.Logged backend ok bakes) :
    (rt.pollWorker r stale).worker.Logged backend ok bakes := by
  rcases poll_worker rt with ⟨_,same⟩ | ⟨_,worker,_⟩
  · exact logged_same logged same
  · rw [worker]
    exact logged_reset logged

theorem logged_launch (logged : rt.worker.Logged backend ok bakes) (valid : ok job) :
    (rt.launch job todo).worker.Logged backend ok bakes :=
  ⟨AiWorker.carries_start logged.carries valid,logged.writes⟩

end Log

-- A worker that is not idle is announced by a status menu.py reacts to.
def Announced (rt : Runtime T extension) : Prop :=
  rt.worker.Coherent ∧ (rt.worker.state ≠ .idle → MenuPoll.isActive rt.statusText = true)

theorem announced_fresh (status : Bytes) : Announced (fresh status : Runtime T extension) :=
  ⟨AiWorker.fresh_coherent,fun busy => absurd rfl busy⟩

theorem announced_quiet (announced : before.Announced) (quiet : Quiet before after) : after.Announced := by
  unfold Announced
  rw [quiet.worker,quiet.statusText]
  exact announced

theorem announced_idle (coherent : rt.worker.Coherent) (idle : rt.worker.state = .idle) : rt.Announced :=
  ⟨coherent,fun busy => absurd idle busy⟩

theorem announced_unheard (announced : before.Announced) (idle : before.worker.state = .idle)
    (same : SameBake before after) : after.Announced := by
  refine announced_idle ?_ ?_
  · rw [same.worker]
    exact announced.1
  · rw [same.worker]
    exact idle

theorem announced_poll (announced : rt.Announced) : (rt.pollWorker r stale).Announced := by
  by_cases running : rt.worker.state = .running
  · rw [poll_running running]
    exact ⟨announced.1,fun _ => MenuPoll.isActive_cooking _⟩
  · rcases poll_worker rt with ⟨idle | running',_⟩ | ⟨_,worker,_⟩
    · rw [poll_idle idle]
      exact announced
    · contradiction
    · have coherent := AiWorker.reset_coherent announced.1
      have idle := AiWorker.reset_idle running
      rw [← worker] at coherent idle
      exact announced_idle coherent idle

theorem announced_launch (coherent : rt.worker.Coherent) : (rt.launch job todo).Announced :=
  ⟨AiWorker.start_coherent coherent _,fun _ => by rw [launch_statusText]; decide⟩

theorem announced_work {next : AiWorker (BakeRun T)} (announced : rt.Announced)
    (ran : workStep backend rt.worker disk step = some (next,left,wrote)) : Announced {rt with worker := next} := by
  have worked := workStep_worked announced.1 ran
  refine ⟨worked.coherent,fun _ => announced.2 ?_⟩
  rw [worked.busy]
  decide

end Runtime

end SmartFill
