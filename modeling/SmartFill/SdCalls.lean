import SmartFill.SdSession
import SmartFill.Lib.Ownership
import SmartFill.Lib.RowMajor

namespace SmartFill

-- sd_image_t as generate_image returns it.
structure SdImage where
  width : Nat
  height : Nat
  channel : Nat
  data : Option (List UInt8)

-- What has to be freed: a context, the array generate_image returned at one of
-- its calls, and the pixels that array points at.
inductive Resource where
  | context (number : Nat)
  | result (call : Nat)
  | data (call : Nat)
  deriving DecidableEq

-- A note is an assignment of loaded_paths.
abbrev SdEvent := Ownership.Event Resource SdModelPaths

-- An SdSession with g_cb_state and the log of what it created and freed. `calls`
-- counts the calls of generate_image.
structure Session (ι : Type) where
  impl : SdImpl
  cb : CallbackState ι
  calls : Nat
  log : List SdEvent

structure GenerateOut (F : Type) where
  rgb : List F
  width : Int
  height : Int

-- During generate_image: a progress callback, which may ask to stop, or
-- request_cancel from another thread.
inductive During where
  | progress (stops : Bool)
  | requestCancel

inductive SdCall (F ι : Type) where
  | ensureLoaded (paths : SdModelPaths) (fails : Bool)
  | generate (owner : ι) (params : SdGenerateParams) (during : List During) (result : Option SdImage) (out : GenerateOut F)
  | requestCancel

namespace SdCalls
variable {F ι : Type}

def fresh : Session ι := ⟨SdSession.fresh,SdSession.idle,0,[]⟩

def did (s : Session ι) (events : List SdEvent) : Session ι := {s with log := s.log ++ events}

-- The conversion at the end of generate. A missing channel count is read as
-- three; fewer than three are one.
def toRgb (ops : FloatOps F) (image : SdImage) (data : List UInt8) : List F :=
  let c := if image.channel = 0 then 3 else image.channel
  let kInv255 := ops.div ops.one (ops.ofInt 255)
  let read (i : Nat) := ops.mul (ops.ofInt (data.getD i 0).toNat) kInv255
  if 3 ≤ c then
    RowMajor.pixels image.height image.width 3 (fun y x k => read (y*image.width*c+(x*c+k)))
  else RowMajor.pixels image.height image.width 3 (fun y x _ => read (y*image.width+x))

def freeContext (s : Session ι) : Session ι :=
  match s.impl.ctx with
  | some ctx => did {s with impl := {s.impl with ctx := none,loaded := false}} [.release (.context ctx.number)]
  | none => s

def ensureLoaded (s : Session ι) (paths : SdModelPaths) (fails : Bool) : Session ι × Option Bytes :=
  if paths.diffusionModel = [] then (s,some (ascii "ensure_loaded: diffusion_model path is empty"))
  else if SdSession.reuses s.impl paths then (s,none)
  else
    let s := freeContext s
    let s := did {s with impl := {s.impl with loadedPaths := paths}} [.note paths]
    if fails then
      (s,some (ascii "new_sd_ctx returned NULL (model paths invalid, CUDA unavailable, or out of VRAM)"))
    else
      let ctx : SdCtx := ⟨s.impl.created,ctxParams s.impl.loadedPaths⟩
      (did {s with impl := {s.impl with ctx := some ctx,loaded := true,created := s.impl.created+1}}
        [.acquire (.context ctx.number)],none)

def duringStep (cb : CallbackState ι) : During → CallbackState ι
  | .progress stops => SdSession.progressThunk cb (fun _ => stops)
  | .requestCancel => {cb with cancelRequested := true}

def returned (call : Nat) : Option SdImage → List SdEvent
  | none => []
  | some ⟨_,_,_,none⟩ => [.acquire (.result call)]
  | some ⟨_,_,_,some _⟩ => [.acquire (.result call),.acquire (.data call)]

-- if (result->data) std::free(result->data); std::free(result);
def freeResult (call : Nat) (image : SdImage) : List SdEvent :=
  match image.data with
  | none => [.release (.result call)]
  | some _ => [.release (.data call),.release (.result call)]

-- generate. The allocation of the outputs is taken to succeed.
def generate (ops : FloatOps F) (s : Session ι) (owner : ι) (params : SdGenerateParams) (during : List During)
    (result : Option SdImage) (out : GenerateOut F) : Session ι × GenerateOut F × Option Bytes :=
  match SdSession.generateStart s.impl owner params with
  | .error err => (s,out,some err)
  | .ok (cb,_,_) =>
    let cb := during.foldl duringStep cb
    let call := s.calls
    let s := did {s with cb := {cb with inUse := false,callback := none},calls := call+1} (returned call result)
    match result with
    | none => (s,out,some (ascii "generate_image returned NULL"))
    | some image =>
      if cb.cancelRequested then (did s (freeResult call image),out,some (ascii "cancelled"))
      else
        match image.data with
        | none => (did s (freeResult call image),out,some (ascii "generate_image returned empty image"))
        | some data =>
          if image.width = 0 ∨ image.height = 0 then
            (did s (freeResult call image),out,some (ascii "generate_image returned empty image"))
          else (did s (freeResult call image),⟨toRgb ops image data,image.width,image.height⟩,none)

def requestCancel (s : Session ι) : Session ι := {s with cb := {s.cb with cancelRequested := true}}

-- ~Impl
def destroy (s : Session ι) : Session ι := freeContext s

def step (ops : FloatOps F) (s : Session ι) : SdCall F ι → Session ι
  | .ensureLoaded paths fails => (ensureLoaded s paths fails).1
  | .generate owner params during result out => (generate ops s owner params during result out).1
  | .requestCancel => requestCancel s

def session (ops : FloatOps F) (calls : List (SdCall F ι)) : Session ι := calls.foldl (step ops) fresh

def raw : Option SdImage → RawImage
  | none => .null
  | some image => .image image.data.isSome image.width image.height

-- Without the log these are the calls SdSession describes.
theorem ensureLoaded_erases (s : Session ι) (paths : SdModelPaths) (fails : Bool) :
    ((ensureLoaded s paths fails).1.impl,(ensureLoaded s paths fails).2) = SdSession.ensureLoaded s.impl paths fails := by
  unfold ensureLoaded SdSession.ensureLoaded
  split
  · rfl
  · split
    · rfl
    · unfold freeContext
      cases s.impl.ctx with
      | none => cases fails <;> rfl
      | some ctx => cases fails <;> rfl

theorem generate_erases (ops : FloatOps F) (s : Session ι) (owner : ι) (params : SdGenerateParams) (during : List During)
    (result : Option SdImage) (out : GenerateOut F) {cb : CallbackState ι} {ctx : SdCtx} {gen : SdImgGenParams}
    (started : SdSession.generateStart s.impl owner params = .ok (cb,ctx,gen)) :
    (generate ops s owner params during result out).1.cb =
        (SdSession.generateEnd (during.foldl duringStep cb) (raw result)).1 ∧
      (generate ops s owner params during result out).2.2 =
        match (SdSession.generateEnd (during.foldl duringStep cb) (raw result)).2 with
        | .error err => some err
        | .ok _ => none := by
  unfold generate
  rw [started]
  dsimp only
  generalize during.foldl duringStep cb = cb
  cases result with
  | none => exact ⟨rfl,rfl⟩
  | some image =>
    obtain ⟨width,height,channel,data⟩ := image
    obtain ⟨inUse,callback,requested⟩ := cb
    cases requested with
    | true => exact ⟨rfl,rfl⟩
    | false =>
      cases data with
      | none => exact ⟨rfl,rfl⟩
      | some data =>
        by_cases empty : width = 0 ∨ height = 0
        · simp [raw,SdSession.generateEnd,did,empty]
        · simp [raw,SdSession.generateEnd,did,empty]

-- What a call of generate leaves: whatever generate_image returned is freed, and
-- the outputs are set exactly when there is no error.
structure Ended (ops : FloatOps F) (s : Session ι) (result : Option SdImage) (out : GenerateOut F)
    (ended : Session ι × GenerateOut F × Option Bytes) : Prop where
  session : ended.1 = s ∨ ∃ cb : CallbackState ι, cb.inUse = false ∧ cb.callback = none ∧
    ended.1 = {s with cb := cb,calls := s.calls+1,log := s.log ++ (returned s.calls result ++
      (result.map (freeResult s.calls)).getD [])}
  outputs : (∃ err, ended.2 = (out,some err)) ∨ ∃ image data, result = some image ∧ image.data = some data ∧
    ended.2 = (⟨toRgb ops image data,image.width,image.height⟩,none)

theorem generate_ended (ops : FloatOps F) (s : Session ι) (owner : ι) (params : SdGenerateParams) (during : List During)
    (result : Option SdImage) (out : GenerateOut F) :
    Ended ops s result out (generate ops s owner params during result out) := by
  unfold generate
  split
  · exact ⟨.inl rfl,.inl ⟨_,rfl⟩⟩
  · rename_i cb ctx gen started
    refine ⟨.inr ⟨{during.foldl duringStep cb with inUse := false,callback := none},rfl,rfl,?_⟩,?_⟩
    all_goals
      cases result with
      | none => simp [did]
      | some image =>
        obtain ⟨width,height,channel,data⟩ := image
        dsimp only
        split
        · simp [did]
        · cases data with
          | none => simp [did]
          | some data =>
            dsimp only
            split <;> simp [did]

end SdCalls

end SmartFill
