import SmartFill.Types

namespace SmartFill

structure SdModelPaths where
  diffusionModel : Bytes
  vae : Bytes
  clipL : Bytes
  t5xxl : Bytes
  controlNet : Bytes
  deriving DecidableEq

structure LoRASpec where
  path : Bytes
  weight : F32
  deriving DecidableEq

-- HWC uint8 RGB, top-down. No image is the empty buffer.
structure RgbImage where
  rgb : List UInt8
  width : Int
  height : Int
  deriving DecidableEq

def RgbImage.none : RgbImage := ⟨[],0,0⟩

structure SdGenerateParams where
  prompt : Bytes
  negativePrompt : Bytes
  width : Int32
  height : Int32
  steps : Int32
  seed : Int64
  cfgScale : F32
  loras : List LoRASpec
  initImage : RgbImage
  strength : F32
  controlImage : RgbImage
  controlStrength : F32
  deriving DecidableEq

-- The fields ensure_loaded sets in sd_ctx_params_t; an empty path is not set.
structure SdCtxParams where
  modelPath : Option Bytes
  diffusionModelPath : Option Bytes
  vaePath : Option Bytes
  clipLPath : Option Bytes
  t5xxlPath : Option Bytes
  controlNetPath : Option Bytes
  deriving DecidableEq

def whenSet (path : Bytes) : Option Bytes := if path = [] then none else some path

-- Separate encoders mean that the main file holds the diffusion model alone.
def ctxParams (paths : SdModelPaths) : SdCtxParams :=
  let hasSeparateEncoders := decide (paths.vae ≠ [] ∨ paths.clipL ≠ [] ∨ paths.t5xxl ≠ [])
  { modelPath := if hasSeparateEncoders then none else some paths.diffusionModel
    diffusionModelPath := if hasSeparateEncoders then some paths.diffusionModel else none
    vaePath := whenSet paths.vae
    clipLPath := whenSet paths.clipL
    t5xxlPath := whenSet paths.t5xxl
    controlNetPath := whenSet paths.controlNet }

-- The fields generate sets in sd_img_gen_params_t from its arguments; an image
-- that is not attached leaves its strength alone too.
structure SdImgGenParams where
  prompt : Bytes
  negativePrompt : Bytes
  width : Int32
  height : Int32
  seed : Int64
  sampleSteps : Int32
  cfgScale : F32
  loras : List LoRASpec
  initImage : Option (RgbImage × F32)
  controlImage : Option (RgbImage × F32)
  deriving DecidableEq

def attached (image : RgbImage) : Bool :=
  decide (image.rgb ≠ [] ∧ 0 < image.width ∧ 0 < image.height ∧ (image.rgb.length : Int) = image.width*image.height*3)

def genParams (loadedPaths : SdModelPaths) (p : SdGenerateParams) : SdImgGenParams :=
  { prompt := p.prompt
    negativePrompt := p.negativePrompt
    width := p.width
    height := p.height
    seed := p.seed
    sampleSteps := p.steps
    cfgScale := p.cfgScale
    loras := p.loras
    initImage := if attached p.initImage then some (p.initImage,p.strength) else none
    controlImage :=
      if loadedPaths.controlNet ≠ [] ∧ attached p.controlImage = true then some (p.controlImage,p.controlStrength)
      else none }

-- What an sd_ctx_t* points at. The number tells two contexts apart that were
-- created from the same parameters.
structure SdCtx where
  number : Nat
  params : SdCtxParams
  deriving DecidableEq

structure SdImpl where
  ctx : Option SdCtx
  loadedPaths : SdModelPaths
  loaded : Bool
  created : Nat

-- g_cb_state; a callback is known by the task it belongs to.
structure CallbackState (ι : Type) where
  inUse : Bool
  callback : Option ι
  cancelRequested : Bool

inductive RawImage where
  | null
  | image (hasData : Bool) (width height : Nat)

namespace SdSession

def fresh : SdImpl := ⟨none,⟨[],[],[],[],[]⟩,false,0⟩

def reuses (impl : SdImpl) (paths : SdModelPaths) : Bool := impl.loaded && decide (impl.loadedPaths = paths)

-- ensure_loaded; `fails` is what new_sd_ctx does if it is called.
def ensureLoaded (impl : SdImpl) (paths : SdModelPaths) (fails : Bool) : SdImpl × Option Bytes :=
  if paths.diffusionModel = [] then (impl,some (ascii "ensure_loaded: diffusion_model path is empty"))
  else if reuses impl paths then (impl,none)
  else
    let impl := if impl.ctx.isSome then {impl with ctx := none,loaded := false} else impl
    let impl := {impl with loadedPaths := paths}
    if fails then
      (impl,some (ascii "new_sd_ctx returned NULL (model paths invalid, CUDA unavailable, or out of VRAM)"))
    else ({impl with ctx := some ⟨impl.created,ctxParams paths⟩,loaded := true,created := impl.created+1},none)

variable {ι : Type}

def idle : CallbackState ι := ⟨false,none,false⟩

-- generate up to its call of generate_image, which gets this context and these
-- parameters.
def generateStart (impl : SdImpl) (owner : ι) (params : SdGenerateParams) :
    Except Bytes (CallbackState ι × SdCtx × SdImgGenParams) :=
  match impl.ctx with
  | none => .error (ascii "generate: ensure_loaded must succeed first")
  | some ctx =>
    if !impl.loaded then .error (ascii "generate: ensure_loaded must succeed first")
    else .ok (⟨true,some owner,false⟩,ctx,genParams impl.loadedPaths params)

-- progress_callback_thunk; a callback goes on as long as its own task may.
def progressThunk (cb : CallbackState ι) (shouldCancel : ι → Bool) : CallbackState ι :=
  if !cb.inUse then cb else
  match cb.callback with
  | none => cb
  | some owner => if shouldCancel owner then {cb with cancelRequested := true} else cb

def generateEnd (cb : CallbackState ι) (result : RawImage) : CallbackState ι × Except Bytes (Nat × Nat) :=
  let detached : CallbackState ι := {cb with inUse := false,callback := none}
  match result with
  | .null => (detached,.error (ascii "generate_image returned NULL"))
  | .image hasData width height =>
    if cb.cancelRequested then (detached,.error (ascii "cancelled"))
    else if !hasData || width = 0 || height = 0 then (detached,.error (ascii "generate_image returned empty image"))
    else (detached,.ok (width,height))

def FromPaths (impl : SdImpl) : Prop := ∀ ctx, impl.ctx = some ctx → ctx.params = ctxParams impl.loadedPaths

variable {impl : SdImpl} {paths : SdModelPaths} {fails : Bool} {owner : ι} {params : SdGenerateParams}
  {cb : CallbackState ι} {result : RawImage}

theorem ensureLoaded_keeps (kept : paths.diffusionModel = [] ∨ reuses impl paths = true) :
    (ensureLoaded impl paths fails).1 = impl := by
  unfold ensureLoaded
  split
  · rfl
  · rename_i named
    rw [if_pos (kept.resolve_left named)]

theorem ensureLoaded_fromPaths (coherent : FromPaths impl) : FromPaths (ensureLoaded impl paths fails).1 := by
  unfold ensureLoaded
  split
  · exact coherent
  · split
    · exact coherent
    · intro ctx found
      cases fails with
      | true => cases held : impl.ctx <;> simp [held] at found
      | false =>
        cases found
        rfl

theorem generateStart_ok {cb : CallbackState ι} {ctx : SdCtx} {gen : SdImgGenParams}
    (started : generateStart impl owner params = .ok (cb,ctx,gen)) :
    impl.ctx = some ctx ∧ impl.loaded = true ∧ gen = genParams impl.loadedPaths params ∧ cb.cancelRequested = false := by
  unfold generateStart at started
  split at started
  · cases started
  · rename_i ctx' found
    split at started <;> cases started
    rename_i loaded
    exact ⟨found,by simpa using loaded,rfl,rfl⟩

theorem generateStart_error {err : Bytes} (refused : generateStart impl owner params = .error err) :
    err = ascii "generate: ensure_loaded must succeed first" := by
  unfold generateStart at refused
  split at refused
  · cases refused
    rfl
  · split at refused <;> cases refused
    rfl

theorem progressThunk_raises {shouldCancel : ι → Bool} (raised : (progressThunk cb shouldCancel).cancelRequested = true) :
    cb.cancelRequested = true ∨ ∃ owner, cb.callback = some owner ∧ shouldCancel owner = true := by
  unfold progressThunk at raised
  split at raised
  · exact .inl raised
  · split at raised
    · exact .inl raised
    · rename_i owner found
      split at raised
      · rename_i stop
        exact .inr ⟨owner,found,stop⟩
      · exact .inl raised

theorem generateEnd_flag : (generateEnd cb result).1.cancelRequested = cb.cancelRequested := by
  unfold generateEnd
  cases result with
  | null => rfl
  | image hasData width height =>
    dsimp only
    split_ifs <;> rfl

theorem generateEnd_cancelled (answered : (generateEnd cb result).2 = .error (ascii "cancelled")) :
    cb.cancelRequested = true := by
  unfold generateEnd at answered
  cases result with
  | null => exact absurd (Except.error.inj answered) (by decide)
  | image hasData width height =>
    dsimp only at answered
    split_ifs at answered with raised empty
    · exact raised
    · exact absurd (Except.error.inj answered) (by decide)

end SdSession

end SmartFill
