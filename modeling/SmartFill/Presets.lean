import SmartFill.AIGenerateRuns
import SmartFill.Lib.Assignment

namespace SmartFill.Presets
open AIGenerate Assignment

inductive Category where
  | flux
  | sdxl
  | sd15
  deriving DecidableEq

-- The logical keys of a preset's knobs.
inductive Logical where
  | architecture
  | diffusionModel
  | vae
  | clipL
  | t5xxl
  | controlnet
  | controlnetStrength
  | loras
  | lorasDir
  | modelsDir
  | prompt
  | negativePrompt
  | width
  | height
  | steps
  | cfg
  | seed
  | strength
  deriving DecidableEq

inductive KnobName where
  | modelType
  | diffusionModel
  | vae
  | clipL
  | t5xxl
  | controlNet
  | controlStrength
  | loras
  | lorasDir
  | modelsDir
  | prompt
  | negativePrompt
  | width
  | height
  | steps
  | cfgScale
  | seed
  | strength
  deriving DecidableEq

-- KNOB_NAMES
def knobNames : Logical → KnobName
  | .architecture => .modelType
  | .diffusionModel => .diffusionModel
  | .vae => .vae
  | .clipL => .clipL
  | .t5xxl => .t5xxl
  | .controlnet => .controlNet
  | .controlnetStrength => .controlStrength
  | .loras => .loras
  | .lorasDir => .lorasDir
  | .modelsDir => .modelsDir
  | .prompt => .prompt
  | .negativePrompt => .negativePrompt
  | .width => .width
  | .height => .height
  | .steps => .steps
  | .cfg => .cfgScale
  | .seed => .seed
  | .strength => .strength

inductive Value where
  | text (s : Bytes)
  | int (v : Int32)
  | float (v : F32)
  deriving DecidableEq

structure Preset where
  category : Category
  knobs : List (Logical × Value)

inductive PresetKey where
  | fluxSchnellTxt2img
  | fluxSchnellImg2img
  | fluxSchnellRealism
  | fluxSchnellCanny
  | sdxlTxt2img
  | sdxlImg2img
  | sdxlCanny
  deriving DecidableEq

def placeholder : Bytes := ascii "\x7bMODELS\x7d"

def text (s : String) : Value := .text (ascii s)
def models (file : String) : Value := .text (placeholder ++ ascii file)

-- PRESETS
def presets : PresetKey → Preset
  | .fluxSchnellTxt2img => ⟨.flux,[
      (.architecture,text "FLUX schnell"),
      (.diffusionModel,models "/flux1-schnell-q4_0.gguf"),
      (.t5xxl,models "/t5-v1_1-xxl-encoder-Q8_0.gguf"),
      (.clipL,models "/clip_l.safetensors"),
      (.vae,models "/ae.safetensors"),
      (.modelsDir,models ""),
      (.controlnet,text ""),
      (.loras,text ""),
      (.lorasDir,models "/loras"),
      (.width,.int 1024),
      (.height,.int 1024),
      (.steps,.int 4),
      (.cfg,.float F32.one),
      (.seed,.int (-1))]⟩
  | .fluxSchnellImg2img => ⟨.flux,[
      (.architecture,text "FLUX schnell"),
      (.diffusionModel,models "/flux1-schnell-q4_0.gguf"),
      (.t5xxl,models "/t5-v1_1-xxl-encoder-Q8_0.gguf"),
      (.clipL,models "/clip_l.safetensors"),
      (.vae,models "/ae.safetensors"),
      (.modelsDir,models ""),
      (.controlnet,text ""),
      (.loras,text ""),
      (.lorasDir,models "/loras"),
      (.width,.int 1024),
      (.height,.int 1024),
      (.steps,.int 4),
      (.cfg,.float F32.one),
      (.strength,.float F32.half),
      (.seed,.int (-1))]⟩
  | .fluxSchnellRealism => ⟨.flux,[
      (.architecture,text "FLUX schnell"),
      (.diffusionModel,models "/flux1-schnell-q4_0.gguf"),
      (.t5xxl,models "/t5-v1_1-xxl-encoder-Q8_0.gguf"),
      (.clipL,models "/clip_l.safetensors"),
      (.vae,models "/ae.safetensors"),
      (.modelsDir,models ""),
      (.controlnet,text ""),
      (.loras,text "flux-realism:1.0"),
      (.lorasDir,models "/loras"),
      (.width,.int 1024),
      (.height,.int 1024),
      (.steps,.int 4),
      (.cfg,.float F32.one),
      (.seed,.int (-1))]⟩
  | .fluxSchnellCanny => ⟨.flux,[
      (.architecture,text "FLUX schnell"),
      (.diffusionModel,models "/flux1-schnell-q4_0.gguf"),
      (.t5xxl,models "/t5-v1_1-xxl-encoder-Q8_0.gguf"),
      (.clipL,models "/clip_l.safetensors"),
      (.vae,models "/ae.safetensors"),
      (.modelsDir,models ""),
      (.controlnet,models "/controlnets/diffusion_pytorch_model.safetensors"),
      (.controlnetStrength,.float ⟨0x3f333333⟩),
      (.loras,text ""),
      (.lorasDir,models "/loras"),
      (.width,.int 1024),
      (.height,.int 1024),
      (.steps,.int 4),
      (.cfg,.float F32.one),
      (.seed,.int (-1))]⟩
  | .sdxlTxt2img => ⟨.sdxl,[
      (.architecture,text "SDXL"),
      (.diffusionModel,models "/sd_xl_base_1.0.safetensors"),
      (.modelsDir,models ""),
      (.vae,text ""),
      (.clipL,text ""),
      (.t5xxl,text ""),
      (.controlnet,text ""),
      (.loras,text ""),
      (.lorasDir,models "/loras"),
      (.width,.int 1024),
      (.height,.int 1024),
      (.steps,.int 20),
      (.cfg,.float ⟨0x40e00000⟩),
      (.seed,.int (-1))]⟩
  | .sdxlImg2img => ⟨.sdxl,[
      (.architecture,text "SDXL"),
      (.diffusionModel,models "/sd_xl_base_1.0.safetensors"),
      (.modelsDir,models ""),
      (.vae,text ""),
      (.controlnet,text ""),
      (.loras,text ""),
      (.lorasDir,models "/loras"),
      (.width,.int 1024),
      (.height,.int 1024),
      (.steps,.int 20),
      (.cfg,.float ⟨0x40e00000⟩),
      (.strength,.float F32.half),
      (.seed,.int (-1))]⟩
  | .sdxlCanny => ⟨.sdxl,[
      (.architecture,text "SDXL"),
      (.diffusionModel,models "/sd_xl_base_1.0.safetensors"),
      (.modelsDir,models ""),
      (.vae,text ""),
      (.controlnet,models "/controlnets/sdxl_canny_legacy.safetensors"),
      (.controlnetStrength,.float ⟨0x3f333333⟩),
      (.loras,text ""),
      (.lorasDir,models "/loras"),
      (.width,.int 1024),
      (.height,.int 1024),
      (.steps,.int 20),
      (.cfg,.float ⟨0x41000000⟩),
      (.seed,.int (-1))]⟩

-- str.replace("{MODELS}", MODELS_ROOT); the count bounds the number of steps.
def replaceModels (root : Bytes) : Nat → Bytes → Bytes
  | 0,s => s
  | _+1,[] => []
  | n+1,c :: rest =>
    if placeholder.isPrefixOf (c :: rest) then root ++ replaceModels root n ((c :: rest).drop placeholder.length)
    else c :: replaceModels root n rest

-- _resolve
def resolve (root : Bytes) : Value → Value
  | .text s => .text (replaceModels root s.length s)
  | v => v

def modelTypeOptions : List Bytes := [ascii "FLUX schnell",ascii "SDXL",ascii "SD 1.5"]

-- _set_knob: setValue on an existing knob stores a value of the knob's type;
-- an enumeration takes one of its labels.
def setKnob (k : Knobs) : KnobName → Value → Knobs
  | .modelType,.text label => {k with modelType := ((modelTypeOptions.idxOf? label).map Int32.ofNat).getD k.modelType}
  | .diffusionModel,.text s => {k with diffusionModelPath := s}
  | .vae,.text s => {k with vaePath := s}
  | .clipL,.text s => {k with clipLPath := s}
  | .t5xxl,.text s => {k with t5xxlPath := s}
  | .controlNet,.text s => {k with controlNetPath := s}
  | .controlStrength,.float v => {k with controlStrength := v}
  | .loras,.text s => {k with lorasText := s}
  | .lorasDir,.text s => {k with lorasDir := s}
  | .modelsDir,.text s => {k with modelsDir := s}
  | .prompt,.text s => {k with prompt := s}
  | .negativePrompt,.text s => {k with negativePrompt := s}
  | .width,.int v => {k with width := v}
  | .height,.int v => {k with height := v}
  | .steps,.int v => {k with steps := v}
  | .cfgScale,.float v => {k with cfgScale := v}
  | .seed,.int v => {k with seed := v}
  | .strength,.float v => {k with strength := v}
  | _,_ => k

def setResolved (root : Bytes) (k : Knobs) (logical : Logical) (value : Value) : Knobs :=
  setKnob k (knobNames logical) (resolve root value)

-- apply_preset, as far as the Op's knobs go.
def applyPreset (root : Bytes) (key : PresetKey) (k : Knobs) : Knobs := assign (setResolved root) k (presets key).knobs

def storedText (root : Bytes) : Value → Option Bytes
  | .text s => some (replaceModels root s.length s)
  | _ => none

def storedType (root : Bytes) : Value → Option Int32
  | .text s => (modelTypeOptions.idxOf? (replaceModels root s.length s)).map Int32.ofNat
  | _ => none

-- The file a preset names for a knob; empty when it names none.
def file (root : Bytes) (key : PresetKey) (logical : Logical) : Bytes :=
  (((presets key).knobs.lookup logical).bind (storedText root)).getD []

-- What start_bake hands ensure_loaded.
def bakePaths (host : Host) (disk : Files) (node : Node) : SdModelPaths :=
  let ep := nodePaths host disk node
  ⟨ep.diffusionModel,ep.vae,ep.clipL,ep.t5xxl,activeControlNet host disk node⟩

theorem bakeJob_paths (host : Host) (disk made : Files) (node : Node) (images : RgbImage × RgbImage) :
    (bakeJob host disk made node images).task.paths = bakePaths host disk node := rfl

def Agrees (root : Bytes) (key : PresetKey) (paths : SdModelPaths) : Prop :=
  match (presets key).category with
  | .flux => paths.vae = file root key .vae ∧ paths.clipL = file root key .clipL ∧ paths.t5xxl = file root key .t5xxl ∧
      (ctxParams paths).diffusionModelPath = some (file root key .diffusionModel)
  | .sdxl | .sd15 => paths.vae = [] ∧ paths.clipL = [] ∧ paths.t5xxl = [] ∧
      (ctxParams paths).modelPath = some (file root key .diffusionModel)

section Fields
variable {root : Bytes} {key : PresetKey} {k : Knobs} {logical : Logical} {get : Knobs → Bytes}

def textField : Logical → Option (Knobs → Bytes)
  | .diffusionModel => some (fun k => k.diffusionModelPath)
  | .vae => some (fun k => k.vaePath)
  | .clipL => some (fun k => k.clipLPath)
  | .t5xxl => some (fun k => k.t5xxlPath)
  | _ => none

theorem text_stored (root : Bytes) (field : textField logical = some get) :
    Stored (setResolved root) logical get (storedText root) := by
  cases logical <;> cases field
  all_goals
    refine ⟨?_,?_⟩
    · intro k v
      cases v <;> rfl
    · intro k name v different
      cases name <;> cases v <;> first | contradiction | rfl

theorem type_stored (root : Bytes) :
    Stored (setResolved root) .architecture (fun k : Knobs => k.modelType) (storedType root) := by
  refine ⟨?_,?_⟩
  · intro k v
    cases v <;> rfl
  · intro k name v different
    cases name <;> cases v <;> first | contradiction | rfl

theorem presets_distinct (key : PresetKey) : ((presets key).knobs.map Prod.fst).Nodup := by
  cases key <;> decide

-- A text knob holds the preset's value if the preset has one, else what it held.
theorem applied_text (root : Bytes) (key : PresetKey) (k : Knobs) (field : textField logical = some get) :
    get (applyPreset root key k) =
    (((presets key).knobs.lookup logical).bind (storedText root)).getD (get k) :=
  assign_lookup (text_stored root field) _ (presets_distinct key) k

theorem applied_type : (applyPreset root key k).modelType = if (presets key).category = .flux then 0 else 1 := by
  have stored : (applyPreset root key k).modelType =
      (((presets key).knobs.lookup .architecture).bind (storedType root)).getD k.modelType :=
    assign_lookup (type_stored root) _ (presets_distinct key) k
  have named : ((presets key).knobs.lookup .architecture).bind (storedType root) =
      some (if (presets key).category = .flux then 0 else 1) := by
    cases key <;> rfl
  rw [stored,named,Option.getD_some]

theorem applied_main : (applyPreset root key k).diffusionModelPath = file root key .diffusionModel := by
  have stored : (applyPreset root key k).diffusionModelPath =
      (((presets key).knobs.lookup .diffusionModel).bind (storedText root)).getD k.diffusionModelPath :=
    applied_text root key k rfl
  cases key <;> exact stored

theorem applied_vae : (applyPreset root key k).vaePath = file root key .vae := by
  have stored : (applyPreset root key k).vaePath =
      (((presets key).knobs.lookup .vae).bind (storedText root)).getD k.vaePath := applied_text root key k rfl
  cases key <;> exact stored

-- Whether the preset sets the knobs of both text encoders.
def setsEncoders (key : PresetKey) : Bool :=
  ((presets key).knobs.lookup .clipL).isSome && ((presets key).knobs.lookup .t5xxl).isSome

theorem applied_encoders (root : Bytes) (k : Knobs) (sets : setsEncoders key = true) :
    (applyPreset root key k).clipLPath = file root key .clipL ∧
    (applyPreset root key k).t5xxlPath = file root key .t5xxl := by
  have clip : (applyPreset root key k).clipLPath =
      (((presets key).knobs.lookup .clipL).bind (storedText root)).getD k.clipLPath := applied_text root key k rfl
  have t5 : (applyPreset root key k).t5xxlPath =
      (((presets key).knobs.lookup .t5xxl).bind (storedText root)).getD k.t5xxlPath := applied_text root key k rfl
  cases key <;> first | exact ⟨clip,t5⟩ | cases sets

theorem kept_encoders (root : Bytes) (k : Knobs) (leaves : setsEncoders key = false) :
    (applyPreset root key k).clipLPath = k.clipLPath ∧
    (applyPreset root key k).t5xxlPath = k.t5xxlPath := by
  have clip : (applyPreset root key k).clipLPath =
      (((presets key).knobs.lookup .clipL).bind (storedText root)).getD k.clipLPath := applied_text root key k rfl
  have t5 : (applyPreset root key k).t5xxlPath =
      (((presets key).knobs.lookup .t5xxl).bind (storedText root)).getD k.t5xxlPath := applied_text root key k rfl
  cases key <;> first | exact ⟨clip,t5⟩ | cases leaves

end Fields

section Retarget
variable {root : Bytes} {key : PresetKey} {host : Host} {disk : Files} {node : Node}

def mainFile : Category → Bytes
  | .flux => ascii "/flux1-schnell-q4_0.gguf"
  | .sdxl | .sd15 => ascii "/sd_xl_base_1.0.safetensors"

theorem file_main (root : Bytes) (key : PresetKey) :
    file root key .diffusionModel = root ++ mainFile (presets key).category := by
  cases key <;> rfl

theorem file_named (root : Bytes) (key : PresetKey) : file root key .diffusionModel ≠ [] := by
  rw [file_main]
  refine List.append_ne_nil_of_right_ne_nil root ?_
  cases (presets key).category <;> decide

theorem flux_files (root : Bytes) (flux : (presets key).category = .flux) : setsEncoders key = true ∧
    file root key .vae = root ++ ascii "/ae.safetensors" ∧ file root key .clipL = root ++ ascii "/clip_l.safetensors" ∧
    file root key .t5xxl = root ++ ascii "/t5-v1_1-xxl-encoder-Q8_0.gguf" := by
  cases key <;> first | exact ⟨rfl,rfl,rfl,rfl⟩ | cases flux

theorem sdxl_files (root : Bytes) (sdxl : (presets key).category ≠ .flux) :
    file root key .vae = [] ∧ file root key .clipL = [] ∧ file root key .t5xxl = [] := by
  cases key <;> first | contradiction | exact ⟨rfl,rfl,rfl⟩

theorem pick_set {knobValue fallback : Bytes} (named : knobValue ≠ []) : pick knobValue fallback = knobValue := if_neg named

theorem pickOptional_set {knobValue default_ : Bytes} {try_ : Bool} (named : knobValue ≠ []) :
    pickOptional disk knobValue default_ try_ = knobValue := if_pos named

theorem pickOptional_plain {knobValue default_ : Bytes} : pickOptional disk knobValue default_ false = knobValue := by
  unfold pickOptional
  split
  · rfl
  · rename_i empty
    exact (not_not.mp empty).symm

def retargeted (root : Bytes) (key : PresetKey) (node : Node) : Node := {node with knobs := applyPreset root key node.knobs}

theorem flux_agrees (flux : (presets key).category = .flux) :
    Agrees root key (bakePaths host disk (retargeted root key node)) := by
  have type : (applyPreset root key node.knobs).modelType = 0 := by rw [applied_type,if_pos flux]
  obtain ⟨sets,vaeFile,clipFile,t5File⟩ := flux_files root flux
  obtain ⟨appliedClip,appliedT5⟩ := applied_encoders root node.knobs sets
  have vae : file root key .vae ≠ [] := by
    rw [vaeFile]
    exact List.append_ne_nil_of_right_ne_nil root (by decide)
  have clip : file root key .clipL ≠ [] := by
    rw [clipFile]
    exact List.append_ne_nil_of_right_ne_nil root (by decide)
  have t5 : file root key .t5xxl ≠ [] := by
    rw [t5File]
    exact List.append_ne_nil_of_right_ne_nil root (by decide)
  have paths : bakePaths host disk (retargeted root key node) = ⟨file root key .diffusionModel,file root key .vae,
      file root key .clipL,file root key .t5xxl,activeControlNet host disk (retargeted root key node)⟩ := by
    simp only [bakePaths,nodePaths,retargeted,computeEffectivePaths,type,decide_true,if_true,applied_main,applied_vae,
      appliedClip,appliedT5,pick_set (file_named root key),pickOptional_set vae,pickOptional_set clip,
      pickOptional_set t5]
  rw [paths]
  simp only [Agrees,flux,ctxParams]
  simp [vae]

theorem sdxl_agrees_iff (sdxl : (presets key).category ≠ .flux) :
    Agrees root key (bakePaths host disk (retargeted root key node)) ↔
      (applyPreset root key node.knobs).clipLPath = [] ∧ (applyPreset root key node.knobs).t5xxlPath = [] := by
  have type : (applyPreset root key node.knobs).modelType = 1 := by rw [applied_type,if_neg sdxl]
  have other : ((1 : Int32) = 0) = False := eq_false (by decide)
  have paths : bakePaths host disk (retargeted root key node) = ⟨file root key .diffusionModel,file root key .vae,
      (applyPreset root key node.knobs).clipLPath,(applyPreset root key node.knobs).t5xxlPath,
      activeControlNet host disk (retargeted root key node)⟩ := by
    simp only [bakePaths,nodePaths,retargeted,computeEffectivePaths,type,other,decide_false,Bool.false_eq_true,if_false,
      applied_main,applied_vae,pickOptional_plain]
  obtain ⟨vae,_,_⟩ := sdxl_files root sdxl
  rw [paths,vae]
  have agrees : ∀ paths : SdModelPaths, Agrees root key paths ↔ paths.vae = [] ∧ paths.clipL = [] ∧ paths.t5xxl = [] ∧
      (ctxParams paths).modelPath = some (file root key .diffusionModel) := by
    intro paths
    unfold Agrees
    split
    · contradiction
    · rfl
    · rfl
  rw [agrees]
  constructor
  · intro held
    exact ⟨held.2.1,held.2.2.1⟩
  · intro empty
    refine ⟨rfl,empty.1,empty.2,?_⟩
    simp [ctxParams,empty.1,empty.2]

-- Two SDXL presets leave the text encoders' knobs as they find them.
theorem presets_retarget_iff (root : Bytes) (host : Host) (disk : Files) (key : PresetKey) (node : Node) :
    Agrees root key (bakePaths host disk (retargeted root key node)) ↔
      setsEncoders key = true ∨ (node.knobs.clipLPath = [] ∧ node.knobs.t5xxlPath = []) := by
  by_cases flux : (presets key).category = .flux
  · exact iff_of_true (flux_agrees flux) (.inl (flux_files root flux).1)
  · rw [sdxl_agrees_iff flux]
    cases sets : setsEncoders key with
    | true =>
      obtain ⟨_,clip,t5⟩ := sdxl_files root flux
      obtain ⟨appliedClip,appliedT5⟩ := applied_encoders root node.knobs sets
      exact iff_of_true ⟨appliedClip.trans clip,appliedT5.trans t5⟩ (.inl rfl)
    | false =>
      obtain ⟨keptClip,keptT5⟩ := kept_encoders root node.knobs sets
      rw [keptClip,keptT5]
      simp

example : setsEncoders .sdxlTxt2img = true ∧ setsEncoders .sdxlImg2img = false ∧ setsEncoders .sdxlCanny = false := by
  decide

-- From FLUX to SDXL img2img the CLIP-L and T5 files stay set.
theorem presets_leftover : ¬ ∀ root host disk key node,
    Agrees root key (bakePaths host disk (retargeted root key node)) := by
  intro claim
  have held := claim [] sdHost Disk.empty .sdxlImg2img (retargeted [] .fluxSchnellTxt2img fresh)
  rcases (presets_retarget_iff _ _ _ _ _).mp held with sets | empty
  · exact absurd sets (by decide)
  · exact absurd empty.1 (by decide)

end Retarget

end SmartFill.Presets
