import SmartFill.Presets
import SmartFill.Lib.NamedList
import SmartFill.Lib.Transition

namespace SmartFill.Presets
open AIGenerate Assignment NamedList Transition

-- _FILE_KEYS
def fileKeys : List Logical := [.diffusionModel,.vae,.clipL,.t5xxl,.controlnet]

-- The files a preset names, in the order of its knobs; an empty text names none.
def namedFiles (root : Bytes) (key : PresetKey) : List Bytes :=
  (presets key).knobs.filterMap (fun e =>
    if e.1 ∈ fileKeys then
      match e.2 with
      | .text s => if s = [] then none else some (replaceModels root s.length s)
      | _ => none
    else none)

-- _missing_files
def missingFiles (root : Bytes) (disk : Files) (key : PresetKey) : List Bytes :=
  (namedFiles root key).filter (fun file => !fileExists disk file)

section Preflight
variable {root : Bytes} {key : PresetKey} {host : Host} {disk : Files} {node : Node}

def storedInt : Value → Option Int32
  | .int v => some v
  | _ => none

def intField : Logical → Option (Knobs → Int32)
  | .width => some (fun k => k.width)
  | .height => some (fun k => k.height)
  | .steps => some (fun k => k.steps)
  | _ => none

theorem int_stored (root : Bytes) {logical : Logical} {get : Knobs → Int32} (field : intField logical = some get) :
    Stored (setResolved root) logical get storedInt := by
  cases logical <;> cases field
  all_goals
    refine ⟨?_,?_⟩
    · intro k v
      cases v <;> rfl
    · intro k name v different
      cases name <;> cases v <;> first | contradiction | rfl

theorem control_stored (root : Bytes) :
    Stored (setResolved root) .controlnet (fun k : Knobs => k.controlNetPath) (storedText root) := by
  refine ⟨?_,?_⟩
  · intro k v
    cases v <;> rfl
  · intro k name v different
    cases name <;> cases v <;> first | contradiction | rfl

theorem prompt_stored (root : Bytes) :
    Stored (setResolved root) .prompt (fun k : Knobs => k.prompt) (storedText root) := by
  refine ⟨?_,?_⟩
  · intro k v
    cases v <;> rfl
  · intro k name v different
    cases name <;> cases v <;> first | contradiction | rfl

theorem applied_int (root : Bytes) (key : PresetKey) (k : Knobs) {logical : Logical} {get : Knobs → Int32}
    (field : intField logical = some get) : get (applyPreset root key k) =
      (((presets key).knobs.lookup logical).bind storedInt).getD (get k) :=
  assign_lookup (int_stored root field) _ (presets_distinct key) k

theorem applied_control : (applyPreset root key node.knobs).controlNetPath = file root key .controlnet := by
  have stored : (applyPreset root key node.knobs).controlNetPath =
      (((presets key).knobs.lookup .controlnet).bind (storedText root)).getD node.knobs.controlNetPath :=
    assign_lookup (control_stored root) _ (presets_distinct key) node.knobs
  cases key <;> exact stored

-- No preset touches the prompt.
theorem applied_prompt : (applyPreset root key node.knobs).prompt = node.knobs.prompt := by
  refine assign_untouched (prompt_stored root) _ ?_ node.knobs
  cases key <;> decide

theorem applied_size : (applyPreset root key node.knobs).width = 1024 ∧ (applyPreset root key node.knobs).height = 1024 := by
  have width : (applyPreset root key node.knobs).width =
      (((presets key).knobs.lookup .width).bind storedInt).getD node.knobs.width := applied_int root key _ rfl
  have height : (applyPreset root key node.knobs).height =
      (((presets key).knobs.lookup .height).bind storedInt).getD node.knobs.height := applied_int root key _ rfl
  cases key <;> exact ⟨width,height⟩

theorem applied_steps : (applyPreset root key node.knobs).steps = if (presets key).category = .flux then 4 else 20 := by
  have steps : (applyPreset root key node.knobs).steps =
      (((presets key).knobs.lookup .steps).bind storedInt).getD node.knobs.steps := applied_int root key _ rfl
  cases key <;> exact steps

def controlFile : PresetKey → Bytes
  | .fluxSchnellCanny => ascii "/controlnets/diffusion_pytorch_model.safetensors"
  | .sdxlCanny => ascii "/controlnets/sdxl_canny_legacy.safetensors"
  | _ => []

theorem file_control (root : Bytes) (guides : controlFile key ≠ []) : file root key .controlnet = root ++ controlFile key := by
  cases key <;> first | rfl | exact absurd rfl guides

theorem file_uncontrolled (root : Bytes) (plain : controlFile key = []) : file root key .controlnet = [] := by
  cases key <;> first | rfl | exact absurd plain (by decide)

def supportFiles (root : Bytes) (key : PresetKey) : List Bytes :=
  match (presets key).category with
  | .flux => [file root key .t5xxl,file root key .clipL,file root key .vae]
  | .sdxl | .sd15 => []

theorem named_files (root : Bytes) (key : PresetKey) : namedFiles root key = file root key .diffusionModel ::
    (supportFiles root key ++ if controlFile key = [] then [] else [file root key .controlnet]) := by
  cases key <;> rfl

def Present (disk : Files) (file : Bytes) : Prop := file = [] ∨ fileExists disk file = true

theorem present_named {p : Bytes} (named : p ≠ []) : Present disk p ↔ fileExists disk p = true :=
  or_iff_right named

theorem missing_iff (root : Bytes) (disk : Files) (key : PresetKey) : missingFiles root disk key = [] ↔
    fileExists disk (file root key .diffusionModel) = true ∧ (∀ p ∈ supportFiles root key, fileExists disk p = true) ∧
      Present disk (file root key .controlnet) := by
  have control : (∀ p ∈ (if controlFile key = [] then [] else [file root key .controlnet]), fileExists disk p = true) ↔
      Present disk (file root key .controlnet) := by
    by_cases plain : controlFile key = []
    · rw [if_pos plain]
      exact iff_of_true nofun (.inl (file_uncontrolled root plain))
    · have named : file root key .controlnet ≠ [] := by
        rw [file_control root plain]
        exact List.append_ne_nil_of_right_ne_nil root plain
      rw [if_neg plain,present_named named]
      simp
  rw [missingFiles,List.filter_eq_nil_iff,named_files,←control]
  simp only [List.mem_cons,List.mem_append,Bool.not_eq_true',Bool.not_eq_false]
  constructor
  · intro all
    exact ⟨all _ (.inl rfl),fun p listed => all p (.inr (.inl listed)),fun p listed => all p (.inr (.inr listed))⟩
  · rintro ⟨main,support,guides⟩ p (rfl | listed | listed)
    · exact main
    · exact support p listed
    · exact guides p listed

theorem present_iff (p : Bytes) : Present disk p ↔ ¬ (p ≠ [] ∧ fileExists disk p = false) := by
  unfold Present
  by_cases empty : p = [] <;> simp [empty]

theorem checked_none {c : Prop} [Decidable c] {status : Bytes} {rest : Option Bytes} :
    (if c then some status else rest) = none ↔ ¬ c ∧ rest = none := by
  by_cases fails : c <;> simp [fails]

-- The checks of start_bake that a preset leaves to the node and the disk.
theorem refusal_checks (host : Host) (disk : Files) (size : node.knobs.width = 1024 ∧ node.knobs.height = 1024)
    (steps : node.knobs.steps = 4 ∨ node.knobs.steps = 20) (main : (nodePaths host disk node).diffusionModel ≠ [])
    (whole : node.knobs.modelType = 0 → (nodePaths host disk node).vae ≠ [] ∧ (nodePaths host disk node).clipL ≠ [] ∧
      (nodePaths host disk node).t5xxl ≠ []) :
    refusal host disk node = none ↔ node.knobs.prompt ≠ [] ∧
      fileExists disk (nodePaths host disk node).diffusionModel = true ∧ Present disk (nodePaths host disk node).vae ∧
      Present disk (nodePaths host disk node).clipL ∧ Present disk (nodePaths host disk node).t5xxl ∧
      Present disk (nodePaths host disk node).controlNet := by
  have sized : ¬ (node.knobs.width < 64 ∨ node.knobs.height < 64 ∨ 4096 < node.knobs.width ∨ 4096 < node.knobs.height) := by
    rw [size.1,size.2]
    decide
  have stepped : ¬ (node.knobs.steps < 1 ∨ 100 < node.knobs.steps) := by
    rcases steps with four | twenty
    · rw [four]
      decide
    · rw [twenty]
      decide
  have complete : ¬ (node.knobs.modelType = 0 ∧ ((nodePaths host disk node).vae = [] ∨ (nodePaths host disk node).clipL = [] ∨
      (nodePaths host disk node).t5xxl = [])) := by
    rintro ⟨flux,missing⟩
    obtain ⟨vae,clip,t5⟩ := whole flux
    rcases missing with wrong | wrong | wrong
    · exact vae wrong
    · exact clip wrong
    · exact t5 wrong
  simp only [refusal,checked_none,present_iff,sized,stepped,complete,main,not_false_eq_true,true_and,and_true,
    Bool.not_eq_false]

-- What is left of the node's own paths after a preset.
def LeftoverPresent (disk : Files) (key : PresetKey) (k : Knobs) : Prop :=
  setsEncoders key = true ∨ (Present disk k.clipLPath ∧ Present disk k.t5xxlPath)

theorem support_named (root : Bytes) (flux : (presets key).category = .flux) :
    file root key .vae ≠ [] ∧ file root key .clipL ≠ [] ∧ file root key .t5xxl ≠ [] := by
  obtain ⟨_,vae,clip,t5⟩ := flux_files root flux
  rw [vae,clip,t5]
  refine ⟨?_,?_,?_⟩
  all_goals exact List.append_ne_nil_of_right_ne_nil root (by decide)

-- start_bake looks at the files a preset has put on the knobs.
theorem retargeted_paths (root : Bytes) (host : Host) (disk : Files) (key : PresetKey) (node : Node) :
    nodePaths host disk (retargeted root key node) =
      {nodePaths host disk (retargeted root key node) with
        diffusionModel := file root key .diffusionModel
        vae := file root key .vae
        clipL := (applyPreset root key node.knobs).clipLPath
        t5xxl := (applyPreset root key node.knobs).t5xxlPath
        controlNet := file root key .controlnet} := by
  by_cases flux : (presets key).category = .flux
  · have type : (applyPreset root key node.knobs).modelType = 0 := by rw [applied_type,if_pos flux]
    obtain ⟨vae,clip,t5⟩ := support_named root flux
    obtain ⟨appliedClip,appliedT5⟩ := applied_encoders root node.knobs (flux_files root flux).1
    simp only [nodePaths,retargeted,computeEffectivePaths,type,decide_true,if_true,applied_main,applied_vae,applied_control,
      appliedClip,appliedT5,pick_set (file_named root key),pickOptional_set vae,pickOptional_set clip,pickOptional_set t5]
  · have type : (applyPreset root key node.knobs).modelType = 1 := by rw [applied_type,if_neg flux]
    have other : ((1 : Int32) = 0) = False := eq_false (by decide)
    simp only [nodePaths,retargeted,computeEffectivePaths,type,other,decide_false,Bool.false_eq_true,if_false,applied_main,
      applied_vae,applied_control,pickOptional_plain]

theorem support_present (root : Bytes) (key : PresetKey) (node : Node) :
    (Present disk (file root key .vae) ∧ Present disk (applyPreset root key node.knobs).clipLPath ∧
      Present disk (applyPreset root key node.knobs).t5xxlPath) ↔
    (∀ p ∈ supportFiles root key, fileExists disk p = true) ∧ LeftoverPresent disk key node.knobs := by
  by_cases flux : (presets key).category = .flux
  · obtain ⟨sets,_⟩ := flux_files root flux
    obtain ⟨vae,clip,t5⟩ := support_named root flux
    obtain ⟨appliedClip,appliedT5⟩ := applied_encoders root node.knobs sets
    have support : supportFiles root key = [file root key .t5xxl,file root key .clipL,file root key .vae] := by
      rw [supportFiles,flux]
    rw [appliedClip,appliedT5,support,present_named vae,present_named clip,present_named t5]
    simp only [List.mem_cons,List.not_mem_nil,or_false,forall_eq_or_imp,forall_eq,LeftoverPresent,sets,true_or,and_true]
    constructor
    · rintro ⟨one,two,three⟩
      exact ⟨three,two,one⟩
    · rintro ⟨three,two,one⟩
      exact ⟨one,two,three⟩
  · obtain ⟨vaeFile,clipFile,t5File⟩ := sdxl_files root flux
    have support : supportFiles root key = [] := by
      cases key <;> first | rfl | exact absurd rfl flux
    have none_ : ∀ p ∈ supportFiles root key, fileExists disk p = true := by
      rw [support]
      exact nofun
    have vae : Present disk (file root key .vae) := .inl vaeFile
    cases sets : setsEncoders key with
    | true =>
      obtain ⟨appliedClip,appliedT5⟩ := applied_encoders root node.knobs sets
      exact iff_of_true ⟨vae,.inl (appliedClip.trans clipFile),.inl (appliedT5.trans t5File)⟩ ⟨none_,.inl sets⟩
    | false =>
      obtain ⟨keptClip,keptT5⟩ := kept_encoders root node.knobs sets
      rw [keptClip,keptT5]
      simp only [LeftoverPresent,sets,Bool.false_eq_true,false_or]
      exact ⟨fun held => ⟨none_,held.2⟩,fun held => ⟨vae,held.2⟩⟩

-- apply_preset reports no missing file exactly when a press of Bake would go
-- through, but for the prompt and the encoders that a preset leaves alone.
theorem preflight_exact (root : Bytes) (host : Host) (disk : Files) (key : PresetKey) (node : Node) :
    refusal host disk (retargeted root key node) = none ↔ node.knobs.prompt ≠ [] ∧ missingFiles root disk key = [] ∧
      LeftoverPresent disk key node.knobs := by
  have paths := retargeted_paths root host disk key node
  have checks := @refusal_checks (retargeted root key node) host disk applied_size ?_ ?_ ?_
  · rw [checks,missing_iff,paths]
    have support := @support_present disk root key node
    have prompt : (retargeted root key node).knobs.prompt = node.knobs.prompt := applied_prompt
    rw [prompt]
    tauto
  · show (applyPreset root key node.knobs).steps = 4 ∨ (applyPreset root key node.knobs).steps = 20
    rw [applied_steps]
    split
    · exact .inl rfl
    · exact .inr rfl
  · rw [paths]
    exact file_named root key
  · intro type
    have flux : (presets key).category = .flux := by
      by_contra other
      have one : (retargeted root key node).knobs.modelType = 1 := by
        exact applied_type.trans (if_neg other)
      rw [one] at type
      exact absurd type (by decide)
    obtain ⟨vae,clip,t5⟩ := support_named root flux
    obtain ⟨appliedClip,appliedT5⟩ := applied_encoders root node.knobs (flux_files root flux).1
    rw [paths]
    exact ⟨vae,appliedClip ▸ clip,appliedT5 ▸ t5⟩

end Preflight

-- The keys of PRESETS.
def presetName : PresetKey → Bytes
  | .fluxSchnellTxt2img => ascii "flux_schnell_txt2img"
  | .fluxSchnellImg2img => ascii "flux_schnell_img2img"
  | .fluxSchnellRealism => ascii "flux_schnell_realism"
  | .fluxSchnellCanny => ascii "flux_schnell_canny"
  | .sdxlTxt2img => ascii "sdxl_txt2img"
  | .sdxlImg2img => ascii "sdxl_img2img"
  | .sdxlCanny => ascii "sdxl_canny"

def presetKeys : List PresetKey :=
  [.fluxSchnellTxt2img,.fluxSchnellImg2img,.fluxSchnellRealism,.fluxSchnellCanny,.sdxlTxt2img,.sdxlImg2img,.sdxlCanny]

-- PRESETS.get
def getPreset (name : Bytes) : Option PresetKey := presetKeys.find? (fun key => decide (presetName key = name))

def title : PresetKey → Bytes
  | .fluxSchnellTxt2img => ascii "FLUX schnell - txt2img (fast)"
  | .fluxSchnellImg2img => ascii "FLUX schnell - img2img"
  | .fluxSchnellRealism => ascii "FLUX schnell - photorealistic (LoRA)"
  | .fluxSchnellCanny => ascii "FLUX schnell - canny ControlNet"
  | .sdxlTxt2img => ascii "SDXL - txt2img"
  | .sdxlImg2img => ascii "SDXL - img2img refine"
  | .sdxlCanny => ascii "SDXL - canny ControlNet"

-- The knobs a node can be given: preset_info, preset_title and so on, and
-- those of any other name.
inductive UserKnob where
  | presetInfo
  | presetTitle
  | presetNotes
  | presetHelp
  | presetKey
  | named (name : Bytes)
  deriving DecidableEq

-- What a node has been given, in order.
abbrev Panel := List (UserKnob × Bytes)

def titleText (key : PresetKey) : Bytes := ascii "<b><font size=4>" ++ title key ++ ascii "</font></b>"

def helpCommand : Bytes := ascii "from nuke_ai_fill_presets import show_preset_help; show_preset_help(nuke.thisNode())"

def noPreset : Bytes :=
  ascii "No preset is currently applied to this node.\n\nApply one from:\n  Image > AIGenerate Presets > Apply to selected"

section Tab
variable (notes : PresetKey → Bytes)

def ensurePresetTab (key : PresetKey) (panel : Panel) : Panel :=
  let panel := provide .presetInfo [] panel
  let panel := store .presetTitle (titleText key) (provide .presetTitle [] panel)
  let panel := drop .presetNotes panel ++ [(.presetNotes,notes key)]
  let panel := provide .presetHelp helpCommand panel
  store .presetKey (presetName key) (provide .presetKey [] panel)

def helpText (key : PresetKey) : Bytes := title key ++ ascii "\n\n" ++ notes key

-- show_preset_help
def showPresetHelp (panel : Panel) : Bytes :=
  match getPreset ((panel.lookup .presetKey).getD []) with
  | none => noPreset
  | some key => helpText notes key

-- Presets are applied, and whoever works on the node adds knobs of new names,
-- removes knobs and gives them values.
inductive PanelAction where
  | apply (key : PresetKey)
  | add (name : UserKnob) (value : Bytes)
  | remove (name : UserKnob)
  | set (name : UserKnob) (value : Bytes)

def panels : System Panel PanelAction where
  initial panel := panel = []
  step panel
  | .apply key => some (ensurePresetTab notes key panel)
  | .add name value => if name ∈ names panel then none else some (panel ++ [(name,value)])
  | .remove name => some (drop name panel)
  | .set name value => some (store name value panel)

def LeavesKey : PanelAction → Prop
  | .apply _ => False
  | .add _ _ => True
  | .remove name | .set name _ => name ≠ .presetKey

end Tab

section Runs
variable {notes : PresetKey → Bytes} {key : PresetKey} {panel later : Panel}

theorem getPreset_name (key : PresetKey) : getPreset (presetName key) = some key := by
  cases key <;> decide

theorem ensure_names (name : UserKnob) : name ∈ names (ensurePresetTab notes key panel) ↔ name = .presetInfo ∨
    name = .presetTitle ∨ name = .presetNotes ∨ name = .presetHelp ∨ name = .presetKey ∨ name ∈ names panel := by
  simp only [ensurePresetTab,names_store,mem_names_provide,mem_names_added,mem_names_drop]
  by_cases notes_ : name = .presetNotes
  · simp [notes_]
  · simp only [notes_,ne_eq,not_false_eq_true,true_and,false_or]
    tauto

theorem ensure_distinct (distinct : (names panel).Nodup) : (names (ensurePresetTab notes key panel)).Nodup := by
  simp only [ensurePresetTab,names_store]
  refine nodup_provide (nodup_provide (nodup_added (nodup_drop ?_) ?_))
  · rw [names_store]
    exact nodup_provide (nodup_provide distinct)
  · simp

theorem panels_distinct (path : Reached (panels notes) panel) : (names panel).Nodup := by
  apply Reached.invariant (fun panel => (names panel).Nodup) path
  · rintro panel rfl
    exact List.nodup_nil
  · intro panel action next distinct ran
    cases action with
    | apply key =>
      cases ran
      exact ensure_distinct distinct
    | add name value =>
      simp only [panels] at ran
      split at ran <;> cases ran
      rename_i absent
      exact nodup_added distinct absent
    | remove name =>
      cases ran
      exact nodup_drop distinct
    | set name value =>
      cases ran
      rw [names_store]
      exact distinct

theorem ensure_key (notes : PresetKey → Bytes) (key : PresetKey) (panel : Panel) :
    (ensurePresetTab notes key panel).lookup .presetKey = some (presetName key) :=
  lookup_store_self (mem_names_provide.mpr (.inl rfl))

theorem ensure_title (notes : PresetKey → Bytes) (key : PresetKey) (panel : Panel) :
    (ensurePresetTab notes key panel).lookup .presetTitle = some (titleText key) := by
  have one : UserKnob.presetTitle ≠ .presetKey := by decide
  have two : UserKnob.presetTitle ≠ .presetHelp := by decide
  have three : UserKnob.presetTitle ≠ .presetNotes := by decide
  simp only [ensurePresetTab,lookup_store_other one,lookup_provide_other one,lookup_provide_other two,
    lookup_append_other three,lookup_drop_other three]
  exact lookup_store_self (mem_names_provide.mpr (.inl rfl))

theorem ensure_notes (notes : PresetKey → Bytes) (key : PresetKey) (panel : Panel) :
    (ensurePresetTab notes key panel).lookup .presetNotes = some (notes key) := by
  have one : UserKnob.presetNotes ≠ .presetKey := by decide
  have two : UserKnob.presetNotes ≠ .presetHelp := by decide
  simp only [ensurePresetTab,lookup_store_other one,lookup_provide_other one,lookup_provide_other two]
  exact lookup_append_self (by simp)

def isNamed : UserKnob → Bool
  | .named _ => true
  | _ => false

-- The knobs that are not the preset's own.
def others (panel : Panel) : Panel := rest isNamed panel

theorem ensure_others (notes : PresetKey → Bytes) (key : PresetKey) (panel : Panel) :
    others (ensurePresetTab notes key panel) = others panel := by
  have own : isNamed .presetInfo = false ∧ isNamed .presetTitle = false ∧ isNamed .presetNotes = false ∧
      isNamed .presetHelp = false ∧ isNamed .presetKey = false := ⟨rfl,rfl,rfl,rfl,rfl⟩
  obtain ⟨info,titled,noted,helped,keyed⟩ := own
  simp only [others,ensurePresetTab,rest_store keyed,rest_provide keyed,rest_provide helped,rest_added noted,
    rest_drop noted,rest_store titled,rest_provide titled,rest_provide info]

-- Everything but the notes is on the panel.
def Shown (panel : Panel) : Prop :=
  .presetInfo ∈ names panel ∧ .presetTitle ∈ names panel ∧ .presetHelp ∈ names panel ∧ .presetKey ∈ names panel

theorem ensure_shown : Shown (ensurePresetTab notes key panel) := by
  simp [Shown,ensure_names]

theorem ensure_eq (shown : Shown panel) : ensurePresetTab notes key panel =
    store .presetKey (presetName key) (drop .presetNotes (store .presetTitle (titleText key) panel)) ++
      [(.presetNotes,notes key)] := by
  obtain ⟨info,titled,helped,keyed⟩ := shown
  have helped : UserKnob.presetHelp ∈ names (drop .presetNotes (store .presetTitle (titleText key) panel) ++
      [(.presetNotes,notes key)]) := by simp [helped]
  have keyed : UserKnob.presetKey ∈ names (drop .presetNotes (store .presetTitle (titleText key) panel) ++
      [(.presetNotes,notes key)]) := by simp [keyed]
  simp only [ensurePresetTab,provide_there info,provide_there titled,provide_there helped,provide_there keyed]
  exact store_added (by decide)

theorem ensure_again (shown : Shown panel) :
    ensurePresetTab notes key (ensurePresetTab notes key panel) = ensurePresetTab notes key panel := by
  have one : UserKnob.presetTitle ≠ .presetKey := by decide
  have two : UserKnob.presetNotes ≠ .presetKey := by decide
  have three : UserKnob.presetNotes ≠ .presetTitle := by decide
  have titled : store .presetTitle (titleText key) (store .presetKey (presetName key)
      (drop .presetNotes (store .presetTitle (titleText key) panel))) =
      store .presetKey (presetName key) (drop .presetNotes (store .presetTitle (titleText key) panel)) := by
    rw [store_comm one,←drop_store three,store_store]
  rw [ensure_eq ensure_shown,ensure_eq shown,store_added three,drop_added,titled,drop_store two,drop_drop,store_store]

-- Applied once more, a preset takes the notes away and puts them at the end.
theorem ensure_twice (notes : PresetKey → Bytes) (key : PresetKey) (panel : Panel) :
    ensurePresetTab notes key (ensurePresetTab notes key panel) =
      drop .presetNotes (ensurePresetTab notes key panel) ++ [(.presetNotes,notes key)] := by
  have one : UserKnob.presetTitle ≠ .presetKey := by decide
  have two : UserKnob.presetKey ≠ .presetTitle := by decide
  have three : UserKnob.presetHelp ≠ .presetTitle := by decide
  have four : UserKnob.presetNotes ≠ .presetTitle := by decide
  have titled : store .presetTitle (titleText key) (ensurePresetTab notes key panel) = ensurePresetTab notes key panel := by
    simp only [ensurePresetTab,store_comm one,store_provide two,store_provide three,store_added four,drop_store four,
      store_store]
  have keyed : store .presetKey (presetName key) (ensurePresetTab notes key panel) = ensurePresetTab notes key panel := by
    simp only [ensurePresetTab,store_store]
  rw [ensure_eq ensure_shown,titled,←drop_store (by decide),keyed]

-- What is put on last: the notes, unless a knob after them was missing.
theorem last_name (notes : PresetKey → Bytes) (key : PresetKey) (panel : Panel) :
    (names (ensurePresetTab notes key panel)).getLast? = some .presetNotes ↔
      .presetHelp ∈ names panel ∧ .presetKey ∈ names panel := by
  let noted : Panel := drop .presetNotes (store .presetTitle (titleText key)
    (provide .presetTitle [] (provide .presetInfo [] panel))) ++ [(.presetNotes,notes key)]
  have helped : .presetHelp ∈ names noted ↔ .presetHelp ∈ names panel := by simp [noted]
  have keyed : .presetKey ∈ names (provide .presetHelp helpCommand noted) ↔ .presetKey ∈ names panel := by simp [noted]
  have ensured : names (ensurePresetTab notes key panel) =
      names (provide .presetKey [] (provide .presetHelp helpCommand noted)) := names_store
  rw [ensured,names_provide]
  by_cases key_ : .presetKey ∈ names panel
  · rw [if_pos (keyed.mpr key_),names_provide]
    by_cases help_ : .presetHelp ∈ names panel
    · rw [if_pos (helped.mpr help_)]
      exact iff_of_true (by simp [noted,names_added]) ⟨help_,key_⟩
    · rw [if_neg (mt helped.mp help_)]
      exact iff_of_false (by simp) (fun both => help_ both.1)
  · rw [if_neg (mt keyed.mp key_)]
    exact iff_of_false (by simp) (fun both => key_ both.2)

-- One more application settles the panel; the first settles it when the knobs
-- after the notes were there before.
theorem ensure_settles (notes : PresetKey → Bytes) (key : PresetKey) (panel : Panel) :
    ensurePresetTab notes key (ensurePresetTab notes key panel) = ensurePresetTab notes key panel ↔
      .presetHelp ∈ names panel ∧ .presetKey ∈ names panel := by
  rw [←last_name notes key panel]
  constructor
  · intro settled
    rw [←settled]
    exact (last_name notes key _).mpr ⟨(ensure_names _).mpr (by simp),(ensure_names _).mpr (by simp)⟩
  · intro last
    obtain ⟨helped,keyed⟩ := (last_name notes key panel).mp last
    have tabbed : Shown (provide .presetTitle [] (provide .presetInfo [] panel)) := by simp [Shown,helped,keyed]
    have same : ensurePresetTab notes key (provide .presetTitle [] (provide .presetInfo [] panel)) =
        ensurePresetTab notes key panel := by
      simp only [ensurePresetTab,provide_there tabbed.1,provide_there tabbed.2.1]
    rw [←same]
    exact ensure_again tabbed

theorem help_kept {action : PanelAction} (ran : (panels notes).step panel action = some later)
    (leaves : LeavesKey action) (named : panel.lookup .presetKey = some (presetName key)) :
    later.lookup .presetKey = some (presetName key) := by
  cases action with
  | apply key => cases leaves
  | add name value =>
    simp only [panels] at ran
    split at ran <;> cases ran
    rename_i absent
    have other : UserKnob.presetKey ≠ name := by
      rintro rfl
      rw [lookup_absent absent] at named
      cases named
    rw [lookup_append_other other,named]
  | remove name =>
    cases ran
    rw [lookup_drop_other (Ne.symm leaves),named]
  | set name value =>
    cases ran
    rw [lookup_store_other (Ne.symm leaves),named]

theorem help_shown (notes : PresetKey → Bytes) (shown : panel.lookup .presetKey = some (presetName key)) :
    showPresetHelp notes panel = helpText notes key := by
  simp only [showPresetHelp,shown,Option.getD_some,getPreset_name]

-- Between two applications of a preset.
def Edits (notes : PresetKey → Bytes) : Panel → Panel → Prop :=
  Relation.ReflTransGen (fun panel later => ∃ action, LeavesKey action ∧ (panels notes).step panel action = some later)

theorem edits_help (edits : Edits notes panel later) (shown : panel.lookup .presetKey = some (presetName key)) :
    later.lookup .presetKey = some (presetName key) := by
  induction edits with
  | refl => exact shown
  | tail _ move ih =>
    obtain ⟨action,leaves,ran⟩ := move
    exact help_kept ran leaves ih

-- Whatever has been done to a node's panel, a preset puts its texts there once,
-- leaves the other knobs as they are, and its help stays on the button.
theorem panel_shows (notes : PresetKey → Bytes) {panel : Panel} (path : Reached (panels notes) panel) (key : PresetKey) :
    (names panel).Nodup ∧ others (ensurePresetTab notes key panel) = others panel ∧
    (ensurePresetTab notes key panel).lookup .presetTitle = some (titleText key) ∧
    (ensurePresetTab notes key panel).lookup .presetNotes = some (notes key) ∧
    (∀ later, Edits notes (ensurePresetTab notes key panel) later → showPresetHelp notes later = helpText notes key) ∧
    (ensurePresetTab notes key (ensurePresetTab notes key panel) = ensurePresetTab notes key panel ↔
      .presetHelp ∈ names panel ∧ .presetKey ∈ names panel) ∧
    ensurePresetTab notes key (ensurePresetTab notes key panel) =
      drop .presetNotes (ensurePresetTab notes key panel) ++ [(.presetNotes,notes key)] := by
  refine ⟨panels_distinct path,ensure_others notes key panel,ensure_title notes key panel,ensure_notes notes key panel,?_,
    ensure_settles notes key panel,ensure_twice notes key panel⟩
  intro later edits
  exact help_shown notes (edits_help edits (ensure_key notes key panel))

theorem panel_shows_fresh : ¬ (ensurePresetTab (fun _ => []) .sdxlCanny (ensurePresetTab (fun _ => []) .sdxlCanny []) =
    ensurePresetTab (fun _ => []) .sdxlCanny []) := by
  have fresh : Reached (panels (fun _ => [])) [] := .initial rfl
  obtain ⟨_,_,_,_,_,settles,_⟩ := panel_shows (fun _ => []) fresh .sdxlCanny
  rw [settles]
  rintro ⟨absent,_⟩
  exact List.not_mem_nil absent

end Runs

end SmartFill.Presets
