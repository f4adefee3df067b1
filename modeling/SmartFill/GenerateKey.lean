import SmartFill.AIGenerateRuns

namespace SmartFill.AIGenerate

def loraText (l : LoRASpec) : Bytes × F32 := (forwardSlashes l.path,l.weight)

theorem forwardSlashes_empty {s : Bytes} : forwardSlashes s = [] ↔ s = [] := by
  simp [forwardSlashes]

section Decoding
variable {a b : List LoRASpec} {strength strength' : F32} {input input' : Option Input} {rest rest' : List Field}

theorem loraFields_head (a : List LoRASpec) (strength : F32) (input : Option Input) (rest : List Field) :
    ∃ s tail, loraFields a ++ (imageFields strength input ++ rest) = .string s :: tail := by
  cases a with
  | nil => exact ⟨_,_,rfl⟩
  | cons l others => exact ⟨_,_,rfl⟩

-- The section cannot be taken for one more LoRA: its second field is no float,
-- or the one after that is no string.
theorem imageFields_no_lora {path : Bytes} {weight : F32}
    (same : imageFields strength input ++ rest =
      .string path :: .float weight :: (loraFields b ++ (imageFields strength' input' ++ rest'))) : False := by
  obtain ⟨s,tail,head⟩ := loraFields_head b strength' input' rest'
  rw [head] at same
  cases input <;> simp [imageFields,inputFields,hashField] at same

-- The LoRA section ends where the img2img section begins, without its count.
theorem loraFields_decode (same : loraFields a ++ (imageFields strength input ++ rest) =
    loraFields b ++ (imageFields strength' input' ++ rest')) :
    a.map loraText = b.map loraText ∧ imageFields strength input ++ rest = imageFields strength' input' ++ rest' := by
  induction a generalizing b with
  | nil =>
    cases b with
    | nil => exact ⟨rfl,same⟩
    | cons l others => exact (imageFields_no_lora same).elim
  | cons l others ih =>
    cases b with
    | nil => exact (imageFields_no_lora same.symm).elim
    | cons l' others' =>
      simp only [loraFields,List.flatMap_cons,List.cons_append,List.nil_append,List.cons.injEq,Field.string.injEq,
        Field.float.injEq] at same
      obtain ⟨path,weight,tails⟩ := same
      obtain ⟨loras,images⟩ := ih tails
      exact ⟨by simp only [List.map_cons,loraText,path,weight,loras],images⟩

theorem imageFields_decode (same : imageFields strength input ++ rest = imageFields strength' input' ++ rest') :
    input.map (·.hash) = input'.map (·.hash) ∧ (input.isSome = true → strength = strength') ∧ rest = rest' := by
  cases input <;> cases input' <;> simp [imageFields,inputFields,hashField] at same ⊢ <;> tauto

theorem controlFields_decode {net net' : Bytes}
    (same : controlFields net strength input = controlFields net' strength' input') :
    forwardSlashes net = forwardSlashes net' ∧
      (net ≠ [] → strength = strength' ∧ input.map (·.hash) = input'.map (·.hash)) := by
  simp only [controlFields,List.cons_append,List.nil_append,List.cons.injEq,Field.string.injEq,true_and] at same
  obtain ⟨paths,guided⟩ := same
  refine ⟨paths,fun set => ?_⟩
  have set' : net' ≠ [] := by
    rw [Ne,← forwardSlashes_empty,← paths,forwardSlashes_empty]
    exact set
  rw [if_pos set,if_pos set'] at guided
  cases input <;> cases input' <;> simp [inputFields,hashField] at guided ⊢ <;> tauto

end Decoding

variable {host : Host} {disk made made' : Files} {n m after after' : Node} {job job' : BakeJob SdJob}
  {chance chance' : Chance}

structure SameFields (host : Host) (disk : Files) (n m : Node) : Prop where
  prompt : n.knobs.prompt = m.knobs.prompt
  negativePrompt : n.knobs.negativePrompt = m.knobs.negativePrompt
  width : n.knobs.width = m.knobs.width
  height : n.knobs.height = m.knobs.height
  steps : n.knobs.steps = m.knobs.steps
  cfgScale : n.knobs.cfgScale = m.knobs.cfgScale
  seed : n.lastResolvedSeed = m.lastResolvedSeed
  diffusionModel :
    forwardSlashes (nodePaths host disk n).diffusionModel = forwardSlashes (nodePaths host disk m).diffusionModel
  vae : forwardSlashes (nodePaths host disk n).vae = forwardSlashes (nodePaths host disk m).vae
  clipL : forwardSlashes (nodePaths host disk n).clipL = forwardSlashes (nodePaths host disk m).clipL
  t5xxl : forwardSlashes (nodePaths host disk n).t5xxl = forwardSlashes (nodePaths host disk m).t5xxl
  loras : (nodeLoras host disk n).map loraText = (nodeLoras host disk m).map loraText
  source : n.source.map (·.hash) = m.source.map (·.hash)
  strength : n.source.isSome = true → n.knobs.strength = m.knobs.strength
  controlNet : forwardSlashes (nodePaths host disk n).controlNet = forwardSlashes (nodePaths host disk m).controlNet
  control : (nodePaths host disk n).controlNet ≠ [] →
    n.knobs.controlStrength = m.knobs.controlStrength ∧ n.control.map (·.hash) = m.control.map (·.hash)

theorem keyFields_decode (same : keyFields host disk n = keyFields host disk m) : SameFields host disk n m := by
  simp only [keyFields,List.append_assoc,List.cons_append,List.nil_append,List.cons.injEq,Field.string.injEq,
    Field.int32.injEq,Field.int64.injEq,Field.float.injEq,true_and] at same
  obtain ⟨_,prompt,negativePrompt,width,height,steps,cfgScale,seed,diffusionModel,vae,clipL,t5xxl,_,sections⟩ := same
  obtain ⟨loras,images⟩ := loraFields_decode sections
  obtain ⟨source,strength,controls⟩ := imageFields_decode images
  obtain ⟨controlNet,control⟩ := controlFields_decode controls
  exact ⟨prompt,negativePrompt,width,height,steps,cfgScale,seed,diffusionModel,vae,clipL,t5xxl,loras,source,strength,
    controlNet,control⟩

-- The two jobs are the same to SdSession, up to the slashes of paths. What a
-- strength or a hash does not reach is left out.
structure SameJob (a b : BakeJob SdJob) : Prop where
  prompt : a.task.params.prompt = b.task.params.prompt
  negativePrompt : a.task.params.negativePrompt = b.task.params.negativePrompt
  width : a.task.params.width = b.task.params.width
  height : a.task.params.height = b.task.params.height
  steps : a.task.params.steps = b.task.params.steps
  seed : a.task.params.seed = b.task.params.seed
  cfgScale : a.task.params.cfgScale = b.task.params.cfgScale
  diffusionModel : forwardSlashes a.task.paths.diffusionModel = forwardSlashes b.task.paths.diffusionModel
  vae : forwardSlashes a.task.paths.vae = forwardSlashes b.task.paths.vae
  clipL : forwardSlashes a.task.paths.clipL = forwardSlashes b.task.paths.clipL
  t5xxl : forwardSlashes a.task.paths.t5xxl = forwardSlashes b.task.paths.t5xxl
  loras : a.task.params.loras.map loraText = b.task.params.loras.map loraText
  source : a.task.source.map (·.hash) = b.task.source.map (·.hash)
  initImage : a.task.params.initImage = b.task.params.initImage
  strength : a.task.source.isSome = true → a.task.params.strength = b.task.params.strength
  controlNet : forwardSlashes a.task.paths.controlNet = forwardSlashes b.task.paths.controlNet
  controlImage : a.task.params.controlImage = b.task.params.controlImage
  control : a.task.paths.controlNet ≠ [] → a.task.control.map (·.hash) = b.task.control.map (·.hash) ∧
    a.task.params.controlStrength = b.task.params.controlStrength

-- The hash of an upstream Op stands for all of it.
def HashDetermines (x y : Option Input) : Prop := x.map (·.hash) = y.map (·.hash) → x = y

theorem readInputRgbU8_ok {input : Input} {abort : Abort} {image : RgbImage}
    (read : readInputRgbU8 host input abort = .ok image) : readInputRgbU8 host input .none = .ok image := by
  cases abort with
  | none => exact read
  | validating => cases read
  | row y =>
    simp only [readInputRgbU8] at read
    split at read
    · cases read
    · split at read <;> cases read

theorem readOptional_ok {input : Option Input} {abort : Abort} {image : RgbImage}
    (read : readOptional host input abort = .ok image) : readOptional host input .none = .ok image := by
  unfold readOptional at read ⊢
  split at read
  · exact read
  · exact readInputRgbU8_ok read

theorem readImages_ok {images : RgbImage × RgbImage} (read : readImages host disk chance n = .ok images) :
    readOptional host n.source .none = .ok images.1 ∧
      if (nodePaths host disk n).controlNet = [] then images.2 = RgbImage.none
      else readOptional host n.control .none = .ok images.2 := by
  unfold readImages at read
  split at read
  · cases read
  · rename_i init found
    split at read
    · rename_i off
      cases read
      exact ⟨readOptional_ok found,by rw [if_pos off]⟩
    · rename_i on
      split at read
      · cases read
      · rename_i control guided
        cases read
        exact ⟨readOptional_ok found,by rw [if_neg on]; exact readOptional_ok guided⟩

theorem readImages_same {images images' : RgbImage × RgbImage} (read : readImages host disk chance n = .ok images)
    (read' : readImages host disk chance' m = .ok images') (source : n.source = m.source)
    (net : (nodePaths host disk n).controlNet = [] ↔ (nodePaths host disk m).controlNet = [])
    (control : (nodePaths host disk n).controlNet ≠ [] → n.control = m.control) : images = images' := by
  obtain ⟨init,guide⟩ := readImages_ok read
  obtain ⟨init',guide'⟩ := readImages_ok read'
  have first : images.1 = images'.1 := by
    rw [source,init'] at init
    exact (Except.ok.inj init).symm
  have second : images.2 = images'.2 := by
    by_cases off : (nodePaths host disk n).controlNet = []
    · rw [if_pos off] at guide
      rw [if_pos (net.mp off)] at guide'
      rw [guide,guide']
    · rw [if_neg off,control off] at guide
      rw [if_neg (mt net.mpr off),guide] at guide'
      exact Except.ok.inj guide'
  exact Prod.ext first second

theorem makeCacheDir_keeps {path p : Path} (present : fileExists disk p = true) :
    fileExists (makeCacheDir disk chance path) p = true := by
  unfold makeCacheDir
  split
  · exact present
  · simp only [fileExists,Disk.present,Disk.makeDirs,Bool.and_eq_true,decide_eq_true_eq,Bool.or_eq_true,
      List.mem_append] at present ⊢
    exact ⟨present.1,present.2.imp id .inr⟩

theorem keptLoras_all {path : Path} {loras : List LoRASpec} (present : ∀ l ∈ loras, fileExists disk l.path = true) :
    keptLoras (makeCacheDir disk chance path) loras = loras := by
  rw [keptLoras,List.filter_eq_self]
  exact fun l member => makeCacheDir_keeps (present l member)

section Job
variable {images : RgbImage × RgbImage}

theorem bakeJob_loras :
    (bakeJob host disk made n images).task.params.loras = keptLoras made (nodeLoras host disk n) := rfl

theorem bakeJob_initImage : (bakeJob host disk made n images).task.params.initImage = images.1 := rfl

theorem bakeJob_controlImage : (bakeJob host disk made n images).task.params.controlImage = images.2 := rfl

end Job

theorem key_sound (host : Host) (disk : Files) (n m : Node) (chance chance' : Chance)
    (ready : prepareBake host disk chance n = (.ready after job,made))
    (ready' : prepareBake host disk chance' m = (.ready after' job',made'))
    (same : keyStream (keyFields host disk after) = keyStream (keyFields host disk after'))
    (sized : ∀ f ∈ keyFields host disk after ++ keyFields host disk after', f.Sized)
    (present : ∀ l ∈ nodeLoras host disk n ++ nodeLoras host disk m, fileExists disk l.path = true)
    (upstream : HashDetermines n.source m.source ∧ HashDetermines n.control m.control) : SameJob job job' := by
  obtain ⟨_,rfl,_,images,read,rfl⟩ := prepareBake_ready ready
  obtain ⟨_,rfl,_,images',read',rfl⟩ := prepareBake_ready ready'
  have fields := keyStream_injective (fun f member => sized f (List.mem_append_left _ member))
    (fun f member => sized f (List.mem_append_right _ member)) same
  have shared := keyFields_decode fields
  have source : n.source = m.source := upstream.1 shared.source
  have net : (nodePaths host disk n).controlNet = [] ↔ (nodePaths host disk m).controlNet = [] := by
    rw [← forwardSlashes_empty,show forwardSlashes (nodePaths host disk n).controlNet = _ from shared.controlNet,
      forwardSlashes_empty]
    rfl
  have control : (nodePaths host disk n).controlNet ≠ [] → n.control = m.control :=
    fun on => upstream.2 (shared.control on).2
  cases readImages_same read read' source net control
  have loras : ∀ c p, keptLoras (makeCacheDir disk c p) (nodeLoras host disk n) = nodeLoras host disk n :=
    fun _ _ => keptLoras_all (fun l member => present l (List.mem_append_left _ member))
  have loras' : ∀ c p, keptLoras (makeCacheDir disk c p) (nodeLoras host disk m) = nodeLoras host disk m :=
    fun _ _ => keptLoras_all (fun l member => present l (List.mem_append_right _ member))
  have active : forwardSlashes (activeControlNet host disk n) = forwardSlashes (activeControlNet host disk m) := by
    by_cases off : (nodePaths host disk n).controlNet = []
    · simp only [activeControlNet,off,net.mp off,ite_self]
    · rw [activeControlNet,activeControlNet,control off]
      split
      · exact shared.controlNet
      · rfl
  refine ⟨shared.prompt,shared.negativePrompt,shared.width,shared.height,shared.steps,shared.seed,shared.cfgScale,
    shared.diffusionModel,shared.vae,shared.clipL,shared.t5xxl,?_,shared.source,?_,shared.strength,active,?_,?_⟩
  · rw [bakeJob_loras,bakeJob_loras]
    show (keptLoras _ (nodeLoras host disk n)).map loraText = (keptLoras _ (nodeLoras host disk m)).map loraText
    rw [pressDisk,pressDisk,loras,loras']
    exact shared.loras
  · rw [bakeJob_initImage,bakeJob_initImage]
  · rw [bakeJob_controlImage,bakeJob_controlImage]
  · intro on
    have set : (nodePaths host disk n).controlNet ≠ [] := by
      intro off
      have inactive : activeControlNet host disk n = [] := by simp only [activeControlNet,off,ite_self]
      exact on inactive
    exact ⟨(shared.control set).2,(shared.control set).1⟩

def guide : Input := ⟨7,true,⟨0,0,1,1⟩,1,1,fun _ _ _ => F32.one⟩

-- A LoRA, a picture to start from and a ControlNet with its own picture.
def guidedNode (lora net : Bytes) : Node :=
  {fresh with
    knobs := {sdKnobs (ascii "x") with lorasText := lora,controlNetPath := net}
    source := some guide
    control := some {guide with hash := 8}}

-- One LoRA and one ControlNet, each under both spellings.
def guidedDisk : Files :=
  ((((Disk.empty.write sdModel []).write (ascii "/l/a") []).write (ascii "/l\\a") []).write (ascii "/n/c") []).write
    (ascii "/n\\c") []

theorem guidedDisk_absent {p : Path} (long : 5 ≤ p.length) : fileExists guidedDisk p = false := by
  have other : ∀ q : Path, q.length < 5 → p ≠ q := by
    rintro q short rfl
    omega
  have missing : guidedDisk.read p = none := by
    simp only [guidedDisk,Disk.read_write,if_neg (other _ (show (ascii "/n\\c").length < 5 by decide)),
      if_neg (other _ (show (ascii "/n/c").length < 5 by decide)),
      if_neg (other _ (show (ascii "/l\\a").length < 5 by decide)),
      if_neg (other _ (show (ascii "/l/a").length < 5 by decide)),
      if_neg (other _ (show sdModel.length < 5 by decide)),Disk.read_empty]
  have flat : guidedDisk.dirs = [] := rfl
  simp [fileExists,Disk.present,missing,flat]

theorem guidedNode_launches (lora net : Bytes) (accepted : refusal sdHost guidedDisk (guidedNode lora net) = none)
    (set : net ≠ []) : Launches sdHost guidedDisk sdChance (guidedNode lora net) := by
  refine ⟨show AiWorkerState.idle ≠ .running by decide,⟨accepted,?_⟩,?_⟩
  · have net : (nodePaths sdHost guidedDisk (guidedNode lora net)).controlNet ≠ [] := set
    simp only [readImages,if_neg net]
    exact ⟨_,rfl⟩
  · rw [sdNode_pressDisk]
    have named : ascii "/c" ≠ [] := by decide
    exact guidedDisk_absent (Nat.le_of_succ_le (cachePath_long named))

theorem key_sound_respelled : ∃ after after' job job' made made',
    prepareBake sdHost guidedDisk sdChance (guidedNode (ascii "/l/a") (ascii "/n/c")) = (.ready after job,made) ∧
    prepareBake sdHost guidedDisk sdChance (guidedNode (ascii "/l\\a") (ascii "/n\\c")) = (.ready after' job',made') ∧
    job.task.params.loras ≠ job'.task.params.loras ∧ job.task.paths.controlNet ≠ job'.task.paths.controlNet ∧
    SameJob job job' := by
  obtain ⟨images,_,ready⟩ := prepareBake_launches
    (guidedNode_launches (ascii "/l/a") (ascii "/n/c") (by decide) (by decide))
  obtain ⟨images',_,ready'⟩ := prepareBake_launches
    (guidedNode_launches (ascii "/l\\a") (ascii "/n\\c") (by decide) (by decide))
  refine ⟨_,_,_,_,_,_,ready,ready',?_,?_,
    key_sound _ _ _ _ _ _ ready ready' rfl (by decide) (by decide) ⟨fun _ => rfl,fun _ => rfl⟩⟩
  · rw [bakeJob_loras,bakeJob_loras,sdNode_pressDisk,sdNode_pressDisk]
    decide
  · show ascii "/n/c" ≠ ascii "/n\\c"
    decide

def appliedLoras (host : Host) (disk : Files) (chance : Chance) (node : Node) : List LoRASpec :=
  keptLoras (pressDisk host disk chance node) (nodeLoras host disk node)

theorem ready_applied (ready : prepareBake host disk chance n = (.ready after job,made)) :
    job.task.params.loras = appliedLoras host disk chance n ∧ job.key = pressKey host disk chance n ∧
      job.path = pressPath host disk chance n := by
  obtain ⟨_,_,_,images,_,rfl⟩ := prepareBake_ready ready
  refine ⟨?_,rfl,rfl⟩
  rw [bakeJob_loras]
  rfl

section Moments
variable {disk' : Files}

theorem refusal_flux (accepted : refusal host disk n = none) (flux : n.knobs.modelType = 0) :
    (nodePaths host disk n).vae ≠ [] ∧ (nodePaths host disk n).clipL ≠ [] ∧ (nodePaths host disk n).t5xxl ≠ [] := by
  by_contra missing
  have some_empty : n.knobs.modelType = 0 ∧
      ((nodePaths host disk n).vae = [] ∨ (nodePaths host disk n).clipL = [] ∨ (nodePaths host disk n).t5xxl = []) := by
    refine ⟨flux,?_⟩
    tauto
  unfold refusal at accepted
  simp only [if_pos some_empty] at accepted
  split_ifs at accepted

theorem pickOptional_fixed {knobValue default_ : Bytes} {tryDefault : Bool}
    (found : tryDefault = true → pickOptional disk knobValue default_ tryDefault ≠ [])
    (found' : tryDefault = true → pickOptional disk' knobValue default_ tryDefault ≠ []) :
    pickOptional disk knobValue default_ tryDefault = pickOptional disk' knobValue default_ tryDefault := by
  cases tryDefault with
  | false => simp [pickOptional]
  | true =>
    have found := found rfl
    have found' := found' rfl
    unfold pickOptional at found found' ⊢
    split_ifs at found found' ⊢ <;> simp_all

-- So the effective paths are the same at any two moments that pass.
theorem nodePaths_fixed (accepted : refusal host disk n = none) (accepted' : refusal host disk' n = none) :
    nodePaths host disk n = nodePaths host disk' n := by
  have flux := refusal_flux accepted
  have flux' := refusal_flux accepted'
  unfold nodePaths computeEffectivePaths at flux flux' ⊢
  simp only [EffectivePaths.mk.injEq,true_and,and_true]
  have isFlux : ∀ k : Knobs, decide (k.modelType = 0) = true → k.modelType = 0 := fun _ => of_decide_eq_true
  exact ⟨pickOptional_fixed (fun f => (flux (isFlux _ f)).1) (fun f => (flux' (isFlux _ f)).1),
    pickOptional_fixed (fun f => (flux (isFlux _ f)).2.1) (fun f => (flux' (isFlux _ f)).2.1),
    pickOptional_fixed (fun f => (flux (isFlux _ f)).2.2) (fun f => (flux' (isFlux _ f)).2.2)⟩

theorem nodeLoras_fixed : nodeLoras host disk n = nodeLoras host disk' n := rfl

theorem press_fixed (accepted : refusal host disk n = none) (accepted' : refusal host disk' n = none)
    (seed : (pressNode chance n).lastResolvedSeed = (pressNode chance' n).lastResolvedSeed) :
    pressKey host disk chance n = pressKey host disk' chance' n ∧
      pressPath host disk chance n = pressPath host disk' chance' n := by
  have paths : nodePaths host disk (pressNode chance n) = nodePaths host disk' (pressNode chance' n) :=
    nodePaths_fixed accepted accepted'
  have loras : nodeLoras host disk (pressNode chance n) = nodeLoras host disk' (pressNode chance' n) := nodeLoras_fixed
  have key : pressKey host disk chance n = pressKey host disk' chance' n := by
    unfold pressKey computeCacheKey keyFields
    rw [paths,loras,seed]
    rfl
  refine ⟨key,?_⟩
  rw [pressPath,pressPath,key,resultPath,resultPath,paths]

theorem keptLoras_eq_iff {loras : List LoRASpec} :
    keptLoras disk loras = keptLoras disk' loras ↔ ∀ l ∈ loras, fileExists disk l.path = fileExists disk' l.path := by
  constructor
  · intro same l member
    have kept : l ∈ keptLoras disk loras ↔ l ∈ keptLoras disk' loras := by rw [same]
    simp only [keptLoras,List.mem_filter,member,true_and] at kept
    exact Bool.eq_iff_iff.mpr kept
  · intro same
    exact List.filter_congr same

-- What the key owes the LoRAs of two presses.
def KeyTellsLoras (host : Host) (disk disk' : Files) (n : Node) (chance chance' : Chance) : Prop :=
  appliedLoras host disk chance n ≠ appliedLoras host disk' chance' n →
    pressKey host disk chance n ≠ pressKey host disk' chance' n ∧
    pressPath host disk chance n ≠ pressPath host disk' chance' n

-- The key tells two LoRA stacks apart exactly when they are not different: as
-- soon as one listed file is there at one moment only, two stacks share a key.
theorem lora_key_iff (host : Host) (disk disk' : Files) (n : Node) (chance chance' : Chance)
    (accepted : refusal host disk n = none) (accepted' : refusal host disk' n = none)
    (seed : (pressNode chance n).lastResolvedSeed = (pressNode chance' n).lastResolvedSeed) :
    KeyTellsLoras host disk disk' n chance chance' ↔ ∀ l ∈ nodeLoras host disk n,
      fileExists (pressDisk host disk chance n) l.path = fileExists (pressDisk host disk' chance' n) l.path := by
  have fixed := press_fixed accepted accepted' seed
  have lists : appliedLoras host disk chance n = appliedLoras host disk' chance' n ↔ _ := keptLoras_eq_iff
  rw [← lists]
  constructor
  · intro claim
    by_contra differ
    exact (claim differ).1 fixed.1
  · intro same differ
    exact absurd same differ

end Moments

def loraNode : Node := {fresh with knobs := {sdKnobs (ascii "x") with lorasText := ascii "/l"}}

def loraDisk : Files := sdDisk.write (ascii "/l") []

def laterDisk : Files := loraDisk.write (ascii "/other") []

theorem laterDisk_accepted : refusal sdHost laterDisk loraNode = none := by decide

theorem loraNode_accepted : refusal sdHost sdDisk loraNode = none ∧ refusal sdHost loraDisk loraNode = none := by decide

-- The same node, and another file than its LoRA appeared in between.
theorem lora_key_unchanged : loraDisk.read (ascii "/other") ≠ laterDisk.read (ascii "/other") ∧
    appliedLoras sdHost loraDisk sdChance loraNode ≠ [] ∧
    KeyTellsLoras sdHost loraDisk laterDisk loraNode sdChance sdChance := by
  refine ⟨by decide,?_,?_⟩
  · rw [appliedLoras,sdNode_pressDisk]
    decide
  · refine (lora_key_iff sdHost loraDisk laterDisk loraNode sdChance sdChance loraNode_accepted.2 laterDisk_accepted
      rfl).mpr ?_
    rw [sdNode_pressDisk,sdNode_pressDisk]
    decide

theorem lora_key_shared : ¬ ∀ (host : Host) (disk disk' : Files) (n : Node) (chance chance' : Chance),
    refusal host disk n = none → refusal host disk' n = none →
    (pressNode chance n).lastResolvedSeed = (pressNode chance' n).lastResolvedSeed →
    KeyTellsLoras host disk disk' n chance chance' := by
  intro claim
  have differ : appliedLoras sdHost sdDisk sdChance loraNode ≠ appliedLoras sdHost loraDisk sdChance loraNode := by
    rw [appliedLoras,appliedLoras,sdNode_pressDisk,sdNode_pressDisk]
    decide
  exact (claim _ _ _ _ _ _ loraNode_accepted.1 loraNode_accepted.2 rfl differ).1
    (press_fixed loraNode_accepted.1 loraNode_accepted.2 rfl).1

end SmartFill.AIGenerate
