import SmartFill.CookHash
import SmartFill.GraphSources

namespace SmartFill.Graph
open Transition Parallel ImageCache CookHash

-- Every cache file of a key that can be read holds the image of the key.
def Filed (image : Bytes → ImageCacheReadResult) (e : Bytes) (disk : Files) : Prop :=
  ∀ dir fields content, dir ≠ [] → disk.read (cachePath e dir (cacheKey fields)) = some content →
    (imageCacheRead (some content)).ok = true → imageCacheRead (some content) = image (cacheKey fields)

section Kinds
variable {Node T Act : Type} {k : Kind Node T Act} {press : BakeJob T → Prop} {p : Part Node T} {disk : Files}
  {moved : Part Node T × Files} {a : Move Act} {e : Bytes} {image : Bytes → ImageCacheReadResult}

-- What is being written is the image of its key.
def Repeated (image : Bytes → ImageCacheReadResult) (p : Part Node T) : Prop :=
  ∀ f, p.flight = some f → inRange f.run.job.width f.run.job.height 3 = true →
    (⟨true,f.run.job.width,f.run.job.height,3,f.pixels.take (f.run.job.width*f.run.job.height*3).toNat,[]⟩ :
      ImageCacheReadResult) = image f.run.job.key

theorem cachePath_final {dir key : Bytes} (listed : e ∈ [AISmartFill.extension,AIGenerate.extension]) (named : dir ≠ []) :
    (cachePath e dir key).getLast? ≠ some 112 := cachePath_last ⟨e,listed,dir,key,named,rfl⟩

theorem moved_filed (listed : e ∈ [AISmartFill.extension,AIGenerate.extension]) (crewed : Crewed k press p)
    (begun : Begun p disk) (erases : ∀ node disk act moved, k.main node disk act = some moved → ∀ q, Erased e disk moved.2 q)
    (keyed : ∀ job, press job → ∃ dir fields, job.key = cacheKey fields ∧ job.path = cachePath e dir job.key)
    (repeated : Repeated image p) (moves : Moved k p disk a moved) (filed : Filed image e disk) : Filed image e moved.2 := by
  intro dir fields content named found ok
  rcases moved_wrote begun erases moves (cachePath_final listed named) found with was | ⟨f,flies,path,wrote⟩
  · exact filed dir fields content named was ok
  · obtain ⟨dir',fields',key,placed⟩ := keyed f.run.job (crewed_job crewed flies)
    have same : cacheKey fields' = cacheKey fields := by
      rw [key] at placed
      exact cachePath_key named (placed.symm.trans path)
    rw [wrote.cut] at ok ⊢
    rw [read_taken wrote.range ok,repeated f flies wrote.range,key,same]

-- A node of the other kind leaves the file alone.
theorem moved_filed_other {e' : Bytes} (listed : e ∈ [AISmartFill.extension,AIGenerate.extension])
    (crewed : Crewed k press p) (begun : Begun p disk)
    (erases : ∀ node disk act moved, k.main node disk act = some moved → ∀ q, Erased e' disk moved.2 q)
    (keyed : ∀ job, press job → ∃ dir fields, job.key = cacheKey fields ∧ job.path = cachePath e' dir job.key)
    (some_ : e ≠ [] ∧ e' ≠ []) (differ : e.getLast? ≠ e'.getLast?) (moves : Moved k p disk a moved)
    (filed : Filed image e disk) : Filed image e moved.2 := by
  intro dir fields content named found ok
  rcases moved_wrote begun erases moves (cachePath_final listed named) found with was | ⟨f,flies,path,wrote⟩
  · exact filed dir fields content named was ok
  · obtain ⟨dir',fields',_,placed⟩ := keyed f.run.job (crewed_job crewed flies)
    exact absurd (placed.symm.trans path) (cachePath_apart named some_ differ)

-- A buffer that holds the image of its key.
def Imaged (image : Bytes → ImageCacheReadResult) (b : CacheBuffer e) : Prop :=
  ∀ l : Loaded e, b = l.buffer → l.result = image l.key

theorem imaged_cleared : Imaged image (.cleared : CacheBuffer e) := by
  intro l cleared
  exact absurd (congrArg CacheBuffer.pixels cleared).symm l.pixels_nonempty

theorem imaged_brings {dir : Bytes} {before after : CacheBuffer e} (filed : Filed image e disk)
    (imaged : Imaged image before) (brings : Brings dir disk before after) : Imaged image after := by
  rcases brings with rfl | rfl | ⟨l,rfl,_,read,fields,key⟩
  · exact imaged
  · exact imaged_cleared
  · intro l' same
    obtain ⟨result,own⟩ := Loaded.buffer_result same
    obtain ⟨content,found⟩ := loaded_content l
    have readable : (imageCacheRead l.content).ok = true := l.readable
    rw [found] at readable
    have file : disk.read (cachePath e l.dir (cacheKey fields)) = some content := by
      rw [←read,←key]
      exact found
    rw [←result,←own,Loaded.result,found,key]
    exact filed l.dir fields content l.named.1 file readable

theorem imaged_same {a b : CacheBuffer e} (imaged : Imaged image a) (imaged' : Imaged image b)
    (key : a.loadedKey = b.loadedKey) : Alike a b := by
  rcases a.cases_origin with rfl | ⟨l,rfl⟩ <;> rcases b.cases_origin with rfl | ⟨l',rfl⟩
  · exact ⟨rfl,rfl,rfl⟩
  · exact absurd key.symm l'.named.2
  · exact absurd key l.named.2
  · have key : l.key = l'.key := key
    have same : l.result = l'.result := by rw [imaged l rfl,imaged' l' rfl,key]
    exact ⟨congrArg ImageCacheReadResult.pixels same,congrArg ImageCacheReadResult.width same,
      congrArg ImageCacheReadResult.height same⟩

end Kinds

section Runs
variable {ι κ : Type} {fill : ι → AISmartFill.Host} {generate : κ → AIGenerate.Host}
  {fillImage generateImage : Bytes → ImageCacheReadResult} {s : State ι κ}

structure BothFiled (fillImage generateImage : Bytes → ImageCacheReadResult) (disk : Files) : Prop where
  fill : Filed fillImage AISmartFill.extension disk
  generate : Filed generateImage AIGenerate.extension disk

-- What is written under one key is one image: the bakes of the nodes come to
-- it, and other programs put nothing else there.
structure Repeats (fill : ι → AISmartFill.Host) (generate : κ → AIGenerate.Host)
    (fillImage generateImage : Bytes → ImageCacheReadResult) (s : State ι κ) (act : Σ p : Party ι κ, Act p) : Prop where
  apart : Apart fill generate s act
  fills : ∀ i, Repeated fillImage (fillPart s i)
  generates : ∀ i, Repeated generateImage (generatePart s i)
  others : ∀ later, act = ⟨.outside,later⟩ → BothFiled fillImage generateImage later

theorem repeats_grounded (clear : Grounded s) {act : Σ p : Party ι κ, Act p} (inner : act.1 ≠ .outside) :
    Repeats fill generate fillImage generateImage s act := by
  refine ⟨apart_grounded clear act,?_,?_,?_⟩
  · intro i f flies
    exact absurd ⟨f,flies,.inl rfl⟩ (clear (.fill i) f.path)
  · intro i f flies
    exact absurd ⟨f,flies,.inl rfl⟩ (clear (.generate i) f.path)
  · rintro later rfl
    exact absurd rfl inner

end Runs

section Graph
variable {ι κ : Type} [DecidableEq ι] [DecidableEq κ] {fill : ι → AISmartFill.Host} {generate : κ → AIGenerate.Host}
  {fillImage generateImage : Bytes → ImageCacheReadResult} {start : Files → Prop} {s t : State ι κ}

theorem store_filed (path : Guarded (graph fill generate start) (Repeats fill generate fillImage generateImage) s)
    (begins : ∀ disk, start disk → BothFiled fillImage generateImage disk) : BothFiled fillImage generateImage s.store := by
  apply together_store (BothFiled fillImage generateImage) path begins
  intro s p a moved path before permits ran
  have apart : ∀ s act, Repeats fill generate fillImage generateImage s act → Apart fill generate s act :=
    fun _ _ => Repeats.apart
  cases p with
  | fill i =>
    have crewed := fill_crewed (i := i) (fun _ _ _ _ starts => fillStarts_press starts) path
    have free : Free (fillSerial (fill i)) (fun _ _ => True) := ⟨fun _ _ => trivial,fun _ _ => trivial⟩
    have view := fill_view free path apart (fun _ _ _ => trivial)
    have moves := step_moved ran
    exact ⟨moved_filed List.mem_cons_self crewed view.begun (fun _ _ _ _ => fill_erases) (fun _ => fillPress_key)
        (permits.fills i) moves before.fill,
      moved_filed_other (List.mem_cons_of_mem _ List.mem_cons_self) crewed view.begun (fun _ _ _ _ => fill_erases)
        (fun _ => fillPress_key) (by decide) (by decide) moves before.generate⟩
  | generate i =>
    have crewed := generate_crewed (i := i) (fun _ _ _ _ starts => generateStarts_press starts) path
    have free : Free (generateSerial (generate i)) (fun _ _ => True) := ⟨fun _ _ => trivial,fun _ _ => trivial⟩
    have view := generate_view free path apart (fun _ _ _ => trivial)
    have moves := step_moved ran
    exact ⟨moved_filed_other List.mem_cons_self crewed view.begun (fun _ _ _ _ => generate_erases)
        (fun _ => generatePress_key) (by decide) (by decide) moves before.fill,
      moved_filed (List.mem_cons_of_mem _ List.mem_cons_self) crewed view.begun (fun _ _ _ _ => generate_erases)
        (fun _ => generatePress_key) (permits.generates i) moves before.generate⟩
  | outside =>
    cases ran
    exact permits.others a rfl

theorem fill_imaged (path : Guarded (graph fill generate start) (Repeats fill generate fillImage generateImage) s)
    (begins : ∀ disk, start disk → BothFiled fillImage generateImage disk) (i : ι) :
    Imaged fillImage (fillPart s i).node.rt.cache := by
  apply together_keeps (.fill i) (fun p _ => Imaged fillImage p.node.rt.cache) path
  · rintro l store rfl _
    exact imaged_cleared
  · intro s a moved path before permits ran
    have filed := (store_filed (together_act path permits ran) begins).fill
    cases step_moved ran with
    | called called =>
      obtain ⟨dir,brings⟩ := fill_main_brings called
      exact imaged_brings filed before brings
    | worked _ _ | entered _ _ _ | operated _ _ | left _ _ => exact before
  · intro s j a moved _ before _ _
    exact before

theorem generate_imaged (path : Guarded (graph fill generate start) (Repeats fill generate fillImage generateImage) s)
    (begins : ∀ disk, start disk → BothFiled fillImage generateImage disk) (i : κ) :
    Imaged generateImage (generatePart s i).node.rt.cache := by
  apply together_keeps (.generate i) (fun p _ => Imaged generateImage p.node.rt.cache) path
  · rintro l store rfl _
    exact imaged_cleared
  · intro s a moved path before permits ran
    have filed := (store_filed (together_act path permits ran) begins).generate
    cases step_moved ran with
    | called called =>
      obtain ⟨dir,brings⟩ := generate_main_brings called
      exact imaged_brings filed before brings
    | worked _ _ | entered _ _ _ | operated _ _ | left _ _ => exact before
  · intro s j a moved _ before _ _
    exact before

-- Where one key stands for one image, what append adds to the hash tells all
-- that engine draws: at any two moments, of one run or of two, and for any two
-- nodes of an Op.
theorem hash_covers (begins : ∀ disk, start disk → BothFiled fillImage generateImage disk)
    (path : Guarded (graph fill generate start) (Repeats fill generate fillImage generateImage) s)
    (path' : Guarded (graph fill generate start) (Repeats fill generate fillImage generateImage) t) :
    (∀ i j, FillDrawn (fillPart s i).node → FillDrawn (fillPart t j).node →
      AIGenerate.HashDetermines (fillPart s i).node.source (fillPart t j).node.source → ∀ revision revision',
        fillAppend (fillPart s i).node revision = fillAppend (fillPart t j).node revision' → ∀ src c x y,
          AISmartFill.engineAt (fillPart s i).node src c x y = AISmartFill.engineAt (fillPart t j).node src c x y) ∧
    ∀ i j revision revision',
      generateAppend (generatePart s i).node revision = generateAppend (generatePart t j).node revision' → ∀ c x y,
        AIGenerate.engineAt (generatePart s i).node c x y = AIGenerate.engineAt (generatePart t j).node c x y := by
  constructor
  · intro i j drawn drawn' upstream revision revision' hash
    have buffer := imaged_same (fill_imaged path begins i) (fill_imaged path' begins j) (congrArg Appended.loadedKey hash)
    exact fill_draws drawn drawn' hash upstream buffer
  · intro i j revision revision' hash
    have buffer := imaged_same (generate_imaged path begins i) (generate_imaged path' begins j)
      (congrArg Appended.loadedKey hash)
    exact generate_draws hash buffer

end Graph

section Pixel
open AISmartFill EngineBounds

def whiteImage (_ : Bytes) : ImageCacheReadResult := ⟨true,1,1,3,whitePixel,[]⟩

theorem white_filed : BothFiled whiteImage whiteImage (pixelDisk whitePixel 3) := by
  have placed : pressPath blackHost blackStart.node = cachePath AISmartFill.extension _ _ :=
    resultPath_cachePath (pressKey_nonempty _ _)
  have result : imageCacheRead ((pixelDisk whitePixel 3).read (pressPath blackHost blackStart.node)) = _ :=
    pixelDisk_result (by decide) (by decide)
  constructor
  · intro dir fields content named found _
    by_cases same : cachePath AISmartFill.extension dir (cacheKey fields) = pressPath blackHost blackStart.node
    · rw [←found,same]
      exact result
    · rw [pixelDisk,Disk.read_write_other same] at found
      cases found
  · intro dir fields content named found _
    have other : cachePath AIGenerate.extension dir (cacheKey fields) ≠ pressPath blackHost blackStart.node := by
      rw [placed]
      exact (cachePath_apart named (by decide) (by decide)).symm
    rw [pixelDisk,Disk.read_write_other other] at found
    cases found

variable {s : State Bool Empty}

abbrev WhiteRun (s : State Bool Empty) : Prop :=
  Guarded (graph (fun _ : Bool => blackHost) Empty.rec (· = pixelDisk whitePixel 3))
  (Repeats (fun _ => blackHost) Empty.rec whiteImage whiteImage) s

-- One more node is given the inputs, and shows the pixel.
theorem white_joins (i : Bool) (path : WhiteRun s) (clear : Grounded s) (fresh_ : s.locals (.fill i) = ⟨fresh,[],none⟩)
    (store : s.store = pixelDisk whitePixel 3) :
    WhiteRun (place s (.fill i) ⟨pixelNode whitePixel 3,[],none⟩ (pixelDisk whitePixel 3)) ∧
      Grounded (place s (.fill i) ⟨pixelNode whitePixel 3,[],none⟩ (pixelDisk whitePixel 3)) := by
  have idle (node : AISmartFill.Node) : Grounded (place s (.fill i) ⟨node,[],none⟩ (pixelDisk whitePixel 3)) :=
    place_grounded clear (show ∀ q, ¬ Writes (.fill i) _ q from idle_writes rfl) _
  have here : WhiteRun (place s (.fill i) ⟨fresh,[],none⟩ (pixelDisk whitePixel 3)) := by
    rw [←fresh_,←store,place_self]
    exact path
  have connected := place_act here (.main (.connect (some blackPixel) (some blackPixel)) : Move AISmartFill.Action)
    (repeats_grounded (idle _) (by simp)) rfl
  have edited := place_act connected (.main (.edit ⟨F32.half,1,ascii "a",[]⟩) : Move AISmartFill.Action)
    (repeats_grounded (idle _) (by simp)) rfl
  have shown := place_act edited (.main (.validate none) : Move AISmartFill.Action)
    (repeats_grounded (idle _) (by simp)) rfl
  exact ⟨shown,idle _⟩

theorem white_pair : ∃ s, WhiteRun s ∧ ∀ i, fillPart s i = ⟨pixelNode whitePixel 3,[],none⟩ := by
  have first := white_joins true (.initial (grounded_start _)) (grounded_clear _) rfl rfl
  have apart : (.fill false : Party Bool Empty) ≠ .fill true := by decide
  have second := white_joins false first.1 first.2 ((place_other _ _ _ apart).trans rfl) rfl
  refine ⟨_,second.1,fun i => ?_⟩
  cases i with
  | false => exact place_local ..
  | true => exact (place_other _ _ _ apart.symm).trans (place_local ..)

-- Two nodes with the same inputs show the same pixel.
theorem hash_covers_white : useCache (pixelNode whitePixel 3) = true ∧ ∃ s : State Bool Empty, ∀ src c x y,
    AISmartFill.engineAt (fillPart s true).node src c x y = AISmartFill.engineAt (fillPart s false).node src c x y := by
  obtain ⟨s,path,nodes⟩ := white_pair
  have drawn : FillDrawn (pixelNode whitePixel 3) := fill_validated rfl
  refine ⟨(pixelNode_uses (by decide) (by decide)).1,s,?_⟩
  refine (hash_covers (fun _ is => is ▸ white_filed) path path).1 true false ?_ ?_ ?_ 0 0 ?_
  · rw [nodes]
    exact drawn
  · rw [nodes]
    exact drawn
  · rw [nodes,nodes]
    exact fun _ => rfl
  · rw [nodes,nodes]

end Pixel

end SmartFill.Graph
