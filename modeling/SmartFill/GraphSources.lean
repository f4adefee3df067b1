import SmartFill.BufferSources
import SmartFill.FillSoundness
import SmartFill.GraphFiles
import SmartFill.ImageCacheFormat

namespace SmartFill.Graph
open Transition Parallel ImageCache DiskOp

section Calls
variable {host : AISmartFill.Host} {generator : AIGenerate.Host} {disk : Files}

theorem fill_main_brings {node : AISmartFill.Node} {act : AISmartFill.Action} {moved : AISmartFill.Node × Files}
    (ran : (fillKind host).main node disk act = some moved) :
    ∃ dir, Brings dir moved.2 node.rt.cache moved.1.rt.cache :=
  ⟨_,AISmartFill.step_brings (fill_mains [] ran)⟩

theorem generate_main_brings {node : AIGenerate.Node} {act : AIGenerate.Action} {moved : AIGenerate.Node × Files}
    (ran : (generateKind generator).main node disk act = some moved) :
    ∃ dir, Brings dir moved.2 node.rt.cache moved.1.rt.cache :=
  ⟨_,AIGenerate.step_brings (generate_mains [] ran)⟩

end Calls

section Sources
variable {Node T Act : Type} {k : Kind Node T Act} {p : Part Node T} {disk : Files} {moved : Part Node T × Files}

-- A write this node's worker has made, or is making.
def Writing (p : Part Node T) (run : BakeRun T) (pixels : List F32) : Prop :=
  (∃ b ∈ p.bakes, b.run = run ∧ b.pixels = pixels) ∨ ∃ f, p.flight = some f ∧ f.run = run ∧ f.pixels = pixels

-- What such a write left: the bytes that reached the file.
def Baked (backend : Backend T) (press : BakeJob T → Prop) (p : Part Node T) (q : Path) (content : Bytes) : Prop :=
  ∃ run pixels n, Writing p run pixels ∧ press run.job ∧ run.job.path = q ∧
    (∃ call cancels, backend run.job.task call cancels = .ok pixels) ∧
    inRange run.job.width run.job.height 3 = true ∧ content = (encoding pixels run.job.width run.job.height 3).take n

-- A write is in the log when its call is over.
theorem moved_writing {a : Move Act} {k : Kind Node T Act} (moves : Moved k p disk a moved) {run : BakeRun T}
    {pixels : List F32} (writing : Writing p run pixels) : Writing moved.1 run pixels := by
  cases moves with
  | called _ | worked _ _ => exact writing
  | entered idle _ _ =>
    refine .inl (writing.resolve_right ?_)
    rintro ⟨f,flies,_⟩
    rw [idle] at flies
    cases flies
  | operated flies _ =>
    refine writing.imp_right ?_
    rintro ⟨f,flies',run,pixels⟩
    cases flies.symm.trans flies'
    exact ⟨_,rfl,run,pixels⟩
  | left flies _ =>
    rcases writing with ⟨b,logged,same⟩ | ⟨f,flies',run,pixels⟩
    · exact .inl ⟨b,List.mem_cons_of_mem _ logged,same⟩
    · cases flies.symm.trans flies'
      exact .inl ⟨_,List.mem_cons_self,run,pixels⟩

theorem baked_moved {a : Move Act} {k : Kind Node T Act} {backend : Backend T} {press : BakeJob T → Prop} {q : Path}
    {content : Bytes} (moves : Moved k p disk a moved) (baked : Baked backend press p q content) :
    Baked backend press moved.1 q content := by
  obtain ⟨run,pixels,n,writing,rest⟩ := baked
  exact ⟨run,pixels,n,moved_writing moves writing,rest⟩

theorem flight_ranged {f : Flight T} {op : FileOp} (found : f.call.ops[f.done]? = some op) :
    inRange f.run.job.width f.run.job.height 3 = true := by
  have listed := List.mem_of_getElem? found
  rw [WriteCall.ops,imageCacheWriteOps] at listed
  split at listed
  · assumption
  · cases listed

-- What a write leaves in its file.
structure Wrote (f : Flight T) (content : Bytes) : Prop where
  range : inRange f.run.job.width f.run.job.height 3 = true
  cut : content = (encoding f.pixels f.run.job.width f.run.job.height 3).take f.faults.flushed

-- Where what a step leaves in a file comes from.
theorem moved_wrote {e : Bytes} (begun : Begun p disk)
    (erases : ∀ node disk act moved, k.main node disk act = some moved → ∀ q, Erased e disk moved.2 q) {a : Move Act}
    (moves : Moved k p disk a moved) {q : Path} {content : Bytes} (final : q.getLast? ≠ some 112)
    (found : moved.2.read q = some content) :
    disk.read q = some content ∨ ∃ f, p.flight = some f ∧ f.path = q ∧ Wrote f content := by
  cases moves with
  | called called =>
    rcases erases _ _ _ _ called q with same | ⟨gone,_⟩
    · exact .inl (same ▸ found)
    · rw [gone] at found
      cases found
  | worked _ _ | entered _ _ _ | left _ _ => exact .inl found
  | @operated f op flies listed =>
    have within := WriteCall.ops_within op (List.mem_of_getElem? listed)
    by_cases own : q = f.path
    · subst own
      obtain ⟨first,agree⟩ := begun f flies
      have later := apply_agree agree within f.path (.inl rfl)
      have before := agree f.path (.inl rfl)
      obtain same | gone | replaced : Replaces f.path _ _ _ := @WriteCall.ops_each f.call first f.done op listed
      · rw [before,←same,←later]
        exact .inl found
      · rw [later,gone] at found
        cases found
      · rw [later,replaced] at found
        cases found
        exact .inr ⟨f,flies,rfl,flight_ranged listed,rfl⟩
    · left
      rw [←found]
      refine (apply_read (fun touched => ?_)).symm
      rcases within q touched with same | same
      · exact own same
      · rw [same,tmpPath_last] at final
        exact final rfl

theorem moved_baked {press : BakeJob T → Prop} {e : Bytes} (crewed : Crewed k press p) (begun : Begun p disk)
    (erases : ∀ node disk act moved, k.main node disk act = some moved → ∀ q, Erased e disk moved.2 q) {a : Move Act}
    (moves : Moved k p disk a moved) {q : Path} {content : Bytes} (final : q.getLast? ≠ some 112)
    (found : moved.2.read q = some content) : disk.read q = some content ∨ Baked k.backend press moved.1 q content := by
  rcases moved_wrote begun erases moves final found with was | ⟨f,flies,path,wrote⟩
  · exact .inl was
  · obtain ⟨thread,rest,same⟩ := crewed.flying f flies
    refine .inr ⟨f.run,f.pixels,f.faults.flushed,moved_writing moves (.inr ⟨f,flies,rfl,rfl⟩),crewed_job crewed flies,path,?_,
      wrote.range,wrote.cut⟩
    apply crewed.carries.made f.run
    · rw [thread]
      rfl
    · rw [same]

theorem pixelBytes_append (first later : List F32) : pixelBytes (first ++ later) = pixelBytes first ++ pixelBytes later :=
  List.flatMap_append

-- A short row of pixels is not accepted: padding it would be read too.
theorem read_ok_provided {pixels : List F32} {width height channels : Int} (range : inRange width height channels = true)
    (ok : (imageCacheRead (some (encoding pixels width height channels))).ok = true) :
    (width*height*channels).toNat ≤ pixels.length := by
  by_contra short
  have short := not_le.mp short
  let pad := List.replicate ((width*height*channels).toNat - pixels.length) F32.zero
  have sized : (pixels ++ pad).length = (width*height*channels).toNat := by
    simp only [pad,List.length_append,List.length_replicate]
    omega
  have plain : encoding pixels width height channels = headerBytes width height channels ++ pixelBytes pixels := by
    rw [encoding,List.take_of_length_le short.le]
  have padded : encoding (pixels ++ pad) width height channels =
      encoding pixels width height channels ++ pixelBytes pad := by
    rw [plain,encoding,List.take_of_length_le sized.le,pixelBytes_append,List.append_assoc]
  have same := read_ok_extended ok (pixelBytes pad)
  rw [←padded,read_encoding range sized] at same
  obtain ⟨accepted,whole⟩ := (imageCacheRead_ok_iff _).mp ok
  have count := congrArg (fun r => r.pixels.length) same
  simp only [imageCacheRead_accepts accepted whole,sized] at count
  have bytes : (encoding pixels width height channels).length = 28 + 4 * pixels.length := by
    rw [plain,List.length_append,headerBytes_length,pixelBytes_length]
  rw [readPixels_length _ _ (by rw [List.length_drop]; omega)] at count
  omega

-- What the reader accepts of a cut encoding is the whole image.
theorem read_taken {pixels : List F32} {width height channels : Int} {n : Nat} (range : inRange width height channels = true)
    (ok : (imageCacheRead (some ((encoding pixels width height channels).take n))).ok = true) :
    imageCacheRead (some ((encoding pixels width height channels).take n)) =
      ⟨true,width,height,channels,pixels.take (width*height*channels).toNat,[]⟩ := by
  have whole := read_ok_extended ok ((encoding pixels width height channels).drop n)
  rw [List.take_append_drop] at whole
  rw [←whole] at ok ⊢
  exact read_encoding_take range (read_ok_provided range ok)

end Sources

section Graph
variable {ι κ : Type} [DecidableEq ι] [DecidableEq κ] {fill : ι → AISmartFill.Host} {generate : κ → AIGenerate.Host}
  {permitted : State ι κ → (Σ p : Party ι κ, Act p) → Prop} {s : State ι κ} {disk : Files}

-- Nobody but the nodes touches the disk.
def Alone (fill : ι → AISmartFill.Host) (generate : κ → AIGenerate.Host) (s : State ι κ)
    (act : Σ p : Party ι κ, Act p) : Prop :=
  Apart fill generate s act ∧ act.1 ≠ .outside

def Sourced (fill : ι → AISmartFill.Host) (generate : κ → AIGenerate.Host) (disk : Files) (s : State ι κ) (q : Path)
    (content : Bytes) : Prop :=
  disk.read q = some content ∨
    (∃ i, Baked (AISmartFill.backend (fill i)) (FillPress (fill i)) (fillPart s i) q content) ∨
    ∃ i, Baked (generate i).backend (GeneratePress (generate i)) (generatePart s i) q content

theorem sourced_step {act : Σ p : Party ι κ, Act p} {next : State ι κ} {q : Path} {content : Bytes}
    (ran : (graph fill generate (· = disk)).step s act = some next) (sourced : Sourced fill generate disk s q content) :
    Sourced fill generate disk next q content := by
  rcases sourced with first | ⟨i,baked⟩ | ⟨i,baked⟩
  · exact .inl first
  · refine .inr (.inl ⟨i,?_⟩)
    rcases together_local (.fill i) ran with ⟨a,moved,_,step,own,_⟩ | same
    · rw [fillPart,own]
      exact baked_moved (step_moved step) baked
    · rw [fillPart,same]
      exact baked
  · refine .inr (.inr ⟨i,?_⟩)
    rcases together_local (.generate i) ran with ⟨a,moved,_,step,own,_⟩ | same
    · rw [generatePart,own]
      exact baked_moved (step_moved step) baked
    · rw [generatePart,same]
      exact baked

theorem store_sourced (path : Guarded (graph fill generate (· = disk)) (Alone fill generate) s) :
    ∀ q content, q.getLast? ≠ some 112 → s.store.read q = some content → Sourced fill generate disk s q content := by
  apply Guarded.invariant (Guarded (graph fill generate (· = disk)) (Alone fill generate))
    (fun s => ∀ q content, q.getLast? ≠ some 112 → s.store.read q = some content → Sourced fill generate disk s q content)
    path (fun _ path => path)
  · rintro s ⟨_,rfl⟩ q content _ found
    exact .inl found
  · rintro s ⟨p,a⟩ next path before permits ran q content final found
    have later := fun was => sourced_step ran (before q content final was)
    have apart : ∀ s act, Alone fill generate s act → Apart fill generate s act := fun _ _ => And.left
    obtain ⟨moved,step,local_,store⟩ : ∃ moved, (component fill generate p).step (s.locals p) s.store a = some moved ∧
        next.locals p = moved.1 ∧ next.store = moved.2 := by
      obtain ⟨moved,step,rfl⟩ := together_step ran
      exact ⟨moved,step,Function.update_self ..,rfl⟩
    rw [store] at found
    cases p with
    | fill i =>
      have crewed := fill_crewed (i := i) (fun _ _ _ _ starts => fillStarts_press starts) path
      have free : Free (fillSerial (fill i)) (fun _ _ => True) := ⟨fun _ _ => trivial,fun _ _ => trivial⟩
      have view := fill_view free path apart (fun _ _ _ => trivial)
      rcases moved_baked crewed view.begun (fun _ _ _ _ => fill_erases) (step_moved step) final found with was | baked
      · exact later was
      · rw [←local_] at baked
        exact .inr (.inl ⟨i,baked⟩)
    | generate i =>
      have crewed := generate_crewed (i := i) (fun _ _ _ _ starts => generateStarts_press starts) path
      have free : Free (generateSerial (generate i)) (fun _ _ => True) := ⟨fun _ _ => trivial,fun _ _ => trivial⟩
      have view := generate_view free path apart (fun _ _ _ => trivial)
      rcases moved_baked crewed view.begun (fun _ _ _ _ => generate_erases) (step_moved step) final found with was | baked
      · exact later was
      · rw [←local_] at baked
        exact .inr (.inr ⟨i,baked⟩)
    | outside => exact absurd rfl permits.2

-- A buffer that is empty, or whose file a node of the run baked, or that was on
-- the disk before.
def Known (fill : ι → AISmartFill.Host) (generate : κ → AIGenerate.Host) (disk : Files) (s : State ι κ) {e : Bytes}
    (b : CacheBuffer e) : Prop :=
  b = .cleared ∨ ∃ (l : Loaded e) (content : Bytes) (fields : List Field), b = l.buffer ∧ l.content = some content ∧
    l.key = cacheKey fields ∧ Sourced fill generate disk s (cachePath e l.dir l.key) content

theorem known_step {act : Σ p : Party ι κ, Act p} {next : State ι κ} {e : Bytes} {b : CacheBuffer e}
    (ran : (graph fill generate (· = disk)).step s act = some next) (known : Known fill generate disk s b) :
    Known fill generate disk next b := by
  rcases known with cleared | ⟨l,content,fields,loaded,found,key,source⟩
  · exact .inl cleared
  · exact .inr ⟨l,content,fields,loaded,found,key,sourced_step ran source⟩

theorem loaded_content {e : Bytes} (l : Loaded e) : ∃ content, l.content = some content := by
  cases found : l.content with
  | some content => exact ⟨content,rfl⟩
  | none =>
    have readable : (imageCacheRead l.content).ok = true := l.readable
    rw [found] at readable
    cases readable

theorem brings_known {e dir : Bytes} {before after : CacheBuffer e} (listed : e ∈ [AISmartFill.extension,AIGenerate.extension])
    (path : Guarded (graph fill generate (· = disk)) (Alone fill generate) s)
    (known : Known fill generate disk s before) (brings : Brings dir s.store before after) :
    Known fill generate disk s after := by
  rcases brings with rfl | cleared | ⟨l,loaded,_,read,fields,key⟩
  · exact known
  · exact .inl cleared
  · obtain ⟨content,found⟩ := loaded_content l
    refine .inr ⟨l,content,fields,loaded,found,key,store_sourced path _ _ ?_ ?_⟩
    · exact cachePath_last ⟨e,listed,l.dir,l.key,l.named.1,rfl⟩
    · rw [←read]
      exact found

theorem fill_known (path : Guarded (graph fill generate (· = disk)) (Alone fill generate) s) (i : ι) :
    Known fill generate disk s (fillPart s i).node.rt.cache := by
  apply Guarded.invariant (Guarded (graph fill generate (· = disk)) (Alone fill generate))
    (fun s => Known fill generate disk s (fillPart s i).node.rt.cache) path (fun _ path => path)
  · rintro s ⟨locals,_⟩
    have start : fillPart s i = ⟨AISmartFill.fresh,[],none⟩ := locals (.fill i)
    rw [start]
    exact .inl rfl
  · intro s act next path before permits ran
    have later := known_step ran before
    have path' := path.act _ permits ran
    rcases together_local (.fill i) ran with ⟨a,moved,_,step,own,store⟩ | same
    · rw [fillPart,own]
      cases step_moved step with
      | called called =>
        obtain ⟨dir,brings⟩ := fill_main_brings called
        exact brings_known List.mem_cons_self path' later (store ▸ brings)
      | worked _ _ | entered _ _ _ | operated _ _ | left _ _ => exact later
    · rw [fillPart,same]
      exact later

theorem generate_known (path : Guarded (graph fill generate (· = disk)) (Alone fill generate) s) (i : κ) :
    Known fill generate disk s (generatePart s i).node.rt.cache := by
  apply Guarded.invariant (Guarded (graph fill generate (· = disk)) (Alone fill generate))
    (fun s => Known fill generate disk s (generatePart s i).node.rt.cache) path (fun _ path => path)
  · rintro s ⟨locals,_⟩
    have start : generatePart s i = ⟨AIGenerate.fresh,[],none⟩ := locals (.generate i)
    rw [start]
    exact .inl rfl
  · intro s act next path before permits ran
    have later := known_step ran before
    have path' := path.act _ permits ran
    rcases together_local (.generate i) ran with ⟨a,moved,_,step,own,store⟩ | same
    · rw [generatePart,own]
      cases step_moved step with
      | called called =>
        obtain ⟨dir,brings⟩ := generate_main_brings called
        exact brings_known (List.mem_cons_of_mem _ List.mem_cons_self) path' later (store ▸ brings)
      | worked _ _ | entered _ _ _ | operated _ _ | left _ _ => exact later
    · rw [generatePart,same]
      exact later

theorem cachePath_end {e dir key : Bytes} (named : dir ≠ []) (listed : e ≠ []) :
    (cachePath e dir key).getLast? = e.getLast? := by
  rw [cachePath,if_neg named,List.getLast?_append_of_ne_nil _ listed]

theorem cachePath_key {e dir dir' : Bytes} {fields fields' : List Field} (named : dir ≠ [])
    (same : cachePath e dir' (cacheKey fields') = cachePath e dir (cacheKey fields)) : cacheKey fields' = cacheKey fields := by
  have named' : dir' ≠ [] := by
    rintro rfl
    rw [cachePath,if_pos rfl] at same
    exact cachePath_nonempty named same.symm
  rw [cachePath,cachePath,if_neg named,if_neg named'] at same
  exact (List.append_inj' (List.append_cancel_right same) (by simp)).2

theorem fillPress_key {host : AISmartFill.Host} {job : BakeJob AISmartFill.FillTask} (press : FillPress host job) :
    ∃ dir fields, job.key = cacheKey fields ∧ job.path = cachePath AISmartFill.extension dir job.key := by
  obtain ⟨node,source,mask,_,rfl⟩ := press
  exact ⟨_,_,rfl,AISmartFill.resultPath_cachePath (AISmartFill.pressKey_nonempty _ _)⟩

theorem generatePress_key {host : AIGenerate.Host} {job : BakeJob AIGenerate.SdJob} (press : GeneratePress host job) :
    ∃ dir fields, job.key = cacheKey fields ∧ job.path = cachePath AIGenerate.extension dir job.key := by
  obtain ⟨disk,chance,node,images,_,_,rfl⟩ := press
  exact ⟨_,_,rfl,rfl⟩

-- The buffer holds what a bake under its key came to.
structure MadeBy {T : Type} {e : Bytes} (backend : Backend T) (l : Loaded e) (job : BakeJob T) (pixels : List F32) : Prop where
  key : job.key = l.key
  path : job.path = cachePath e l.dir l.key
  made : ∃ call cancels, backend job.task call cancels = .ok pixels
  result : l.result = ⟨true,job.width,job.height,3,pixels.take (job.width*job.height*3).toNat,[]⟩

theorem baked_madeBy {Node T : Type} {p : Part Node T} {e : Bytes} {backend : Backend T} {press : BakeJob T → Prop}
    {l : Loaded e} {content : Bytes}
    (keyed : ∀ job, press job → ∃ dir fields, job.key = cacheKey fields ∧ job.path = cachePath e dir job.key)
    {fields : List Field} (key : l.key = cacheKey fields) (found : l.content = some content)
    (baked : Baked backend press p (cachePath e l.dir l.key) content) :
    ∃ run pixels, Writing p run pixels ∧ press run.job ∧ MadeBy backend l run.job pixels := by
  obtain ⟨run,pixels,n,writing,pressed,path,made,range,cut⟩ := baked
  obtain ⟨dir,fields',key',path'⟩ := keyed run.job pressed
  have readable : (imageCacheRead l.content).ok = true := l.readable
  rw [found,cut] at readable
  refine ⟨run,pixels,writing,pressed,?_,path,made,?_⟩
  · rw [key',key]
    rw [path',key',key] at path
    exact cachePath_key l.named.1 path
  · rw [Loaded.result,found,cut,read_taken range readable]

-- The cache files of the two Ops are told apart by their last letter.
theorem cachePath_apart {e e' dir dir' key key' : Bytes} (named : dir ≠ []) (some_ : e ≠ [] ∧ e' ≠ [])
    (differ : e.getLast? ≠ e'.getLast?) : cachePath e' dir' key' ≠ cachePath e dir key := by
  intro path
  have named' : dir' ≠ [] := by
    rintro rfl
    rw [cachePath,if_pos rfl] at path
    exact cachePath_nonempty named path.symm
  have ends := congrArg List.getLast? path
  rw [cachePath_end named' some_.2,cachePath_end named some_.1] at ends
  exact differ ends.symm

theorem baked_other {Node T : Type} {p : Part Node T} {backend : Backend T} {press : BakeJob T → Prop}
    {e e' dir key content : Bytes} (named : dir ≠ [])
    (keyed : ∀ job, press job → ∃ dir fields, job.key = cacheKey fields ∧ job.path = cachePath e' dir job.key)
    (some_ : e ≠ [] ∧ e' ≠ []) (differ : e.getLast? ≠ e'.getLast?) :
    ¬ Baked backend press p (cachePath e dir key) content := by
  rintro ⟨run,pixels,n,_,pressed,path,_⟩
  obtain ⟨dir',fields,_,path'⟩ := keyed run.job pressed
  exact cachePath_apart named some_ differ (path'.symm.trans path)

-- A buffer that is empty, or that holds what was on the disk from the start, or
-- what a node of the run baked for the very key, whole.
def Displays {e : Bytes} (disk : Files) (b : CacheBuffer e) (bakes : Loaded e → Prop) : Prop :=
  b = .cleared ∨ ∃ l : Loaded e, b = l.buffer ∧ (disk.read (cachePath e l.dir l.key) = l.content ∨ bakes l)

-- In a graph nobody else interferes with, every buffer of a node comes from the
-- start or from a bake of this run by a node of its kind.
theorem graph_displays (path : Guarded (graph fill generate (· = disk)) (Alone fill generate) s) :
    (∀ i, Displays disk (fillPart s i).node.rt.cache (fun l => ∃ j run pixels, Writing (fillPart s j) run pixels ∧
      FillPress (fill j) run.job ∧ MadeBy (AISmartFill.backend (fill j)) l run.job pixels)) ∧
    ∀ i, Displays disk (generatePart s i).node.rt.cache (fun l => ∃ j run pixels, Writing (generatePart s j) run pixels ∧
      GeneratePress (generate j) run.job ∧ MadeBy (generate j).backend l run.job pixels) := by
  constructor
  · intro i
    rcases fill_known path i with cleared | ⟨l,content,fields,loaded,found,key,source⟩
    · exact .inl cleared
    · refine .inr ⟨l,loaded,?_⟩
      rcases source with first | ⟨j,baked⟩ | ⟨j,baked⟩
      · exact .inl (first.trans found.symm)
      · obtain ⟨run,pixels,made⟩ := baked_madeBy (fun _ => fillPress_key) key found baked
        exact .inr ⟨j,run,pixels,made⟩
      · exact absurd baked (baked_other l.named.1 (fun _ => generatePress_key) (by decide) (by decide))
  · intro i
    rcases generate_known path i with cleared | ⟨l,content,fields,loaded,found,key,source⟩
    · exact .inl cleared
    · refine .inr ⟨l,loaded,?_⟩
      rcases source with first | ⟨j,baked⟩ | ⟨j,baked⟩
      · exact .inl (first.trans found.symm)
      · exact absurd baked (baked_other l.named.1 (fun _ => fillPress_key) (by decide) (by decide))
      · obtain ⟨run,pixels,made⟩ := baked_madeBy (fun _ => generatePress_key) key found baked
        exact .inr ⟨j,run,pixels,made⟩

end Graph

theorem graph_displays_baked : ∃ (disk : Files) (s : State Unit Empty), (fillPart s ()).node.rt.cache ≠ .cleared ∧
    (fillPart s ()).bakes ≠ [] ∧ Displays disk (fillPart s ()).node.rt.cache (fun l => ∃ run pixels,
      Writing (fillPart s ()) run pixels ∧ FillPress AISmartFill.blackHost run.job ∧
        MadeBy (AISmartFill.backend AISmartFill.blackHost) l run.job pixels) := by
  obtain ⟨c,l,path,baked,loaded⟩ := blackStart_displays (fun _ a => ∀ later, a ≠ .files later) (fun _ _ => id)
  obtain ⟨disk,s,path,same⟩ := @fill_lifts Unit Empty _ _ (fun _ => AISmartFill.blackHost) Empty.rec
    (Alone (fun _ => AISmartFill.blackHost) Empty.rec) () _ _ (fun _ _ apart => ⟨apart,by simp⟩)
    (fun _ later never => absurd rfl (never later)) path
  rw [←same] at baked loaded
  have shown : (fillPart s ()).node.rt.cache = l.buffer := loaded
  refine ⟨disk,s,?_,baked,?_⟩
  · rw [shown]
    exact fun cleared => l.pixels_nonempty (congrArg CacheBuffer.pixels cleared)
  · rcases (graph_displays path).1 () with cleared | ⟨l,loaded,source⟩
    · exact .inl cleared
    · exact .inr ⟨l,loaded,source.imp_right (fun ⟨_,run,pixels,made⟩ => ⟨run,pixels,made⟩)⟩

end SmartFill.Graph
