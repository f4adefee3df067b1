import SmartFill.GraphLifts

namespace SmartFill.Graph
open Transition Parallel ImageCache DiskOp

section Erases
variable {host : AISmartFill.Host} {generator : AIGenerate.Host}

theorem read_removed (removed : List Path) (disk : Files) (q : Path) :
    (removed.foldl Disk.remove disk).read q = if q ∈ removed then none else disk.read q := by
  induction removed generalizing disk with
  | nil => simp
  | cons p rest ih =>
    rw [List.foldl_cons,ih]
    by_cases later : q ∈ rest
    · rw [if_pos later,if_pos (List.mem_cons_of_mem _ later)]
    · by_cases same : q = p
      · rw [if_neg later,if_pos (by simp [same]),same,Disk.read_remove_self]
      · rw [if_neg later,if_neg (by simp [same,later]),Disk.read_remove_other same]

theorem splitLast_suffix {c : UInt8} {s front back : Bytes} (split : splitLast c s = some (front,back)) : back <:+ s := by
  unfold splitLast at split
  split at split
  · cases split
  · cases split
    exact List.drop_suffix _ _

theorem extensionIn_suffix {dir q extension : Bytes} (found : extensionIn dir q = some extension) : extension <:+ q := by
  unfold extensionIn at found
  split at found
  · cases found
  · rename_i parent name named
    have inner := splitLast_suffix named
    split at found
    · cases found
    · split at found
      · cases found
        exact List.nil_suffix
      · cases found
        exact List.nil_suffix
      · rename_i front back _ dotted
        cases found
        exact ((splitLast_suffix dotted).trans (List.drop_suffix _ _)).trans inner

-- A file is as it was, or it had the extension and is gone.
def Erased (extension : Bytes) (disk later : Files) (q : Path) : Prop :=
  later.read q = disk.read q ∨ (later.read q = none ∧ extension <:+ q)

theorem clearable_erased {extension dir : Bytes} (refused : Path → Bool) (disk : Files) (q : Path) :
    Erased extension disk ((clearable extension dir refused disk).foldl Disk.remove disk) q := by
  unfold Erased
  rw [read_removed]
  by_cases cleared : q ∈ clearable extension dir refused disk
  · rw [if_pos cleared]
    have parts := of_decide_eq_true (Bool.and_eq_true_iff.mp (List.mem_filter.mp cleared).2).1
    exact .inr ⟨rfl,extensionIn_suffix parts⟩
  · rw [if_neg cleared]
    exact .inl rfl

-- A call on the main thread changes no file, but Clear Cache removes some.
theorem fill_erases {node : AISmartFill.Node} {disk : Files} {act : AISmartFill.Action} {moved : AISmartFill.Node × Files}
    (ran : (fillKind host).main node disk act = some moved) (q : Path) :
    Erased AISmartFill.extension disk moved.2 q := by
  cases act with
  | work _ | files _ => cases ran
  | bakeThrown validated stop =>
    obtain ⟨after,_,rfl⟩ := fill_main_thrown ran
    exact .inl rfl
  | edit _ | connect _ _ | validate _ | bake _ | cancel =>
    cases ran
    exact .inl rfl
  | clearCache refused =>
    cases ran
    show Erased _ disk (AISmartFill.clearCacheDir host refused node disk).2 q
    unfold AISmartFill.clearCacheDir
    dsimp only
    split
    · exact .inl rfl
    · split
      · exact .inl rfl
      · exact clearable_erased refused disk q

theorem read_makeCacheDir (disk : Files) (chance : AIGenerate.Chance) (p q : Path) :
    (AIGenerate.makeCacheDir disk chance p).read q = disk.read q := by
  unfold AIGenerate.makeCacheDir
  split <;> rfl

theorem read_startBake (disk : Files) (chance : AIGenerate.Chance) (node : AIGenerate.Node) (q : Path) :
    (AIGenerate.startBake generator disk chance node).2.read q = disk.read q := by
  have prepared : (AIGenerate.prepareBake generator disk chance node).2.read q = disk.read q := by
    unfold AIGenerate.prepareBake
    split
    · rfl
    · split
      · rfl
      · split
        · rfl
        · dsimp only
          split <;> exact read_makeCacheDir ..
  unfold AIGenerate.startBake
  split
  all_goals
    rename_i outcome
    rw [outcome] at prepared
    exact prepared

theorem generate_erases {node : AIGenerate.Node} {disk : Files} {act : AIGenerate.Action} {moved : AIGenerate.Node × Files}
    (ran : (generateKind generator).main node disk act = some moved) (q : Path) :
    Erased AIGenerate.extension disk moved.2 q := by
  cases act with
  | work _ | files _ => cases ran
  | edit _ | connect _ _ | validate _ | cancel =>
    cases ran
    exact .inl rfl
  | bake chance =>
    cases ran
    exact .inl (read_startBake disk chance node q)
  | clearCache refused =>
    cases ran
    show Erased _ disk (AIGenerate.clearCacheOnDisk generator refused node disk).2 q
    unfold AIGenerate.clearCacheOnDisk
    dsimp only
    split
    · exact .inl rfl
    · split
      · exact .inl rfl
      · exact clearable_erased refused disk q

end Erases

section Frame
variable {Node T Act S : Type} {k : Kind Node T Act} {serial : Serial k S} {ok : BakeJob T → Prop} {p : Part Node T}
  {disk : Files} {moved : Part Node T × Files} {e : Bytes}

-- Where a job may write: nowhere, or to a file with its Op's extension.
def Placed (e : Bytes) (job : BakeJob T) : Prop := job.path = [] ∨ e <:+ job.path

-- A path that is no cache file and no temporary file of one.
def Stray (e : Bytes) (q : Path) : Prop := q ≠ [] ∧ q ≠ tmpPath [] ∧ ¬ e <:+ q ∧ ¬ tmpPath e <:+ q

theorem placed_own {job : BakeJob T} (placed : Placed e job) {q : Path} (stray : Stray e q) : ¬ Own job.path q := by
  rintro (same | same)
  · rcases placed with empty | suffix
    · exact stray.1 (same.trans empty)
    · exact stray.2.2.1 (same ▸ suffix)
  · rcases placed with empty | suffix
    · exact stray.2.1 (by rw [same,empty])
    · obtain ⟨front,named⟩ := suffix
      refine stray.2.2.2 ⟨front,?_⟩
      rw [same,←named]
      exact (List.append_assoc ..).symm

theorem moved_stray (crewed : Crewed k (Placed e) p) {a : Move Act}
    (erases : ∀ node disk act moved, k.main node disk act = some moved → ∀ q, Erased e disk moved.2 q)
    (moves : Moved k p disk a moved) {q : Path} (stray : Stray e q) : moved.2.read q = disk.read q := by
  cases moves with
  | called called =>
    rcases erases _ _ _ _ called q with same | ⟨_,suffix⟩
    · exact same
    · exact absurd suffix stray.2.2.1
  | worked _ _ | entered _ _ _ | left _ _ => rfl
  | operated flies found =>
    refine apply_read (fun touched => placed_own (crewed_job crewed flies) stray ?_)
    exact WriteCall.ops_within _ (List.mem_of_getElem? found) q touched

end Frame

section Graph
variable {ι κ : Type} [DecidableEq ι] [DecidableEq κ] {fill : ι → AISmartFill.Host} {generate : κ → AIGenerate.Host}
  {start : Files → Prop} {permitted : State ι κ → (Σ p : Party ι κ, Act p) → Prop} {s : State ι κ}

theorem fill_crewed {i : ι} {ok : BakeJob AISmartFill.FillTask → Prop}
    (valid : ∀ node disk act job, fillStarts (fill i) node disk act job → ok job)
    (path : Guarded (graph fill generate start) permitted s) : Crewed (fillKind (fill i)) ok (fillPart s i) := by
  apply together_keeps (.fill i) (fun p _ => Crewed (fillKind (fill i)) ok p) path
  · rintro l store rfl _
    exact ⟨AiWorker.carries_fresh,fun f flies => nomatch flies⟩
  · intro s a moved _ before _ ran
    exact crewed_step (fillSerial (fill i)) before (fun act job _ => valid _ _ act job) (step_moved ran)
  · intro s j a moved _ before _ _
    exact before

theorem generate_crewed {i : κ} {ok : BakeJob AIGenerate.SdJob → Prop}
    (valid : ∀ node disk act job, generateStarts (generate i) node disk act job → ok job)
    (path : Guarded (graph fill generate start) permitted s) : Crewed (generateKind (generate i)) ok (generatePart s i) := by
  apply together_keeps (.generate i) (fun p _ => Crewed (generateKind (generate i)) ok p) path
  · rintro l store rfl _
    exact ⟨AiWorker.carries_fresh,fun f flies => nomatch flies⟩
  · intro s a moved _ before _ ran
    exact crewed_step (generateSerial (generate i)) before (fun act job _ => valid _ _ act job) (step_moved ran)
  · intro s j a moved _ before _ _
    exact before

-- A job is what some press made of its inputs.
def FillPress (host : AISmartFill.Host) (job : BakeJob AISmartFill.FillTask) : Prop :=
  ∃ node source mask, AISmartFill.InputsPass node source mask ∧ job = AISmartFill.pressJob host node source mask

def GeneratePress (host : AIGenerate.Host) (job : BakeJob AIGenerate.SdJob) : Prop :=
  ∃ disk chance node images, AIGenerate.refusal host disk node = none ∧
    AIGenerate.readImages host disk chance node = .ok images ∧ job = AIGenerate.pressJob host disk chance node images

theorem fillStarts_press {host : AISmartFill.Host} {node : AISmartFill.Node} {disk : Files} {act : AISmartFill.Action}
    {job : BakeJob AISmartFill.FillTask} (starts : fillStarts host node disk act job) : FillPress host job := by
  obtain ⟨validated,after,_,ready⟩ := starts
  obtain ⟨source,mask,passes,same⟩ := (AISmartFill.prepareBake_ready ready).press
  exact ⟨node,source,mask,passes,same⟩

theorem generateStarts_press {host : AIGenerate.Host} {node : AIGenerate.Node} {disk : Files} {act : AIGenerate.Action}
    {job : BakeJob AIGenerate.SdJob} (starts : generateStarts host node disk act job) : GeneratePress host job := by
  obtain ⟨chance,after,made,_,ready⟩ := starts
  obtain ⟨launches,_,_,images,read,same⟩ := AIGenerate.prepareBake_ready ready
  exact ⟨disk,chance,node,images,launches.inputs.1,read,same⟩

theorem cachePath_placed {T : Type} {e dir key : Bytes} {job : BakeJob T} (path : job.path = cachePath e dir key) :
    Placed e job := by
  unfold Placed
  rw [path,cachePath]
  split
  · exact .inl rfl
  · exact .inr (List.suffix_append _ _)

theorem fillPress_placed {host : AISmartFill.Host} {job : BakeJob AISmartFill.FillTask} (press : FillPress host job) :
    Placed AISmartFill.extension job := by
  obtain ⟨node,source,mask,_,rfl⟩ := press
  exact cachePath_placed (AISmartFill.resultPath_cachePath (AISmartFill.pressKey_nonempty _ _))

theorem generatePress_placed {host : AIGenerate.Host} {job : BakeJob AIGenerate.SdJob} (press : GeneratePress host job) :
    Placed AIGenerate.extension job := by
  obtain ⟨disk,chance,node,images,_,_,rfl⟩ := press
  exact cachePath_placed rfl

-- Whatever the nodes of a graph do, in any order of their steps and of the
-- operations of their writes, they change no file but cache files and the
-- temporary files beside them.
theorem graph_frame {disk : Files} {q : Path} (path : Guarded (graph fill generate (· = disk))
      (fun s act => ∀ later, act = ⟨.outside,later⟩ → later.read q = s.store.read q) s)
    (strayFill : Stray AISmartFill.extension q) (strayGenerate : Stray AIGenerate.extension q) :
    s.store.read q = disk.read q := by
  apply together_store (fun store => store.read q = disk.read q) path
  · rintro store rfl
    rfl
  · intro s p a moved path before permits ran
    cases p with
    | fill i =>
      have crewed := fill_crewed (i := i) (fun _ _ _ _ starts => fillPress_placed (fillStarts_press starts)) path
      exact (moved_stray crewed (fun _ _ _ _ => fill_erases) (step_moved ran) strayFill).trans before
    | generate i =>
      have crewed := generate_crewed (i := i) (fun _ _ _ _ starts => generatePress_placed (generateStarts_press starts)) path
      exact (moved_stray crewed (fun _ _ _ _ => generate_erases) (step_moved ran) strayGenerate).trans before
    | outside =>
      cases ran
      exact (permits a rfl).trans before

end Graph

-- A bake beside which the model's file stays as it is.
theorem graph_frame_model : ∃ (disk : Files) (s : State Unit Empty), (fillPart s ()).bakes ≠ [] ∧
    s.store.read (ascii "/p/models/lama_fp32.onnx") = disk.read (ascii "/p/models/lama_fp32.onnx") := by
  obtain ⟨c,l,path,baked,_⟩ := blackStart_displays (fun _ a => ∀ later, a ≠ .files later) (fun _ _ => id)
  obtain ⟨disk,s,path,same⟩ := @fill_lifts Unit Empty _ _ (fun _ => AISmartFill.blackHost) Empty.rec
    (fun s act => ∀ later, act = ⟨.outside,later⟩ →
      later.read (ascii "/p/models/lama_fp32.onnx") = s.store.read (ascii "/p/models/lama_fp32.onnx")) () _ _
    (fun _ _ _ _ other => nomatch other) (fun _ later never => absurd rfl (never later)) path
  refine ⟨disk,s,?_,graph_frame path (by unfold Stray; decide) (by unfold Stray; decide)⟩
  rw [←same] at baked
  exact baked

end SmartFill.Graph
