import SmartFill.ConvertKey

namespace SmartFill.ConvertKey
open PrefixRules

-- The part of the network a name refers to, by the numbers it spells.
inductive Part where
  | replaced (source : Name)
  | condBlock (i : Int)
  | zeroConv
  | resnet (block index : Int)
  | attention (block index : Int)
  | downsampler (block : Int)
  | midResnet (first : Bool)
  | midAttention
  deriving DecidableEq

section Grammar
variable (u : Unicode)

-- What a name says to the converter: a part, and the text that names a tensor
-- of it. All else in the name is ignored.
inductive Denotes : Name → Part → Name → Prop where
  | replaced : source ∈ replaced.map Prod.fst → Denotes (source ++ rest) (.replaced source) rest
  | condBlock : partition ['.'] rest = (idxS,suffix) → literal u idxS = some i →
      Denotes (condBlocks ++ rest) (.condBlock i) suffix
  | zeroConv : partition ['.'] rest = (idxS,suffix) → Denotes (zeroConvs ++ rest) .zeroConv (idxS ++ '.' :: suffix)
  | resnet : partition ['.'] rest = (blockS,after) → partition ['.'] after = (text "resnets",after2) →
      partition ['.'] after2 = (rnS,sub) → literal u blockS = some block → literal u rnS = some rn →
      Denotes (downBlocks ++ rest) (.resnet block rn) sub
  | attention : partition ['.'] rest = (blockS,after) → partition ['.'] after = (text "attentions",after2) →
      partition ['.'] after2 = (attnS,sub) → literal u blockS = some block → literal u attnS = some attn →
      Denotes (downBlocks ++ rest) (.attention block attn) sub
  | downsampler : partition ['.'] rest = (blockS,after) → partition ['.'] after = (text "downsamplers",after2) →
      partition (text "conv.") after2 = (ignored,suffix) → literal u blockS = some block →
      Denotes (downBlocks ++ rest) (.downsampler block) suffix
  | midResnet : partition ['.'] rest = (text "resnets",after) → partition ['.'] after = (rnS,sub) →
      literal u rnS = some rn → Denotes (midBlocks ++ rest) (.midResnet (decide (rn = 0))) sub
  | midAttention : partition ['.'] rest = (text "attentions",after) → partition ['.'] after = (ignored,sub) →
      Denotes (midBlocks ++ rest) .midAttention sub

-- A number is expected, and int() refuses what stands there.
inductive Unreadable : Name → Prop where
  | condBlock : partition ['.'] rest = (idxS,suffix) → literal u idxS = none → Unreadable (condBlocks ++ rest)
  | block : partition ['.'] rest = (blockS,after) → literal u blockS = none → Unreadable (downBlocks ++ rest)
  | resnet : partition ['.'] rest = (blockS,after) → partition ['.'] after = (text "resnets",after2) →
      partition ['.'] after2 = (rnS,sub) → literal u rnS = none → Unreadable (downBlocks ++ rest)
  | attention : partition ['.'] rest = (blockS,after) → partition ['.'] after = (text "attentions",after2) →
      partition ['.'] after2 = (attnS,sub) → literal u attnS = none → Unreadable (downBlocks ++ rest)
  | midResnet : partition ['.'] rest = (text "resnets",after) → partition ['.'] after = (rnS,sub) →
      literal u rnS = none → Unreadable (midBlocks ++ rest)

end Grammar

-- The legacy name of a part, up to the tensor.
def Part.place : Part → Option Name
  | .replaced source => ConvertKey.replaced.lookup source
  | .condBlock i => (condEmbedToHint.lookup i).map hintPlace
  | .zeroConv => some (text "zero_convs.")
  | .resnet block rn => (resnetToIb.lookup (block,rn)).map (fun ib => inputPlace ib (text ".0."))
  | .attention block attn => (attnToIb.lookup (block,attn)).map (fun ib => inputPlace ib (text ".1."))
  | .downsampler block => (downToIb.lookup block).map (fun ib => inputPlace ib (text ".0.op."))
  | .midResnet first => some (middlePlace (if first then 0 else 2))
  | .midAttention => some (middlePlace 1)

def Part.tensor : Part → Name → Option Name
  | .zeroConv,t => some ((partition ['.'] t).1 ++ text ".0." ++ (partition ['.'] t).2)
  | .resnet _ _,t | .midResnet _,t => resnetSub.lookup t
  | .replaced _,t | .condBlock _,t | .attention _ _,t | .downsampler _,t | .midAttention,t => some t

-- The tables know the part and the tensor.
def Mapped (part : Part) (t : Name) : Prop := part.place.isSome = true ∧ (part.tensor t).isSome = true

def legacy (part : Part) (t : Name) : Option Name := part.place.bind (fun p => (part.tensor t).map (fun r => p ++ r))

section Rules
variable {u : Unicode} {k rest : Name} {part : Part} {t : Name}

theorem prefixes_free : PrefixFree (replaced.map Prod.fst ++ [condBlocks,zeroConvs,downBlocks,midBlocks]) := by
  decide +kernel

theorem rules_free : PrefixFree ((rules u).map Prod.fst) := prefixes_free

theorem replaced_distinct : (replaced.map Prod.fst).Nodup := prefixes_free.nodup.of_append_left

theorem resnetSub_distinct : (resnetSub.map Prod.snd).Nodup := by decide +kernel

theorem convertKey_rule {p : Name} {handler : Name → Outcome} (member : (p,handler) ∈ rules u) :
    convertKey u (p ++ rest) = handler rest :=
  dispatch_rule rules_free member

theorem convertKey_replaced {source target : Name} (member : (source,target) ∈ replaced) :
    convertKey u (source ++ rest) = .ok (some (target ++ rest)) :=
  convertKey_rule (List.mem_append_left _ (List.mem_map_of_mem member))

theorem convertKey_condBlocks : convertKey u (condBlocks ++ rest) = condBlock u rest :=
  convertKey_rule (List.mem_append_right _ (by simp))

theorem convertKey_zeroConvs : convertKey u (zeroConvs ++ rest) = zeroConv rest :=
  convertKey_rule (List.mem_append_right _ (by simp))

theorem convertKey_downBlocks : convertKey u (downBlocks ++ rest) = downBlock u rest :=
  convertKey_rule (List.mem_append_right _ (by simp))

theorem convertKey_midBlocks : convertKey u (midBlocks ++ rest) = midBlock u rest :=
  convertKey_rule (List.mem_append_right _ (by simp))

theorem int_some {s : Name} {n : Int} (read : literal u s = some n) : int u s = .ok n := by
  rw [int,read]

theorem int_none {s : Name} (read : literal u s = none) : int u s = .error (.valueError s) := by
  rw [int,read]

theorem undotted {s head tail : Name} (cut : partition ['.'] s = (head,tail)) : '.' ∉ head := by
  have absent := @partition_head Char _ '.' s
  rwa [cut] at absent

theorem attentions_resnets : text "attentions" ≠ text "resnets" := by decide
theorem downsamplers_resnets : text "downsamplers" ≠ text "resnets" := by decide
theorem downsamplers_attentions : text "downsamplers" ≠ text "attentions" := by decide

theorem convertKey_denotes (denotes : Denotes u k part t) : convertKey u k = .ok (legacy part t) := by
  cases denotes with
  | @replaced source _ member =>
    obtain ⟨⟨source,target⟩,row,rfl⟩ := List.mem_map.mp member
    have found : replaced.lookup source = some target := lookup_of_mem replaced_distinct row
    rw [convertKey_replaced row]
    simp [legacy,Part.place,Part.tensor,found]
  | @condBlock _ _ _ i cut read =>
    rw [convertKey_condBlocks]
    simp only [condBlock,cut,int_some read]
    cases found : condEmbedToHint.lookup i <;> simp [legacy,Part.place,Part.tensor,found,bind,Except.bind,pure,Except.pure]
  | @zeroConv _ idxS suffix cut =>
    have joined : partition ['.'] (idxS ++ '.' :: suffix) = (idxS,suffix) := partition_at (undotted cut)
    rw [convertKey_zeroConvs]
    simp [zeroConv,cut,legacy,Part.place,Part.tensor,joined,pure,Except.pure]
  | @resnet _ _ _ _ _ _ block rn cut cut2 cut3 read read2 =>
    rw [convertKey_downBlocks]
    simp only [downBlock,cut,cut2,cut3,int_some read,int_some read2]
    cases found : resnetToIb.lookup (block,rn) <;> cases named : resnetSub.lookup t <;>
      simp [legacy,Part.place,Part.tensor,found,named,bind,Except.bind,pure,Except.pure]
  | @attention _ _ _ _ _ _ block attn cut cut2 cut3 read read2 =>
    rw [convertKey_downBlocks]
    simp only [downBlock,cut,cut2,cut3,int_some read,int_some read2,if_neg attentions_resnets]
    cases found : attnToIb.lookup (block,attn) <;>
      simp [legacy,Part.place,Part.tensor,found,bind,Except.bind,pure,Except.pure]
  | @downsampler _ _ _ _ _ _ block cut cut2 cut3 read =>
    rw [convertKey_downBlocks]
    simp only [downBlock,cut,cut2,cut3,int_some read,if_neg downsamplers_resnets,if_neg downsamplers_attentions]
    cases found : downToIb.lookup block <;>
      simp [legacy,Part.place,Part.tensor,found,bind,Except.bind,pure,Except.pure]
  | @midResnet _ _ _ _ rn cut cut2 read =>
    rw [convertKey_midBlocks]
    simp only [midBlock,cut,cut2,int_some read]
    cases named : resnetSub.lookup t <;>
      simp [legacy,Part.place,Part.tensor,named,midBlockIndex,bind,Except.bind,pure,Except.pure]
  | midAttention cut cut2 =>
    rw [convertKey_midBlocks]
    simp only [midBlock,cut,cut2,if_neg attentions_resnets]
    simp [legacy,Part.place,Part.tensor,pure,Except.pure]

theorem convertKey_unreadable (unreadable : Unreadable u k) : ∃ raised, convertKey u k = .error raised := by
  cases unreadable with
  | condBlock cut read =>
    rw [convertKey_condBlocks]
    simp [condBlock,cut,int_none read,bind,Except.bind]
  | block cut read =>
    rw [convertKey_downBlocks]
    simp [downBlock,cut,int_none read,bind,Except.bind]
  | @resnet _ blockS _ _ _ _ cut cut2 cut3 read =>
    rw [convertKey_downBlocks]
    cases first : int u blockS <;> simp [downBlock,cut,cut2,cut3,first,int_none read,bind,Except.bind]
  | @attention _ blockS _ _ _ _ cut cut2 cut3 read =>
    rw [convertKey_downBlocks]
    cases first : int u blockS <;>
      simp [downBlock,cut,cut2,cut3,first,int_none read,attentions_resnets,bind,Except.bind]
  | midResnet cut cut2 read =>
    rw [convertKey_midBlocks]
    simp [midBlock,cut,cut2,int_none read,bind,Except.bind]

-- A name without a reading that the converter does not stumble over is dropped.
def Settled (u : Unicode) (k : Name) : Prop :=
  (∃ part t, Denotes u k part t) ∨ Unreadable u k ∨ convertKey u k = .ok none

theorem settled_downBlocks (u : Unicode) (rest : Name) : Settled u (downBlocks ++ rest) := by
  rcases cut : partition ['.'] rest with ⟨blockS,after⟩
  rcases cut2 : partition ['.'] after with ⟨kind,after2⟩
  rcases cut3 : partition ['.'] after2 with ⟨number,sub⟩
  cases read : literal u blockS with
  | none => exact .inr (.inl (.block cut read))
  | some block =>
    by_cases resnets : kind = text "resnets"
    · subst resnets
      cases read2 : literal u number with
      | none => exact .inr (.inl (.resnet cut cut2 cut3 read2))
      | some rn => exact .inl ⟨_,_,.resnet cut cut2 cut3 read read2⟩
    · by_cases attentions : kind = text "attentions"
      · subst attentions
        cases read2 : literal u number with
        | none => exact .inr (.inl (.attention cut cut2 cut3 read2))
        | some attn => exact .inl ⟨_,_,.attention cut cut2 cut3 read read2⟩
      · by_cases downsamplers : kind = text "downsamplers"
        · subst downsamplers
          exact .inl ⟨_,_,.downsampler cut cut2 rfl read⟩
        · refine .inr (.inr ?_)
          rw [convertKey_downBlocks]
          simp [downBlock,cut,cut2,int_some read,resnets,attentions,downsamplers,bind,Except.bind,pure,Except.pure]

theorem settled_midBlocks (u : Unicode) (rest : Name) : Settled u (midBlocks ++ rest) := by
  rcases cut : partition ['.'] rest with ⟨kind,after⟩
  rcases cut2 : partition ['.'] after with ⟨number,sub⟩
  by_cases resnets : kind = text "resnets"
  · subst resnets
    cases read : literal u number with
    | none => exact .inr (.inl (.midResnet cut cut2 read))
    | some rn => exact .inl ⟨_,_,.midResnet cut cut2 read⟩
  · by_cases attentions : kind = text "attentions"
    · subst attentions
      exact .inl ⟨_,_,.midAttention cut cut2⟩
    · refine .inr (.inr ?_)
      rw [convertKey_midBlocks]
      simp [midBlock,cut,resnets,attentions,pure,Except.pure]

theorem settled (u : Unicode) (k : Name) : Settled u k := by
  rcases dispatch_cases (rules u) (.ok none) k with ⟨p,handler,rest,member,rfl,_⟩ | nothing
  · rcases List.mem_append.mp member with plain | other
    · obtain ⟨⟨source,target⟩,row,same⟩ := List.mem_map.mp plain
      cases same
      exact .inl ⟨_,_,.replaced (List.mem_map_of_mem row)⟩
    · simp only [List.mem_cons,List.not_mem_nil,or_false,Prod.mk.injEq] at other
      rcases other with ⟨rfl,_⟩ | ⟨rfl,_⟩ | ⟨rfl,_⟩ | ⟨rfl,_⟩
      · cases read : literal u (partition ['.'] rest).1 with
        | none => exact .inr (.inl (.condBlock rfl read))
        | some i => exact .inl ⟨_,_,.condBlock rfl read⟩
      · exact .inl ⟨_,_,.zeroConv rfl⟩
      · exact settled_downBlocks u rest
      · exact settled_midBlocks u rest
  · exact .inr (.inr nothing)

end Rules

section Places
variable {u : Unicode} {k k' : Name} {part part' : Part} {t t' n p : Name}

def places : List (Part × Name) :=
  replaced.map (fun row => (.replaced row.1,row.2)) ++
    condEmbedToHint.map (fun row => (.condBlock row.1,hintPlace row.2)) ++
    [(.zeroConv,text "zero_convs.")] ++
    resnetToIb.map (fun row => (.resnet row.1.1 row.1.2,inputPlace row.2 (text ".0."))) ++
    attnToIb.map (fun row => (.attention row.1.1 row.1.2,inputPlace row.2 (text ".1."))) ++
    downToIb.map (fun row => (.downsampler row.1,inputPlace row.2 (text ".0.op."))) ++
    [(.midResnet true,middlePlace 0),(.midResnet false,middlePlace 2),(.midAttention,middlePlace 1)]

theorem places_free : PrefixFree (places.map Prod.snd) := by decide +kernel

theorem place_listed (placed : part.place = some p) : (part,p) ∈ places := by
  simp only [places,List.mem_append,List.mem_map]
  cases part with
  | replaced source => exact .inl (.inl (.inl (.inl (.inl (.inl ⟨_,lookup_mem placed,rfl⟩)))))
  | condBlock i =>
    obtain ⟨j,found,rfl⟩ := Option.map_eq_some_iff.mp placed
    exact .inl (.inl (.inl (.inl (.inl (.inr ⟨_,lookup_mem found,rfl⟩)))))
  | zeroConv =>
    cases placed
    exact .inl (.inl (.inl (.inl (.inr (by simp)))))
  | resnet block rn =>
    obtain ⟨ib,found,rfl⟩ := Option.map_eq_some_iff.mp placed
    exact .inl (.inl (.inl (.inr ⟨_,lookup_mem found,rfl⟩)))
  | attention block attn =>
    obtain ⟨ib,found,rfl⟩ := Option.map_eq_some_iff.mp placed
    exact .inl (.inl (.inr ⟨_,lookup_mem found,rfl⟩))
  | downsampler block =>
    obtain ⟨ib,found,rfl⟩ := Option.map_eq_some_iff.mp placed
    exact .inl (.inr ⟨_,lookup_mem found,rfl⟩)
  | midResnet first =>
    cases placed
    cases first <;> exact .inr (by simp)
  | midAttention =>
    cases placed
    exact .inr (by simp)

theorem place_unique (left : part.place = some p) (right : part'.place = some p) : part = part' := by
  have listed := List.inj_on_of_nodup_map places_free.nodup (place_listed left) (place_listed right) rfl
  exact (Prod.ext_iff.mp listed).1

theorem zeroConv_text (denotes : Denotes u k .zeroConv t) : ∃ idxS suffix, '.' ∉ idxS ∧ t = idxS ++ '.' :: suffix := by
  cases denotes with
  | zeroConv cut => exact ⟨_,_,undotted cut,rfl⟩

theorem tensor_unique (denotes : Denotes u k part t) (denotes' : Denotes u k' part t')
    (left : part.tensor t = some n) (right : part.tensor t' = some n) : t = t' := by
  cases part with
  | zeroConv =>
    obtain ⟨idxS,suffix,absent,rfl⟩ := zeroConv_text denotes
    obtain ⟨idxS',suffix',absent',rfl⟩ := zeroConv_text denotes'
    rw [Part.tensor,partition_at absent,Option.some.injEq] at left
    rw [Part.tensor,partition_at absent',Option.some.injEq] at right
    have same : idxS ++ '.' :: ('0' :: '.' :: suffix) = idxS' ++ '.' :: ('0' :: '.' :: suffix') := by
      simpa [text] using left.trans right.symm
    obtain ⟨rfl,suffixes⟩ := partition_join_injective absent absent' same
    simp only [List.cons.injEq,true_and] at suffixes
    rw [suffixes]
  | resnet | midResnet => exact lookup_injective resnetSub_distinct left right
  | replaced | condBlock | attention | downsampler | midAttention =>
    simp only [Part.tensor,Option.some.injEq] at left right
    rw [left,right]

theorem legacy_some : legacy part t = some n ↔ ∃ p r, part.place = some p ∧ part.tensor t = some r ∧ p ++ r = n := by
  simp [legacy,Option.bind_eq_some_iff,Option.map_eq_some_iff]

theorem legacy_unique (denotes : Denotes u k part t) (denotes' : Denotes u k' part' t')
    (left : legacy part t = some n) (right : legacy part' t' = some n) : part = part' ∧ t = t' := by
  obtain ⟨p,r,placed,named,rfl⟩ := legacy_some.mp left
  obtain ⟨p',r',placed',named',same⟩ := legacy_some.mp right
  obtain ⟨rfl,rfl⟩ := places_free.split_unique (List.mem_map_of_mem (place_listed placed'))
    (List.mem_map_of_mem (place_listed placed)) same
  obtain rfl := place_unique placed placed'
  exact ⟨rfl,tensor_unique denotes denotes' named named'⟩

theorem legacy_mapped : (∃ n, legacy part t = some n) ↔ Mapped part t := by
  simp only [legacy_some,Mapped,Option.isSome_iff_exists]
  constructor
  · rintro ⟨_,p,r,placed,named,_⟩
    exact ⟨⟨p,placed⟩,⟨r,named⟩⟩
  · rintro ⟨⟨p,placed⟩,⟨r,named⟩⟩
    exact ⟨p ++ r,p,r,placed,named,rfl⟩

end Places

section Keys
variable {u : Unicode} {k k' n : Name}

theorem convertKey_error_iff : (∃ raised, convertKey u k = .error raised) ↔ Unreadable u k := by
  constructor
  · rintro ⟨raised,failed⟩
    rcases settled u k with ⟨part,t,denotes⟩ | unreadable | dropped
    · rw [convertKey_denotes denotes] at failed
      cases failed
    · exact unreadable
    · rw [dropped] at failed
      cases failed
  · exact convertKey_unreadable

theorem convertKey_some_iff : convertKey u k = .ok (some n) ↔ ∃ part t, Denotes u k part t ∧ legacy part t = some n := by
  constructor
  · intro mapped
    rcases settled u k with ⟨part,t,denotes⟩ | unreadable | dropped
    · rw [convertKey_denotes denotes,Except.ok.injEq] at mapped
      exact ⟨part,t,denotes,mapped⟩
    · obtain ⟨raised,failed⟩ := convertKey_unreadable unreadable
      rw [failed] at mapped
      cases mapped
    · rw [dropped] at mapped
      cases mapped
  · rintro ⟨part,t,denotes,is⟩
    rw [convertKey_denotes denotes,is]

-- Two names of one tensor, as far as the converter reads them.
def Alike (u : Unicode) (k k' : Name) : Prop := ∃ part t, Denotes u k part t ∧ Denotes u k' part t ∧ Mapped part t

theorem alike_iff : Alike u k k' ↔ ∃ n, convertKey u k = .ok (some n) ∧ convertKey u k' = .ok (some n) := by
  simp only [convertKey_some_iff]
  constructor
  · rintro ⟨part,t,denotes,denotes',mapped⟩
    obtain ⟨n,is⟩ := legacy_mapped.mpr mapped
    exact ⟨n,⟨part,t,denotes,is⟩,part,t,denotes',is⟩
  · rintro ⟨n,⟨part,t,denotes,is⟩,part',t',denotes',is'⟩
    obtain ⟨rfl,rfl⟩ := legacy_unique denotes denotes' is is'
    exact ⟨part,t,denotes,denotes',legacy_mapped.mp ⟨n,is⟩⟩

end Keys

section Loop
variable {α : Type} {u : Unicode} {getTensor : Name → Tensor α} {keys : List Name} {c c' : Converted α} {k n : Name}

theorem convert_cons {rest : List Name} (ran : convert u getTensor (k :: rest) c = .ok c') :
    ∃ newK, convertKey u k = .ok newK ∧ convert u getTensor rest (record getTensor k newK c) = .ok c' := by
  rw [convert] at ran
  cases converted : convertKey u k with
  | error raised => simp [converted] at ran
  | ok newK => exact ⟨newK,rfl,by simpa [converted] using ran⟩

theorem convert_ended_iff : (∃ c', convert u getTensor keys c = .ok c') ↔ ∀ k ∈ keys, ¬ Unreadable u k := by
  induction keys generalizing c with
  | nil => simp [convert]
  | cons k rest ih =>
    rw [List.forall_mem_cons,← convertKey_error_iff,convert]
    cases converted : convertKey u k with
    | error raised => simp
    | ok newK => simp [ih]

def drops (u : Unicode) (k : Name) : Bool :=
  match convertKey u k with
  | .ok none => true
  | _ => false

theorem convert_unmapped (ran : convert u getTensor keys c = .ok c') :
    c'.unmapped = c.unmapped ++ keys.filter (drops u) := by
  induction keys generalizing c with
  | nil =>
    cases ran
    simp
  | cons k rest ih =>
    obtain ⟨newK,converted,later⟩ := convert_cons ran
    rw [ih later]
    cases newK <;> simp [record,drops,converted]

theorem convert_keeps (none : ∀ k ∈ keys, convertKey u k ≠ .ok (some n)) (ran : convert u getTensor keys c = .ok c') :
    c'.tensors.lookup n = c.tensors.lookup n := by
  induction keys generalizing c with
  | nil =>
    cases ran
    rfl
  | cons k rest ih =>
    obtain ⟨newK,converted,later⟩ := convert_cons ran
    rw [ih (fun k member => none k (List.mem_cons_of_mem _ member)) later]
    cases newK with
    | none => rfl
    | some other =>
      apply AList.lookup_insert_ne
      rintro rfl
      exact none k (by simp) converted

theorem convert_stores (distinct : keys.Nodup) (member : k ∈ keys) (mapped : convertKey u k = .ok (some n))
    (alone : ∀ k' ∈ keys, convertKey u k' = .ok (some n) → k' = k) (ran : convert u getTensor keys c = .ok c') :
    c'.tensors.lookup n = some (stored n (getTensor k)) := by
  induction keys generalizing c with
  | nil => cases member
  | cons first rest ih =>
    obtain ⟨newK,converted,later⟩ := convert_cons ran
    obtain ⟨absent,distinct⟩ := List.nodup_cons.mp distinct
    by_cases same : first = k
    · subst same
      rw [mapped] at converted
      cases converted
      rw [convert_keeps _ later]
      · exact AList.lookup_insert _
      · intro other inRest maps
        exact absent (alone other (List.mem_cons_of_mem _ inRest) maps ▸ inRest)
    · exact ih distinct ((List.mem_cons.mp member).resolve_left (Ne.symm same))
        (fun k' inRest => alone k' (List.mem_cons_of_mem _ inRest)) later

end Loop

-- A tensor is in the list of the unmapped, once, or stored under a name no
-- other tensor of the file is given.
def Accounted {α : Type} (u : Unicode) (getTensor : Name → Tensor α) (keys : List Name) (c : Converted α) (k : Name) : Prop :=
  (convertKey u k = .ok none ∧ c.unmapped.count k = 1) ∨
  (∃ n, convertKey u k = .ok (some n) ∧ c.unmapped.count k = 0 ∧
    c.tensors.lookup n = some (stored n (getTensor k)) ∧
    ∀ k' ∈ keys, convertKey u k' = .ok (some n) → k' = k)

section Accounts
variable {α : Type} {u : Unicode} {getTensor : Name → Tensor α} {keys : List Name} {c : Converted α} {k k' : Name}

theorem accounted_separate (accounted : Accounted u getTensor keys c k') (member : k ∈ keys) (alike : Alike u k k') :
    k = k' := by
  obtain ⟨n,mapped,mapped'⟩ := alike_iff.mp alike
  rcases accounted with ⟨dropped,_⟩ | ⟨n',converted,_,_,alone⟩
  · rw [dropped] at mapped'
    cases mapped'
  · rw [converted] at mapped'
    cases mapped'
    exact alone k member mapped

theorem separate_accounted (distinct : keys.Nodup) (readable : ¬ Unreadable u k) (member : k ∈ keys)
    (separate : ∀ k' ∈ keys, Alike u k' k → k' = k) (ran : main u getTensor keys = .ok c) :
    Accounted u getTensor keys c k := by
  have unmapped := convert_unmapped ran
  rw [List.nil_append] at unmapped
  cases converted : convertKey u k with
  | error raised => exact absurd (convertKey_error_iff.mp ⟨raised,converted⟩) readable
  | ok newK =>
    cases newK with
    | none =>
      refine .inl ⟨converted,?_⟩
      rw [unmapped]
      apply List.count_eq_one_of_mem (distinct.filter _)
      exact List.mem_filter.mpr ⟨member,by simp [drops,converted]⟩
    | some n =>
      have alone : ∀ k' ∈ keys, convertKey u k' = .ok (some n) → k' = k := fun k' member' mapped =>
        separate k' member' (alike_iff.mpr ⟨n,mapped,converted⟩)
      refine .inr ⟨n,converted,?_,convert_stores distinct member converted alone ran,alone⟩
      rw [unmapped]
      apply List.count_eq_zero_of_not_mem
      intro kept
      simpa [drops,converted] using (List.mem_filter.mp kept).2

end Accounts

theorem conversion_accounts_iff {α : Type} (u : Unicode) (getTensor : Name → Tensor α) (keys : List Name)
    (distinct : keys.Nodup) :
    (∃ c, main u getTensor keys = .ok c ∧ ∀ k ∈ keys, Accounted u getTensor keys c k) ↔
      (∀ k ∈ keys, ¬ Unreadable u k) ∧ ∀ k ∈ keys, ∀ k' ∈ keys, Alike u k k' → k = k' := by
  constructor
  · rintro ⟨c,ran,accounted⟩
    refine ⟨convert_ended_iff.mp ⟨c,ran⟩,?_⟩
    intro k member k' member' alike
    exact accounted_separate (accounted k' member') member alike
  · rintro ⟨readable,separate⟩
    obtain ⟨c,ran⟩ := (@convert_ended_iff α u getTensor keys ⟨∅,[],[]⟩).mpr readable
    refine ⟨c,ran,?_⟩
    intro k member
    exact separate_accounted distinct (readable k member) member (fun k' member' => separate k' member' k member) ran

-- The digits and the white space of ASCII, and the default limit of int().
def asciiText : Unicode where
  isSpace c := c = ' ' || decide (9 ≤ c.toNat ∧ c.toNat ≤ 13)
  decimal c := if 48 ≤ c.toNat ∧ c.toNat ≤ 57 then some (c.toNat-48) else none
  tooLong count := decide (4300 < count)

def secondResnet : Name := text "mid_block.resnets.1.conv1.weight"
def thirdResnet : Name := text "mid_block.resnets.2.conv1.weight"

def scalar (_ : Name) : Tensor Unit := ⟨[],()⟩

-- Two resnets of the middle block, a zero convolution, and a name no rule knows.
def severalNames : List Name :=
  [text "mid_block.resnets.0.conv1.weight",secondResnet,text "controlnet_down_blocks.7.bias",text "optimizer.step"]

theorem severalNames_distinct : (severalNames.map (convertKey asciiText)).Nodup := by decide +kernel

theorem severalNames_read : ∀ k ∈ severalNames, (convertKey asciiText k).isOk = true := by decide +kernel

theorem conversion_accounts_several : ∃ c, main asciiText scalar severalNames = .ok c ∧
    ∀ k ∈ severalNames, Accounted asciiText scalar severalNames c k := by
  refine (conversion_accounts_iff asciiText scalar severalNames (by decide)).mpr ⟨?_,?_⟩
  · intro k member unreadable
    obtain ⟨raised,failed⟩ := convertKey_error_iff.mpr unreadable
    have read := severalNames_read k member
    rw [failed] at read
    cases read
  · intro k member k' member' alike
    obtain ⟨n,mapped,mapped'⟩ := alike_iff.mp alike
    exact List.inj_on_of_nodup_map severalNames_distinct member member' (mapped.trans mapped'.symm)

theorem resnets_alike : Alike asciiText secondResnet thirdResnet := by
  have second : secondResnet = midBlocks ++ text "resnets.1.conv1.weight" := by decide
  have third : thirdResnet = midBlocks ++ text "resnets.2.conv1.weight" := by decide
  rw [second,third]
  refine ⟨.midResnet false,text "conv1.weight",?_,?_,by decide,by decide⟩
  · exact @Denotes.midResnet asciiText _ (text "1.conv1.weight") ['1'] _ 1 (by decide) (by decide) (by decide)
  · exact @Denotes.midResnet asciiText _ (text "2.conv1.weight") ['2'] _ 2 (by decide) (by decide) (by decide)

-- Every resnet of the middle block but the first is stored as middle_block.2.
theorem conversion_loses : ¬ ∀ (u : Unicode) (getTensor : Name → Tensor Unit) (keys : List Name), keys.Nodup →
    ∃ c, main u getTensor keys = .ok c ∧ ∀ k ∈ keys, Accounted u getTensor keys c k := by
  intro claim
  obtain ⟨c,_,accounted⟩ := claim asciiText scalar [secondResnet,thirdResnet] (by decide)
  obtain ⟨n,second,third⟩ := alike_iff.mp resnets_alike
  rcases accounted secondResnet (by simp) with ⟨dropped,_⟩ | ⟨m,converted,_,_,alone⟩
  · rw [second] at dropped
    cases dropped
  · rw [second] at converted
    cases converted
    exact absurd (alone thirdResnet (by simp) third) (by decide)

end SmartFill.ConvertKey
