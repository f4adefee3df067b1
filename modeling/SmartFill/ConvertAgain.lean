import SmartFill.TensorNames

namespace SmartFill.ConvertKey
open PrefixRules

section Names
variable {u : Unicode} {k n p : Name} {part : Part}

-- No legacy name begins as a diffusers name does.
theorem places_apart : ∀ p ∈ places.map Prod.snd,
    ∀ q ∈ replaced.map Prod.fst ++ [condBlocks,zeroConvs,downBlocks,midBlocks], Apart p q := by
  decide +kernel

theorem convertKey_placed (placed : part.place = some p) (r : Name) : convertKey u (p ++ r) = .ok none := by
  apply dispatch_default
  exact places_apart p (List.mem_map_of_mem (place_listed placed))

theorem convertKey_again (mapped : convertKey u k = .ok (some n)) : convertKey u n = .ok none := by
  obtain ⟨part,t,_,named⟩ := convertKey_some_iff.mp mapped
  obtain ⟨p,r,placed,_,rfl⟩ := legacy_some.mp named
  exact convertKey_placed placed r

end Names

section Loop
variable {α : Type} {u : Unicode} {getTensor : Name → Tensor α} {keys : List Name} {c c' : Converted α} {n : Name}
  {t : Tensor α}

theorem record_sources {k : Name} {newK : Option Name} (found : (record getTensor k newK c).tensors.lookup n = some t) :
    c.tensors.lookup n = some t ∨ (newK = some n ∧ t = stored n (getTensor k)) := by
  cases newK with
  | none => exact .inl found
  | some m =>
    by_cases same : n = m
    · subst same
      have now : (record getTensor k (some n) c).tensors.lookup n = some (stored n (getTensor k)) := AList.lookup_insert _
      exact .inr ⟨rfl,Option.some.inj (found.symm.trans now)⟩
    · have kept : (record getTensor k (some m) c).tensors.lookup n = c.tensors.lookup n := AList.lookup_insert_ne same
      exact .inl (kept.symm.trans found)

-- What is stored under a name is a tensor of the file whose name became it.
theorem convert_sources (ran : convert u getTensor keys c = .ok c') (found : c'.tensors.lookup n = some t) :
    c.tensors.lookup n = some t ∨ ∃ k ∈ keys, convertKey u k = .ok (some n) ∧ t = stored n (getTensor k) := by
  induction keys generalizing c with
  | nil =>
    cases ran
    exact .inl found
  | cons k rest ih =>
    obtain ⟨newK,converted,later⟩ := convert_cons ran
    rcases ih later with now | ⟨source,member,maps⟩
    · rcases record_sources now with before | ⟨rfl,tensor⟩
      · exact .inl before
      · exact .inr ⟨k,List.mem_cons_self,converted,tensor⟩
    · exact .inr ⟨source,List.mem_cons_of_mem _ member,maps⟩

theorem convert_dropped (none : ∀ k ∈ keys, convertKey u k = .ok none) :
    convert u getTensor keys c = .ok ⟨c.tensors,c.unmapped ++ keys,c.reshaped⟩ := by
  induction keys generalizing c with
  | nil => simp [convert]
  | cons k rest ih =>
    have others := ih (c := record getTensor k .none c) (fun k member => none k (List.mem_cons_of_mem _ member))
    rw [convert,none k List.mem_cons_self]
    refine others.trans ?_
    simp [record]

end Loop

-- A converted file is no input: converted again, it ends as an empty one.
theorem convert_again {α : Type} (u : Unicode) (getTensor : Name → Tensor α) {keys : List Name} {c : Converted α}
    (ran : main u getTensor keys = .ok c) :
    (∀ n t, c.tensors.lookup n = some t → ∃ k ∈ keys, convertKey u k = .ok (some n) ∧ t = stored n (getTensor k)) ∧
    ∀ (again : Name → Tensor α) (names : List Name), (∀ n ∈ names, n ∈ c.tensors) →
      main u again names = .ok ⟨∅,names,[]⟩ := by
  have sources : ∀ n t, c.tensors.lookup n = some t →
      ∃ k ∈ keys, convertKey u k = .ok (some n) ∧ t = stored n (getTensor k) := by
    intro n t found
    exact (convert_sources ran found).resolve_left (by simp)
  refine ⟨sources,?_⟩
  intro again names listed
  apply convert_dropped
  intro n member
  obtain ⟨t,found⟩ := Option.isSome_iff_exists.mp (AList.lookup_isSome.mpr (listed n member))
  obtain ⟨k,_,mapped,_⟩ := sources n t found
  exact convertKey_again mapped

theorem convert_again_second : ∃ c n, main asciiText scalar [secondResnet] = .ok c ∧ n ∈ c.tensors ∧
    main asciiText scalar [n] = .ok ⟨∅,[n],[]⟩ := by
  obtain ⟨n,second,_⟩ := alike_iff.mp resnets_alike
  have ran : main asciiText scalar [secondResnet] = .ok (record scalar secondResnet (some n) ⟨∅,[],[]⟩) := by
    rw [main,convert,second]
    rfl
  have stored : n ∈ (record scalar secondResnet (some n) ⟨∅,[],[]⟩).tensors := (AList.mem_insert _).mpr (.inl rfl)
  refine ⟨_,n,ran,stored,(convert_again asciiText scalar ran).2 scalar [n] ?_⟩
  intro m member
  rw [List.mem_singleton.mp member]
  exact stored

end SmartFill.ConvertKey
