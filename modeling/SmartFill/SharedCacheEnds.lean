import SmartFill.SharedCacheSafety

namespace SmartFill.ImageCache.SharedCacheEnds
open Transition SharedCacheSafety

variable {ι ρ : Type} {path : Path} {image : ι → Image} {old : Option Bytes} {s next : Sharing ι ρ}

-- From its removal of the destination on, or returned without one.
def Past : Writing → Prop
  | .removed | .discarding | .returned _ => True
  | .waiting | .filling _ _ | .closed => False

-- Something was refused, or the path has the file of a call, or one that is
-- about to rename will find a temporary file.
def Filled (path : Path) (s : Sharing ι ρ) : Prop :=
  s.refused = true ∨ (∃ i v, s.files.names path = some i ∧ s.truncatedBy i = some v) ∨
    ((∃ v, s.writers v = .removed) ∧ s.files.names (tmpPath path) ≠ none)

structure Landed (path : Path) (s : Sharing ι ρ) : Prop where
  filled : ∀ w, Past (s.writers w) → Filled path s
  lost : ∀ w i, s.writers w = .discarding → s.files.names (tmpPath path) = some i → s.truncatedBy i = some w →
    s.refused = true

theorem fresh_landed (fresh : Sharing.Fresh path old s) : Landed path s := by
  constructor
  · intro w past
    rw [fresh.writers w] at past
    exact past.elim
  · intro w i discarding
    rw [fresh.writers w] at discarding
    cases discarding

theorem refused_landed (refused : s.refused = true) : Landed path s :=
  ⟨fun _ _ => .inl refused,fun _ _ _ _ _ => refused⟩

-- With no temporary file, only the path itself can be filled.
theorem Filled.without (filled : Filled path s) (gone : s.files.names (tmpPath path) = none) :
    s.refused = true ∨ ∃ i v, s.files.names path = some i ∧ s.truncatedBy i = some v := by
  rcases filled with refused | placed | ⟨_,there⟩
  · exact .inl refused
  · exact .inr placed
  · exact absurd gone there

theorem landed_ends (kept : Kept path image old s) (landed : Landed path s) : Sharing.Ends path image s := by
  rintro clear finished ⟨w,ok,returned⟩
  rcases landed.filled w (by rw [returned]; exact True.intro) with refused | ⟨i,v,named,truncated⟩ | ⟨⟨v,removing⟩,_⟩
  · rw [refused] at clear
    cases clear
  · have held := kept.held i v truncated
    rcases finished v with waits | ⟨_,ended⟩
    · rw [waits] at held
      exact held.elim
    · rw [ended] at held
      obtain ⟨k,content,whole⟩ := held
      refine ⟨v,by rw [ended]; nofun,?_⟩
      rw [Posix.content,named]
      change s.files.inodes[i]? = _
      rw [content,List.take_of_length_le (whole clear)]
  · rcases finished v with waits | ⟨_,ended⟩ <;> rw [removing] at * <;> contradiction

section Steps
variable [DecidableEq ι] {w : ι} {phase : Writing} {files : Posix Path UInt8} {refused : Bool}

theorem past_other (early : ¬ Past phase) {v : ι} (past : Past (Function.update s.writers w phase v)) :
    v ≠ w ∧ Past (s.writers v) := by
  rw [Function.update_apply] at past
  split at past
  · exact absurd past early
  · rename_i other
    exact ⟨other,past⟩

theorem discarding_other (different : phase ≠ .discarding) {v : ι}
    (discarding : Function.update s.writers w phase v = .discarding) : v ≠ w ∧ s.writers v = .discarding := by
  rw [Function.update_apply] at discarding
  split at discarding
  · exact absurd discarding different
  · rename_i other
    exact ⟨other,discarding⟩

theorem removing_set (before : s.writers w ≠ .removed) (removing : ∃ v, s.writers v = .removed) :
    ∃ v, Function.update s.writers w phase v = .removed := by
  obtain ⟨v,removing⟩ := removing
  refine ⟨v,(Function.update_of_ne ?_ _ _).trans removing⟩
  rintro rfl
  exact before removing

-- A call that has not come to the removal moves on and leaves the names alone.
theorem early_landed (landed : Landed path s) (before : s.writers w ≠ .removed) (early : ¬ Past phase)
    (names : files.names = s.files.names) (raised : s.refused = true → refused = true) :
    Landed path {s.setWriter w phase with files := files,refused := refused} := by
  constructor
  · intro v past
    obtain ⟨_,past⟩ := past_other early past
    rcases landed.filled v past with was | ⟨i,owner,named,truncated⟩ | ⟨removing,there⟩
    · exact .inl (raised was)
    · exact .inr (.inl ⟨i,owner,(congrFun names path).trans named,truncated⟩)
    · refine .inr (.inr ⟨removing_set before removing,?_⟩)
      exact fun gone => there ((congrFun names (tmpPath path)).symm.trans gone)
  · intro v i discarding tmp truncated
    obtain ⟨_,discarding⟩ := discarding_other (by rintro rfl; exact early True.intro) discarding
    exact raised (landed.lost v i discarding ((congrFun names (tmpPath path)).symm.trans tmp) truncated)

theorem opened_landed (kept : Kept path image old s) (landed : Landed path s) (ready : s.writers w = .waiting)
    (opened : Posix.Opened s.files (tmpPath path) files n) :
    Landed path {s.setWriter w (.filling n 0) with
      files := files,truncatedBy := Function.update s.truncatedBy n (some w)} := by
  constructor
  · intro v past
    obtain ⟨_,past⟩ := past_other id past
    rcases landed.filled v past with was | ⟨i,owner,named,truncated⟩ | ⟨removing,_⟩
    · exact .inl was
    · have other : i ≠ n := opened.away (s.files.valid _ i named) (kept.apart i named)
      exact .inr (.inl ⟨i,owner,(opened.others path (tmp_other path)).trans named,
        (Function.update_of_ne other _ _).trans truncated⟩)
    · refine .inr (.inr ⟨removing_set (by rw [ready]; nofun) removing,?_⟩)
      change files.names (tmpPath path) ≠ none
      rw [opened.named]
      nofun
  · intro v i discarding tmp truncated
    have different : Writing.filling n 0 ≠ .discarding := nofun
    obtain ⟨other,_⟩ := discarding_other different discarding
    change files.names (tmpPath path) = some i at tmp
    change Function.update s.truncatedBy n (some w) i = some v at truncated
    rw [opened.named] at tmp
    cases tmp
    rw [Function.update_self] at truncated
    exact absurd (Option.some.inj truncated).symm other

theorem removed_landed (landed : Landed path s) (there : s.files.names (tmpPath path) ≠ none) :
    Landed path {s.setWriter w .removed with files := s.files.unlink path} := by
  have same : (s.files.unlink path).names (tmpPath path) = s.files.names (tmpPath path) :=
    Function.update_of_ne (tmp_other path).symm _ _
  constructor
  · intro v _
    refine .inr (.inr ⟨⟨w,Function.update_self _ _ _⟩,?_⟩)
    exact fun gone => there (same.symm.trans gone)
  · intro v i discarding tmp truncated
    have different : Writing.removed ≠ .discarding := nofun
    obtain ⟨_,discarding⟩ := discarding_other different discarding
    exact landed.lost v i discarding (same.symm.trans tmp) truncated

-- What a call finds filled that has no temporary file any more stays filled.
theorem without_landed (landed : Landed path s) (past : Past (s.writers w)) (gone : s.files.names (tmpPath path) = none) :
    Landed path (s.setWriter w phase) := by
  constructor
  · intro v _
    rcases (landed.filled w past).without gone with was | placed
    · exact .inl was
    · exact .inr (.inl placed)
  · intro v i _ tmp
    exact absurd tmp (by rw [show (s.setWriter w phase).files = s.files from rfl,gone]; nofun)

theorem renamed_landed (kept : Kept path image old s) (ready : s.writers w = .removed)
    (renamed : s.files.rename (tmpPath path) path = some files) :
    Landed path {s.setWriter w (.returned true) with files := files} := by
  obtain ⟨n,tmp,there,gone,_⟩ := Posix.rename_some renamed (tmp_other path).symm
  constructor
  · intro v _
    refine .inr (.inl ⟨n,?_⟩)
    cases truncated : s.truncatedBy n with
    | some owner => exact ⟨owner,there,truncated⟩
    | none => rcases kept.stale n tmp truncated w with waits | finished <;> rw [ready] at * <;> contradiction
  · intro v i _ named
    rw [show files.names (tmpPath path) = some i from named] at gone
    cases gone

theorem discarded_landed (landed : Landed path s) (ready : s.writers w = .discarding)
    (own : ∀ i, s.files.names (tmpPath path) = some i → s.truncatedBy i = some w) :
    Landed path {s.setWriter w (.returned false) with files := s.files.unlink (tmpPath path)} := by
  constructor
  · intro v _
    cases tmp : s.files.names (tmpPath path) with
    | some i => exact .inl (landed.lost w i ready tmp (own i tmp))
    | none =>
      rcases (landed.filled w (by rw [ready]; exact True.intro)).without tmp with was | ⟨i,owner,named,truncated⟩
      · exact .inl was
      · exact .inr (.inl ⟨i,owner,(Function.update_of_ne (tmp_other path) _ _).trans named,truncated⟩)
  · intro v i _ named
    change Function.update s.files.names (tmpPath path) none (tmpPath path) = some i at named
    rw [Function.update_self] at named
    cases named

variable [DecidableEq ρ]

theorem step_landed (kept : Kept path image old s) (landed : Landed path s) {action : SharingStep ι ρ}
    (furnished : s.Furnished path action) (ran : s.step path image action = some next) : Landed path next := by
  cases Sharing.step_ran ran with
  | openRefused | failed | removeRefused | renameRefused | discardRefused => exact refused_landed rfl
  | opened w ready => exact opened_landed kept landed ready (Posix.openTrunc_opened s.files (tmpPath path))
  | wrote w i k n ready _ => exact early_landed landed (by rw [ready]; nofun) id rfl id
  | closed w i k ready =>
      exact early_landed landed (by rw [ready]; nofun) id rfl (fun was => Bool.or_eq_true_iff.mpr (.inl was))
  | removed w _ => exact removed_landed landed furnished
  | unrenamed w ready gone => exact without_landed landed (by rw [ready]; exact True.intro) gone
  | renamed w files ready renamed => exact renamed_landed kept ready renamed
  | discarded w ready => exact discarded_landed landed ready furnished
  | absent | found | fetched | finished => exact ⟨landed.filled,landed.lost⟩

-- A call that never writes into a file another has emptied since it opened it
-- can share the temporary name with any number of others; and where no call
-- takes away what it has nothing to put in the place of, one of their files stays.
theorem shared_honest (path : Path) (image : ι → Image) (old : Option Bytes) :
    (∀ s, Guarded (Sharing.system ρ path image old) Sharing.Alone s → s.Whole image old) ∧
    ∀ s, Guarded (Sharing.system ρ path image old) (Sharing.Calm path) s → s.Whole image old ∧ s.Ends path image := by
  refine ⟨fun s run => kept_whole (guarded_kept run),fun s run => ?_⟩
  have both : Kept path image old s ∧ Landed path s := by
    apply Guarded.keeps (fun s => Kept path image old s ∧ Landed path s) run
    · exact fun s fresh => ⟨fresh_kept fresh,fresh_landed fresh⟩
    · rintro s action next ⟨kept,landed⟩ ⟨alone,furnished⟩ ran
      exact ⟨step_kept kept alone ran,step_landed kept landed furnished ran⟩
  exact ⟨kept_whole both.1,landed_ends both.1 both.2⟩

end Steps

def quiet (ι ρ : Type) : Sharing ι ρ :=
  ⟨⟨fun _ => none,[],nofun⟩,fun _ => .waiting,fun _ => .waiting,false,fun _ => none⟩

theorem quiet_fresh (path : Path) : Sharing.Fresh path none (quiet ι ρ) :=
  ⟨rfl,nofun,fun _ => rfl,fun _ => rfl,rfl,fun _ => rfl⟩

def slot : Path := ascii "k"

def bake (p : F32) : Image := ⟨[p],1,1,1,by decide,Nat.le_refl 1⟩
def bakes : Bool → Image := fun w => bake (if w then F32.one else F32.zero)

-- One call is over when the next opens; a reader of the first one's file is not
-- disturbed.
theorem pair_calm : ∃ s : Sharing Bool Unit, Guarded (Sharing.system Unit slot bakes none) (Sharing.Calm slot) s ∧
    s.refused = false ∧ (∀ w, s.writers w = .returned true) ∧ s.readers () = .finished (bakes true).result := by
  have start : Guarded (Sharing.system Unit slot bakes none) (Sharing.Calm slot) (quiet Bool Unit) :=
    .initial (quiet_fresh slot)
  have wrote := (start.act (.openTmp true false) ⟨trivial,trivial⟩ rfl).act (.write true 32)
    ⟨fun _ _ filling => by cases filling; rfl,trivial⟩ rfl
  have landed := ((wrote.act (.close true true) ⟨trivial,trivial⟩ rfl).act (.remove true false)
    ⟨trivial,nofun⟩ rfl).act (.rename true false) ⟨trivial,trivial⟩ rfl
  have opened := (landed.act (.openRead ()) ⟨trivial,trivial⟩ rfl).act (.openTmp false false) ⟨trivial,trivial⟩ rfl
  have half := opened.act (.write false 16) ⟨fun _ _ filling => by cases filling; rfl,trivial⟩ rfl
  have read := (half.act (.fetch () 32) ⟨trivial,trivial⟩ rfl).act (.finish ()) ⟨trivial,trivial⟩ rfl
  have filled := read.act (.write false 16) ⟨fun _ _ filling => by cases filling; rfl,trivial⟩ rfl
  have ended := ((filled.act (.close false true) ⟨trivial,trivial⟩ rfl).act (.remove false false)
    ⟨trivial,nofun⟩ rfl).act (.rename false false) ⟨trivial,trivial⟩ rfl
  have whole : imageCacheRead (some (bakes true).bytes) = (bakes true).result :=
    image_read (bakes true) (List.prefix_refl _) (by decide)
  refine ⟨_,ended,rfl,fun w => ?_,congrArg Reading.finished whole⟩
  cases w <;> rfl

theorem shared_honest_pair : ∃ s : Sharing Bool Unit, s.readers () = .finished (bakes true).result ∧
    s.Whole bakes none ∧ ∃ w, s.files.content slot = some (bakes w).bytes := by
  obtain ⟨s,path,clear,returned,read⟩ := pair_calm
  obtain ⟨whole,ends⟩ := (shared_honest slot bakes none).2 s path
  obtain ⟨w,_,content⟩ := ends clear (fun w => .inr ⟨true,returned w⟩) ⟨true,true,returned true⟩
  exact ⟨s,read,whole,w,content⟩

theorem mixed_encoding {p q : List F32} {width height channels : Int} (same : p.length = q.length)
    (sized : p.length = (width*height*channels).toNat) (j : Nat) (inside : j ≤ p.length) :
    (encoding p width height channels).take (28+4*j) ++ (encoding q width height channels).drop (28+4*j) =
      encoding (p.take j ++ q.drop j) width height channels := by
  have cut (r : List F32) (enough : j ≤ r.length) :
      (pixelBytes r).take (4*j) = pixelBytes (r.take j) ∧ (pixelBytes r).drop (4*j) = pixelBytes (r.drop j) := by
    have front : (pixelBytes (r.take j)).length = 4*j := by
      rw [pixelBytes_length,List.length_take,Nat.min_eq_left enough]
    have parts : pixelBytes r = pixelBytes (r.take j) ++ pixelBytes (r.drop j) := by
      rw [pixelBytes,pixelBytes,pixelBytes,←List.flatMap_append,List.take_append_drop]
    rw [parts,←front,List.take_left,List.drop_left]
    exact ⟨rfl,rfl⟩
  have all (r : List F32) (exact : r.length = p.length) : r.take (width*height*channels).toNat = r := by
    rw [←sized,←exact,List.take_length]
  have mixed : (p.take j ++ q.drop j).length = p.length := by
    rw [List.length_append,List.length_take,List.length_drop]
    omega
  rw [encoding,encoding,encoding,all p rfl,all q same.symm,all _ mixed]
  have header := headerBytes_length width height channels
  have before : (headerBytes width height channels ++ pixelBytes p).take (28+4*j) =
      headerBytes width height channels ++ pixelBytes (p.take j) := by
    rw [←header,List.take_length_add_append,(cut p inside).1]
  have after : (headerBytes width height channels ++ pixelBytes q).drop (28+4*j) = pixelBytes (q.drop j) := by
    rw [←header,List.drop_length_add_append,(cut q (same ▸ inside)).2]
  rw [before,after,List.append_assoc,pixelBytes,pixelBytes,pixelBytes,List.flatMap_append]

-- Both calls open the temporary file before either writes; what the second to
-- write has flushed lies over the first one's image when that one is renamed.
theorem mixed_reached (image : Bool → Image) (k : Nat) (inside : k ≤ (image false).bytes.length) :
    ∃ s : Sharing Bool Unit, Reached (Sharing.system Unit slot image none) s ∧
      s.readers () = .finished (imageCacheRead (some ((image false).bytes.take k ++ (image true).bytes.drop k))) := by
  have start : Reached (Sharing.system Unit slot image none) (quiet Bool Unit) := .initial (quiet_fresh slot)
  have opened := (start.act (.openTmp true false) True.intro rfl).act (.openTmp false false) True.intro rfl
  have first := opened.act (.write true (image true).bytes.length) True.intro (if_pos (Nat.le_of_eq (Nat.zero_add _)))
  have second := first.act (.write false k) True.intro (if_pos ((Nat.zero_add k).trans_le inside))
  have landed := ((second.act (.close true true) True.intro rfl).act (.remove true false) True.intro rfl).act
    (.rename true false) True.intro rfl
  have read := ((landed.act (.openRead ()) True.intro rfl).act
    (.fetch () ((image true).bytes.length + k)) True.intro rfl).act (.finish ()) True.intro rfl
  have lies : ([] : Bytes) ++ ((Posix.splice 0
      (Posix.splice 0 [] 0 (((image true).bytes.drop 0).take (image true).bytes.length)) 0
      (((image false).bytes.drop 0).take k)).drop 0).take ((image true).bytes.length + k) =
      (image false).bytes.take k ++ (image true).bytes.drop k := by
    have size : ((image false).bytes.take k).length = k := by
      rw [List.length_take,Nat.min_eq_left inside]
    rw [Posix.splice_start,Posix.splice_start]
    simp only [List.drop_zero,List.drop_nil,List.append_nil,List.nil_append,List.take_length,size]
    apply List.take_of_length_le
    rw [List.length_append,size,List.length_drop]
    omega
  exact ⟨_,read,congrArg (fun got => Reading.finished (imageCacheRead (some got))) lies⟩

def pair (first second : Image) : Bool → Image := fun w => if w then first else second

-- For any two images of one size and any number of pixels between none and
-- all, a read can return a mix of the two cut there.
theorem mixed_read (first second : Image) (width : second.width = first.width) (height : second.height = first.height)
    (channels : second.channels = first.channels) (same : second.pixels.length = first.pixels.length)
    (sized : first.pixels.length = (first.width*first.height*first.channels).toNat) (j : Nat)
    (inside : j ≤ first.pixels.length) :
    ∃ s : Sharing Bool Unit, Reached (Sharing.system Unit slot (pair first second) none) s ∧
      s.readers () = .finished
        ⟨true,first.width,first.height,first.channels,second.pixels.take j ++ first.pixels.drop j,[]⟩ := by
  have whole : second.pixels.take (first.width*first.height*first.channels).toNat = second.pixels := by
    rw [←sized,←same,List.take_length]
  obtain ⟨s,path,finished⟩ := mixed_reached (pair first second) (28+4*j) (by
    change _ ≤ (encoding second.pixels second.width second.height second.channels).length
    rw [encoding,List.length_append,headerBytes_length,pixelBytes_length,width,height,channels,whole,same]
    omega)
  refine ⟨s,path,?_⟩
  have mixed := mixed_encoding same (same.trans sized) j (same ▸ inside)
  change s.readers () = .finished (imageCacheRead (some
    ((encoding second.pixels second.width second.height second.channels).take (28+4*j) ++
      (encoding first.pixels first.width first.height first.channels).drop (28+4*j)))) at finished
  rw [width,height,channels,mixed] at finished
  rw [finished,read_encoding first.range]
  rw [List.length_append,List.length_take,List.length_drop,same,←sized]
  omega

-- 64x32 pixels of one channel: two buffers of 4096 bytes and 28 bytes more.
def flat (p : F32) : Image :=
  ⟨List.replicate 2048 p,64,32,1,by decide,by rw [List.length_replicate]; decide⟩

-- The second call empties the file of the first, which renames what the second
-- has made of it; the second then removes that and finds nothing to rename.
theorem lost_reached (image : Bool → Image) : ∃ s : Sharing Bool Unit,
    Guarded (Sharing.system Unit slot image none) Sharing.Alone s ∧ s.refused = false ∧
    (∀ w, s.writers w = .returned w) ∧ s.files.content slot = none := by
  have start : Guarded (Sharing.system Unit slot image none) Sharing.Alone (quiet Bool Unit) := .initial (quiet_fresh slot)
  have whole (w : Bool) : 0 + (image w).bytes.length ≤ (image w).bytes.length := Nat.le_of_eq (Nat.zero_add _)
  have first := ((start.act (.openTmp true false) trivial rfl).act (.write true (image true).bytes.length)
    (fun _ _ filling => by cases filling; rfl) (if_pos (whole true))).act (.close true true) trivial rfl
  have second := ((first.act (.openTmp false false) trivial rfl).act (.write false (image false).bytes.length)
    (fun _ _ filling => by cases filling; rfl) (if_pos (whole false))).act (.close false true) trivial rfl
  have renamed := (second.act (.remove true false) trivial rfl).act (.rename true false) trivial rfl
  have gone := ((renamed.act (.remove false false) trivial rfl).act (.rename false false) trivial rfl).act
    (.discard false false) trivial rfl
  refine ⟨_,gone,?_,fun w => ?_,rfl⟩
  · simp [Sharing.setWriter,quiet]
  · cases w <;> rfl

-- The first buffer of the white image, 1017 pixels behind the header, over the
-- black one.
theorem white_over_black : ∃ s : Sharing Bool Unit,
    Reached (Sharing.system Unit slot (pair (flat F32.zero) (flat F32.one)) none) s ∧
    ¬ s.Whole (pair (flat F32.zero) (flat F32.one)) none := by
  have size (p : F32) : (flat p).pixels.length = 2048 := List.length_replicate
  obtain ⟨s,path,finished⟩ := mixed_read (flat F32.zero) (flat F32.one) rfl rfl rfl ((size _).trans (size _).symm)
    (size _) 1017 (by rw [size]; decide)
  refine ⟨s,path,fun honest => ?_⟩
  have white : F32.one ∈ (flat F32.one).pixels.take 1017 ++ (flat F32.zero).pixels.drop 1017 := by
    rw [flat,List.take_replicate]
    exact List.mem_append_left _ (List.mem_replicate.mpr ⟨by decide,rfl⟩)
  have black : F32.zero ∈ (flat F32.one).pixels.take 1017 ++ (flat F32.zero).pixels.drop 1017 := by
    rw [flat,flat,List.drop_replicate]
    exact List.mem_append_right _ (List.mem_replicate.mpr ⟨by decide,rfl⟩)
  rcases honest () _ finished rfl with ⟨w,_,same⟩ | none
  · have pixels := congrArg ImageCacheReadResult.pixels same
    dsimp only [Image.result] at pixels
    rw [pixels] at white black
    have white := List.mem_of_mem_take white
    have black := List.mem_of_mem_take black
    cases w with
    | true => exact absurd (List.eq_of_mem_replicate white) (by decide)
    | false => exact absurd (List.eq_of_mem_replicate black) (by decide)
  · have ok := congrArg ImageCacheReadResult.ok none
    cases ok

theorem shared_mixed :
    (¬ ∀ s : Sharing Bool Unit, Reached (Sharing.system Unit slot (pair (flat F32.zero) (flat F32.one)) none) s →
      s.Whole (pair (flat F32.zero) (flat F32.one)) none) ∧
    ¬ ∀ s : Sharing Bool Unit, Reached (Sharing.system Unit slot (pair (flat F32.zero) (flat F32.one)) none) s →
      s.Ends slot (pair (flat F32.zero) (flat F32.one)) := by
  constructor
  · intro claim
    obtain ⟨s,path,mixed⟩ := white_over_black
    exact mixed (claim s path)
  · intro claim
    obtain ⟨s,path,clear,returned,nothing⟩ := lost_reached (pair (flat F32.zero) (flat F32.one))
    obtain ⟨w,_,content⟩ := claim s path.reached clear (fun w => .inr ⟨w,returned w⟩) ⟨true,true,returned true⟩
    rw [nothing] at content
    cases content

end SmartFill.ImageCache.SharedCacheEnds
