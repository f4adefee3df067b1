import SmartFill.SharedCache

namespace SmartFill.ImageCache.SharedCacheSafety
open Transition

variable {ι ρ : Type}

-- The file a call has emptied and no other since: a prefix of its image, as
-- long as the call has got, and all of it once closed unless a write was refused.
def Held (bytes : Bytes) (refused : Bool) (content : Option Bytes) (i : Nat) : Writing → Prop
  | .waiting => False
  | .filling j k => j = i ∧ content = some (bytes.take k)
  | .closed | .removed | .discarding | .returned _ =>
    ∃ k, content = some (bytes.take k) ∧ (refused = false → bytes.length ≤ k)

-- What a reader has got so far, from a file that the temporary name has left.
def Got (path : Path) (image : ι → Image) (old : Option Bytes) (s : Sharing ι ρ) : Reading → Prop
  | .waiting => True
  | .fetching i got =>
    s.files.names (tmpPath path) ≠ some i ∧ i < s.files.inodes.length ∧
      ((∃ v, s.truncatedBy i = some v ∧ got <+: (image v).bytes) ∨
        ∃ content, s.truncatedBy i = none ∧ s.files.inodes[i]? = some content ∧ old = some content ∧ got <+: content)
  | .finished result => result.ok = true →
    (∃ w, s.writers w ≠ .waiting ∧ result = (image w).result) ∨ result = imageCacheRead old

structure Kept (path : Path) (image : ι → Image) (old : Option Bytes) (s : Sharing ι ρ) : Prop where
  held : ∀ i v, s.truncatedBy i = some v → Held (image v).bytes s.refused s.files.inodes[i]? i (s.writers v)
  apart : ∀ i, s.files.names path = some i → s.files.names (tmpPath path) ≠ some i
  stale : ∀ i, s.files.names (tmpPath path) = some i → s.truncatedBy i = none →
    ∀ w, s.writers w = .waiting ∨ s.writers w = .returned false
  first : ∀ i, s.files.names path = some i → s.truncatedBy i = none → s.files.inodes[i]? = old
  readers : ∀ r, Got path image old s (s.readers r)

variable {path : Path} {image : ι → Image} {old : Option Bytes} {s next : Sharing ι ρ}

theorem fresh_kept (fresh : Sharing.Fresh path old s) : Kept path image old s := by
  refine ⟨?_,fresh.apart,fun _ _ _ w => .inl (fresh.writers w),?_,?_⟩
  · intro i v truncated
    rw [fresh.truncatedBy i] at truncated
    cases truncated
  · intro i named _
    rw [←fresh.old,Posix.content,named]
    rfl
  · intro r
    rw [fresh.readers r]
    exact True.intro

theorem Held.raise {refused refused' : Bool} {phase : Writing} (held : Held bytes refused content i phase)
    (raised : refused = true → refused' = true) :
    Held bytes refused' content i phase := by
  cases phase with
  | waiting | filling _ _ => exact held
  | closed | removed | discarding | returned _ =>
      obtain ⟨k,same,whole⟩ := held
      refine ⟨k,same,fun clear => whole ?_⟩
      cases refused with
      | false => rfl
      | true => rw [raised rfl] at clear; cases clear

theorem Held.taken {refused : Bool} {phase : Writing} (held : Held bytes refused content i phase) :
    ∃ k, content = some (bytes.take k) := by
  cases phase with
  | waiting => exact held.elim
  | filling _ k => exact ⟨k,held.2⟩
  | closed | removed | discarding | returned _ =>
      obtain ⟨k,same,_⟩ := held
      exact ⟨k,same⟩

theorem Got.later {s next : Sharing ι ρ} {phase : Reading} (got : Got path image old s phase)
    (tmp : ∀ i < s.files.inodes.length, next.files.names (tmpPath path) = some i → s.files.names (tmpPath path) = some i)
    (length : s.files.inodes.length ≤ next.files.inodes.length)
    (truncated : ∀ i < s.files.inodes.length, s.files.names (tmpPath path) ≠ some i →
      next.truncatedBy i = s.truncatedBy i)
    (inodes : ∀ i < s.files.inodes.length, s.truncatedBy i = none → s.files.names (tmpPath path) ≠ some i →
      next.files.inodes[i]? = s.files.inodes[i]?)
    (writers : ∀ w, s.writers w ≠ .waiting → next.writers w ≠ .waiting) : Got path image old next phase := by
  cases phase with
  | waiting => exact True.intro
  | fetching i bytes =>
      obtain ⟨away,inside,source⟩ := got
      refine ⟨fun named => away (tmp i inside named),by omega,?_⟩
      rw [truncated i inside away]
      rcases source with source | ⟨content,untouched,there,source⟩
      · exact .inl source
      · exact .inr ⟨content,untouched,(inodes i inside untouched away).trans there,source⟩
  | finished result =>
      intro ok
      rcases got ok with ⟨w,begun,same⟩ | same
      · exact .inl ⟨w,writers w begun,same⟩
      · exact .inr same

theorem fetched_front {bytes : List β} (start : got <+: bytes) (k n : Nat) :
    got ++ ((bytes.take k).drop got.length).take n <+: bytes := by
  rw [List.drop_take,List.take_take]
  have front := List.prefix_iff_eq_take.mp start
  calc got ++ (bytes.drop got.length).take (min n (k - got.length))
      = bytes.take got.length ++ (bytes.drop got.length).take (min n (k - got.length)) := by rw [←front]
    _ = bytes.take (got.length + min n (k - got.length)) := List.take_add.symm
    _ <+: bytes := List.take_prefix _ _

theorem opened_got (kept : Kept path image old s) (named : s.files.names path = some i) :
    Got path image old s (.fetching i []) := by
  refine ⟨kept.apart i named,s.files.valid _ i named,?_⟩
  cases truncated : s.truncatedBy i with
  | some v => exact .inl ⟨v,rfl,List.nil_prefix⟩
  | none =>
      have content := List.getElem?_eq_getElem (s.files.valid _ i named)
      exact .inr ⟨_,rfl,content,(kept.first i named truncated).symm.trans content,List.nil_prefix⟩

theorem fetched_got (kept : Kept path image old s) (got : Got path image old s (.fetching i bytes)) (n : Nat) :
    Got path image old s (.fetching i (bytes ++ ((s.files.inodes.getD i []).drop bytes.length).take n)) := by
  obtain ⟨away,inside,source⟩ := got
  refine ⟨away,inside,?_⟩
  rw [List.getD_eq_getElem?_getD]
  rcases source with ⟨v,truncated,front⟩ | ⟨content,free,there,first,front⟩
  · obtain ⟨k,content⟩ := (kept.held i v truncated).taken
    rw [content]
    exact .inl ⟨v,truncated,fetched_front front k n⟩
  · rw [there]
    refine .inr ⟨content,free,rfl,first,?_⟩
    have whole := fetched_front front content.length n
    rwa [List.take_length] at whole

theorem image_read (image : Image) (front : got <+: image.bytes) (ok : (imageCacheRead (some got)).ok = true) :
    imageCacheRead (some got) = image.result := by
  have sized : (image.pixels.take (image.width*image.height*image.channels).toNat).length =
      (image.width*image.height*image.channels).toNat := by
    rw [List.length_take]
    exact Nat.min_eq_left image.provided
  have bytes : image.bytes = encoding (image.pixels.take (image.width*image.height*image.channels).toNat)
      image.width image.height image.channels := encoding_take image.pixels
  have start := List.prefix_iff_eq_take.mp front
  rw [bytes] at start
  rw [start] at ok
  rw [start,read_truncated image.range sized ok]
  exact read_encoding image.range sized

theorem finished_got (kept : Kept path image old s) (got : Got path image old s (.fetching i bytes)) :
    Got path image old s (.finished (imageCacheRead (some bytes))) := by
  intro ok
  obtain ⟨_,_,⟨v,truncated,front⟩ | ⟨content,_,_,rfl,rest,rfl⟩⟩ := got
  · refine .inl ⟨v,?_,image_read (image v) front ok⟩
    intro waits
    have held := kept.held i v truncated
    rw [waits] at held
    exact held
  · exact .inr (read_ok_extended ok rest).symm

theorem unlink_names (fs : Posix Path UInt8) (p q : Path) (found : (fs.unlink p).names q = some i) :
    fs.names q = some i := by
  simp only [Posix.unlink,Function.update_apply] at found
  split at found
  · cases found
  · exact found

-- Taking a name away leaves every file as it is.
theorem unlink_kept (kept : Kept path image old s) (p : Path) :
    Kept path image old {s with files := s.files.unlink p} := by
  refine ⟨kept.held,?_,?_,?_,?_⟩
  · intro i named tmp
    exact kept.apart i (unlink_names _ _ _ named) (unlink_names _ _ _ tmp)
  · intro i tmp
    exact kept.stale i (unlink_names _ _ _ tmp)
  · intro i named
    exact kept.first i (unlink_names _ _ _ named)
  · intro r
    exact (kept.readers r).later (fun _ _ named => unlink_names _ _ _ named) (Nat.le_refl _) (fun _ _ _ => rfl)
      (fun _ _ _ _ => rfl) (fun _ waits => waits)

theorem kept_whole (kept : Kept path image old s) : Sharing.Whole image old s := by
  intro r result finished
  have sound := kept.readers r
  rw [finished] at sound
  exact sound

section Places
variable [DecidableEq ι] {w : ι} {phase : Writing}

theorem begun_set (begun : phase ≠ .waiting) (v : ι) (waits : s.writers v ≠ .waiting) :
    Function.update s.writers w phase v ≠ .waiting := by
  rw [Function.update_apply]
  split
  · exact begun
  · exact waits

end Places

section Calls
variable [DecidableEq ι]

-- The statements that change no file of their own: what they make of the
-- call's place and of what was refused.
inductive Moved (length : Nat) (refused : Bool) : Writing → Writing → Bool → Prop where
  | unopened : Moved length refused .waiting (.returned false) true
  | closed : Moved length refused (.filling i k) .closed (refused || decide (k < length))
  | failed : Moved length refused (.filling i k) .discarding true
  | removed : (refused = true → later = true) → Moved length refused .closed .removed later
  | unrenamed : (refused = true → later = true) → Moved length refused .removed .discarding later
  | discarded : (refused = true → later = true) → Moved length refused .discarding (.returned false) later

theorem Moved.raised {refused : Bool} (move : Moved length refused phase after later) (was : refused = true) :
    later = true := by
  cases move with
  | closed => rw [was]; rfl
  | removed raised | unrenamed raised | discarded raised => exact raised was
  | _ => rfl

theorem Moved.held {bytes : Bytes} {refused : Bool} {phase : Writing}
    (move : Moved bytes.length refused phase after later) (held : Held bytes refused content i phase) :
    Held bytes later content i after := by
  have raised := move.raised
  cases move with
  | unopened => exact held.elim
  | closed =>
      obtain ⟨_,same⟩ := held
      refine ⟨_,same,fun clear => ?_⟩
      rw [Bool.or_eq_false_iff] at clear
      exact Nat.le_of_not_lt (of_decide_eq_false clear.2)
  | failed => exact ⟨_,held.2,nofun⟩
  | removed _ | unrenamed _ | discarded _ => exact held.raise raised

theorem Moved.bounds {refused : Bool} {phase after : Writing} (move : Moved length refused phase after later) :
    after ≠ .waiting ∧ (phase = .waiting ∨ phase = .returned false → after = .returned false) := by
  cases move <;> simp_all

theorem phase_kept (kept : Kept path image old s) (w : ι)
    (move : Moved (image w).bytes.length s.refused (s.writers w) phase refused) :
    Kept path image old {s.setWriter w phase with refused := refused} := by
  have raised := move.raised
  have held (content : Option Bytes) (i : Nat) (before : Held (image w).bytes s.refused content i (s.writers w)) :
      Held (image w).bytes refused content i phase := move.held before
  obtain ⟨begun,finished⟩ := move.bounds
  have place (v : ι) : Function.update s.writers w phase v = if v = w then phase else s.writers v :=
    Function.update_apply _ _ _ _
  refine ⟨?_,kept.apart,?_,kept.first,?_⟩
  · intro i v truncated
    have before := kept.held i v truncated
    change Held _ _ _ i (Function.update s.writers w phase v)
    rw [place]
    split
    · rename_i same
      subst v
      exact held _ _ before
    · exact before.raise raised
  · intro i named truncated v
    change Function.update s.writers w phase v = _ ∨ Function.update s.writers w phase v = _
    rw [place]
    split
    · exact .inr (finished (kept.stale i named truncated w))
    · exact kept.stale i named truncated v
  · intro r
    exact (kept.readers r).later (fun _ _ named => named) (Nat.le_refl _) (fun _ _ _ => rfl) (fun _ _ _ _ => rfl)
      (begun_set begun)

theorem rename_kept (kept : Kept path image old s) (w : ι) (ready : s.writers w = .removed) {files : Posix Path UInt8}
    (renamed : s.files.rename (tmpPath path) path = some files) :
    Kept path image old {s.setWriter w (.returned true) with files := files} := by
  obtain ⟨n,tmp,there,gone,inodes⟩ := Posix.rename_some renamed (tmp_other path).symm
  have place (v : ι) : Function.update s.writers w (.returned true) v = if v = w then .returned true else s.writers v :=
    Function.update_apply _ _ _ _
  have unnamed (i : Nat) : files.names (tmpPath path) ≠ some i := by rw [gone]; nofun
  -- The renaming call has opened the temporary file, so it is no stale one.
  obtain ⟨owner,truncated⟩ : ∃ v, s.truncatedBy n = some v := by
    cases truncated : s.truncatedBy n with
    | some v => exact ⟨v,rfl⟩
    | none => rcases kept.stale n tmp truncated w with waits | finished <;> rw [ready] at * <;> contradiction
  refine ⟨?_,fun i _ named => unnamed i named,fun i named => absurd named (unnamed i),?_,?_⟩
  · intro i v truncated
    have before := kept.held i v truncated
    change Held _ _ files.inodes[i]? i (Function.update s.writers w (.returned true) v)
    rw [inodes,place]
    split
    · rename_i same
      subst v
      rw [ready] at before
      exact before
    · exact before
  · intro i named untouched
    change files.names path = some i at named
    change s.truncatedBy i = none at untouched
    rw [there] at named
    cases named
    rw [truncated] at untouched
    cases untouched
  · intro r
    refine (kept.readers r).later (fun i _ named => absurd named (unnamed i))
      (le_of_eq (congrArg List.length inodes.symm)) (fun _ _ _ => rfl) (fun i _ _ _ => congrArg (·[i]?) inodes) ?_
    exact begun_set nofun

section Opens
variable {files : Posix Path UInt8} {w : ι}

-- The caller owns the file it has opened, and nobody else's file is touched.
theorem open_held (kept : Kept path image old s) (ready : s.writers w = .waiting)
    (opened : Posix.Opened s.files (tmpPath path) files n) (i : Nat) (v : ι)
    (truncated : Function.update s.truncatedBy n (some w) i = some v) :
    Held (image v).bytes s.refused files.inodes[i]? i (Function.update s.writers w (.filling n 0) v) := by
  rw [Function.update_apply] at truncated
  split at truncated
  · rename_i same
    subst i
    cases truncated
    rw [Function.update_self,opened.empty]
    exact ⟨rfl,rfl⟩
  · rename_i other
    have before := kept.held i v truncated
    have different : v ≠ w := by
      rintro rfl
      rw [ready] at before
      exact before
    obtain ⟨k,content⟩ := before.taken
    rw [Function.update_of_ne different,opened.keeps i other (List.getElem?_eq_some_iff.mp content).1]
    exact before

theorem open_got (kept : Kept path image old s) (opened : Posix.Opened s.files (tmpPath path) files n) (r : ρ) :
    Got path image old {s.setWriter w (.filling n 0) with
      files := files,truncatedBy := Function.update s.truncatedBy n (some w)} (s.readers r) := by
  refine (kept.readers r).later ?_ opened.grows ?_ ?_ ?_
  · intro i inside tmp
    change files.names (tmpPath path) = some i at tmp
    rw [opened.named] at tmp
    cases tmp
    rcases opened.number with named | ⟨_,new⟩
    · exact named
    · omega
  · intro i inside tmp
    exact Function.update_of_ne (opened.away inside tmp) _ _
  · intro i inside _ tmp
    exact opened.keeps i (opened.away inside tmp) inside
  · exact begun_set nofun

theorem open_kept (kept : Kept path image old s) (ready : s.writers w = .waiting)
    (opened : Posix.Opened s.files (tmpPath path) files n) :
    Kept path image old {s.setWriter w (.filling n 0) with
      files := files,truncatedBy := Function.update s.truncatedBy n (some w)} := by
  have names : files.names path = s.files.names path := opened.others path (tmp_other path)
  have outside (i : Nat) (named : s.files.names path = some i) : i ≠ n :=
    opened.away (s.files.valid _ i named) (kept.apart i named)
  refine ⟨open_held kept ready opened,?_,?_,?_,fun r => open_got kept opened r⟩
  · intro i named tmp
    change files.names path = some i at named
    change files.names (tmpPath path) = some i at tmp
    rw [names] at named
    rw [opened.named] at tmp
    exact outside i named (Option.some.inj tmp).symm
  · intro i tmp untouched
    change files.names (tmpPath path) = some i at tmp
    change Function.update s.truncatedBy n (some w) i = none at untouched
    rw [opened.named] at tmp
    cases tmp
    rw [Function.update_self] at untouched
    cases untouched
  · intro i named untouched
    change files.names path = some i at named
    change Function.update s.truncatedBy n (some w) i = none at untouched
    change files.inodes[i]? = old
    rw [names] at named
    rw [Function.update_of_ne (outside i named)] at untouched
    rw [opened.keeps i (outside i named) (s.files.valid _ i named)]
    exact kept.first i named untouched

end Opens

theorem write_kept (kept : Kept path image old s) (w : ι) (ready : s.writers w = .filling i k)
    (own : s.truncatedBy i = some w) (fits : k + n ≤ (image w).bytes.length) :
    Kept path image old {s.setWriter w (.filling i (k+n)) with
      files := s.files.pwrite 0 i k (((image w).bytes.drop k).take n)} := by
  have place (v : ι) : Function.update s.writers w (.filling i (k+n)) v = if v = w then .filling i (k+n) else s.writers v :=
    Function.update_apply _ _ _ _
  have others (j : Nat) (other : j ≠ i) :
      (s.files.pwrite 0 i k (((image w).bytes.drop k).take n)).inodes[j]? = s.files.inodes[j]? := Posix.pwrite_other other
  have untouched (j : Nat) (free : s.truncatedBy j = none) : j ≠ i := by
    rintro rfl
    rw [own] at free
    cases free
  refine ⟨?_,kept.apart,?_,?_,?_⟩
  · intro j v truncated
    have before := kept.held j v truncated
    change Held _ _ (s.files.pwrite 0 i k (((image w).bytes.drop k).take n)).inodes[j]? j
      (Function.update s.writers w (.filling i (k+n)) v)
    rw [place]
    split
    · rename_i same
      subst v
      rw [ready] at before
      obtain ⟨rfl,content⟩ := before
      refine ⟨rfl,?_⟩
      have size : ((image w).bytes.take k).length = k := by
        rw [List.length_take]
        omega
      rw [Posix.pwrite_at content]
      have appended := Posix.splice_end 0 ((image w).bytes.take k) (((image w).bytes.drop k).take n)
      rw [size,←List.take_add] at appended
      rw [appended]
    · rename_i different
      have other : j ≠ i := by
        rintro rfl
        change s.truncatedBy j = some v at truncated
        rw [own] at truncated
        exact different (Option.some.inj truncated).symm
      rw [others j other]
      exact before
  · intro j tmp free v
    rcases kept.stale j tmp free w with waits | finished <;> rw [ready] at * <;> contradiction
  · intro j named free
    exact (others j (untouched j free)).trans (kept.first j named free)
  · intro r
    refine (kept.readers r).later (fun _ _ named => named) (le_of_eq Posix.pwrite_length.symm) (fun _ _ _ => rfl) ?_ ?_
    · intro j _ free _
      exact others j (untouched j free)
    · exact begun_set nofun

end Calls

section Readers
variable [DecidableEq ρ]

theorem reader_kept (kept : Kept path image old s) (r : ρ) (phase : Reading) (got : Got path image old s phase) :
    Kept path image old (s.setReader r phase) := by
  refine ⟨kept.held,kept.apart,kept.stale,kept.first,?_⟩
  intro q
  change Got path image old s (Function.update s.readers r phase q)
  rw [Function.update_apply]
  split
  · exact got
  · exact kept.readers q

end Readers

section Runs
variable [DecidableEq ι] [DecidableEq ρ]

theorem step_kept (kept : Kept path image old s) {action : SharingStep ι ρ} (alone : s.Alone action)
    (ran : s.step path image action = some next) : Kept path image old next := by
  cases Sharing.step_ran ran with
  | openRefused w ready => exact phase_kept kept w (by rw [ready]; exact .unopened)
  | opened w ready => exact open_kept kept ready (Posix.openTrunc_opened s.files (tmpPath path))
  | wrote w i k n ready fits => exact write_kept kept w ready (alone i k ready) fits
  | closed w i k ready => exact phase_kept kept w (by rw [ready]; exact .closed)
  | failed w i k ready => exact phase_kept kept w (by rw [ready]; exact .failed)
  | removeRefused w ready => exact phase_kept kept w (by rw [ready]; exact .removed (fun _ => rfl))
  | removed w ready =>
      have moved : Moved (image w).bytes.length s.refused (s.writers w) .removed s.refused := by
        rw [ready]
        exact .removed id
      exact unlink_kept (phase_kept kept w moved) path
  | renameRefused w ready => exact phase_kept kept w (by rw [ready]; exact .unrenamed (fun _ => rfl))
  | unrenamed w ready _ =>
      have moved : Moved (image w).bytes.length s.refused (s.writers w) .discarding s.refused := by
        rw [ready]
        exact .unrenamed id
      exact phase_kept kept w moved
  | renamed w files ready renamed => exact rename_kept kept w ready renamed
  | discardRefused w ready => exact phase_kept kept w (by rw [ready]; exact .discarded (fun _ => rfl))
  | discarded w ready =>
      have moved : Moved (image w).bytes.length s.refused (s.writers w) (.returned false) s.refused := by
        rw [ready]
        exact .discarded id
      exact unlink_kept (phase_kept kept w moved) (tmpPath path)
  | absent r _ => exact reader_kept kept r _ nofun
  | found r i named => exact reader_kept kept r _ (opened_got kept named)
  | fetched r i n got fetching =>
      have sound := kept.readers r
      rw [fetching] at sound
      exact reader_kept kept r _ (fetched_got kept sound n)
  | finished r i got fetching =>
      have sound := kept.readers r
      rw [fetching] at sound
      exact reader_kept kept r _ (finished_got kept sound)

theorem guarded_kept (run : Guarded (Sharing.system ρ path image old) Sharing.Alone s) : Kept path image old s := by
  apply Guarded.keeps (Kept path image old) run
  · exact fun s fresh => fresh_kept fresh
  · exact fun s action next kept alone ran => step_kept kept alone ran

end Runs

end SmartFill.ImageCache.SharedCacheSafety
