import SmartFill.ImageCacheFormat
import SmartFill.Lib.Posix
import SmartFill.Lib.Transition

namespace SmartFill.ImageCache
open Transition

-- The arguments of one image_cache_write that its checks let through.
structure Image where
  pixels : List F32
  width : Int
  height : Int
  channels : Int
  range : inRange width height channels = true
  provided : (width*height*channels).toNat ≤ pixels.length

def Image.bytes (image : Image) : Bytes := encoding image.pixels image.width image.height image.channels

def Image.result (image : Image) : ImageCacheReadResult :=
  ⟨true,image.width,image.height,image.channels,image.pixels.take (image.width*image.height*image.channels).toNat,[]⟩

-- Where one call is: before the ofstream opens; with it open and so many bytes
-- in the file; past its closing; past the removal of the destination; at the
-- removal of the temporary file; returned.
inductive Writing where
  | waiting
  | filling (inode : Nat) (written : Nat)
  | closed
  | removed
  | discarding
  | returned (ok : Bool)

inductive Reading where
  | waiting
  | fetching (inode : Nat) (got : Bytes)
  | finished (result : ImageCacheReadResult)

-- `refused` is whether the operating system has refused anything so far, other
-- than to rename a temporary file that is not there; `truncatedBy` is the call
-- whose open last emptied a file. No step depends on either.
structure Sharing (ι ρ : Type) where
  files : Posix Path UInt8
  writers : ι → Writing
  readers : ρ → Reading
  refused : Bool
  truncatedBy : Nat → Option ι

inductive SharingStep (ι ρ : Type) where
  | openTmp (w : ι) (refused : Bool)
  | write (w : ι) (n : Nat)
  | close (w : ι) (good : Bool)
  | remove (w : ι) (refused : Bool)
  | rename (w : ι) (refused : Bool)
  | discard (w : ι) (refused : Bool)
  | openRead (r : ρ)
  | fetch (r : ρ) (n : Nat)
  | finish (r : ρ)

namespace Sharing
variable {ι ρ : Type} [DecidableEq ι] [DecidableEq ρ]

def setWriter (s : Sharing ι ρ) (w : ι) (phase : Writing) : Sharing ι ρ :=
  {s with writers := Function.update s.writers w phase}

def setReader (s : Sharing ι ρ) (r : ρ) (phase : Reading) : Sharing ι ρ :=
  {s with readers := Function.update s.readers r phase}

-- One statement of one of the calls, on the files they share. The stream's
-- buffer reaches the file in pieces of any size, before and while close()
-- runs, each at the offset of the stream's own handle. good() is read before
-- close(), so what close() cannot flush is lost without a trace.
def step (path : Path) (image : ι → Image) (s : Sharing ι ρ) : SharingStep ι ρ → Option (Sharing ι ρ)
  | .openTmp w refused =>
    match s.writers w with
    | .waiting =>
      if refused then some {s.setWriter w (.returned false) with refused := true}
      else
        let opened := s.files.openTrunc (tmpPath path)
        some {s.setWriter w (.filling opened.2 0) with
          files := opened.1,truncatedBy := Function.update s.truncatedBy opened.2 (some w)}
    | _ => none
  | .write w n =>
    match s.writers w with
    | .filling i k =>
      if k + n ≤ (image w).bytes.length then
        some {s.setWriter w (.filling i (k+n)) with
          files := s.files.pwrite 0 i k (((image w).bytes.drop k).take n)}
      else none
    | _ => none
  | .close w good =>
    match s.writers w with
    | .filling _ k =>
      if good then some {s.setWriter w .closed with refused := s.refused || decide (k < (image w).bytes.length)}
      else some {s.setWriter w .discarding with refused := true}
    | _ => none
  | .remove w refused =>
    match s.writers w with
    | .closed =>
      if refused then some {s.setWriter w .removed with refused := true}
      else some {s.setWriter w .removed with files := s.files.unlink path}
    | _ => none
  | .rename w refused =>
    match s.writers w with
    | .removed =>
      if refused then some {s.setWriter w .discarding with refused := true}
      else
        match s.files.rename (tmpPath path) path with
        | none => some (s.setWriter w .discarding)
        | some files => some {s.setWriter w (.returned true) with files := files}
    | _ => none
  | .discard w refused =>
    match s.writers w with
    | .discarding =>
      if refused then some {s.setWriter w (.returned false) with refused := true}
      else some {s.setWriter w (.returned false) with files := s.files.unlink (tmpPath path)}
    | _ => none
  | .openRead r =>
    match s.readers r with
    | .waiting =>
      match s.files.names path with
      | none => some (s.setReader r (.finished (imageCacheRead none)))
      | some i => some (s.setReader r (.fetching i []))
    | _ => none
  | .fetch r n =>
    match s.readers r with
    | .fetching i got =>
      some (s.setReader r (.fetching i (got ++ ((s.files.inodes.getD i []).drop got.length).take n)))
    | _ => none
  | .finish r =>
    match s.readers r with
    | .fetching _ got => some (s.setReader r (.finished (imageCacheRead (some got))))
    | _ => none

section Cases
variable {path : Path} {image : ι → Image} {s next : Sharing ι ρ}

-- All that a statement can do, with where its call stood before.
inductive Ran (path : Path) (image : ι → Image) (s : Sharing ι ρ) : SharingStep ι ρ → Sharing ι ρ → Prop where
  | openRefused (w : ι) : s.writers w = .waiting →
    Ran path image s (.openTmp w true) {s.setWriter w (.returned false) with refused := true}
  | opened (w : ι) : s.writers w = .waiting →
    Ran path image s (.openTmp w false) {s.setWriter w (.filling (s.files.openTrunc (tmpPath path)).2 0) with
      files := (s.files.openTrunc (tmpPath path)).1
      truncatedBy := Function.update s.truncatedBy (s.files.openTrunc (tmpPath path)).2 (some w)}
  | wrote (w : ι) (i k n : Nat) : s.writers w = .filling i k → k + n ≤ (image w).bytes.length →
    Ran path image s (.write w n) {s.setWriter w (.filling i (k+n)) with
      files := s.files.pwrite 0 i k (((image w).bytes.drop k).take n)}
  | closed (w : ι) (i k : Nat) : s.writers w = .filling i k →
    Ran path image s (.close w true)
      {s.setWriter w .closed with refused := s.refused || decide (k < (image w).bytes.length)}
  | failed (w : ι) (i k : Nat) : s.writers w = .filling i k →
    Ran path image s (.close w false) {s.setWriter w .discarding with refused := true}
  | removeRefused (w : ι) : s.writers w = .closed →
    Ran path image s (.remove w true) {s.setWriter w .removed with refused := true}
  | removed (w : ι) : s.writers w = .closed →
    Ran path image s (.remove w false) {s.setWriter w .removed with files := s.files.unlink path}
  | renameRefused (w : ι) : s.writers w = .removed →
    Ran path image s (.rename w true) {s.setWriter w .discarding with refused := true}
  | unrenamed (w : ι) : s.writers w = .removed → s.files.names (tmpPath path) = none →
    Ran path image s (.rename w false) (s.setWriter w .discarding)
  | renamed (w : ι) (files : Posix Path UInt8) : s.writers w = .removed →
    s.files.rename (tmpPath path) path = some files →
    Ran path image s (.rename w false) {s.setWriter w (.returned true) with files := files}
  | discardRefused (w : ι) : s.writers w = .discarding →
    Ran path image s (.discard w true) {s.setWriter w (.returned false) with refused := true}
  | discarded (w : ι) : s.writers w = .discarding →
    Ran path image s (.discard w false) {s.setWriter w (.returned false) with files := s.files.unlink (tmpPath path)}
  | absent (r : ρ) : s.files.names path = none →
    Ran path image s (.openRead r) (s.setReader r (.finished (imageCacheRead none)))
  | found (r : ρ) (i : Nat) : s.files.names path = some i →
    Ran path image s (.openRead r) (s.setReader r (.fetching i []))
  | fetched (r : ρ) (i n : Nat) (got : Bytes) : s.readers r = .fetching i got →
    Ran path image s (.fetch r n)
      (s.setReader r (.fetching i (got ++ ((s.files.inodes.getD i []).drop got.length).take n)))
  | finished (r : ρ) (i : Nat) (got : Bytes) : s.readers r = .fetching i got →
    Ran path image s (.finish r) (s.setReader r (.finished (imageCacheRead (some got))))

theorem step_ran {action : SharingStep ι ρ} (ran : s.step path image action = some next) :
    Ran path image s action next := by
  cases action with
  | openTmp w refused =>
      simp only [step] at ran
      split at ran
      · rename_i ready
        cases refused with
        | true => cases ran; exact .openRefused w ready
        | false => cases ran; exact .opened w ready
      · cases ran
  | write w n =>
      simp only [step] at ran
      split at ran
      · rename_i i k ready
        split at ran
        · rename_i fits
          cases ran
          exact .wrote w i k n ready fits
        · cases ran
      · cases ran
  | close w good =>
      simp only [step] at ran
      split at ran
      · rename_i i k ready
        cases good with
        | true => cases ran; exact .closed w i k ready
        | false => cases ran; exact .failed w i k ready
      · cases ran
  | remove w refused =>
      simp only [step] at ran
      split at ran
      · rename_i ready
        cases refused with
        | true => cases ran; exact .removeRefused w ready
        | false => cases ran; exact .removed w ready
      · cases ran
  | rename w refused =>
      simp only [step] at ran
      split at ran
      · rename_i ready
        cases refused with
        | true => cases ran; exact .renameRefused w ready
        | false =>
          simp only [Bool.false_eq_true,if_false] at ran
          split at ran
          · rename_i nothing
            cases ran
            exact .unrenamed w ready (Posix.rename_none nothing)
          · rename_i files renamed
            cases ran
            exact .renamed w files ready renamed
      · cases ran
  | discard w refused =>
      simp only [step] at ran
      split at ran
      · rename_i ready
        cases refused with
        | true => cases ran; exact .discardRefused w ready
        | false => cases ran; exact .discarded w ready
      · cases ran
  | openRead r =>
      simp only [step] at ran
      split at ran
      · split at ran
        · rename_i absent
          cases ran
          exact .absent r absent
        · rename_i i named
          cases ran
          exact .found r i named
      · cases ran
  | fetch r n =>
      simp only [step] at ran
      split at ran
      · rename_i i got fetching
        cases ran
        exact .fetched r i n got fetching
      · cases ran
  | finish r =>
      simp only [step] at ran
      split at ran
      · rename_i i got fetching
        cases ran
        exact .finished r i got fetching
      · cases ran

end Cases

-- Before any call: `old` is what the path holds, and a temporary file of some
-- killed process may be there.
structure Fresh (path : Path) (old : Option Bytes) (s : Sharing ι ρ) : Prop where
  old : s.files.content path = old
  apart : ∀ i, s.files.names path = some i → s.files.names (tmpPath path) ≠ some i
  writers : ∀ w, s.writers w = .waiting
  readers : ∀ r, s.readers r = .waiting
  refused : s.refused = false
  truncatedBy : ∀ i, s.truncatedBy i = none

def system (ρ : Type) [DecidableEq ρ] (path : Path) (image : ι → Image) (old : Option Bytes) :
    System (Sharing ι ρ) (SharingStep ι ρ) := ⟨Fresh path old,step path image⟩

-- No call writes into a file that another call has emptied since it opened it.
def Alone (s : Sharing ι ρ) : SharingStep ι ρ → Prop
  | .write w _ => ∀ i k, s.writers w = .filling i k → s.truncatedBy i = some w
  | _ => True

-- No call removes the destination while there is no temporary file to rename,
-- and none that gives up removes a temporary file that another call has opened.
def Furnished (path : Path) (s : Sharing ι ρ) : SharingStep ι ρ → Prop
  | .remove _ false => s.files.names (tmpPath path) ≠ none
  | .discard w false => ∀ i, s.files.names (tmpPath path) = some i → s.truncatedBy i = some w
  | _ => True

def Calm (path : Path) (s : Sharing ι ρ) (action : SharingStep ι ρ) : Prop := s.Alone action ∧ s.Furnished path action

-- What a read accepts is the whole image of one call, or the file that was
-- there before them.
def Whole (image : ι → Image) (old : Option Bytes) (s : Sharing ι ρ) : Prop :=
  ∀ r result, s.readers r = .finished result → result.ok = true →
    (∃ w, s.writers w ≠ .waiting ∧ result = (image w).result) ∨ result = imageCacheRead old

-- Once all calls are over and nothing was refused, the path holds the whole
-- file of one of them.
def Ends (path : Path) (image : ι → Image) (s : Sharing ι ρ) : Prop :=
  s.refused = false → (∀ w, s.writers w = .waiting ∨ ∃ ok, s.writers w = .returned ok) →
    (∃ w ok, s.writers w = .returned ok) → ∃ w, s.writers w ≠ .waiting ∧ s.files.content path = some (image w).bytes

end Sharing

end SmartFill.ImageCache
