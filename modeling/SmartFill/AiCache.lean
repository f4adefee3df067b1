import SmartFill.Nuke
import SmartFill.KeyBuilder
import SmartFill.Lib.Trailing

namespace SmartFill

structure AiCache where
  cacheDir : Bytes

namespace AiCache
open Trailing

def isBlank (c : UInt8) : Bool := c = 32 || c = 9 || c = 10 || c = 13

-- The last loop stops at one character, whatever it is.
def normalizeDir (s : Bytes) : Bytes := trimTail (· = slash) (forwardSlashes (s.rdropWhile isBlank))

def create (cacheDir : Bytes) : AiCache := ⟨normalizeDir cacheDir⟩

def exrPathFor (cache : AiCache) (key : Bytes) : Path := cache.cacheDir ++ ascii "/" ++ key ++ ascii ".exr"

def jsonPathFor (cache : AiCache) (key : Bytes) : Path := cache.cacheDir ++ ascii "/" ++ key ++ ascii ".json"

structure Normal (s : Bytes) : Prop where
  forward : backslash ∉ s
  trimmed : ∀ c, s.getLast? = some c → isBlank c = false
  unslashed : s.getLast? = some slash → s = [slash]
  stable : normalizeDir s = s

def isSeparator (c : UInt8) : Bool := c = slash || c = backslash

theorem separator_solid (c : UInt8) (separator : isSeparator c = true) : isBlank c = false := by
  simp only [isSeparator,Bool.or_eq_true,decide_eq_true_eq] at separator
  rcases separator with rfl | rfl <;> rfl

def forwardSlash (c : UInt8) : UInt8 := if c = backslash then slash else c

theorem forwardSlash_slash (c : UInt8) : (decide (forwardSlash c = slash)) = isSeparator c := by
  unfold forwardSlash isSeparator
  split <;> simp_all

theorem forwardSlash_blank (c : UInt8) : isBlank (forwardSlash c) = isBlank c := by
  unfold forwardSlash
  split
  · rename_i back
    rw [back]
    rfl
  · rfl

theorem backslash_gone (s : Bytes) : backslash ∉ forwardSlashes s := by
  intro member
  obtain ⟨c,_,is⟩ := List.mem_map.mp member
  split at is
  · cases is
  · contradiction

theorem forwardSlashes_none (absent : backslash ∉ s) : forwardSlashes s = s := by
  refine (List.map_congr_left ?_).trans (List.map_id s)
  intro c member
  apply if_neg
  rintro rfl
  exact absent member

theorem normalizeDir_eq (s : Bytes) :
    normalizeDir s = forwardSlashes (trimTail isSeparator (s.rdropWhile isBlank)) := by
  have passes := trimTail_map (fun c => decide (c = slash)) forwardSlash (s.rdropWhile isBlank)
  simp only [forwardSlash_slash] at passes
  exact passes

theorem normalizeDir_forward (s : Bytes) : backslash ∉ normalizeDir s := by
  rw [normalizeDir_eq]
  exact backslash_gone _

theorem normalizeDir_unslashed (s : Bytes) (last : (normalizeDir s).getLast? = some slash) :
    normalizeDir s = [slash] :=
  trimTail_last _ last rfl

theorem normalizeDir_stable (forward : backslash ∉ s) (trimmed : ∀ c, s.getLast? = some c → isBlank c = false)
    (unslashed : s.getLast? = some slash → s = [slash]) : normalizeDir s = s := by
  rw [normalizeDir,rdropWhile_keeps trimmed,forwardSlashes_none forward]
  apply trimTail_keeps
  intro c last holds
  rw [of_decide_eq_true holds] at last ⊢
  exact unslashed last

theorem normalizeDir_last (s : Bytes) :
    (∀ c, (normalizeDir s).getLast? = some c → isBlank c = false) ↔ ¬ Hides isBlank isSeparator s := by
  rw [normalizeDir_eq,hides_iff separator_solid]
  have ends (r : Bytes) : (forwardSlashes r).getLast? = r.getLast?.map forwardSlash := List.getLast?_map
  rw [ends]
  constructor
  · rintro solid ⟨b,last,blank⟩
    have kept := solid _ (Option.map_eq_some_iff.mpr ⟨b,last,rfl⟩)
    rw [forwardSlash_blank,blank] at kept
    cases kept
  · intro visible c last
    obtain ⟨b,before,rfl⟩ := Option.map_eq_some_iff.mp last
    rw [forwardSlash_blank]
    by_contra blank
    exact visible ⟨b,before,by simpa using blank⟩

theorem normalizeDir_normal_iff (s : Bytes) : Normal (normalizeDir s) ↔ ¬ Hides isBlank isSeparator s := by
  rw [← normalizeDir_last]
  constructor
  · intro normal
    exact normal.trimmed
  · intro trimmed
    exact ⟨normalizeDir_forward s,trimmed,normalizeDir_unslashed s,
      normalizeDir_stable (normalizeDir_forward s) trimmed (normalizeDir_unslashed s)⟩

-- The blank before the separators is met by no loop any more.
theorem normalizeDir_blank : ¬ ∀ s, Normal (normalizeDir s) := by
  intro claim
  exact absurd ((claim (ascii "a /")).trimmed 32 (by decide)) (by decide)

end AiCache

end SmartFill
