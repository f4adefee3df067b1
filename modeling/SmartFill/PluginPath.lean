import SmartFill.AIGenerateRuns
import SmartFill.AISmartFillRuns
import SmartFill.AiCacheSweep
import SmartFill.Bootstrap

namespace SmartFill.PluginPath
open Bootstrap

-- How the system knows the module: its name in wide characters, or as dladdr
-- gives it.
inductive Module where
  | windows (name : Option Wide)
  | posix (name : Option Bytes)

-- The loop asks again with a buffer twice the size, up to 32768.
def askName (name : Option Wide) : (rounds : Nat) → (buf : Wide) → Option (Option Wide)
  | 0,_ => none
  | rounds+1,buf =>
    let (n,buf) := getModuleFileName name buf
    if n = 0 then some none else
    if n < buf.length then some (some (buf.take n)) else
    if 32768 ≤ buf.length then some none else
    askName name rounds (buf ++ List.replicate buf.length 0)

def currentPluginPath : Module → Bytes
  | .windows name =>
    match askName name 7 (List.replicate 512 0) with
    | some (some buf) => forwardSlashes (wideToUtf8 buf)
    | _ => []
  | .posix name => forwardSlashes (name.getD [])

def trimToDir (path : Bytes) : Bytes :=
  match splitLast slash path with
  | none => []
  | some (dir,_) => dir

def currentPluginDir (module : Module) : Bytes := trimToDir (currentPluginPath module)

inductive Platform where
  | windows
  | apple
  | other
  deriving DecidableEq

def envOrEmpty (env : Bytes → Option Bytes) (name : Bytes) : Bytes := (env name).getD []

def defaultCacheDir (env : Bytes → Option Bytes) : Platform → Bytes
  | .windows =>
    let base := envOrEmpty env (ascii "APPDATA")
    if base ≠ [] then forwardSlashes (base ++ ascii "\\nuke-ai-fill\\cache") else
    let base := envOrEmpty env (ascii "USERPROFILE")
    if base = [] then [] else forwardSlashes (base ++ ascii "\\AppData\\Roaming" ++ ascii "\\nuke-ai-fill\\cache")
  | .apple =>
    let home := envOrEmpty env (ascii "HOME")
    if home = [] then [] else home ++ ascii "/Library/Caches/nuke-ai-fill"
  | .other =>
    let base := envOrEmpty env (ascii "XDG_CACHE_HOME")
    if base ≠ [] then base ++ ascii "/nuke-ai-fill" else
    let home := envOrEmpty env (ascii "HOME")
    if home = [] then [] else home ++ ascii "/.cache" ++ ascii "/nuke-ai-fill"

section Names
variable {s buf d base : Wide} {c : UInt16}

def askedName (name : Option Wide) : Option Wide :=
  match name with
  | none => none
  | some s => if s ≠ [] ∧ s.length < 32768 then some s else none

theorem askName_fits (rounds : Nat) (fits : s.length < buf.length) :
    askName (some s) (rounds+1) buf = some (if s = [] then none else some s) := by
  have length := filled_length fits
  simp only [askName,getModuleFileName,if_pos fits,length]
  by_cases empty : s = []
  · simp [empty]
  · have named : s.length ≠ 0 := fun none => empty (List.length_eq_zero_iff.mp none)
    simp [named,empty,filled]

theorem askName_long (rounds : Nat) (long : buf.length ≤ s.length) (room : 0 < buf.length) :
    ∃ cut : Wide, cut.length = buf.length ∧ askName (some s) (rounds+1) buf =
      if 32768 ≤ buf.length then some none else askName (some s) rounds (cut ++ List.replicate buf.length 0) := by
  have length : (s.take (buf.length-1) ++ [0]).length = buf.length := by
    simp
    omega
  refine ⟨_,length,?_⟩
  simp only [askName,getModuleFileName,if_neg (not_lt.mpr long),length,if_neg room.ne',lt_irrefl,if_false]

-- No round is wasted and none is missing: the last buffer is the one of 32768.
theorem askName_doubling (name : Option Wide) (k : Nat) {rounds : Nat} (enough : k < rounds)
    (top : buf.length*2^k = 32768) : askName name rounds buf = some (askedName name) := by
  induction k generalizing rounds buf with
  | zero =>
    obtain ⟨rounds,rfl⟩ := Nat.exists_eq_add_one.mpr enough
    rw [Nat.pow_zero,Nat.mul_one] at top
    cases name with
    | none => rfl
    | some s =>
      by_cases fits : s.length < buf.length
      · rw [askName_fits rounds fits]
        rw [top] at fits
        simp [askedName,fits]
      · obtain ⟨cut,_,asked⟩ := askName_long rounds (not_lt.mp fits) (by omega)
        rw [asked,if_pos (by omega)]
        rw [top] at fits
        simp [askedName,fits]
  | succ k ih =>
    obtain ⟨rounds,rfl⟩ := Nat.exists_eq_add_one.mpr (Nat.lt_of_le_of_lt (Nat.zero_le _) enough)
    have double : (2*buf.length)*2^k = 32768 := by
      rw [← top,Nat.pow_succ]
      ring
    have small : 2*buf.length ≤ 32768 := double ▸ Nat.le_mul_of_pos_right _ (Nat.two_pow_pos k)
    have room : 0 < buf.length := by
      rw [Nat.pos_iff_ne_zero]
      intro none
      rw [none,Nat.zero_mul] at top
      cases top
    cases name with
    | none => rfl
    | some s =>
      by_cases fits : s.length < buf.length
      · have short : s.length < 32768 := by omega
        rw [askName_fits rounds fits]
        simp [askedName,short]
      · obtain ⟨cut,length,asked⟩ := askName_long rounds (not_lt.mp fits) room
        rw [asked,if_neg (by omega)]
        refine ih (by omega) ?_
        rw [List.length_append,List.length_replicate,length,← Nat.two_mul]
        exact double

theorem windows_path (name : Option Wide) : currentPluginPath (.windows name) =
    (askedName name).elim [] (fun s => forwardSlashes (wideToUtf8 s)) := by
  have asked := askName_doubling name 6 (show 6 < 7 by decide)
    (show (List.replicate 512 (0 : UInt16)).length*2^6 = 32768 by rw [List.length_replicate]; rfl)
  simp only [currentPluginPath,asked]
  cases askedName name <;> rfl

-- A single byte of UTF-8 is the character itself.
theorem encodeCode_ascii {code : Nat} {b : UInt8} (member : b ∈ encodeCode code) (single : b.toNat < 128)
    (plane : code < 0x110000) : code = b.toNat := by
  unfold encodeCode at member
  split_ifs at member <;> simp only [List.mem_cons,List.not_mem_nil,or_false] at member
  · subst member
    simp [byte]
    omega
  · rcases member with rfl | rfl <;> simp [byte] at single <;> omega
  · rcases member with rfl | rfl | rfl <;> simp [byte] at single <;> omega
  · rcases member with rfl | rfl | rfl | rfl <;> simp [byte] at single <;> omega

theorem isHigh_range (high : isHigh c = true) : 0xD800 ≤ c.toNat ∧ c.toNat < 0xDC00 := by
  simp only [isHigh,Bool.and_eq_true,decide_eq_true_eq,UInt16.le_iff_toNat_le,UInt16.lt_iff_toNat_lt] at high
  exact high

theorem isLow_range (low : isLow c = true) : 0xDC00 ≤ c.toNat ∧ c.toNat < 0xE000 := by
  simp only [isLow,Bool.and_eq_true,decide_eq_true_eq,UInt16.le_iff_toNat_le,UInt16.lt_iff_toNat_lt] at low
  exact low

theorem wideToUtf8_ascii {b : UInt8} (member : b ∈ wideToUtf8 s) (single : b.toNat < 128) :
    ∃ c ∈ s, c.toNat = b.toNat := by
  have unit {c : UInt16} (member : b ∈ encodeCode (if isHigh c || isLow c then 0xFFFD else c.toNat)) :
      c.toNat = b.toNat := by
    have small := c.toNat_lt
    split at member
    · have same := encodeCode_ascii member single (by decide)
      omega
    · exact encodeCode_ascii member single (by omega)
  fun_induction wideToUtf8 s with
  | case1 => cases member
  | case2 c => exact ⟨c,List.mem_cons_self,unit member⟩
  | case3 c d rest pair ih =>
    rcases List.mem_append.mp member with front | back
    · rw [Bool.and_eq_true] at pair
      have high := isHigh_range pair.1
      have low := isLow_range pair.2
      have same := encodeCode_ascii front single (by omega)
      omega
    · obtain ⟨e,inside,same⟩ := ih back
      exact ⟨e,List.mem_cons_of_mem _ (List.mem_cons_of_mem _ inside),same⟩
  | case4 c d rest single ih =>
    rcases List.mem_append.mp member with front | back
    · exact ⟨c,List.mem_cons_self,unit front⟩
    · obtain ⟨e,inside,same⟩ := ih back
      exact ⟨e,List.mem_cons_of_mem _ inside,same⟩

-- A character that stands for itself splits the text and its UTF-8 alike.
theorem wideToUtf8_append (plain : c.toNat < 128) :
    wideToUtf8 (d ++ c :: base) = wideToUtf8 d ++ byte c.toNat :: wideToUtf8 base := by
  have high : isHigh c = false := by
    by_contra surrogate
    have range := isHigh_range (by simpa using surrogate)
    omega
  have low : isLow c = false := by
    by_contra surrogate
    have range := isLow_range (by simpa using surrogate)
    omega
  have single : wideToUtf8 (c :: base) = byte c.toNat :: wideToUtf8 base := by
    cases base <;> simp [wideToUtf8,high,low,encodeCode,plain]
  fun_induction wideToUtf8 d with
  | case1 => simpa using single
  | case2 e => simp [wideToUtf8,low,single]
  | case3 e f rest pair ih =>
    simp only [List.cons_append,wideToUtf8,pair,if_true,ih,List.append_assoc]
  | case4 e f rest apart ih =>
    simp only [List.cons_append] at ih
    simp only [List.cons_append,wideToUtf8,apart,ih]
    simp

theorem dirOf_split (separated : s.any isSeparator = true) : ∃ d c base, isSeparator c = true ∧
    s = d ++ c :: base ∧ dirOf s = d ++ [c] ∧ ∀ e ∈ base, isSeparator e = false := by
  rw [dirOf,if_pos separated]
  induction s using List.reverseRecOn with
  | nil => simp at separated
  | append_singleton s c ih =>
    cases separator : isSeparator c with
    | true =>
      rw [List.rdropWhile_concat_neg _ _ _ (by simp [separator])]
      exact ⟨s,c,[],separator,rfl,rfl,by simp⟩
    | false =>
      rw [List.rdropWhile_concat_pos _ _ _ (by simp [separator])]
      rw [List.any_append,List.any_cons,separator,List.any_nil,Bool.or_false,Bool.or_false] at separated
      obtain ⟨d,e,base,is,whole,dir,none⟩ := ih separated
      refine ⟨d,e,base ++ [c],is,by rw [whole]; simp,dir,fun f member => ?_⟩
      rcases List.mem_append.mp member with early | last
      · exact none f early
      · exact List.mem_singleton.mp last ▸ separator

theorem separator_units (separator : isSeparator c = true) : c.toNat = 92 ∨ c.toNat = 47 := by
  simp only [isSeparator,Bool.or_eq_true,decide_eq_true_eq] at separator
  rcases separator with rfl | rfl
  · exact .inl rfl
  · exact .inr rfl

theorem forwardSlashes_separator (separator : isSeparator c = true) (front back : Bytes) :
    forwardSlashes (front ++ byte c.toNat :: back) = forwardSlashes front ++ slash :: forwardSlashes back := by
  have turned : (if byte c.toNat = SmartFill.backslash then slash else byte c.toNat) = slash := by
    rcases separator_units separator with is | is <;> rw [is] <;> rfl
  simp only [forwardSlashes,List.map_append,List.map_cons,turned]

theorem base_unslashed (none : ∀ e ∈ base, isSeparator e = false) : slash ∉ forwardSlashes (wideToUtf8 base) := by
  intro member
  obtain ⟨b,inside,is⟩ := List.mem_map.mp member
  have unit : b.toNat = 92 ∨ b.toNat = 47 := by
    split at is
    · rename_i back
      rw [back]
      exact .inl rfl
    · rw [is]
      exact .inr rfl
  obtain ⟨e,member,same⟩ := wideToUtf8_ascii inside (by omega)
  have separator : isSeparator e = true := by
    rw [← same] at unit
    simp only [isSeparator,Bool.or_eq_true,decide_eq_true_eq]
    exact unit.imp UInt16.toNat_inj.mp UInt16.toNat_inj.mp
  rw [none e member] at separator
  cases separator

end Names

-- The plugin and its bootstrap find the same directory: the one looks for the
-- last slash of the UTF-8 path, the other for the last separator of the wide one.
theorem plugin_dirs_agree {s : Wide} (separated : s.any isSeparator = true) (short : s.length < 32768) :
    (∃ base, currentPluginPath (.windows (some s)) = currentPluginDir (.windows (some s)) ++ slash :: base ∧ slash ∉ base) ∧
    SmartFill.backslash ∉ currentPluginDir (.windows (some s)) ∧
    ((dirOf s).length ≤ 1024 → forwardSlashes (wideToUtf8 (dllOf s)) =
      currentPluginDir (.windows (some s)) ++ ascii "/onnxruntime.dll") := by
  obtain ⟨d,c,base,separator,whole,dir,none⟩ := dirOf_split separated
  have plain : c.toNat < 128 := by
    rcases separator_units separator with is | is <;> omega
  have asked : askedName (some s) = some s := by
    have named : s ≠ [] := by simp [whole]
    simp [askedName,named,short]
  have path : currentPluginPath (.windows (some s)) =
      forwardSlashes (wideToUtf8 d) ++ slash :: forwardSlashes (wideToUtf8 base) := by
    rw [windows_path,asked,Option.elim_some,whole,wideToUtf8_append plain,forwardSlashes_separator separator]
  have found : currentPluginDir (.windows (some s)) = forwardSlashes (wideToUtf8 d) := by
    rw [currentPluginDir,trimToDir,path,AiCache.splitLast_at (base_unslashed none)]
  refine ⟨⟨_,path.trans (by rw [found]),base_unslashed none⟩,?_,fun fits => ?_⟩
  · rw [found]
    exact AiCache.backslash_gone _
  · have dll : dllOf s = d ++ c :: dllName := by
      rw [dllOf,List.take_of_length_le fits,dir,List.append_assoc,List.singleton_append]
    rw [dll,found,wideToUtf8_append plain,forwardSlashes_separator separator]
    rfl

theorem plugin_dirs_agree_installed :
    currentPluginDir (.windows (some (wide "C:\\p\\AISmartFill.dll"))) ++ ascii "/onnxruntime.dll" =
      ascii "C:/p/onnxruntime.dll" := by
  have agree := plugin_dirs_agree (show (wide "C:\\p\\AISmartFill.dll").any isSeparator = true by decide) (by decide)
  exact (agree.2.2 (by decide)).symm.trans (by decide)

-- The value of the environment the default directory starts with.
def baseOf (env : Bytes → Option Bytes) : Platform → Bytes
  | .windows =>
    if envOrEmpty env (ascii "APPDATA") ≠ [] then envOrEmpty env (ascii "APPDATA")
    else envOrEmpty env (ascii "USERPROFILE")
  | .apple => envOrEmpty env (ascii "HOME")
  | .other =>
    if envOrEmpty env (ascii "XDG_CACHE_HOME") ≠ [] then envOrEmpty env (ascii "XDG_CACHE_HOME")
    else envOrEmpty env (ascii "HOME")

section Defaults
variable {s tail : Bytes} {c : UInt8}

theorem normalizePath_solid (solid : AISmartFill.isTrailing c = false) :
    AISmartFill.normalizePath (s ++ [c]) = forwardSlashes (s ++ [c]) := by
  simp [AISmartFill.normalizePath,solid]

theorem forwardSlashes_same_iff : forwardSlashes s = s ↔ SmartFill.backslash ∉ s := by
  constructor
  · intro same
    rw [← same]
    exact AiCache.backslash_gone s
  · exact AiCache.forwardSlashes_none

-- No default ends in what the normalization strips.
theorem default_ends (env : Bytes → Option Bytes) (platform : Platform) : defaultCacheDir env platform = [] ∨
    ∃ s c, defaultCacheDir env platform = s ++ [c] ∧ AISmartFill.isTrailing c = false := by
  have ended (base last : Bytes) (c : UInt8) (solid : AISmartFill.isTrailing c = false) :
      ∃ s c', base ++ (last ++ [c]) = s ++ [c'] ∧ AISmartFill.isTrailing c' = false :=
    ⟨base ++ last,c,by simp,solid⟩
  cases platform with
  | windows =>
    have turned (base : Bytes) : forwardSlashes (base ++ ascii "\\nuke-ai-fill\\cache") =
        forwardSlashes base ++ (ascii "/nuke-ai-fill/cach" ++ [101]) := by
      rw [forwardSlashes,List.map_append]
      rfl
    unfold defaultCacheDir
    dsimp only
    split
    · rw [turned]
      exact .inr (ended _ _ 101 rfl)
    · split
      · exact .inl rfl
      · rw [turned]
        exact .inr (ended _ _ 101 rfl)
  | apple =>
    unfold defaultCacheDir
    dsimp only
    split
    · exact .inl rfl
    · exact .inr (ended _ (ascii "/Library/Caches/nuke-ai-fil") 108 rfl)
  | other =>
    unfold defaultCacheDir
    dsimp only
    split
    · exact .inr (ended _ (ascii "/nuke-ai-fil") 108 rfl)
    · split
      · exact .inl rfl
      · exact .inr (ended _ (ascii "/nuke-ai-fil") 108 rfl)

theorem default_backslash (env : Bytes → Option Bytes) (platform : Platform) :
    SmartFill.backslash ∉ defaultCacheDir env platform ↔
      platform = .windows ∨ SmartFill.backslash ∉ baseOf env platform := by
  have outside (base last : Bytes) (plain : SmartFill.backslash ∉ last) :
      SmartFill.backslash ∉ base ++ last ↔ SmartFill.backslash ∉ base := by
    simp [plain]
  cases platform with
  | windows =>
    simp only [true_or,iff_true]
    unfold defaultCacheDir
    dsimp only
    split
    · exact AiCache.backslash_gone _
    · split
      · simp
      · exact AiCache.backslash_gone _
  | apple =>
    simp only [reduceCtorEq,false_or]
    unfold defaultCacheDir baseOf
    dsimp only
    split
    · rename_i none
      rw [none]
    · exact outside _ _ (by decide)
  | other =>
    simp only [reduceCtorEq,false_or]
    unfold defaultCacheDir baseOf
    dsimp only
    split
    · exact outside _ _ (by decide)
    · split
      · rename_i none
        rw [none]
      · rw [outside _ _ (by decide),outside _ _ (by decide)]

end Defaults

-- The two Ops keep their results in one directory by default, unless a
-- directory from the environment has a backslash in its name and the default
-- leaves it: then only AISmartFill turns it.
theorem defaults_shared {fill : AISmartFill.Host} {generate : AIGenerate.Host} (env : Bytes → Option Bytes)
    (platform : Platform) (filling : fill.defaultCacheDir = defaultCacheDir env platform)
    (generating : generate.defaultCacheDir = defaultCacheDir env platform) (disk : Files) {k : AISmartFill.Knobs}
    {k' : AIGenerate.Knobs} (unset : k.cacheDir = []) (unset' : k'.cacheDir = []) :
    AISmartFill.normalizePath (AISmartFill.resolveDefaultPaths fill k).cacheDir =
      (AIGenerate.computeEffectivePaths generate disk k').cacheDir ↔
        platform = .windows ∨ SmartFill.backslash ∉ baseOf env platform := by
  have resolved : (AISmartFill.resolveDefaultPaths fill k).cacheDir = defaultCacheDir env platform := by
    simp only [AISmartFill.resolveDefaultPaths,unset,if_true,filling]
    split <;> rfl
  have effective : (AIGenerate.computeEffectivePaths generate disk k').cacheDir = defaultCacheDir env platform := by
    simp only [AIGenerate.computeEffectivePaths,AIGenerate.pick,unset',if_true,generating]
  have normal : AISmartFill.normalizePath (defaultCacheDir env platform) = forwardSlashes (defaultCacheDir env platform) := by
    rcases default_ends env platform with none | ⟨s,c,ends,solid⟩
    · rw [none]
      rfl
    · rw [ends]
      exact normalizePath_solid solid
  rw [resolved,effective,normal,forwardSlashes_same_iff,default_backslash]

def homeOnly (name : Bytes) : Option Bytes := if name = ascii "HOME" then some (ascii "/home/a") else none

theorem defaults_shared_home : ∃ env : Bytes → Option Bytes,
    AISmartFill.normalizePath (AISmartFill.resolveDefaultPaths
      {AISmartFill.blackHost with defaultCacheDir := defaultCacheDir env .other} AISmartFill.fresh.knobs).cacheDir =
    (AIGenerate.computeEffectivePaths {AIGenerate.sdHost with defaultCacheDir := defaultCacheDir env .other}
      ⟨∅,[]⟩ AIGenerate.fresh.knobs).cacheDir :=
  ⟨homeOnly,(defaults_shared homeOnly .other rfl rfl _ rfl rfl).mpr (.inr (by decide))⟩

end SmartFill.PluginPath
