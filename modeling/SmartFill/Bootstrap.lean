import Mathlib.Data.List.DropRight
import Mathlib.Tactic.IntervalCases
import SmartFill.Lib.CBuffer
import SmartFill.Types

-- dll_bootstrap.cpp: what runs before the C++ runtime is there.
namespace SmartFill.Bootstrap
open CBuffer

abbrev Wide := List UInt16

def wide (text : String) : Wide := text.toList.map (fun c => UInt16.ofNat c.toNat)

def backslash : UInt16 := 92

def isSeparator (c : UInt16) : Bool := c = backslash || c = 47

section Utf8

def byte (n : Nat) : UInt8 := UInt8.ofNat n

def encodeCode (code : Nat) : Bytes :=
  if code < 0x80 then [byte code] else
  if code < 0x800 then [byte (0xC0+code/64),byte (0x80+code%64)] else
  if code < 0x10000 then [byte (0xE0+code/4096),byte (0x80+code/64%64),byte (0x80+code%64)] else
  [byte (0xF0+code/262144),byte (0x80+code/4096%64),byte (0x80+code/64%64),byte (0x80+code%64)]

def isHigh (c : UInt16) : Bool := 0xD800 ≤ c && c < 0xDC00
def isLow (c : UInt16) : Bool := 0xDC00 ≤ c && c < 0xE000

-- Half a surrogate pair becomes U+FFFD.
def wideToUtf8 : Wide → Bytes
  | [] => []
  | [c] => encodeCode (if isHigh c || isLow c then 0xFFFD else c.toNat)
  | c :: d :: rest =>
    if isHigh c && isLow d then
      encodeCode (0x10000 + (c.toNat-0xD800)*1024 + (d.toNat-0xDC00)) ++ wideToUtf8 rest
    else encodeCode (if isHigh c || isLow c then 0xFFFD else c.toNat) ++ wideToUtf8 (d :: rest)

end Utf8

-- What the system has to say, with what GetLastError gives after each failure.
structure Windows where
  temp : Option Wide
  found : Bool
  handleError : UInt32
  name : Option Wide
  nameError : UInt32
  present : Wide → Bool
  attributeError : UInt32
  load : Wide → Except UInt32 (Option Wide)

-- The buffers as they come: uninitialised ones, and what is left in one after a
-- system call that found it too small.
structure Stack where
  tempLeft : Wide
  logPath : Wide
  path : Wide
  dllPath : Wide
  loadedPath : Wide
  utf8 : Nat → Bytes
  num : Bytes

structure Stack.Sized (stack : Stack) : Prop where
  tempLeft : stack.tempLeft.length = 260
  logPath : stack.logPath.length = 520
  path : stack.path.length = 1040
  dllPath : stack.dllPath.length = 1040
  loadedPath : stack.loadedPath.length = 1040
  utf8 : ∀ i, (stack.utf8 i).length = 1024
  num : stack.num.length = 16

def filled (s buf : Wide) : Wide := s ++ 0 :: buf.drop (s.length+1)

def getEnvironmentVariable (value : Option Wide) (buf left : Wide) : Nat × Wide :=
  match value with
  | none => (0,buf)
  | some s => if s.length < buf.length then (s.length,filled s buf) else (s.length+1,left)

-- A name that is too long is cut, and the size of the buffer returned.
def getModuleFileName (name : Option Wide) (buf : Wide) : Nat × Wide :=
  match name with
  | none => (0,buf)
  | some s => if s.length < buf.length then (s.length,filled s buf) else (buf.length,s.take (buf.length-1) ++ [0])

section OpenLog

def writeAll (buf : Wide) (i : Nat) : Wide → Option Wide
  | [] => some buf
  | c :: rest => (write buf i c).bind (fun buf => writeAll buf (i+1) rest)

def withBackslash (log : Wide) (i : Nat) : Option (Wide × Nat) :=
  if i = 0 then some (log,i) else
  match log[i-1]? with
  | none => none
  | some c => if c = backslash then some (log,i) else (write log i backslash).map (·,i+1)

def logName : Wide := wide "nuke-ai-fill-bootstrap.log"

def root : Wide := wide "C:\\"

def tempDir (value : Option Wide) (buf left : Wide) : Option Wide :=
  let (n,tmp) := getEnvironmentVariable value buf left
  if n = 0 ∨ tmp.length ≤ n then writeAll tmp 0 (root ++ [0]) else some tmp

-- The path CreateFileW is called with, if it is called.
def openLog (win : Windows) (stack : Stack) : Option (Option Wide) :=
  (tempDir win.temp (List.replicate 260 0) stack.tempLeft).bind fun tmp =>
  (copy true tmp stack.logPath (stack.logPath.length-64) 0).bind fun (log,i) =>
  (withBackslash log i).bind fun (log,i) =>
  (append (stack.logPath.length-1) log i logName).bind fun
    | none => some none
    | some (log,i) => (write log i 0).bind (fun log => (text log).map some)

end OpenLog

section Log

def line (s : Bytes) : Bytes := s ++ [13,10]

-- The last digit first, as long as there is room.
def lastDigits : Nat → Nat → Bytes
  | 0,_ => []
  | room+1,value => if value = 0 then [] else byte (48 + value%10) :: lastDigits room (value/10)

def formatDecimal (value : UInt32) (buf : Bytes) : Option (Bytes × Nat) :=
  if buf.length < 2 then some (buf,0) else
  let tmp := if value = 0 then [48] else lastDigits 15 value.toNat
  (append (buf.length-1) buf 0 (tmp.reverse.take (buf.length-1))).bind fun
    | none => none
    | some (buf,out) => (write buf out 0).map (·,out)

def logDecimal (label : Bytes) (value : UInt32) (num : Bytes) : Option Bytes :=
  (formatDecimal value num).bind fun (num,_) =>
  (text num).map fun digits => line (label ++ ascii ": " ++ digits)

-- WideCharToMultiByte gives up on a buffer that is too small.
def wideToUtf8Buffer (w : Wide) (out : Bytes) : Bytes :=
  if (wideToUtf8 w).length < out.length then wideToUtf8 w ++ 0 :: out.drop ((wideToUtf8 w).length+1) else out

def logWide (label : Bytes) (w : Wide) (utf8 : Bytes) : Option Bytes :=
  (text w).bind fun name =>
  (text (wideToUtf8Buffer name utf8)).map fun s => line (label ++ ascii ": " ++ s)

end Log

section Preload

-- for (i = n; i > 0; --i) if (path[i-1] is a separator) { path[i] = 0; break; }
def stripName (path : Wide) : Nat → Option Wide
  | 0 => some path
  | i+1 =>
    match path[i]? with
    | none => none
    | some c => if isSeparator c then write path (i+1) 0 else stripName path i

def dllName : Wide := wide "onnxruntime.dll"

def buildDllPath (path dllPath : Wide) : Option (Option Wide) :=
  (copy false path dllPath (dllPath.length-16) 0).bind fun (dll,i) =>
  (append (dllPath.length-1) dll i dllName).bind fun
    | none => some none
    | some (dll,i) => (write dll i 0).map some

structure Outcome where
  log : Bytes
  tried : Option Wide
  ok : Bool

def afterLog (log : Bytes) (tried : Option Wide) (ok : Bool) (last : Option Bytes) : Option Outcome :=
  last.map fun s => ⟨log ++ s,tried,ok⟩

def loadFailure (err : UInt32) : Bytes :=
  if err = 126 then line (ascii "ERROR_MOD_NOT_FOUND - missing dependency for onnxruntime.dll") ++
    line (ascii "Run dumpbin /dependents on the dll to find which DLL is missing") else
  if err = 193 then line (ascii "ERROR_BAD_EXE_FORMAT - wrong architecture (32/64-bit mismatch?)") else
  if err = 1114 then line (ascii "ERROR_DLL_INIT_FAILED - the DLL's DllMain returned false") else []

def loadDll (win : Windows) (stack : Stack) (log : Bytes) (dll : Wide) : Option Outcome :=
  let log := log ++ line (ascii "file exists, calling LoadLibraryExW")
  match win.load dll with
  | .error err =>
    afterLog log (some dll) false ((logDecimal (ascii "LoadLibraryExW FAILED, GetLastError") err stack.num).map
      (· ++ loadFailure err))
  | .ok name =>
    let (n,loaded) := getModuleFileName name stack.loadedPath
    if 0 < n ∧ n < loaded.length then
      afterLog log (some dll) true (logWide (ascii "LoadLibraryExW succeeded; loaded module path") loaded (stack.utf8 2))
    else some ⟨log ++ line (ascii "LoadLibraryExW succeeded but could not query loaded path"),some dll,true⟩

def tryDll (win : Windows) (stack : Stack) (log : Bytes) (dllPath : Wide) : Option Outcome :=
  (logWide (ascii "attempting to load") dllPath (stack.utf8 1)).bind fun s =>
  (text dllPath).bind fun dll =>
  if !win.present dll then
    afterLog (log ++ s) none false (logDecimal (ascii "file does not exist, GetLastError") win.attributeError stack.num)
  else loadDll win stack (log ++ s) dll

def preloadFrom (win : Windows) (stack : Stack) (log : Bytes) (n : Nat) (path : Wide) : Option Outcome :=
  (logWide (ascii "plugin DLL path") path (stack.utf8 0)).bind fun s =>
  (stripName path n).bind fun path =>
  (buildDllPath path stack.dllPath).bind fun
    | none => some ⟨log ++ s ++ line (ascii "dll_path buffer overflow"),none,false⟩
    | some dllPath => tryDll win stack (log ++ s) dllPath

def preloadAdjacentOnnxruntime (win : Windows) (stack : Stack) : Option Outcome :=
  let log := line (ascii "preload_adjacent_onnxruntime: starting")
  if !win.found then
    afterLog log none false (logDecimal (ascii "GetModuleHandleExW failed, GetLastError") win.handleError stack.num)
  else
    let (n,path) := getModuleFileName win.name stack.path
    if n = 0 ∨ path.length ≤ n then
      afterLog log none false (logDecimal (ascii "GetModuleFileNameW failed, GetLastError") win.nameError stack.num)
    else preloadFrom win stack log n path

end Preload

section Buffers
variable {s buf tail front : Wide} {n : Nat}

theorem filled_length (fits : s.length < buf.length) : (filled s buf).length = buf.length := by
  simp [filled]
  omega

theorem writeAll_fits (fits : s.length ≤ tail.length) :
    writeAll (front ++ tail) front.length s = some (front ++ s ++ tail.drop s.length) := by
  induction s generalizing front tail with
  | nil => simp [writeAll]
  | cons c rest ih =>
    cases tail with
    | nil => simp at fits
    | cons old tail =>
      have more := @ih tail (front ++ [c]) (Nat.le_of_succ_le_succ fits)
      simp only [List.length_append,List.length_singleton,List.append_assoc,List.singleton_append] at more
      simp only [writeAll,write_inside,Option.bind_some,more]
      simp

-- The directory of the log: TEMP if it is set and fits, else the root of C.
def logDir (temp : Option Wide) : Wide :=
  match temp with
  | none => root
  | some s => if s = [] ∨ 260 ≤ s.length then root else s

def slashed (dir : Wide) : Wide := if dir.getLast? = some backslash then dir else dir ++ [backslash]

theorem root_written (sized : buf.length = 260) : ∃ rest, writeAll buf 0 (root ++ [0]) = some (root ++ 0 :: rest) := by
  have written := @writeAll_fits (root ++ [0]) buf [] (by rw [sized]; decide)
  refine ⟨buf.drop 4,?_⟩
  simpa [root,wide] using written

theorem tempDir_starts (temp : Option Wide) {left : Wide} (sized : buf.length = 260) (sized_left : left.length = 260) :
    ∃ rest, tempDir temp buf left = some (logDir temp ++ 0 :: rest) := by
  cases temp with
  | none => exact root_written sized
  | some s =>
    by_cases fits : s.length < buf.length
    · have length := filled_length fits
      rw [sized] at length
      simp only [tempDir,getEnvironmentVariable,logDir,if_pos fits]
      rw [sized] at fits
      by_cases empty : s = []
      · subst empty
        simp only [List.length_nil,true_or,if_true]
        exact root_written length
      · have inside : ¬ (s = [] ∨ 260 ≤ s.length) := not_or.mpr ⟨empty,not_le.mpr fits⟩
        have named : ¬ (s.length = 0 ∨ (filled s buf).length ≤ s.length) := by
          rw [length,List.length_eq_zero_iff]
          exact inside
        simp only [if_neg named,if_neg inside]
        exact ⟨_,rfl⟩
    · simp only [tempDir,getEnvironmentVariable,logDir,if_neg fits]
      rw [sized] at fits
      have long : 260 ≤ s.length := not_lt.mp fits
      have outside : s.length+1 = 0 ∨ left.length ≤ s.length+1 := by
        omega
      simp only [if_pos outside,if_pos (Or.inr long : s = [] ∨ 260 ≤ s.length)]
      exact root_written sized_left

theorem logDir_bounds (temp : Option Wide) : logDir temp ≠ [] ∧ (logDir temp).length < 260 := by
  unfold logDir
  cases temp with
  | none => exact ⟨by decide,by decide⟩
  | some s =>
    dsimp only
    split
    · exact ⟨by decide,by decide⟩
    · rename_i within
      rw [not_or] at within
      exact ⟨within.1,not_le.mp within.2⟩

theorem logDir_solid {temp : Option Wide} (solid : ∀ s, temp = some s → 0 ∉ s) : 0 ∉ logDir temp := by
  cases temp with
  | none => decide
  | some s =>
    unfold logDir
    dsimp only
    split
    · decide
    · exact solid s rfl

theorem withBackslash_slashed (named : s ≠ []) (room : tail ≠ []) : ∃ rest,
    (slashed s).length + rest.length = s.length + tail.length ∧
      withBackslash (s ++ tail) s.length = some (slashed s ++ rest,(slashed s).length) := by
  have length := List.length_pos_of_ne_nil named
  have last : (s ++ tail)[s.length-1]? = s.getLast? := by
    rw [List.getElem?_append_left (by omega),← List.getLast?_eq_getElem?]
  obtain ⟨c,ends⟩ := Option.isSome_iff_exists.mp (List.getLast?_isSome.mpr named)
  unfold withBackslash
  simp only [if_neg length.ne',last,ends]
  by_cases slash : c = backslash
  · have same : slashed s = s := by
      rw [slashed,ends,if_pos (congrArg some slash)]
    refine ⟨tail,by rw [same],?_⟩
    rw [if_pos slash,same]
  · cases tail with
    | nil => exact absurd rfl room
    | cons old tail =>
      have same : slashed s = s ++ [backslash] := by
        rw [slashed,ends,if_neg (by simpa using slash)]
      refine ⟨tail,by simp [same]; omega,?_⟩
      simp [write_inside,same,slash]

theorem slashed_solid (solid : 0 ∉ s) : 0 ∉ slashed s := by
  unfold slashed
  split
  · exact solid
  · simp [solid,backslash]

theorem slashed_length : (slashed s).length ≤ s.length + 1 := by
  unfold slashed
  split <;> simp

end Buffers

-- Whatever TEMP is, the log opens under its full name and no buffer is left.
theorem openLog_path {win : Windows} {stack : Stack} (sized : stack.Sized) (solid : ∀ s, win.temp = some s → 0 ∉ s) :
    openLog win stack = some (some (slashed (logDir win.temp) ++ logName)) := by
  obtain ⟨rest,started⟩ := @tempDir_starts (List.replicate 260 0) win.temp _ List.length_replicate sized.tempLeft
  obtain ⟨named,short⟩ := logDir_bounds win.temp
  have solid := logDir_solid solid
  have buffer := sized.logPath
  have whole : (logDir win.temp).take 456 = logDir win.temp := List.take_of_length_le (by omega)
  have copied : copy true (logDir win.temp ++ 0 :: rest) stack.logPath (stack.logPath.length-64) 0 =
      some (logDir win.temp ++ stack.logPath.drop (logDir win.temp).length,(logDir win.temp).length) := by
    rw [copy_text solid (by omega),buffer,whole]
  have room : (stack.logPath.drop (logDir win.temp).length).length = 520 - (logDir win.temp).length := by
    rw [List.length_drop,buffer]
  obtain ⟨left,total,slashes⟩ := @withBackslash_slashed (logDir win.temp) (stack.logPath.drop (logDir win.temp).length)
    named (List.ne_nil_of_length_pos (by omega))
  have longer := @slashed_length (logDir win.temp)
  rw [room] at total
  have name : logName.length = 26 := by decide
  have appended := @append_fits UInt16 _ logName (slashed (logDir win.temp)) left (stack.logPath.length-1) (by omega)
    (by rw [List.length_append]; omega)
  obtain ⟨old,later,more⟩ := List.exists_cons_of_length_pos (show 0 < (left.drop logName.length).length by
    rw [List.length_drop]; omega)
  have ended : text (slashed (logDir win.temp) ++ logName ++ 0 :: later) = some (slashed (logDir win.temp) ++ logName) :=
    text_ends (by simp [slashed_solid solid]; decide)
  rw [more] at appended
  have written := @write_inside UInt16 (slashed (logDir win.temp) ++ logName) later 0 old
  rw [List.length_append] at written
  simp only [openLog,started,copied,slashes,appended,written,ended,Option.bind_some,Option.map_some]

section Decimal

theorem byte_solid {n : Nat} (positive : 0 < n) (small : n < 256) : byte n ≠ 0 := by
  intro zero
  have same := congrArg UInt8.toNat zero
  simp [byte,UInt8.toNat_ofNat'] at same
  omega

theorem digit_byte {d : Nat} (small : d < 10) : byte (48+d) = (Nat.digitChar d).toNat.toUInt8 := by
  interval_cases d <;> rfl

theorem lastDigits_length (room value : Nat) : (lastDigits room value).length ≤ room := by
  induction room generalizing value with
  | zero => exact Nat.le_refl 0
  | succ room ih =>
    unfold lastDigits
    split
    · exact Nat.zero_le _
    · exact Nat.succ_le_succ (ih _)

theorem lastDigits_solid (room value : Nat) : 0 ∉ lastDigits room value := by
  induction room generalizing value with
  | zero => simp [lastDigits]
  | succ room ih =>
    unfold lastDigits
    split
    · simp
    · have last := Nat.mod_lt value (show 0 < 10 by decide)
      simp [ih,Ne.symm (byte_solid (show 0 < 48 + value%10 by omega) (by omega))]

theorem lastDigits_decimal {room value : Nat} (positive : 0 < value) (small : value < 10^room) :
    (lastDigits room value).reverse = decimal value := by
  induction room generalizing value with
  | zero => omega
  | succ room ih =>
    have last := Nat.mod_lt value (show 0 < 10 by decide)
    simp only [decimal] at ih ⊢
    rw [lastDigits,if_neg positive.ne',List.reverse_cons,digit_byte last,Nat.toDigits_eq_if (by decide)]
    by_cases single : value < 10
    · have done : lastDigits room (value/10) = [] := by
        rw [Nat.div_eq_of_lt single]
        cases room <;> simp [lastDigits]
      simp [done,single,Nat.mod_eq_of_lt single]
    · rw [if_neg single,ih (by omega) (by rw [Nat.pow_succ] at small; omega)]
      simp

-- Any DWORD is logged in full.
theorem logDecimal_decimal (label : Bytes) (value : UInt32) {num : Bytes} (sized : num.length = 16) :
    logDecimal label value num = some (line (label ++ ascii ": " ++ decimal value.toNat)) := by
  obtain ⟨digits,is,solid,short,same⟩ : ∃ digits : Bytes, (if value = 0 then [48] else lastDigits 15 value.toNat).reverse =
      digits ∧ 0 ∉ digits ∧ digits.length ≤ 15 ∧ digits = decimal value.toNat := by
    by_cases zero : value = 0
    · subst zero
      exact ⟨[48],rfl,by decide,by decide,by decide⟩
    · have positive : 0 < value.toNat := by
        rw [Nat.pos_iff_ne_zero]
        exact fun none => zero (UInt32.toNat_inj.mp none)
      have bound := value.toNat_lt
      refine ⟨_,rfl,?_,?_,?_⟩
      · simpa [zero] using lastDigits_solid 15 value.toNat
      · simpa [zero] using lastDigits_length 15 value.toNat
      · rw [if_neg zero]
        exact lastDigits_decimal positive (by omega)
  have appended := @append_fits UInt8 _ digits [] num 15 (by simpa using short) (by simp [sized])
  obtain ⟨old,later,more⟩ := List.exists_cons_of_length_pos (show 0 < (num.drop digits.length).length by
    rw [List.length_drop]; omega)
  rw [more] at appended
  have written := @write_inside UInt8 digits later 0 old
  have whole : digits.take 15 = digits := List.take_of_length_le short
  simp only [List.nil_append,List.length_nil,Nat.zero_add] at appended
  rw [← same]
  simp only [logDecimal,formatDecimal,sized,Nat.reduceLT,if_false,Nat.reduceSub,is,whole,appended,written,
    Option.bind_some,Option.map_some,text_ends solid]

end Decimal

section Paths
variable {s rest : Wide}

theorem encodeCode_length (code : Nat) : (encodeCode code).length ≤ 4 ∧ (code < 0x10000 → (encodeCode code).length ≤ 3) := by
  unfold encodeCode
  split_ifs <;> simp_all

theorem wideToUtf8_length (s : Wide) : (wideToUtf8 s).length ≤ 3*s.length := by
  fun_induction wideToUtf8 s with
  | case1 => simp
  | case2 c =>
    have small := c.toNat_lt
    refine (encodeCode_length _).2 ?_
    split <;> omega
  | case3 c d rest pair ih =>
    have most := (encodeCode_length (0x10000 + (c.toNat-0xD800)*1024 + (d.toNat-0xDC00))).1
    simp only [List.length_append,List.length_cons]
    omega
  | case4 c d rest single ih =>
    have small := c.toNat_lt
    have most : (encodeCode (if isHigh c || isLow c then 0xFFFD else c.toNat)).length ≤ 3 := by
      refine (encodeCode_length _).2 ?_
      split <;> omega
    simp only [List.length_append,List.length_cons] at ih ⊢
    omega

-- Up to the last separator; a name without one stays as it is.
def dirOf (s : Wide) : Wide := if s.any isSeparator then s.rdropWhile (fun c => !isSeparator c) else s

def dllOf (s : Wide) : Wide := (dirOf s).take 1024 ++ dllName

theorem stripName_parts (s : Wide) (old : UInt16) (tail : Wide) : if s.any isSeparator then
      ∃ rest, stripName (s ++ old :: tail) s.length = some (s.rdropWhile (fun c => !isSeparator c) ++ 0 :: rest)
    else stripName (s ++ old :: tail) s.length = some (s ++ old :: tail) := by
  induction s using List.reverseRecOn generalizing old tail with
  | nil => simp [stripName]
  | append_singleton s c ih =>
    have here : (s ++ c :: old :: tail)[s.length]? = some c := by simp
    have earlier := ih c (old :: tail)
    simp only [List.any_append,List.any_cons,List.any_nil,Bool.or_false,List.append_assoc,List.singleton_append,
      List.length_append,List.length_singleton,stripName,here]
    cases separator : isSeparator c with
    | true =>
      have written := @write_inside UInt16 (s ++ [c]) tail 0 old
      simp only [List.append_assoc,List.singleton_append,List.length_append,List.length_singleton] at written
      simp only [Bool.or_true,if_true,written]
      refine ⟨tail,?_⟩
      rw [List.rdropWhile_concat_neg _ _ _ (by simp [separator])]
      simp
    | false =>
      simp only [Bool.or_false,Bool.false_eq_true,if_false]
      rw [List.rdropWhile_concat_pos _ _ _ (by simp [separator])]
      exact earlier

theorem stripName_dir (s rest : Wide) : ∃ rest', stripName (s ++ 0 :: rest) s.length = some (dirOf s ++ 0 :: rest') := by
  have parts := stripName_parts s 0 rest
  unfold dirOf
  split
  · rename_i some_separator
    rwa [if_pos some_separator] at parts
  · rename_i no_separator
    rw [if_neg no_separator] at parts
    exact ⟨rest,parts⟩

theorem dirOf_subset : dirOf s ⊆ s := by
  unfold dirOf
  split
  · exact (List.rdropWhile_prefix _ s).subset
  · exact List.Subset.refl s

theorem buildDllPath_text {dllPath : Wide} (solid : 0 ∉ s) (sized : dllPath.length = 1040) :
    ∃ rest', buildDllPath (s ++ 0 :: rest) dllPath = some (some (s.take 1024 ++ dllName ++ 0 :: rest')) := by
  have short : (s.take 1024).length ≤ 1024 := List.length_take_le 1024 s
  have name : dllName.length = 15 := by decide
  have copied : copy false (s ++ 0 :: rest) dllPath (dllPath.length-16) 0 =
      some (s.take 1024 ++ dllPath.drop (s.take 1024).length,(s.take 1024).length) := by
    rw [copy_text solid (by omega),sized]
  have left : (dllPath.drop (s.take 1024).length).length = 1040 - (s.take 1024).length := by
    rw [List.length_drop,sized]
  have appended := @append_fits UInt16 _ dllName (s.take 1024) (dllPath.drop (s.take 1024).length) (dllPath.length-1)
    (by omega) (by rw [List.length_append]; omega)
  obtain ⟨old,later,more⟩ := List.exists_cons_of_length_pos
    (show 0 < ((dllPath.drop (s.take 1024).length).drop dllName.length).length by rw [List.length_drop]; omega)
  rw [more] at appended
  have written := @write_inside UInt16 (s.take 1024 ++ dllName) later 0 old
  rw [List.length_append] at written
  refine ⟨later,?_⟩
  simp only [buildDllPath,copied,appended,written,Option.bind_some,Option.map_some]

theorem dllOf_solid (solid : 0 ∉ s) : 0 ∉ dllOf s := by
  have outside : 0 ∉ dirOf s := fun member => solid (dirOf_subset member)
  have cut : 0 ∉ (dirOf s).take 1024 := fun member => outside (List.mem_of_mem_take member)
  simp only [dllOf,List.mem_append,not_or]
  exact ⟨cut,by decide⟩

end Paths

section Preloading
variable {win : Windows} {stack : Stack} {s rest : Wide}

-- The text a log line reads out of its buffer.
def readLog (w : Wide) (utf8 : Bytes) : Option Bytes := text (wideToUtf8Buffer w utf8)

theorem readLog_isSome (w : Wide) (utf8 : Bytes) :
    (readLog w utf8).isSome ↔ (wideToUtf8 w).length < utf8.length ∨ 0 ∈ utf8 := by
  rw [readLog,text_isSome,wideToUtf8Buffer]
  split <;> simp_all

theorem logWide_text (label : Bytes) (solid : 0 ∉ s) (utf8 : Bytes) :
    logWide label (s ++ 0 :: rest) utf8 = (readLog s utf8).map (fun s => line (label ++ ascii ": " ++ s)) := by
  simp only [logWide,text_ends solid,Option.bind_some,readLog]

theorem fileName_fits (name : s.length < 1040) {buf : Wide} (sized : buf.length = 1040) :
    getModuleFileName (some s) buf = (s.length,filled s buf) := by
  rw [← sized] at name
  simp only [getModuleFileName,if_pos name]

theorem fileName_cut (name : 1040 ≤ s.length) {buf : Wide} (sized : buf.length = 1040) :
    (getModuleFileName (some s) buf).1 = 1040 ∧ (getModuleFileName (some s) buf).2.length = 1040 := by
  simp only [getModuleFileName,sized,if_neg (not_lt.mpr name)]
  simp
  omega

-- A module whose own name is known and fits.
structure Named (win : Windows) (s : Wide) : Prop where
  found : win.found = true
  name : win.name = some s
  nonempty : s ≠ []
  short : s.length < 1040

theorem preload_named (sized : stack.Sized) (named : Named win s) (solid : 0 ∉ s) :
    ∃ log : Bytes → Bytes → Bytes, preloadAdjacentOnnxruntime win stack = (readLog s (stack.utf8 0)).bind fun first =>
      (readLog (dllOf s) (stack.utf8 1)).bind fun second =>
        if !win.present (dllOf s) then afterLog (log first second) none false
          (logDecimal (ascii "file does not exist, GetLastError") win.attributeError stack.num)
        else loadDll win stack (log first second) (dllOf s) := by
  refine ⟨fun first second => line (ascii "preload_adjacent_onnxruntime: starting") ++
    line (ascii "plugin DLL path" ++ ascii ": " ++ first) ++ line (ascii "attempting to load" ++ ascii ": " ++ second),?_⟩
  obtain ⟨rest,stripped⟩ := stripName_dir s (stack.path.drop (s.length+1))
  obtain ⟨rest',built⟩ := @buildDllPath_text (dirOf s) rest stack.dllPath (fun member => solid (dirOf_subset member))
    sized.dllPath
  have length : (filled s stack.path).length = 1040 := by
    rw [filled_length (by rw [sized.path]; exact named.short),sized.path]
  have inside : ¬ (s.length = 0 ∨ (filled s stack.path).length ≤ s.length) := by
    rw [length,List.length_eq_zero_iff]
    exact not_or.mpr ⟨named.nonempty,not_le.mpr named.short⟩
  have path : filled s stack.path = s ++ 0 :: stack.path.drop (s.length+1) := rfl
  simp only [preloadAdjacentOnnxruntime,named.found,Bool.not_true,Bool.false_eq_true,if_false,named.name,
    fileName_fits named.short sized.path,if_neg inside,preloadFrom]
  rw [path,logWide_text _ solid,Option.bind_map]
  apply Option.bind_congr
  intro first _
  simp only [Function.comp_apply,stripped,built,Option.bind_some,tryDll]
  rw [← dllOf,logWide_text _ (dllOf_solid solid),Option.bind_map,text_ends (dllOf_solid solid)]
  rfl

-- Without a name there is nothing to try.
theorem preload_unnamed (sized : stack.Sized) (unnamed : ∀ s, ¬ Named win s) :
    ∃ log, preloadAdjacentOnnxruntime win stack = some ⟨log,none,false⟩ := by
  unfold preloadAdjacentOnnxruntime
  cases found : win.found with
  | false =>
    simp only [Bool.not_false,if_true,afterLog,logDecimal_decimal _ _ sized.num,Option.map_some]
    exact ⟨_,rfl⟩
  | true =>
    have stops : (getModuleFileName win.name stack.path).1 = 0 ∨
        (getModuleFileName win.name stack.path).2.length ≤ (getModuleFileName win.name stack.path).1 := by
      cases name : win.name with
      | none => exact .inl rfl
      | some s =>
        by_cases short : s.length < 1040
        · rw [fileName_fits short sized.path]
          refine .inl (List.length_eq_zero_iff.mpr ?_)
          by_contra nonempty
          exact unnamed s ⟨found,name,nonempty,short⟩
        · obtain ⟨size,length⟩ := fileName_cut (not_lt.mp short) sized.path
          rw [size,length]
          exact .inr (Nat.le_refl _)
    simp only [Bool.not_true,Bool.false_eq_true,if_false,if_pos stops,afterLog,logDecimal_decimal _ _ sized.num,
      Option.map_some]
    exact ⟨_,rfl⟩

-- The names the log reads out, in order: its own, that of the library it
-- builds, and the one the loader found.
def loadedNames (win : Windows) (dll : Wide) : List Wide :=
  if !win.present dll then [] else
  match win.load dll with
  | .ok (some s) => if s = [] ∨ 1040 ≤ s.length then [] else [s]
  | _ => []

def loadedOk (win : Windows) (dll : Wide) : Bool := win.present dll && (win.load dll).isOk

theorem outcome_ends (log : Bytes) (dll : Wide) (ok : Bool) (readable : Wide → Prop) :
    ((some ⟨log,some dll,ok⟩ : Option Outcome).isSome ↔ ∀ w ∈ ([] : List Wide), readable w) ∧
    ∀ outcome, some (⟨log,some dll,ok⟩ : Outcome) = some outcome → outcome.tried = some dll ∧ outcome.ok = ok := by
  refine ⟨by simp,fun outcome is => ?_⟩
  cases is
  exact ⟨rfl,rfl⟩

theorem loadDll_outcome (sized : stack.Sized) (log : Bytes) {dll : Wide} (present : win.present dll = true)
    (solid : ∀ s, win.load dll = .ok (some s) → 0 ∉ s) :
    ((loadDll win stack log dll).isSome ↔ ∀ w ∈ loadedNames win dll, (readLog w (stack.utf8 2)).isSome) ∧
    ∀ outcome, loadDll win stack log dll = some outcome → outcome.tried = some dll ∧ outcome.ok = loadedOk win dll := by
  unfold loadDll loadedNames loadedOk
  simp only [present,Bool.not_true,Bool.false_eq_true,if_false,Bool.true_and]
  cases loads : win.load dll with
  | error err =>
    simp only [afterLog,logDecimal_decimal _ _ sized.num,Option.map_some]
    exact outcome_ends ..
  | ok name =>
    cases name with
    | none =>
      simp only [getModuleFileName,lt_irrefl,false_and,if_false]
      exact outcome_ends ..
    | some s =>
      by_cases short : s.length < 1040
      · have length : (filled s stack.loadedPath).length = 1040 := by
          rw [filled_length (by rw [sized.loadedPath]; exact short),sized.loadedPath]
        simp only [fileName_fits short sized.loadedPath]
        by_cases empty : s = []
        · subst empty
          simp only [List.length_nil,lt_irrefl,false_and,if_false,true_or,if_true]
          exact outcome_ends ..
        · have inside : 0 < s.length ∧ s.length < (filled s stack.loadedPath).length := by
            rw [length]
            exact ⟨List.length_pos_of_ne_nil empty,short⟩
          have listed : ¬ (s = [] ∨ 1040 ≤ s.length) := not_or.mpr ⟨empty,not_le.mpr short⟩
          simp only [if_pos inside,if_neg listed]
          rw [show filled s stack.loadedPath = s ++ 0 :: stack.loadedPath.drop (s.length+1) from rfl,
            logWide_text _ (solid s loads)]
          simp only [afterLog,Option.map_map,Option.isSome_map,List.mem_singleton,forall_eq,Option.map_eq_some_iff]
          refine ⟨trivial,fun outcome ⟨_,_,is⟩ => ?_⟩
          exact is ▸ ⟨rfl,rfl⟩
      · obtain ⟨size,length⟩ := fileName_cut (not_lt.mp short) sized.loadedPath
        simp only [size,length,lt_irrefl,and_false,if_false,if_pos (Or.inr (not_lt.mp short) : s = [] ∨ 1040 ≤ s.length)]
        exact outcome_ends ..

def logged (win : Windows) : List Wide :=
  match win.name with
  | none => []
  | some s => if win.found && decide (s ≠ []) && decide (s.length < 1040) then s :: dllOf s :: loadedNames win (dllOf s) else []

-- A text of the system has no zero in it.
structure Solid (win : Windows) : Prop where
  name : ∀ s, win.name = some s → 0 ∉ s
  load : ∀ dll s, win.load dll = .ok (some s) → 0 ∉ s

theorem logged_named (named : Named win s) : logged win = s :: dllOf s :: loadedNames win (dllOf s) := by
  simp [logged,named.name,named.found,named.nonempty,named.short]

theorem logged_unnamed (unnamed : ∀ s, ¬ Named win s) : logged win = [] := by
  unfold logged
  split
  · rfl
  · rename_i s name
    rw [if_neg]
    intro all
    simp only [Bool.and_eq_true,decide_eq_true_eq] at all
    exact unnamed s ⟨all.1.1,name,all.1.2,all.2⟩

theorem tried_outcome (sized : stack.Sized) (solid : Solid win) (log : Bytes) (dll : Wide) :
    let run := if !win.present dll then afterLog log none false
        (logDecimal (ascii "file does not exist, GetLastError") win.attributeError stack.num)
      else loadDll win stack log dll
    (run.isSome ↔ ∀ w ∈ loadedNames win dll, (readLog w (stack.utf8 2)).isSome) ∧
    ∀ outcome, run = some outcome → outcome.tried = (if win.present dll then some dll else none) ∧
      outcome.ok = loadedOk win dll := by
  cases present : win.present dll with
  | false =>
    simp only [Bool.not_false,if_true,afterLog,logDecimal_decimal _ _ sized.num,Option.map_some,loadedNames,loadedOk,present]
    refine ⟨by simp,fun outcome is => ?_⟩
    cases is
    exact ⟨rfl,rfl⟩
  | true =>
    simp only [Bool.not_true,Bool.false_eq_true,if_false,if_true]
    exact loadDll_outcome sized log present (solid.load dll)

-- The buffers in which the three names are turned to UTF-8, in order.
theorem preload_isSome (sized : stack.Sized) (solid : Solid win) (named : Named win s) :
    (preloadAdjacentOnnxruntime win stack).isSome ↔ (readLog s (stack.utf8 0)).isSome ∧
      (readLog (dllOf s) (stack.utf8 1)).isSome ∧
        ∀ w ∈ loadedNames win (dllOf s), (readLog w (stack.utf8 2)).isSome := by
  obtain ⟨log,run⟩ := preload_named sized named (solid.name s named.name)
  rw [run]
  cases first : readLog s (stack.utf8 0) with
  | none => simp
  | some one =>
    cases second : readLog (dllOf s) (stack.utf8 1) with
    | none => simp
    | some two =>
      simp only [Option.bind_some,Option.isSome_some,true_and]
      exact (tried_outcome sized solid (log one two) (dllOf s)).1

-- Nothing in the buffers ends a text.
def endless : Stack :=
  ⟨List.replicate 260 1,List.replicate 520 1,List.replicate 1040 1,List.replicate 1040 1,List.replicate 1040 1,
    fun _ => List.replicate 1024 1,List.replicate 16 1⟩

theorem endless_sized : endless.Sized :=
  ⟨List.length_replicate,List.length_replicate,List.length_replicate,List.length_replicate,List.length_replicate,
    fun _ => List.length_replicate,List.length_replicate⟩

theorem endless_reads (w : Wide) (i : Nat) : (readLog w (endless.utf8 i)).isSome ↔ (wideToUtf8 w).length < 1024 := by
  rw [readLog_isSome,endless_sized.utf8 i]
  refine or_iff_left fun member => ?_
  have filling : (0 : UInt8) ∈ List.replicate 1024 1 := member
  exact absurd (List.mem_replicate.mp filling).2 (by decide)

end Preloading

-- A plugin whose library lies beside it.
def installed (dir : Wide) : Windows :=
  ⟨some (wide "C:\\Temp"),true,0,some (dir ++ wide "AISmartFill.dll"),0,fun _ => true,0,fun _ => .ok none⟩

theorem openLog_path_temp : openLog (installed []) endless = some (some (wide "C:\\Temp\\nuke-ai-fill-bootstrap.log")) :=
  (@openLog_path (installed []) endless endless_sized (fun s is => by cases is; decide)).trans (by decide)

theorem installed_solid {dir : Wide} (solid : 0 ∉ dir) : Solid (installed dir) := by
  refine ⟨fun s is => ?_,fun dll s is => nomatch is⟩
  cases is
  simp only [List.mem_append,not_or]
  exact ⟨solid,by decide⟩

-- The preloading keeps inside its buffers, whatever was in them, exactly if each
-- name it logs has at most 1023 bytes in UTF-8; names of up to 341 units do.
theorem preload_bounded_iff (win : Windows) (solid : Solid win) :
    ((∀ stack : Stack, stack.Sized → (preloadAdjacentOnnxruntime win stack).isSome) ↔
      ∀ w ∈ logged win, (wideToUtf8 w).length < 1024) ∧
    ((∀ w ∈ logged win, w.length ≤ 341) → ∀ stack : Stack, stack.Sized → (preloadAdjacentOnnxruntime win stack).isSome) := by
  have exact_bound : (∀ stack : Stack, stack.Sized → (preloadAdjacentOnnxruntime win stack).isSome) ↔
      ∀ w ∈ logged win, (wideToUtf8 w).length < 1024 := by
    by_cases named : ∃ s, Named win s
    · obtain ⟨s,named⟩ := named
      rw [logged_named named]
      simp only [List.forall_mem_cons]
      constructor
      · intro bounded
        have run := (preload_isSome endless_sized solid named).mp (bounded endless endless_sized)
        simpa only [endless_reads] using run
      · intro ⟨first,second,third⟩ stack sized
        have reads {w : Wide} (i : Nat) (fits : (wideToUtf8 w).length < 1024) : (readLog w (stack.utf8 i)).isSome :=
          (readLog_isSome w _).mpr (.inl (by rw [sized.utf8 i]; exact fits))
        exact (preload_isSome sized solid named).mpr ⟨reads 0 first,reads 1 second,fun w member => reads 2 (third w member)⟩
    · have unnamed : ∀ s, ¬ Named win s := fun s is => named ⟨s,is⟩
      rw [logged_unnamed unnamed]
      refine ⟨fun _ _ member => (nomatch member),fun _ stack sized => ?_⟩
      obtain ⟨log,run⟩ := preload_unnamed sized unnamed
      rw [run]
      rfl
  refine ⟨exact_bound,fun short => exact_bound.mpr fun w member => ?_⟩
  have most := wideToUtf8_length w
  have units := short w member
  omega

-- A run that stays inside loads nothing but the file beside the plugin, its
-- directory being cut to 1024 units, and says what came of it.
theorem preload_tries {win : Windows} {stack : Stack} {outcome : Outcome} (solid : Solid win) (sized : stack.Sized)
    (ran : preloadAdjacentOnnxruntime win stack = some outcome) :
    (∀ s, Named win s → outcome.tried = (if win.present (dllOf s) then some (dllOf s) else none) ∧
      outcome.ok = loadedOk win (dllOf s) ∧ (dllOf s = dirOf s ++ dllName ↔ (dirOf s).length ≤ 1024)) ∧
    ((∀ s, ¬ Named win s) → outcome.tried = none ∧ outcome.ok = false) := by
  constructor
  · intro s named
    obtain ⟨log,run⟩ := preload_named sized named (solid.name s named.name)
    rw [run] at ran
    obtain ⟨one,_,ran⟩ := Option.bind_eq_some_iff.mp ran
    obtain ⟨two,_,ran⟩ := Option.bind_eq_some_iff.mp ran
    obtain ⟨tried,ok⟩ := (tried_outcome sized solid (log one two) (dllOf s)).2 outcome ran
    refine ⟨tried,ok,?_⟩
    rw [dllOf,List.append_left_inj,List.take_eq_self_iff]
  · intro unnamed
    obtain ⟨log,run⟩ := preload_unnamed sized unnamed
    rw [run] at ran
    cases ran
    exact ⟨rfl,rfl⟩

-- A plugin in C:\p, and one in a directory whose name is 400 times U+6F22.
theorem preload_bounded_two :
    (∀ stack : Stack, stack.Sized → (preloadAdjacentOnnxruntime (installed (wide "C:\\p\\")) stack).isSome) ∧
    ¬ ∀ stack : Stack, stack.Sized →
      (preloadAdjacentOnnxruntime (installed (List.replicate 400 0x6F22 ++ [backslash])) stack).isSome := by
  constructor
  · exact (preload_bounded_iff _ (installed_solid (by decide))).2 (by decide)
  · intro bounded
    have short := (preload_bounded_iff _ (installed_solid (by decide +kernel))).1.mp bounded
    exact absurd short (by decide +kernel)

theorem preload_tries_beside : ∃ outcome, preloadAdjacentOnnxruntime (installed (wide "C:\\p\\")) endless = some outcome ∧
    outcome.tried = some (wide "C:\\p\\onnxruntime.dll") ∧ outcome.ok = true := by
  have solid := @installed_solid (wide "C:\\p\\") (by decide)
  have named : Named (installed (wide "C:\\p\\")) (wide "C:\\p\\AISmartFill.dll") := ⟨rfl,rfl,by decide,by decide⟩
  have reads := (preload_isSome endless_sized solid named).mpr
    ⟨(endless_reads _ 0).mpr (by decide),(endless_reads _ 1).mpr (by decide),by decide⟩
  obtain ⟨outcome,ran⟩ := Option.isSome_iff_exists.mp reads
  obtain ⟨tried,ok,_⟩ := (preload_tries solid endless_sized ran).1 _ named
  exact ⟨outcome,ran,tried.trans (by decide),ok⟩

end SmartFill.Bootstrap
