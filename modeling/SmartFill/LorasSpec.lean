import SmartFill.Loras
import SmartFill.Lib.Strtof

namespace SmartFill.Loras

def stof (convert : Bytes → Option F32) : Stof := Strtof.stof convert

-- Blanks, tabs and '\r', as around the parts of a line.
def Blanks (s : Bytes) : Prop := ∀ c ∈ s, c = 32 ∨ c = 9 ∨ c = 13

def Trimmed (s : Bytes) : Prop := (∀ c, s.head? = some c → isBlank c = false) ∧ ∀ c, s.getLast? = some c → isBlank c = false

-- A text std::stof reads whole without throwing.
def Numeral (convert : Bytes → Option F32) (weight : Bytes) : Prop := ∃ w, stof convert weight = some (w,weight.length)

structure PathText (path : Bytes) : Prop where
  named : path ≠ []
  trimmed : Trimmed path
  whole : newline ∉ path
  uncommented : path.head? ≠ some hash

-- The lines the knob's documentation describes.
inductive LoraLine where
  | blank (spaces : Bytes)
  | comment (indent text : Bytes)
  | entry (indent path before after weight tail : Bytes)
  | bare (indent path tail : Bytes)

namespace LoraLine

def text : LoraLine → Bytes
  | .blank spaces => spaces
  | .comment indent text => indent ++ hash :: text
  | .entry indent path before after weight tail => indent ++ (path ++ before ++ colon :: (after ++ weight)) ++ tail
  | .bare indent path tail => indent ++ path ++ tail

def Valid (convert : Bytes → Option F32) : LoraLine → Prop
  | .blank spaces => Blanks spaces
  | .comment indent text => Blanks indent ∧ newline ∉ text
  | .entry indent path before after weight tail =>
    (Blanks indent ∧ Blanks before ∧ Blanks after ∧ Blanks tail) ∧ PathText path ∧ (path ++ before).length ≠ 1 ∧
      Trimmed weight ∧ newline ∉ weight ∧ Numeral convert weight
  | .bare indent path tail =>
    (Blanks indent ∧ Blanks tail) ∧ PathText path ∧
      ∀ p q, path = p ++ colon :: q → colon ∉ q → 1 < p.length → ¬ Numeral convert (trim q)

-- Absolute paths stay as they are.
def located (lorasDir path : Bytes) : Bytes :=
  if path.head? = some 47 ∨ path.head? = some 92 ∨ path[1]? = some colon then path else lorasDir ++ ascii "/" ++ path

def spec (convert : Bytes → Option F32) (lorasDir : Bytes) : LoraLine → Option LoRASpec
  | .blank _ | .comment _ _ => none
  | .entry _ path _ _ weight _ =>
    match stof convert weight with
    | none => none
    | some (w,_) => if F32.eq w F32.zero = true then none else some ⟨located lorasDir path,w⟩
  | .bare _ path _ => some ⟨located lorasDir path,F32.one⟩

end LoraLine

def unlines (ls : List Bytes) : Bytes := ls.flatMap (fun line => line ++ [newline])

section Trim
variable {a b s : Bytes}

theorem blanks_blank (blanks : Blanks s) : ∀ c ∈ s, isBlank c = true := by
  intro c member
  rcases blanks c member with rfl | rfl | rfl <;> rfl

theorem blanks_whole (blanks : Blanks s) : newline ∉ s := by
  intro member
  rcases blanks _ member with same | same | same <;> exact absurd same (by decide)

theorem dropWhile_blanks (blank : ∀ c ∈ a, isBlank c = true) (s : Bytes) :
    (a ++ s).dropWhile isBlank = s.dropWhile isBlank := by
  induction a with
  | nil => rfl
  | cons c rest ih =>
    rw [List.cons_append,List.dropWhile_cons_of_pos (blank c List.mem_cons_self)]
    exact ih (fun c member => blank c (List.mem_cons_of_mem _ member))

theorem dropWhile_solid (solid : ∀ c, s.head? = some c → isBlank c = false) : s.dropWhile isBlank = s := by
  cases s with
  | nil => rfl
  | cons c rest => exact List.dropWhile_cons_of_neg (by simp [solid c rfl])

-- Trimming takes the blanks around a trimmed text and nothing of it.
theorem trim_around (left : ∀ c ∈ a, isBlank c = true) (right : ∀ c ∈ b, isBlank c = true) (trimmed : Trimmed s) :
    trim (a ++ s ++ b) = s := by
  cases s with
  | nil =>
    have all : ∀ c ∈ a ++ b, isBlank c = true := by
      intro c member
      exact (List.mem_append.mp member).elim (left c) (right c)
    have gone := dropWhile_blanks all []
    rw [List.append_nil] at gone
    rw [trim,List.append_nil,gone]
    rfl
  | cons c rest =>
    have first := dropWhile_blanks left (c :: rest ++ b)
    have solid : (c :: rest ++ b).dropWhile isBlank = c :: rest ++ b :=
      dropWhile_solid (fun d found => trimmed.1 d found)
    have reversed : ∀ d ∈ b.reverse, isBlank d = true := fun d member => right d (List.mem_reverse.mp member)
    have back : (c :: rest).reverse.dropWhile isBlank = (c :: rest).reverse := by
      apply dropWhile_solid
      intro d found
      rw [List.head?_reverse] at found
      exact trimmed.2 d found
    rw [trim,List.append_assoc,first,solid,List.reverse_append,dropWhile_blanks reversed,back,List.reverse_reverse]

theorem trim_blanks (blank : ∀ c ∈ s, isBlank c = true) : trim s = [] := by
  have around := @trim_around s [] [] blank (by simp) (by simp [Trimmed])
  simpa using around

-- What follows the first character may lose its end only.
theorem trim_head {c : UInt8} (left : ∀ c ∈ a, isBlank c = true) (solid : isBlank c = false) (rest : Bytes) :
    (trim (a ++ c :: rest)).head? = some c := by
  have first := dropWhile_blanks left (c :: rest)
  have kept : (c :: rest).dropWhile isBlank = c :: rest := dropWhile_solid (by
    intro d found
    cases found
    exact solid)
  rw [trim,first,kept,List.head?_reverse,List.reverse_cons]
  have last : (rest.reverse ++ [c]).dropWhile isBlank = rest.reverse.dropWhile isBlank ++ [c] := by
    have single : [c].dropWhile isBlank = [c] := List.dropWhile_cons_of_neg (by simp [solid])
    rw [List.dropWhile_append,single]
    split
    · rename_i empty
      rw [List.isEmpty_iff.mp empty]
      rfl
    · rfl
  rw [last,List.getLast?_concat]

end Trim

section Colon
variable {p q : Bytes} {c : UInt8}

theorem rfind_none (absent : c ∉ q) : rfind c q = none := by
  have reversed : c ∉ q.reverse := fun member => absent (List.mem_reverse.mp member)
  simp [rfind,List.idxOf?_eq_none_iff.mpr reversed]

theorem idxOf_last (absent : c ∉ q) (rest : Bytes) : (q ++ c :: rest).idxOf? c = some q.length := by
  induction q with
  | nil => simp [List.idxOf?_cons]
  | cons d others ih =>
    have parts : c ≠ d ∧ c ∉ others := by simpa using absent
    have other : (d == c) = false := by simpa using Ne.symm parts.1
    simp [List.idxOf?_cons,other,ih parts.2]

theorem rfind_last (absent : c ∉ q) (p : Bytes) : rfind c (p ++ c :: q) = some p.length := by
  have reversed : c ∉ q.reverse := fun member => absent (List.mem_reverse.mp member)
  have turned : (p ++ c :: q).reverse = q.reverse ++ c :: p.reverse := by simp
  rw [rfind,turned,idxOf_last reversed]
  simp

theorem rfind_split {line : Bytes} {i : Nat} (found : rfind c line = some i) :
    ∃ p q, line = p ++ c :: q ∧ c ∉ q ∧ p.length = i := by
  by_cases member : c ∈ line
  · obtain ⟨p,q,split,absent⟩ : ∃ p q, line = p ++ c :: q ∧ c ∉ q := by
      have reversed := List.mem_reverse.mpr member
      obtain ⟨x,y,split,absent⟩ := List.eq_append_cons_of_mem reversed
      refine ⟨y.reverse,x.reverse,?_,fun m => absent (List.mem_reverse.mp m)⟩
      have turned := congrArg List.reverse split
      simpa using turned
    rw [split,rfind_last absent] at found
    exact ⟨p,q,split,absent,Option.some.inj found⟩
  · rw [rfind_none member] at found
    cases found

end Colon

section Lines

theorem lines_whole {line : Bytes} (whole : newline ∉ line) (rest : Bytes) :
    lines (line ++ newline :: rest) = line :: lines rest := by
  induction line with
  | nil => simp [lines]
  | cons c others ih =>
    have parts : newline ≠ c ∧ newline ∉ others := by simpa using whole
    rw [List.cons_append,lines,if_neg (Ne.symm parts.1),ih parts.2]

theorem lines_last {line : Bytes} (whole : newline ∉ line) : lines line = if line = [] then [] else [line] := by
  induction line with
  | nil => rfl
  | cons c others ih =>
    have parts : newline ≠ c ∧ newline ∉ others := by simpa using whole
    rw [lines,if_neg (Ne.symm parts.1),ih parts.2]
    cases others <;> simp

-- std::getline gives back the lines, and what is left without a newline unless
-- it is empty.
theorem lines_unlines {ls : List Bytes} {last : Bytes} (whole : ∀ line ∈ ls, newline ∉ line) (end_ : newline ∉ last) :
    lines (unlines ls ++ last) = ls ++ if last = [] then [] else [last] := by
  induction ls with
  | nil => exact lines_last end_
  | cons line rest ih =>
    have first : unlines (line :: rest) ++ last = line ++ newline :: (unlines rest ++ last) := by simp [unlines]
    rw [first,lines_whole (whole line List.mem_cons_self),ih (fun l member => whole l (List.mem_cons_of_mem _ member))]
    rfl

end Lines

section Parts
variable {convert : Bytes → Option F32} {path before after weight : Bytes}

-- Nothing a number is spelled with is a colon.
theorem numeral_plain (numeral : Numeral convert weight) : colon ∉ weight := by
  obtain ⟨w,read⟩ := numeral
  intro member
  have spelled := Strtof.stof_whole_spelled read colon member
  exact absurd spelled (by decide)

theorem numeral_named (numeral : Numeral convert weight) : weight ≠ [] := by
  obtain ⟨w,read⟩ := numeral
  rintro rfl
  rw [stof,Strtof.stof_empty] at read
  cases read

theorem splitWeight_entry (blanks : Blanks before ∧ Blanks after) (pathText : PathText path)
    (drive : (path ++ before).length ≠ 1) (trimmed : Trimmed weight) {w : F32}
    (read : stof convert weight = some (w,weight.length)) :
    splitWeight (stof convert) (path ++ before ++ colon :: (after ++ weight)) = (path,w) := by
  have absent : colon ∉ after ++ weight := by
    intro member
    rcases List.mem_append.mp member with blank | number
    · rcases blanks.2 _ blank with same | same | same <;> exact absurd same (by decide)
    · exact numeral_plain ⟨w,read⟩ number
  have place : 1 < (path ++ before).length := by
    have some := List.length_pos_iff.mpr pathText.named
    rw [List.length_append] at drive ⊢
    omega
  have number : trim (after ++ weight) = weight := by
    have around := @trim_around after [] weight (blanks_blank blanks.2) (by simp) trimmed
    simpa using around
  have front : trim (path ++ before) = path := by
    have around := @trim_around [] before path (by simp) (blanks_blank blanks.1) pathText.trimmed
    simpa using around
  have rest : (path ++ before ++ colon :: (after ++ weight)).drop ((path ++ before).length+1) = after ++ weight := by
    rw [←List.drop_drop,List.drop_left]
    rfl
  rw [splitWeight,rfind_last absent]
  dsimp only
  rw [if_neg (by omega),rest,number,read]
  dsimp only
  rw [if_pos rfl,List.take_left,front]

theorem splitWeight_bare (bare : ∀ p q, path = p ++ colon :: q → colon ∉ q → 1 < p.length → ¬ Numeral convert (trim q)) :
    splitWeight (stof convert) path = (path,F32.one) := by
  unfold splitWeight
  cases found : rfind colon path with
  | none => rfl
  | some i =>
    obtain ⟨p,q,split,absent,length⟩ := rfind_split found
    dsimp only
    by_cases drive : i ≤ 1
    · rw [if_pos drive]
    · have rest : path.drop (i+1) = q := by
        rw [split,←length,←List.drop_drop,List.drop_left]
        rfl
      rw [if_neg drive,rest]
      cases read : stof convert (trim q) with
      | none => rfl
      | some pair =>
        obtain ⟨w,consumed⟩ := pair
        dsimp only
        rw [if_neg]
        intro whole
        exact bare p q split absent (by omega) ⟨w,by rw [read,whole]⟩

theorem isAbsolute_iff (path : Bytes) : isAbsolute path = true ↔
    path.head? = some 47 ∨ path.head? = some 92 ∨ path[1]? = some colon := by
  match path with
  | [] => simp [isAbsolute]
  | [c] => simp [isAbsolute]
  | c :: d :: rest => simp [isAbsolute,or_assoc]

theorem resolve_located {lorasDir : Bytes} (set : lorasDir ≠ []) (path : Bytes) :
    resolve lorasDir path = LoraLine.located lorasDir path := by
  unfold resolve LoraLine.located
  by_cases absolute : isAbsolute path = true
  · rw [if_pos ((isAbsolute_iff path).mp absolute)]
    simp [absolute]
  · rw [if_neg (fun is => absolute ((isAbsolute_iff path).mpr is))]
    simp [absolute,set]

end Parts

section Line
variable {convert : Bytes → Option F32} {lorasDir : Bytes}

theorem head_append {path : Bytes} (named : path ≠ []) (rest : Bytes) : (path ++ rest).head? = path.head? := by
  cases path with
  | nil => contradiction
  | cons c others => rfl

theorem last_append {weight : Bytes} (named : weight ≠ []) (front : Bytes) : (front ++ weight).getLast? = weight.getLast? :=
  List.getLast?_append_of_ne_nil front named

theorem body_trimmed {path weight : Bytes} (pathText : PathText path) (trimmed : Trimmed weight) (named : weight ≠ [])
    (before after : Bytes) : Trimmed (path ++ before ++ colon :: (after ++ weight)) := by
  constructor
  · rw [List.append_assoc,head_append pathText.named]
    exact pathText.trimmed.1
  · have front : path ++ before ++ colon :: (after ++ weight) = (path ++ before ++ colon :: after) ++ weight := by simp
    rw [front,last_append named]
    exact trimmed.2

theorem parse_path {line path : Bytes} {w : F32} (set : lorasDir ≠ []) (pathText : PathText path)
    (starts : (trim line).head? = path.head?) (split : splitWeight (stof convert) (trim line) = (path,w)) :
    parseLine (stof convert) lorasDir line =
      if F32.eq w F32.zero = true then none else some ⟨LoraLine.located lorasDir path,w⟩ := by
  have solid : ¬ (trim line = [] ∨ (trim line).head? = some hash) := by
    rintro (empty | commented)
    · rw [empty,List.head?_nil] at starts
      exact pathText.named (List.head?_eq_none_iff.mp starts.symm)
    · rw [starts] at commented
      exact pathText.uncommented commented
  unfold parseLine
  dsimp only
  rw [if_neg solid,split]
  dsimp only
  rw [resolve_located set]
  simp only [pathText.named,false_or]

theorem parse_line (set : lorasDir ≠ []) {l : LoraLine} (valid : l.Valid convert) :
    parseLine (stof convert) lorasDir l.text = l.spec convert lorasDir := by
  cases l with
  | blank spaces =>
    unfold parseLine LoraLine.text
    dsimp only
    rw [trim_blanks (blanks_blank valid),if_pos (.inl rfl)]
    rfl
  | comment indent text =>
    have head := trim_head (blanks_blank valid.1) (by rfl : isBlank hash = false) text
    unfold parseLine LoraLine.text
    dsimp only
    rw [if_pos (.inr head)]
    rfl
  | entry indent path before after weight tail =>
    obtain ⟨⟨left,gap,gap',right⟩,pathText,drive,trimmed,_,numeral⟩ := valid
    have named := numeral_named numeral
    have body := trim_around (blanks_blank left) (blanks_blank right) (body_trimmed pathText trimmed named before after)
    obtain ⟨w,read⟩ := numeral
    rw [LoraLine.spec,read]
    apply parse_path set pathText
    · rw [LoraLine.text,body,List.append_assoc,head_append pathText.named]
    · rw [LoraLine.text,body]
      exact splitWeight_entry ⟨gap,gap'⟩ pathText drive trimmed read
  | bare indent path tail =>
    obtain ⟨⟨left,right⟩,pathText,plain⟩ := valid
    have body := trim_around (blanks_blank left) (blanks_blank right) pathText.trimmed
    refine (@parse_path convert lorasDir _ path F32.one set pathText ?_ ?_).trans (if_neg (by decide))
    · rw [LoraLine.text,body]
    · rw [LoraLine.text,body]
      exact splitWeight_bare plain

theorem text_whole {l : LoraLine} (valid : l.Valid convert) : newline ∉ l.text := by
  cases l with
  | blank spaces => exact blanks_whole valid
  | comment indent text =>
    have parts := blanks_whole valid.1
    have other : newline ≠ hash := by decide
    simp [LoraLine.text,parts,valid.2,other]
  | entry indent path before after weight tail =>
    obtain ⟨⟨left,gap,gap',right⟩,pathText,_,_,whole,_⟩ := valid
    simp [LoraLine.text,blanks_whole left,blanks_whole gap,blanks_whole gap',blanks_whole right,pathText.whole,whole]
    decide
  | bare indent path tail =>
    obtain ⟨⟨left,right⟩,pathText,_⟩ := valid
    simp [LoraLine.text,blanks_whole left,blanks_whole right,pathText.whole]

end Line

-- Any such lines, the last with or without its newline.
theorem parse_loras_lines (convert : Bytes → Option F32) {lorasDir : Bytes} (set : lorasDir ≠ []) (ls : List LoraLine)
    (last : LoraLine) (valid : ∀ l ∈ ls ++ [last], l.Valid convert) :
    parseLoras (stof convert) (unlines (ls.map LoraLine.text) ++ last.text) lorasDir =
      (ls ++ [last]).filterMap (LoraLine.spec convert lorasDir) := by
  have lastValid : last.Valid convert := valid last (by simp)
  have earlier : ∀ l ∈ ls, l.Valid convert := fun l member => valid l (List.mem_append_left _ member)
  have whole : ∀ line ∈ ls.map LoraLine.text, newline ∉ line := by
    intro line member
    obtain ⟨l,inside,rfl⟩ := List.mem_map.mp member
    exact text_whole (earlier l inside)
  have body : (ls.map LoraLine.text).filterMap (parseLine (stof convert) lorasDir) =
      ls.filterMap (LoraLine.spec convert lorasDir) := by
    rw [List.filterMap_map]
    apply List.filterMap_congr
    intro l member
    exact parse_line set (earlier l member)
  have ending : (if last.text = [] then [] else [last.text]).filterMap (parseLine (stof convert) lorasDir) =
      [last].filterMap (LoraLine.spec convert lorasDir) := by
    have line := parse_line set lastValid
    by_cases empty : last.text = []
    · rw [empty] at line
      have nothing : LoraLine.spec convert lorasDir last = none := line.symm.trans rfl
      rw [if_pos empty,List.filterMap_nil,List.filterMap_cons_none nothing,List.filterMap_nil]
    · rw [if_neg empty]
      simp only [List.filterMap_cons,List.filterMap_nil,line]
  rw [parseLoras,lines_unlines whole (text_whole lastValid),List.filterMap_append,List.filterMap_append,body,ending]

theorem trimmed_ends {s : Bytes} {first last : UInt8} (head : s.head? = some first) (final : s.getLast? = some last)
    (solid : isBlank first = false ∧ isBlank last = false) : Trimmed s := by
  constructor
  · intro c found
    rw [head] at found
    rw [←Option.some.inj found]
    exact solid.1
  · intro c found
    rw [final] at found
    rw [←Option.some.inj found]
    exact solid.2

def decimalOne (text : Bytes) : Option F32 := if text = ascii "1.0" then some F32.one else none

-- A drive letter's colon, a comment, and a relative path without a weight.
theorem parse_loras_drive : parseLoras (stof decimalOne)
    (unlines ([.entry [32] (ascii "C:/a") [32] [32] (ascii "1.0") [13],.comment [] []].map LoraLine.text) ++
      (LoraLine.bare [] (ascii "b") []).text) (ascii "l") =
      [⟨ascii "C:/a",F32.one⟩,⟨ascii "l/b",F32.one⟩] := by
  refine (parse_loras_lines decimalOne (by decide) _ _ ?_).trans (by decide)
  have drive : PathText (ascii "C:/a") :=
    ⟨by decide,@trimmed_ends _ 67 97 (by decide) (by decide) (by decide),by decide,by decide⟩
  have relative : PathText (ascii "b") :=
    ⟨by decide,@trimmed_ends _ 98 98 (by decide) (by decide) (by decide),by decide,by decide⟩
  have number : Trimmed (ascii "1.0") := @trimmed_ends _ 49 48 (by decide) (by decide) (by decide)
  have blank (c : UInt8) (spaces : c = 32 ∨ c = 9 ∨ c = 13) : Blanks [c] := by
    intro d member
    rw [List.mem_singleton.mp member]
    exact spaces
  have nothing : Blanks [] := by
    intro d member
    cases member
  have plain : ∀ p q, ascii "b" = p ++ colon :: q → colon ∉ q → 1 < p.length → ¬ Numeral decimalOne (trim q) := by
    intro p q split _ _ _
    have member : colon ∈ ascii "b" := by
      rw [split]
      simp
    exact absurd member (by decide)
  intro l member
  simp only [List.cons_append,List.nil_append,List.mem_cons,List.not_mem_nil,or_false] at member
  rcases member with rfl | rfl | rfl
  · exact ⟨⟨blank 32 (by decide),blank 32 (by decide),blank 32 (by decide),blank 13 (by decide)⟩,drive,by decide,number,
      by decide,F32.one,by decide⟩
  · exact ⟨nothing,by decide⟩
  · exact ⟨⟨nothing,nothing⟩,relative,plain⟩

end SmartFill.Loras
