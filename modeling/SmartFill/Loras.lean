import SmartFill.SdSession

namespace SmartFill

-- std::stof: the value and how many characters it took, or a throw.
abbrev Stof := Bytes → Option (F32 × Nat)

namespace Loras

def newline : UInt8 := 10
def hash : UInt8 := 35
def colon : UInt8 := 58

def isBlank (c : UInt8) : Bool := c = 32 || c = 9 || c = 13 || c = newline

def trim (s : Bytes) : Bytes := ((s.dropWhile isBlank).reverse.dropWhile isBlank).reverse

-- std::getline until the stream is at its end
def lines : Bytes → List Bytes
  | [] => []
  | c :: rest =>
    if c = newline then [] :: lines rest else
    match lines rest with
    | [] => [[c]]
    | line :: others => (c :: line) :: others

def rfind (c : UInt8) (s : Bytes) : Option Nat := (s.reverse.idxOf? c).map (fun i => s.length-1-i)

-- "path : weight" split at the last colon, unless that is a drive letter's or
-- what follows is not a float.
def splitWeight (stof : Stof) (line : Bytes) : Bytes × F32 :=
  match rfind colon line with
  | none => (line,F32.one)
  | some i =>
    if i ≤ 1 then (line,F32.one) else
    let maybeWeight := trim (line.drop (i+1))
    match stof maybeWeight with
    | none => (line,F32.one)
    | some (w,consumed) =>
      if consumed = maybeWeight.length then (trim (line.take i),w) else (line,F32.one)

def isAbsolute : Bytes → Bool
  | [] => false
  | [c] => c = 47 || c = 92
  | c :: d :: _ => c = 47 || c = 92 || d = colon

def resolve (lorasDir path : Bytes) : Bytes :=
  if !isAbsolute path && lorasDir ≠ [] then lorasDir ++ ascii "/" ++ path else path

def parseLine (stof : Stof) (lorasDir line : Bytes) : Option LoRASpec :=
  let line := trim line
  if line = [] ∨ line.head? = some hash then none else
  let (path,weight) := splitWeight stof line
  if path = [] ∨ F32.eq weight F32.zero = true then none
  else some ⟨resolve lorasDir path,weight⟩

def parseLoras (stof : Stof) (text lorasDir : Bytes) : List LoRASpec :=
  (lines text).filterMap (parseLine stof lorasDir)

end Loras

end SmartFill
