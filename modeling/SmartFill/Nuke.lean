import SmartFill.Runtime

namespace SmartFill

inductive Channel where
  | red
  | green
  | blue
  | alpha
  | other (n : Nat)
  deriving DecidableEq

-- Bounding box: x ≤ px < r and y ≤ py < t.
structure Box where
  x : Int
  y : Int
  r : Int
  t : Int
  deriving DecidableEq

def Box.w (b : Box) : Int := b.r - b.x
def Box.h (b : Box) : Int := b.t - b.y
def Box.Contains (b : Box) (x y : Int) : Prop := b.x ≤ x ∧ x < b.r ∧ b.y ≤ y ∧ y < b.t

-- A connected input at one moment: the value of its op hash, its box and
-- format, and the pixels it cooks. Not every Op is an Iop.
structure Input where
  hash : UInt64
  isIop : Bool
  box : Box
  formatWidth : Int
  formatHeight : Int
  pixel : Channel → Int → Int → F32

-- The statements of _validate after which an exception can leave it.
inductive Stop where
  | beforePoll
  | beforeKey
  | beforeLoad
  deriving DecidableEq

-- Where one Bake press ends: with a message, with the cache file found, or at
-- worker_.start with the job it would hand over.
inductive Outcome (N T : Type) where
  | stopped (node : N)
  | cached (node : N)
  | ready (node : N) (job : BakeJob T)

def Outcome.node : Outcome N T → N
  | .stopped node | .cached node | .ready node _ => node

def backslash : UInt8 := 92
def slash : UInt8 := 47

def forwardSlashes (s : Bytes) : Bytes := s.map (fun c => if c = backslash then slash else c)

def clearedText (n : Nat) : Bytes := ascii "Cleared " ++ decimal n ++ ascii " cached file(s)"

def splitLast (c : UInt8) (s : Bytes) : Option (Bytes × Bytes) :=
  match s.reverse.idxOf? c with
  | none => none
  | some i => some (s.take (s.length-i-1),s.drop (s.length-i-1))

def trimSlashes (s : Bytes) : Bytes := (s.reverse.dropWhile (· = slash)).reverse

-- fs::path::extension() of an entry that is in the directory.
def extensionIn (dir : Bytes) (p : Path) : Option Bytes :=
  match splitLast slash p with
  | none => none
  | some (parent,name) =>
    if trimSlashes parent ≠ trimSlashes dir then none else
    match splitLast 46 (name.drop 1) with
    | none => some []
    | some ([],_) => some []
    | some (_,extension) => some extension

def clearable (extension dir : Bytes) (refused : Path → Bool) (disk : Files) : List Path :=
  (disk.files.entries.map (·.1)).filter (fun p => extensionIn dir p = some extension && !refused p)

def isDirectory (dir : Bytes) (disk : Files) : Bool :=
  decide (trimSlashes dir ∈ disk.dirs.map trimSlashes)

example : extensionIn (ascii "/c/") (ascii "/c/ab.aifill") = some (ascii ".aifill") ∧
    extensionIn (ascii "/c") (ascii "/c/.aifill") = some [] ∧
    extensionIn (ascii "/c") (ascii "/c/d/ab.aifill") = none := by decide

end SmartFill
