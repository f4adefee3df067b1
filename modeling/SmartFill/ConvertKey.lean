import SmartFill.Lib.PrefixRules
import Mathlib.Data.List.AList
import Mathlib.Data.List.DropRight

-- tools/convert_sdxl_controlnet.py: tensor names are Python strings.
namespace SmartFill.ConvertKey
open PrefixRules

abbrev Name := List Char

def text (s : String) : Name := s.toList

-- What int() asks of Unicode and of the interpreter: white space, the value of
-- a decimal digit, and how many digits are refused.
structure Unicode where
  isSpace : Char → Bool
  decimal : Char → Option Nat
  tooLong : Nat → Bool

inductive Raised where
  | valueError (literal : Name)
  deriving DecidableEq

section Int
variable (u : Unicode)

-- Value and number of the digits; one underscore may stand between two of them.
def digitsFrom : Bool → Nat × Nat → Name → Option (Nat × Nat)
  | afterDigit,read,[] => if afterDigit then some read else none
  | afterDigit,(value,count),c :: rest =>
    if c = '_' then (if afterDigit then digitsFrom false (value,count) rest else none) else
    match u.decimal c with
    | none => none
    | some digit => digitsFrom true (value*10+digit,count+1) rest

def stripped (s : Name) : Name := (s.dropWhile u.isSpace).rdropWhile u.isSpace

def unsigned (s : Name) : Option Int :=
  match digitsFrom u false (0,0) s with
  | none => none
  | some (value,count) => if u.tooLong count then none else some value

-- The value of a literal int() accepts.
def literal (s : Name) : Option Int :=
  match stripped u s with
  | '-' :: rest => (unsigned u rest).map (fun n => -n)
  | '+' :: rest => unsigned u rest
  | rest => unsigned u rest

def int (s : Name) : Except Raised Int :=
  match literal u s with
  | none => .error (.valueError s)
  | some n => .ok n

end Int

def resnetSub : List (Name × Name) :=
  [(text "conv1.weight",text "in_layers.2.weight"),
    (text "conv1.bias",text "in_layers.2.bias"),
    (text "norm1.weight",text "in_layers.0.weight"),
    (text "norm1.bias",text "in_layers.0.bias"),
    (text "conv2.weight",text "out_layers.3.weight"),
    (text "conv2.bias",text "out_layers.3.bias"),
    (text "norm2.weight",text "out_layers.0.weight"),
    (text "norm2.bias",text "out_layers.0.bias"),
    (text "time_emb_proj.weight",text "emb_layers.1.weight"),
    (text "time_emb_proj.bias",text "emb_layers.1.bias"),
    (text "conv_shortcut.weight",text "skip_connection.weight"),
    (text "conv_shortcut.bias",text "skip_connection.bias")]

def resnetToIb : List ((Int × Int) × Nat) := [((0,0),1),((0,1),2),((1,0),4),((1,1),5),((2,0),7),((2,1),8)]
def attnToIb : List ((Int × Int) × Nat) := [((1,0),4),((1,1),5),((2,0),7),((2,1),8)]
def downToIb : List (Int × Nat) := [(0,3),(1,6)]
def condEmbedToHint : List (Int × Nat) := [(0,2),(1,4),(2,6),(3,8),(4,10),(5,12)]

-- An f-string prints an int in decimal.
def printed (n : Nat) : Name := Nat.toDigits 10 n

def hintPlace (j : Nat) : Name := text "input_hint_block." ++ printed j ++ text "."
def inputPlace (ib : Nat) (kind : Name) : Name := text "input_blocks." ++ printed ib ++ kind
def middlePlace (mb : Nat) : Name := text "middle_block." ++ printed mb ++ text "."

def midBlockIndex (rn : Int) : Nat := if rn = 0 then 0 else 2

-- The prefixes that are replaced as they stand.
def replaced : List (Name × Name) :=
  [(text "conv_in.",text "input_blocks.0.0."),
    (text "time_embedding.linear_1.",text "time_embed.0."),
    (text "time_embedding.linear_2.",text "time_embed.2."),
    (text "add_embedding.linear_1.",text "label_emb.0.0."),
    (text "add_embedding.linear_2.",text "label_emb.0.2."),
    (text "controlnet_cond_embedding.conv_in.",text "input_hint_block.0."),
    (text "controlnet_cond_embedding.conv_out.",text "input_hint_block.14."),
    (text "controlnet_mid_block.",text "middle_block_out.0.")]

abbrev Outcome := Except Raised (Option Name)

def condBlocks : Name := text "controlnet_cond_embedding.blocks."
def zeroConvs : Name := text "controlnet_down_blocks."
def downBlocks : Name := text "down_blocks."
def midBlocks : Name := text "mid_block."

section Rules
variable (u : Unicode)

def condBlock (rest : Name) : Outcome := do
  let (idxS,suffix) := partition ['.'] rest
  let idx ← int u idxS
  return (condEmbedToHint.lookup idx).map (fun j => hintPlace j ++ suffix)

def zeroConv (rest : Name) : Outcome :=
  let (idxS,suffix) := partition ['.'] rest
  return some (text "zero_convs." ++ idxS ++ text ".0." ++ suffix)

def downBlock (rest : Name) : Outcome := do
  let (blockS,after) := partition ['.'] rest
  let (kind,after2) := partition ['.'] after
  let blockI ← int u blockS
  if kind = text "resnets" then
    let (rnS,sub) := partition ['.'] after2
    let rn ← int u rnS
    match resnetToIb.lookup (blockI,rn) with
    | none => return none
    | some ib => return (resnetSub.lookup sub).map (fun legacySub => inputPlace ib (text ".0.") ++ legacySub)
  else if kind = text "attentions" then
    let (attnS,sub) := partition ['.'] after2
    let attn ← int u attnS
    return (attnToIb.lookup (blockI,attn)).map (fun ib => inputPlace ib (text ".1.") ++ sub)
  else if kind = text "downsamplers" then
    match downToIb.lookup blockI with
    | none => return none
    | some ib =>
      let (_,suffix) := partition (text "conv.") after2
      return some (inputPlace ib (text ".0.op.") ++ suffix)
  else return none

def midBlock (rest : Name) : Outcome := do
  let (kind,after) := partition ['.'] rest
  if kind = text "resnets" then
    let (rnS,sub) := partition ['.'] after
    let rnI ← int u rnS
    return (resnetSub.lookup sub).map (fun legacySub => middlePlace (midBlockIndex rnI) ++ legacySub)
  else if kind = text "attentions" then
    let (_,sub) := partition ['.'] after
    return some (middlePlace 1 ++ sub)
  else return none

-- None of the prefixes begins another one: the order of the tests is immaterial.
def rules : List (Name × (Name → Outcome)) :=
  replaced.map (fun (source,target) => (source,fun rest => .ok (some (target ++ rest)))) ++
    [(condBlocks,condBlock u),(zeroConvs,zeroConv),(downBlocks,downBlock u),(midBlocks,midBlock u)]

def convertKey (k : Name) : Outcome := dispatch (rules u) (.ok none) k

end Rules

structure Tensor (α : Type) where
  shape : List Nat
  data : α

def endswith (s suffix : Name) : Bool := suffix.isSuffixOf s

-- A 2D weight of proj_in or proj_out becomes a 1x1 convolution.
def linear (newK : Name) {α : Type} (t : Tensor α) : Bool :=
  (endswith newK (text ".proj_in.weight") || endswith newK (text ".proj_out.weight")) && decide (t.shape.length = 2)

def stored (newK : Name) {α : Type} (t : Tensor α) : Tensor α :=
  if linear newK t then ⟨t.shape ++ [1,1],t.data⟩ else t

structure Converted (α : Type) where
  tensors : AList (fun _ : Name => Tensor α)
  unmapped : List Name
  reshaped : List Name

section Loop
variable {α : Type} (u : Unicode) (getTensor : Name → Tensor α)

def record (k : Name) : Option Name → Converted α → Converted α
  | none,c => ⟨c.tensors,c.unmapped ++ [k],c.reshaped⟩
  | some newK,c =>
    ⟨c.tensors.insert newK (stored newK (getTensor k)),c.unmapped,
      if linear newK (getTensor k) then c.reshaped ++ [newK] else c.reshaped⟩

def convert : List Name → Converted α → Except Raised (Converted α)
  | [],c => .ok c
  | k :: rest,c =>
    match convertKey u k with
    | .error raised => .error raised
    | .ok newK => convert rest (record getTensor k newK c)

def main (keys : List Name) : Except Raised (Converted α) := convert u getTensor keys ⟨∅,[],[]⟩

end Loop

end SmartFill.ConvertKey
