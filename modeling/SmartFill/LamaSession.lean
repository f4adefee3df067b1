import SmartFill.Types
import SmartFill.Lib.RowMajor

namespace SmartFill

inductive LamaBackend where
  | cpu
  | cuda
  deriving DecidableEq

structure LamaSession where
  modelPath : Bytes
  backend : LamaBackend
  deriving DecidableEq

structure Tensor (F : Type) where
  shape : List Int
  data : List F

-- ONNX Runtime: the numbers of inputs and outputs of the model a session loads,
-- and its answers to the calls made on it, in any order and not repeatable.
structure Onnx (F : Type) where
  load : LamaSession → Except Bytes (Nat × Nat)
  run : LamaSession → Nat → List F → List F → Except Bytes (List (Tensor F))

namespace LamaSession
variable {F : Type}

def kImageSize : Nat := 512
def kChannels : Nat := 3

def natText (n : Nat) : Bytes := decimal n

def ensureInitialized (onnx : Onnx F) (session : LamaSession) : Except Bytes Unit :=
  match onnx.load session with
  | .error what => .error (ascii "LamaSession: failed to load model: " ++ what)
  | .ok (inputs,outputs) =>
    if inputs < 2 ∨ outputs = 0 then
      .error (ascii "LamaSession: model has unexpected I/O shape (" ++ natText inputs ++ ascii " inputs, " ++
        natText outputs ++ ascii " outputs); expected >=2 in, >=1 out")
    else .ok ()

-- HWC interleaved to CHW planar
def imgChw (ops : FloatOps F) (rgb : List F) : List F :=
  RowMajor.blocks kChannels (fun c =>
    (List.range (kImageSize*kImageSize)).map (fun i => rgb.getD (i*kChannels+c) ops.zero))

-- CHW planar to HWC interleaved, from [0,255] to [0,1]
def outHwc (ops : FloatOps F) (chw : List F) : List F :=
  RowMajor.blocks (kImageSize*kImageSize) (fun i =>
    (List.range kChannels).map (fun c =>
      ops.mul (chw.getD (c*kImageSize*kImageSize+i) ops.zero) (ops.div ops.one (ops.ofInt 255))))

def shapeText (shape : List Int) : Bytes :=
  ascii "[" ++ (ascii ",").intercalate (shape.map decimal) ++ ascii "]"

def expectedShape : List Int := [1,kChannels,kImageSize,kImageSize]

def run (ops : FloatOps F) (onnx : Onnx F) (session : LamaSession) (call : Nat) (rgb mask : List F) :
    Except Bytes (List F) := do
  ensureInitialized onnx session
  match onnx.run session call (imgChw ops rgb) (mask.take (kImageSize*kImageSize)) with
  | .error what => throw (ascii "LamaSession::run: inference failed: " ++ what)
  | .ok [] => throw (ascii "LamaSession::run: no outputs returned")
  | .ok (output :: _) =>
    if output.shape = expectedShape then return outHwc ops output.data
    else throw (ascii "LamaSession::run: unexpected output shape " ++ shapeText output.shape ++
      ascii ", expected " ++ shapeText expectedShape)

end LamaSession

end SmartFill
