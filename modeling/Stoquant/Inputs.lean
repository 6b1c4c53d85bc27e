import Stoquant.Design
import Stoquant.Dict.Basic
import Stoquant.Text.Decimal

/-!
# Input families

The inputs of a sweep as `inputs.py` names them: each family is a dictionary
from input keys to element counts.  The values are drawn by the random
generator and do not matter here.
-/

namespace Stoquant

open Text

/-- `ModelTensor`. -/
structure ModelTensor where
  name : String
  shape : List ℕ
  kind : String
  deriving DecidableEq, Repr

def ModelTensor.count (tensor : ModelTensor) : ℕ := tensor.shape.prod

/-- `conv_bn`: a convolution and the two parameters of its batch norm. -/
def convBn (convName bnName : String) (outCh inCh k : ℕ) : List ModelTensor :=
  [⟨convName ++ ".weight", [outCh, inCh, k, k], "conv"⟩,
    ⟨bnName ++ ".weight", [outCh], "bn"⟩, ⟨bnName ++ ".bias", [outCh], "bn"⟩]

/-- The two blocks of a stage; the first one projects when the width changes. -/
def resnetStage (stage inCh outCh : ℕ) : List ModelTensor :=
  (List.range 2).flatMap fun block =>
    let name := "layer" ++ decimal stage ++ "." ++ decimal block
    let blockIn := if block = 0 then inCh else outCh
    convBn (name ++ ".conv1") (name ++ ".bn1") outCh blockIn 3 ++
      convBn (name ++ ".conv2") (name ++ ".bn2") outCh outCh 3 ++
      if block = 0 ∧ blockIn ≠ outCh then
        convBn (name ++ ".shortcut.0") (name ++ ".shortcut.1") outCh blockIn 1
      else []

/-- `RESNET18_CIFAR_TENSORS`. -/
def resnet18CifarTensors : List ModelTensor :=
  convBn "conv1" "bn1" 64 3 3 ++
    resnetStage 1 64 64 ++ resnetStage 2 64 128 ++ resnetStage 3 128 256 ++
    resnetStage 4 256 512 ++
    [⟨"linear.weight", [10, 512], "linear"⟩, ⟨"linear.bias", [10], "bias"⟩]

/-- The first tensor of each shape and kind, in order. -/
def distinctTensors : List (List ℕ × String) → List ModelTensor → List ModelTensor
  | _, [] => []
  | seen, tensor :: tensors =>
      if (tensor.shape, tensor.kind) ∈ seen then distinctTensors seen tensors
      else
        tensor :: distinctTensors ((tensor.shape, tensor.kind) :: seen) tensors

/-- `select_model_tensors`. -/
def selectModelTensors (mode : String) (limit : Option ℤ) :
    Except PyError (List ModelTensor) :=
  if mode ≠ "distinct" ∧ mode ≠ "all" then
    .error (.valueError ("unknown model tensor set '" ++ mode ++
      "'; choose from ('distinct', 'all')"))
  else if (limit.map fun n => decide (n < 1)) = some true then
    .error (.valueError "the model tensor limit must be at least 1")
  else
    let selected :=
      if mode = "all" then resnet18CifarTensors
      else distinctTensors [] resnet18CifarTensors
    .ok (match limit with
      | some n => selected.take n.toNat
      | none => selected)

/-- The keys and counts of `generate_family_inputs`.  A negative count makes the
random generator raise. -/
def generateFamilyInputs (family : String) (counts : List ℤ) (modelTensors : String)
    (modelLimit : Option ℤ) : Except PyError (List (String × ℤ)) :=
  if family ≠ "model" ∧ counts.any (fun count => decide (count < 0)) then
    .error (.valueError "expected non-negative integer")
  else if family = "dense" then
    .ok (Dict.ofEntries (counts.map fun count => ("n" ++ decimal count, count)))
  else if family = "sparse" then
    .ok (Dict.ofEntries
      (counts.map fun count => ("sparse_n" ++ decimal count, count)))
  else if family = "model" then do
    let tensors ← selectModelTensors modelTensors modelLimit
    return Dict.ofEntries
      (tensors.map fun tensor => ("model_" ++ tensor.name, (tensor.count : ℤ)))
  else
    .error (.valueError ("unknown input family '" ++ family ++
      "'; choose from ('dense', 'sparse', 'model')"))

/-- Input keys are distinct in every family. -/
theorem generateFamilyInputs_nodup {family : String} {counts : List ℤ}
    {modelTensors : String} {modelLimit : Option ℤ} {inputs : List (String × ℤ)}
    (generated : generateFamilyInputs family counts modelTensors modelLimit =
      .ok inputs) : (Dict.keys inputs).Nodup := by
  unfold generateFamilyInputs at generated
  split at generated
  · cases generated
  split at generated
  · cases generated
    exact Dict.keys_nodup _
  split at generated
  · cases generated
    exact Dict.keys_nodup _
  split at generated
  · cases selected : selectModelTensors modelTensors modelLimit with
    | error error =>
        rw [selected] at generated
        cases generated
    | ok tensors =>
        rw [selected] at generated
        cases generated
        exact Dict.keys_nodup _
  · cases generated

end Stoquant
