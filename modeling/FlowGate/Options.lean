/-
This file holds the settings of a validation: how deep a workflow may be nested, and whether a
group without conditions is accepted. A field that is left out has its default.
-/

import FlowGate.Shape.OfText

namespace FlowGate

/-- The settings of a validation. -/
structure Options where
  /-- The number of steps below the trigger that one chain of continuations may have. -/
  maxDepth : UInt64
  /-- Whether a group without conditions is reported instead of always holding. -/
  rejectEmptyConditionGroups : Bool
  deriving DecidableEq, Repr

namespace Options

/-- The settings that hold where none are given. -/
def default : Options :=
  ⟨10000, false⟩

instance : Inhabited Options := ⟨default⟩

/-- The form of the settings on the wire. -/
def form : Form Options where
  shape :=
    .record "ValidationOptions" (.field "maxDepth" .omissible .count
      (.field "rejectEmptyConditionGroups" .omissible .flag .nil))
  toCarrier options := (some options.maxDepth, some options.rejectEmptyConditionGroups, ())
  ofCarrier := fun (maxDepth, rejectEmptyConditionGroups, ()) =>
    ⟨maxDepth.getD default.maxDepth,
      rejectEmptyConditionGroups.getD default.rejectEmptyConditionGroups⟩
  lossless _ := rfl

end Options

end FlowGate
