import TelemetryEdge.Foundation.Float64

/-!
# Rule set documents

The rule set as fetched from the cloud.  Validation and compilation live with
the rule engine.
-/

namespace TelemetryEdge
namespace Protocol

/-- The `model` value that matches every vehicle model. -/
def anyModel : String := "*"

/-- When a rule logs its signal. -/
inductive Mode
  | onChange
  | periodic
  deriving DecidableEq

/-- One rule of a rule set document. -/
structure Rule (F : Type) where
  id : String
  signal : String
  mode : Mode
  /-- `periodic` only: emit interval. -/
  intervalMs : Option UInt64
  /-- `periodic` only: skip values older than this. -/
  maxAgeMs : Option UInt64
  /-- `onChange` only, numeric signals: minimum change to log. -/
  deadband : Option F
  /-- Optional CEL boolean expression over catalog signal names. -/
  condition : Option String
  deriving DecidableEq

namespace Rule

/-- Equality of optional deadbands as floating-point numbers. -/
def deadbandEq [F64 F] : Option F → Option F → Bool
  | none, none => true
  | some left, some right => F64.eq left right
  | _, _ => false

/-- The derived `PartialEq` of rule definitions. -/
def eq [F64 F] (left right : Rule F) : Bool :=
  left.id == right.id && left.signal == right.signal &&
    left.mode == right.mode && left.intervalMs == right.intervalMs &&
    left.maxAgeMs == right.maxAgeMs &&
    deadbandEq left.deadband right.deadband &&
    left.condition == right.condition

/-- Equal definitions agree in every field but the deadband, which is equal as
a floating-point number. -/
theorem eq_iff [F64 F] (left right : Rule F) :
    left.eq right = true ↔
      left.id = right.id ∧ left.signal = right.signal ∧
        left.mode = right.mode ∧ left.intervalMs = right.intervalMs ∧
        left.maxAgeMs = right.maxAgeMs ∧
        deadbandEq left.deadband right.deadband = true ∧
        left.condition = right.condition := by
  simp only [eq, Bool.and_eq_true, beq_iff_eq, and_assoc]

end Rule

/-- A rule set document. -/
structure RuleSet (F : Type) where
  rulesetVersion : UInt64
  model : String
  rules : List (Rule F)

end Protocol
end TelemetryEdge
