import TelemetryEdge.Foundation.Float64

/-!
# Signal values

The decoded, physical value of a signal.
-/

namespace TelemetryEdge
namespace Protocol

/-- A decoded, physical signal value. -/
inductive SignalValue (F : Type)
  | bool (value : Bool)
  | num (value : F)
  | enum (label : String)
  deriving DecidableEq

namespace SignalValue

/-- The number of a numeric value. -/
def asNum : SignalValue F → Option F
  | .num value => some value
  | _ => none

/-- The derived `PartialEq`: values of different variants differ, and numbers
are compared as floating-point numbers. -/
def eq [F64 F] : SignalValue F → SignalValue F → Bool
  | .bool left, .bool right => left == right
  | .num left, .num right => F64.eq left right
  | .enum left, .enum right => left == right
  | _, _ => false

end SignalValue
end Protocol
end TelemetryEdge
