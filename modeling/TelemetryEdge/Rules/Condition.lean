import Mathlib.Algebra.Order.Ring.Int
import Mathlib.Data.List.Sort
import TelemetryEdge.Protocol.Catalog
import TelemetryEdge.Protocol.Value

/-!
# Rule conditions

Conditions are written in a subset of CEL.  The CEL parser and interpreter are
parameters; checking the syntax tree of a condition and binding the latest
signal values for its evaluation are modelled here.
-/

namespace TelemetryEdge
namespace Rules

open Protocol

/-- Kinds of literals in a CEL syntax tree. -/
inductive LiteralValue
  | boolean | bytes | double | int | null | string | uInt
  deriving DecidableEq

/-- A CEL syntax tree.  Of literals only the kind is kept, and of macros, lists,
maps, field accesses and structs only the expressions in them. -/
inductive Expr
  | unspecified
  | call (target : Option Expr) (funcName : String) (args : List Expr)
  | comprehension (parts : List Expr)
  | ident (name : String)
  | list (elements : List Expr)
  | literal (value : LiteralValue)
  | map (entries : List Expr)
  | select (operand : Expr)
  | struct (entries : List Expr)

/-- Values of the CEL interpreter: the three that stand for signal values, and
all others. -/
inductive CelValue (F Other : Type)
  | bool (value : Bool)
  | float (value : F)
  | string (text : String)
  | other (value : Other)

/-- The CEL library.  Executing a program depends on the program and on the
variables bound in its context, and on nothing else. -/
structure Cel (F : Type) where
  /-- Parsed programs. -/
  Program : Type
  /-- Interpreter values that no signal has. -/
  Other : Type
  /-- `Program::compile`; errors by their text. -/
  compile : String → Except String Program
  /-- `Program::expression`. -/
  expression : Program → Expr
  /-- `Program::execute`; errors by their text. -/
  execute : Program → KeyedMap String (CelValue F Other) →
    Except String (CelValue F Other)
  /-- The `Debug` text of a value. -/
  debug : CelValue F Other → String

/-! ## Checking the syntax tree -/

/-- Longest condition, in characters. -/
def maxConditionChars : Nat := 512

/-- Deepest nesting of a condition. -/
def maxConditionDepth : Nat := 24

/-- The operators that a condition may use. -/
def allowedOperators : List String :=
  ["_&&_", "_||_", "!_", "-_", "_==_", "_!=_", "_<_", "_<=_", "_>_", "_>=_",
    "_+_", "_-_", "_*_", "_/_", "_%_", "_?_:_"]

/-- Insert a name into an ordered set of names. -/
def insertName (name : String) (names : List String) : List String :=
  if name ∈ names then names else names.orderedInsert (· ≤ ·) name

/-- Push the arguments of a call onto the stack, in order, so that the last
one is on top. -/
def pushArgs
    (args : List Expr)
    (depth : Nat)
    (stack : List (Expr × Nat)) : List (Expr × Nat) :=
  (args.map fun arg => (arg, depth)).reverse ++ stack

/-- The arguments of a call weigh less than the call. -/
theorem sizeOf_pushArgs_lt
    (target : Option Expr)
    (funcName : String)
    (args : List Expr)
    (depth : Nat)
    (stack : List (Expr × Nat)) :
    ((pushArgs args depth stack).map fun item => sizeOf item.1).sum <
      sizeOf (Expr.call target funcName args) +
        (stack.map fun item => sizeOf item.1).sum := by
  have argsSize : (args.map sizeOf).sum ≤ sizeOf args := by
    induction args with
    | nil => simp
    | cons arg args inductionHypothesis =>
        rw [List.map_cons, List.sum_cons, List.cons.sizeOf_spec]
        omega
  have sizes : ((args.map fun arg => (arg, depth)).map
      fun item => sizeOf item.1).sum = (args.map sizeOf).sum := by
    rw [List.map_map]
    rfl
  rw [pushArgs, List.map_append, List.map_reverse, List.sum_append,
    List.sum_reverse, sizes, Expr.call.sizeOf_spec]
  omega

/-- The work-list loop over a syntax tree.  The top of the stack is the head of
the list. -/
def checkStack
    (catalog : Catalog F)
    (signals : List String) :
    List (Expr × Nat) → Except String (List String)
  | [] => .ok signals
  | (node, depth) :: rest =>
      if maxConditionDepth < depth then
        .error s!"condition is nested too deeply (limit {maxConditionDepth})"
      else
        match node with
        | .ident name =>
            if (catalog.byName name).isNone then
              .error s!"unknown signal '{name}'"
            else checkStack catalog (insertName name signals) rest
        | .literal .bytes | .literal .null =>
            .error "bytes and null literals are not allowed"
        | .literal _ => checkStack catalog signals rest
        | .call target funcName args =>
            if target.isSome ∨ funcName ∉ allowedOperators then
              .error s!"'{funcName}' is not allowed; only comparison, logical and arithmetic operators"
            else
              checkStack catalog signals (pushArgs args (depth + 1) rest)
        | .select _ => .error "field access is not allowed"
        | .comprehension _ => .error "macros are not allowed"
        | .list _ | .map _ | .struct _ =>
            .error "list, map and struct literals are not allowed"
        | .unspecified => .error "unsupported expression"
termination_by stack => (stack.map fun item => sizeOf item.1).sum
decreasing_by
  · rw [List.map_cons, List.sum_cons, Expr.ident.sizeOf_spec]
    omega
  · rw [List.map_cons, List.sum_cons, Expr.literal.sizeOf_spec]
    omega
  · rw [List.map_cons, List.sum_cons]
    exact sizeOf_pushArgs_lt target funcName args (depth + 1) rest

/-- Check a syntax tree and return the signals it refers to. -/
def checkAst
    (root : Expr)
    (catalog : Catalog F) : Except String (List String) :=
  checkStack catalog [] [(root, 1)]

/-- The signals of an accepted syntax tree do not depend on the catalog. -/
theorem checkStack_unique
    {first second : Catalog F}
    {signals : List String}
    {stack : List (Expr × Nat)}
    {found other : List String}
    (accepted : checkStack first signals stack = .ok found)
    (alsoAccepted : checkStack second signals stack = .ok other) :
    found = other := by
  fun_induction checkStack first signals stack with
  | case1 signals =>
      rw [checkStack] at alsoAccepted
      exact (Except.ok.inj accepted).symm.trans (Except.ok.inj alsoAccepted)
  | case4 signals depth rest shallow name known inductionHypothesis =>
      rw [checkStack, if_neg shallow] at alsoAccepted
      split_ifs at alsoAccepted
      exact inductionHypothesis accepted alsoAccepted
  | case7 signals depth rest shallow literal notBytes notNull
      inductionHypothesis =>
      rw [checkStack.eq_def] at alsoAccepted
      simp only [shallow, if_false] at alsoAccepted
      exact inductionHypothesis accepted (by
        cases literal <;> simp_all)
  | case9 signals depth rest shallow target funcName args allowed
      inductionHypothesis =>
      rw [checkStack, if_neg shallow, if_neg allowed] at alsoAccepted
      exact inductionHypothesis accepted alsoAccepted
  | _ => cases accepted

/-- Why the evaluation of a condition failed. -/
inductive EvalError
  | execution (text : String)
  | notBool (text : String)
  deriving DecidableEq

/-- A compiled, validated condition. -/
structure Condition (cel : Cel F) where
  program : cel.Program
  /-- Catalog signals referenced by the condition, sorted and without
  repetitions. -/
  signals : List String

namespace Condition

variable {cel : Cel F}

/-- Parse and validate a condition. -/
def compile
    (cel : Cel F)
    (source : String)
    (catalog : Catalog F) : Except String (Condition cel) :=
  let chars := source.length
  if maxConditionChars < chars then
    .error s!"condition is {chars} characters, limit is {maxConditionChars}"
  else if Text.isBlank source then .error "condition is empty"
  else
    match cel.compile source with
    | .error error => .error s!"syntax error: {error}"
    | .ok program =>
        match checkAst (cel.expression program) catalog with
        | .error error => .error error
        | .ok signals => .ok { program, signals }

/-- A condition that two catalogs accept compiles to the same result. -/
theorem compile_unique
    {source : String}
    {first second : Catalog F}
    {found other : Condition cel}
    (compiled : Condition.compile cel source first = .ok found)
    (alsoCompiled : Condition.compile cel source second = .ok other) :
    found = other := by
  unfold Condition.compile at compiled alsoCompiled
  simp only at compiled alsoCompiled
  split_ifs at compiled alsoCompiled
  cases parsed : cel.compile source with
  | error error =>
      rw [parsed] at compiled
      cases compiled
  | ok program =>
      simp only [parsed] at compiled alsoCompiled
      cases checked : checkAst (cel.expression program) first with
      | error error =>
          rw [checked] at compiled
          cases compiled
      | ok signals =>
          cases alsoChecked : checkAst (cel.expression program) second with
          | error error =>
              rw [alsoChecked] at alsoCompiled
              cases alsoCompiled
          | ok otherSignals =>
              rw [checked] at compiled
              rw [alsoChecked] at alsoCompiled
              obtain rfl := Except.ok.inj compiled
              obtain rfl := Except.ok.inj alsoCompiled
              rw [checkStack_unique checked alsoChecked]

/-- The interpreter value of a signal value. -/
def celValue : SignalValue F → CelValue F Other
  | .bool value => .bool value
  | .num value => .float value
  | .enum label => .string label

/-- Bind the values of signals in a context; `none` when one has no value. -/
def bindSignals
    (lookup : String → Option (SignalValue F)) :
    KeyedMap String (CelValue F Other) → List String →
      Option (KeyedMap String (CelValue F Other))
  | context, [] => some context
  | context, name :: names =>
      match lookup name with
      | none => none
      | some value => bindSignals lookup (context.insert name (celValue value)) names

/-- Evaluate a condition against the latest signal values.  A referenced signal
without a value makes the condition false. -/
def evaluate
    (condition : Condition cel)
    (lookup : String → Option (SignalValue F)) : Except EvalError Bool :=
  match bindSignals lookup ∅ condition.signals with
  | none => .ok false
  | some context =>
      match cel.execute condition.program context with
      | .ok (.bool value) => .ok value
      | .ok value => .error (.notBool (cel.debug value))
      | .error error => .error (.execution error)

/-- Only the values of the referenced signals are looked at. -/
theorem bindSignals_congr
    {lookup other : String → Option (SignalValue F)}
    {names : List String}
    (agree : ∀ name ∈ names, lookup name = other name)
    (context : KeyedMap String (CelValue F Other)) :
    bindSignals lookup context names = bindSignals other context names := by
  induction names generalizing context with
  | nil => rfl
  | cons name names inductionHypothesis =>
      simp only [bindSignals, agree name List.mem_cons_self]
      cases other name with
      | none => rfl
      | some value =>
          exact inductionHypothesis
            (fun later member => agree later (List.mem_cons_of_mem _ member)) _

/-- Binding stops at a referenced signal without a value. -/
theorem bindSignals_eq_none
    {lookup : String → Option (SignalValue F)}
    {names : List String}
    {name : String}
    (member : name ∈ names)
    (missing : lookup name = none)
    (context : KeyedMap String (CelValue F Other)) :
    bindSignals lookup context names = none := by
  induction names generalizing context with
  | nil => cases member
  | cons first names inductionHypothesis =>
      rw [bindSignals]
      cases found : lookup first with
      | none => rfl
      | some value =>
          rcases List.mem_cons.mp member with rfl | inTail
          · rw [missing] at found
            cases found
          · exact inductionHypothesis inTail _

/-- A condition that refers to a signal without a value is false. -/
theorem evaluate_eq_false_of_missing
    {condition : Condition cel}
    {lookup : String → Option (SignalValue F)}
    {name : String}
    (member : name ∈ condition.signals)
    (missing : lookup name = none) :
    condition.evaluate lookup = .ok false := by
  rw [evaluate, bindSignals_eq_none member missing]

/-- A condition sees only the signals it refers to. -/
theorem evaluate_congr
    {condition : Condition cel}
    {lookup other : String → Option (SignalValue F)}
    (agree : ∀ name ∈ condition.signals, lookup name = other name) :
    condition.evaluate lookup = condition.evaluate other := by
  simp only [evaluate, bindSignals_congr agree]

end Condition

end Rules
end TelemetryEdge
