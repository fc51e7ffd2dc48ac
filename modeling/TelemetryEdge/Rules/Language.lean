import TelemetryEdge.Foundation.Traversal
import TelemetryEdge.Rules.Condition

/-!
# The language of conditions

The work-list loop over the syntax tree of a condition accepts a tree exactly
when every node of it, taken on its own, is inside the language and none lies
too deep.  What it returns are the identifiers of the tree, so executing an
accepted condition finds every variable bound.
-/

namespace TelemetryEdge
namespace Rules

open Protocol

namespace Expr

/-- The expressions directly inside an expression. -/
def children : Expr → List Expr
  | .call target _ args => target.toList ++ args
  | .comprehension parts => parts
  | .list elements => elements
  | .map entries => entries
  | .select operand => [operand]
  | .struct entries => entries
  | .unspecified | .ident _ | .literal _ => []

/-- The nodes of a syntax tree with their depths; the root has depth one. -/
def nodes (root : Expr) : Set (Expr × Nat) :=
  Traversal.nodes children (root, 1)

/-- The identifiers in a syntax tree. -/
def identifiers (root : Expr) : Set String :=
  {name | ∃ depth, (.ident name, depth) ∈ root.nodes}

/-- Whether a node, taken on its own, is inside the language. -/
def Permitted (catalog : Catalog F) : Expr → Prop
  | .ident name => (catalog.byName name).isSome
  | .literal value => value ≠ .bytes ∧ value ≠ .null
  | .call target funcName _ => target = none ∧ funcName ∈ allowedOperators
  | _ => False

/-- Whether a whole syntax tree is inside the language of conditions. -/
structure InLanguage (catalog : Catalog F) (root : Expr) : Prop where
  /-- No node lies too deep. -/
  shallow : ∀ node depth, (node, depth) ∈ root.nodes →
    depth ≤ maxConditionDepth
  /-- Every node is inside the language. -/
  permitted : ∀ node depth, (node, depth) ∈ root.nodes →
    node.Permitted catalog

/-- The set of signals after a node has been visited. -/
def record (signals : List String) : Expr → List String
  | .ident name => insertName name signals
  | _ => signals

end Expr

@[simp] theorem mem_insertName
    (name other : String)
    (names : List String) :
    other ∈ insertName name names ↔ other = name ∨ other ∈ names := by
  unfold insertName
  split
  · next member =>
      constructor
      · exact Or.inr
      · rintro (rfl | inNames)
        · exact member
        · exact inNames
  · exact List.mem_orderedInsert (· ≤ ·)

/-- Inserting a name keeps names strictly increasing. -/
theorem pairwise_insertName
    (name : String)
    {names : List String}
    (increasing : names.Pairwise (· < ·)) :
    (insertName name names).Pairwise (· < ·) := by
  unfold insertName
  split
  · exact increasing
  · next absent =>
      induction names with
      | nil => simp
      | cons first names inductionHypothesis =>
          rw [List.mem_cons, not_or] at absent
          rw [List.pairwise_cons] at increasing
          rw [List.orderedInsert_cons]
          split
          · next before =>
              have less : name < first := lt_of_le_of_ne before absent.1
              rw [List.pairwise_cons, List.forall_mem_cons]
              refine ⟨⟨less, fun later member => ?_⟩,
                List.pairwise_cons.mpr increasing⟩
              exact less.trans (increasing.1 later member)
          · next after =>
              rw [List.pairwise_cons]
              refine ⟨fun later member => ?_,
                inductionHypothesis increasing.2 absent.2⟩
              rcases (List.mem_orderedInsert (· ≤ ·)).mp member with rfl | inNames
              · exact not_le.mp after
              · exact increasing.1 later inNames

section Loop

variable {catalog : Catalog F} {signals : List String} {node : Expr}
  {depth : Nat} {rest : List (Expr × Nat)}

/-- A node inside the language is recorded and replaced by its children. -/
theorem checkStack_of_permitted
    (shallow : depth ≤ maxConditionDepth)
    (permitted : node.Permitted catalog) :
    checkStack catalog signals ((node, depth) :: rest) =
      checkStack catalog (node.record signals)
        ((node.children.map fun child => (child, depth + 1)).reverse ++
          rest) := by
  have notDeep : ¬maxConditionDepth < depth := Nat.not_lt.mpr shallow
  cases node with
  | ident name =>
      have known : ¬(catalog.byName name).isNone = true := by
        rw [Option.isNone_iff_eq_none, ← ne_eq, Option.ne_none_iff_isSome]
        exact permitted
      rw [checkStack, if_neg notDeep, if_neg known]
      rfl
  | literal value =>
      obtain ⟨notBytes, notNull⟩ := permitted
      rw [checkStack.eq_def]
      simp only [if_neg notDeep]
      cases value <;> first | contradiction | rfl
  | call target funcName args =>
      obtain ⟨rfl, allowed⟩ := permitted
      have passes : ¬((none : Option Expr).isSome ∨ funcName ∉ allowedOperators) := by
        simpa using allowed
      rw [checkStack, if_neg notDeep, if_neg passes]
      rfl
  | _ => exact permitted.elim

/-- A node that lies too deep or is outside the language ends the loop with an
error. -/
theorem checkStack_of_not_permitted
    (signals : List String)
    (rest : List (Expr × Nat))
    (outside : ¬(depth ≤ maxConditionDepth ∧ node.Permitted catalog)) :
    ∃ error, checkStack catalog signals ((node, depth) :: rest) =
      .error error := by
  rw [checkStack.eq_def]
  simp only
  split_ifs with deep
  · exact ⟨_, rfl⟩
  · have rejected : ¬node.Permitted catalog := fun permitted =>
      outside ⟨Nat.not_lt.mp deep, permitted⟩
    cases node with
    | ident name =>
        have unknown : (catalog.byName name).isNone = true := by
          rw [Option.isNone_iff_eq_none, ← Option.not_isSome_iff_eq_none]
          exact rejected
        exact ⟨_, if_pos unknown⟩
    | literal value =>
        cases value with
        | bytes => exact ⟨_, rfl⟩
        | null => exact ⟨_, rfl⟩
        | _ => exact absurd ⟨by decide, by decide⟩ rejected
    | call target funcName args =>
        refine ⟨_, if_pos ?_⟩
        by_contra passes
        rw [not_or, Bool.not_eq_true, Option.isSome_eq_false_iff,
          Option.isNone_iff_eq_none, not_not] at passes
        exact rejected passes
    | _ => exact ⟨_, rfl⟩

/-- Induction along the loop: it ends, rejects the node on top of the stack, or
goes on with its children. -/
theorem checkStack_induction
    (catalog : Catalog F)
    {motive : List String → List (Expr × Nat) → Prop}
    (finished : ∀ signals, motive signals [])
    (rejected : ∀ signals node depth rest,
      ¬(depth ≤ maxConditionDepth ∧ node.Permitted catalog) →
        motive signals ((node, depth) :: rest))
    (visited : ∀ signals node depth rest,
      depth ≤ maxConditionDepth → node.Permitted catalog →
        motive (node.record signals)
          ((node.children.map fun child => (child, depth + 1)).reverse ++
            rest) →
          motive signals ((node, depth) :: rest))
    (signals : List String)
    (stack : List (Expr × Nat)) :
    motive signals stack := by
  fun_induction checkStack catalog signals stack with
  | case1 signals => exact finished signals
  | case2 signals node depth rest deep =>
      apply rejected
      exact fun fine => Nat.not_lt.mpr fine.1 deep
  | case3 signals depth rest shallow name unknown =>
      apply rejected
      rintro ⟨-, known⟩
      rw [Option.isNone_iff_eq_none, ← Option.not_isSome_iff_eq_none] at unknown
      exact unknown known
  | case4 signals depth rest shallow name known inductionHypothesis =>
      apply visited _ (.ident name) _ _ (Nat.not_lt.mp shallow) _
        inductionHypothesis
      rw [Option.isNone_iff_eq_none, ← ne_eq, Option.ne_none_iff_isSome] at known
      exact known
  | case5 signals depth rest shallow =>
      apply rejected
      exact fun fine => fine.2.1 rfl
  | case6 signals depth rest shallow =>
      apply rejected
      exact fun fine => fine.2.2 rfl
  | case7 signals depth rest shallow value notBytes notNull
      inductionHypothesis =>
      exact visited _ (.literal value) _ _ (Nat.not_lt.mp shallow)
        ⟨notBytes, notNull⟩ inductionHypothesis
  | case8 signals depth rest shallow target funcName args refused =>
      apply rejected
      rintro ⟨-, rfl, allowed⟩
      simp [allowed] at refused
  | case9 signals depth rest shallow target funcName args passes
      inductionHypothesis =>
      rw [not_or, Bool.not_eq_true, Option.isSome_eq_false_iff,
        Option.isNone_iff_eq_none, not_not] at passes
      obtain ⟨rfl, allowed⟩ := passes
      exact visited _ (.call none funcName args) _ _ (Nat.not_lt.mp shallow)
        ⟨rfl, allowed⟩ inductionHypothesis
  | _ =>
      apply rejected
      exact fun fine => fine.2

/-- The loop accepts a stack when all pending nodes are inside the language and
not too deep. -/
theorem checkStack_isOk_iff
    (signals : List String)
    (stack : List (Expr × Nat)) :
    (∃ found, checkStack catalog signals stack = .ok found) ↔
      ∀ node depth, (node, depth) ∈ Traversal.pending Expr.children stack →
        depth ≤ maxConditionDepth ∧ node.Permitted catalog := by
  induction signals, stack using checkStack_induction catalog with
  | finished signals => simp [checkStack]
  | rejected signals node depth rest outside =>
      obtain ⟨error, failed⟩ := checkStack_of_not_permitted signals rest outside
      rw [failed, Traversal.pending_pop]
      simp only [reduceCtorEq, exists_false, false_iff]
      exact fun fine => outside (fine node depth (Set.mem_insert _ _))
  | visited signals node depth rest shallow permitted inductionHypothesis =>
      rw [checkStack_of_permitted shallow permitted, inductionHypothesis,
        Traversal.pending_pop]
      constructor
      · rintro fine other otherDepth (same | below)
        · obtain ⟨rfl, rfl⟩ := Prod.ext_iff.mp same
          exact ⟨shallow, permitted⟩
        · exact fine other otherDepth below
      · exact fun fine other otherDepth below =>
          fine other otherDepth (Set.mem_insert_of_mem _ below)

/-- Recording a node adds its identifier. -/
theorem Expr.mem_record
    (node : Expr)
    (signals : List String)
    (name : String) :
    name ∈ node.record signals ↔ node = .ident name ∨ name ∈ signals := by
  cases node with
  | ident other => simp [Expr.record, eq_comm]
  | _ => simp [Expr.record]

/-- The loop collects the identifiers of all pending nodes. -/
theorem mem_of_checkStack
    {stack : List (Expr × Nat)}
    {found : List String}
    (accepted : checkStack catalog signals stack = .ok found)
    (name : String) :
    name ∈ found ↔ name ∈ signals ∨
      ∃ depth, (.ident name, depth) ∈
        Traversal.pending Expr.children stack := by
  induction signals, stack using checkStack_induction catalog with
  | finished signals =>
      rw [checkStack, Except.ok.injEq] at accepted
      simp [accepted]
  | rejected signals node depth rest outside =>
      obtain ⟨error, failed⟩ := checkStack_of_not_permitted signals rest outside
      rw [failed] at accepted
      cases accepted
  | visited signals node depth rest shallow permitted inductionHypothesis =>
      rw [checkStack_of_permitted shallow permitted] at accepted
      rw [inductionHypothesis accepted, Expr.mem_record, Traversal.pending_pop]
      simp only [Set.mem_insert_iff, Prod.mk.injEq, exists_or, exists_and_left,
        exists_eq, and_true, eq_comm (a := node), or_assoc]
      exact or_left_comm

/-- The loop keeps the collected names strictly increasing. -/
theorem pairwise_of_checkStack
    {stack : List (Expr × Nat)}
    {found : List String}
    (increasing : signals.Pairwise (· < ·))
    (accepted : checkStack catalog signals stack = .ok found) :
    found.Pairwise (· < ·) := by
  induction signals, stack using checkStack_induction catalog with
  | finished signals =>
      rw [checkStack, Except.ok.injEq] at accepted
      exact accepted ▸ increasing
  | rejected signals node depth rest outside =>
      obtain ⟨error, failed⟩ := checkStack_of_not_permitted signals rest outside
      rw [failed] at accepted
      cases accepted
  | visited signals node depth rest shallow permitted inductionHypothesis =>
      rw [checkStack_of_permitted shallow permitted] at accepted
      apply inductionHypothesis _ accepted
      cases node with
      | ident name => exact pairwise_insertName name increasing
      | _ => exact increasing

end Loop

/-- A syntax tree is accepted when it is inside the language. -/
theorem checkAst_isOk_iff
    (root : Expr)
    (catalog : Catalog F) :
    (∃ signals, checkAst root catalog = .ok signals) ↔
      root.InLanguage catalog := by
  rw [checkAst, checkStack_isOk_iff, Traversal.pending_singleton]
  exact ⟨fun fine => ⟨fun node depth member => (fine node depth member).1,
      fun node depth member => (fine node depth member).2⟩,
    fun inside node depth member =>
      ⟨inside.shallow node depth member, inside.permitted node depth member⟩⟩

/-- The signals of an accepted syntax tree are its identifiers, in increasing
order. -/
theorem signals_of_checkAst
    {root : Expr}
    {catalog : Catalog F}
    {signals : List String}
    (accepted : checkAst root catalog = .ok signals) :
    signals.Pairwise (· < ·) ∧
      ∀ name, name ∈ signals ↔ name ∈ root.identifiers := by
  refine ⟨pairwise_of_checkStack .nil accepted, fun name => ?_⟩
  rw [mem_of_checkStack accepted, Traversal.pending_singleton]
  simp only [List.not_mem_nil, false_or]
  rfl

namespace Condition

variable {cel : Cel F}

/-- Which conditions compile, and what to. -/
theorem compile_eq_ok_iff
    (source : String)
    (catalog : Catalog F)
    (condition : Condition cel) :
    Condition.compile cel source catalog = .ok condition ↔
      source.length ≤ maxConditionChars ∧ Text.isBlank source = false ∧
        cel.compile source = .ok condition.program ∧
        checkAst (cel.expression condition.program) catalog =
          .ok condition.signals := by
  unfold Condition.compile
  simp only
  split_ifs with long blank
  · simp [Nat.not_le.mpr long]
  · simp [blank]
  · rw [Bool.not_eq_true] at blank
    simp only [Nat.not_lt.mp long, blank, true_and]
    cases parsed : cel.compile source with
    | error error => simp
    | ok program =>
        cases checked : checkAst (cel.expression program) catalog with
        | error error =>
            simp only [checked, reduceCtorEq, Except.ok.injEq, false_iff, not_and]
            rintro rfl
            simp [checked]
        | ok signals =>
            cases condition
            simp only [checked, Except.ok.injEq, Condition.mk.injEq]
            apply and_congr_right
            rintro rfl
            simp [checked]

/-- Evaluation gets as far as executing the program in a context. -/
def Executes
    (condition : Condition cel)
    (lookup : String → Option (SignalValue F))
    (context : KeyedMap String (CelValue F cel.Other)) : Prop :=
  bindSignals lookup ∅ condition.signals = some context

/-- An evaluation that does not execute the program gives false. -/
theorem evaluate_of_not_executes
    {condition : Condition cel}
    {lookup : String → Option (SignalValue F)}
    (idle : ∀ context, ¬condition.Executes lookup context) :
    condition.evaluate lookup = .ok false := by
  have unbound : bindSignals lookup ∅ condition.signals = none :=
    Option.eq_none_iff_forall_not_mem.mpr idle
  rw [evaluate, unbound]

/-- What is bound after binding names one after the other. -/
theorem lookup_of_bindSignals
    {lookup : String → Option (SignalValue F)}
    {names : List String}
    {context bound : KeyedMap String (CelValue F Other)}
    (success : bindSignals lookup context names = some bound)
    (name : String) :
    if name ∈ names then
      ∃ value, lookup name = some value ∧
        bound.lookup name = some (celValue value)
    else bound.lookup name = context.lookup name := by
  induction names generalizing context with
  | nil =>
      rw [bindSignals, Option.some.injEq] at success
      simp [success]
  | cons first names inductionHypothesis =>
      rw [bindSignals] at success
      cases found : lookup first with
      | none =>
          rw [found] at success
          cases success
      | some value =>
          rw [found] at success
          have later := inductionHypothesis success
          by_cases inTail : name ∈ names
          · rw [if_pos inTail] at later
            rw [if_pos (List.mem_cons_of_mem _ inTail)]
            exact later
          · rw [if_neg inTail, KeyedMap.lookup_insert_eq_ite] at later
            by_cases same : name = first
            · subst same
              rw [if_pos rfl] at later
              rw [if_pos List.mem_cons_self]
              exact ⟨value, found, later⟩
            · rw [if_neg same] at later
              rw [if_neg (by simp [same, inTail])]
              exact later

end Condition

/-- A syntax tree is accepted exactly when all of it is inside the language of
conditions; the signals returned are its identifiers in strictly increasing
order; and when the evaluation of a compiled condition executes the program,
every identifier of the program is bound to the value of its signal. -/
theorem checkAst_exact
    (cel : Cel F)
    (catalog : Catalog F) :
    (∀ root, (∃ signals, checkAst root catalog = .ok signals) ↔
      root.InLanguage catalog) ∧
    (∀ root signals, checkAst root catalog = .ok signals →
      signals.Pairwise (· < ·) ∧
        ∀ name, name ∈ signals ↔ name ∈ root.identifiers) ∧
    ∀ source (condition : Condition cel),
      Condition.compile cel source catalog = .ok condition →
        ∀ lookup context, condition.Executes lookup context →
          ∀ name ∈ (cel.expression condition.program).identifiers,
            ∃ value, lookup name = some value ∧
              context.lookup name = some (Condition.celValue value) := by
  refine ⟨fun root => checkAst_isOk_iff root catalog,
    fun root signals accepted => signals_of_checkAst accepted, ?_⟩
  intro source condition compiled lookup context executes name member
  obtain ⟨-, -, -, accepted⟩ :=
    (Condition.compile_eq_ok_iff source catalog condition).mp compiled
  have bound := Condition.lookup_of_bindSignals executes name
  rw [if_pos (((signals_of_checkAst accepted).2 name).mpr member)] at bound
  exact bound

end Rules
end TelemetryEdge
