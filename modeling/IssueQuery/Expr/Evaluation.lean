import IssueQuery.Expr.Basic

/-!
# Evaluation of closed expressions

`Expr.evaluate` computes an expression that does not read the record.  Operands and arguments are
evaluated from left to right, both sides of a conjunction or disjunction are evaluated always, and
the first failure ends the evaluation.  Whole numbers are added, multiplied and divided exactly and
must stay within 64 bits; as soon as one operand is a floating-point number, so is the result.
-/

namespace IssueQuery

/-- Why a closed expression has no value. -/
inductive EvalError where
  | capturedFailed (name message : String)
  | callFailed (name message : String)
  | notNegatable (type : ValueType)
  | readsRecord (kind : NodeKind)
  /-- Division by zero, or a result outside of 64 bits. -/
  | integerFailed (op : BinaryOp) (a b : Int64)
  | typeMismatch (op : BinaryOp) (left right : ValueType)
  deriving DecidableEq

/-- The failure for a reader. -/
def EvalError.message : EvalError → String
  | capturedFailed name message => "captured value '" ++ name ++ "' failed: " ++ message
  | callFailed name message => "call '" ++ name ++ "' failed: " ++ message
  | notNegatable type => "cannot negate a " ++ type.name ++ " value"
  | readsRecord kind => kind.name ++ " reads the record and cannot be evaluated"
  | integerFailed op a b =>
    "integer " ++ op.name ++ " of " ++ toString a.toInt ++ " and " ++ toString b.toInt ++ " failed"
  | typeMismatch op left right =>
    "operator '" ++ op.name ++ "' is not defined for " ++ left.name ++ " and " ++ right.name

/-- A computation that may run actions of the host.  Its state survives a failure. -/
abbrev Evaluation (σ : Type) := ExceptT EvalError (StateM σ)

/-- Runs an action of the host; `wrap` makes an error of its message. -/
def HostAction.run {σ : Type} (action : HostAction σ) (wrap : String → EvalError) :
    Evaluation σ Value :=
  fun host =>
    match action host with
    | (.ok v, host) => (.ok v, host)
    | (.error message, host) => (.error (wrap message), host)

/-- The 64-bit number with the given value, if there is one. -/
def Int64.ofInt? (n : Int) : Option Int64 :=
  if h : Int64.minValue.toInt ≤ n ∧ n ≤ Int64.maxValue.toInt then some (.ofIntLE n h.1 h.2)
  else none

namespace BinaryOp

/-- The exact result of an arithmetic operator on whole numbers.  Division rounds toward zero, and
the remainder has the sign of the dividend. -/
def onInt? (op : BinaryOp) (a b : Int) : Option Int :=
  match op with
  | add => some (a + b)
  | subtract => some (a - b)
  | multiply => some (a * b)
  | divide => if b = 0 then none else some (a.tdiv b)
  | modulo => if b = 0 then none else some (a.tmod b)
  | _ => none

/-- An arithmetic operator on 64-bit numbers.  The least number has no remainder by `-1`, since it
has no quotient. -/
def onInt64? (op : BinaryOp) (a b : Int64) : Option Int64 :=
  if op = modulo ∧ a = Int64.minValue ∧ b = -1 then none
  else (op.onInt? a.toInt b.toInt).bind Int64.ofInt?

/-- An arithmetic operator on floating-point numbers. -/
def onFloat (op : BinaryOp) (x y : Float) : Float :=
  match op with
  | add => x + y
  | subtract => x - y
  | multiply => x * y
  | divide => x / y
  | _ => floatRemainder x y

/-- An arithmetic operator: on whole numbers, on plain texts, which can be added, and on numbers. -/
def arithmetic (op : BinaryOp) (a b : Value) : Except EvalError Value :=
  match a, b with
  | .int m, .int n =>
    match op.onInt64? m n with
    | some r => .ok (.int r)
    | none => .error (.integerFailed op m n)
  | _, _ =>
    match op, a, b with
    | add, .text s, .text t => .ok (.text (s ++ t))
    | _, _, _ =>
      match a.number?, b.number? with
      | some x, some y => .ok (.float (op.onFloat x y))
      | _, _ => .error (.typeMismatch op a.type b.type)

/-- A comparison by order; `holds` says which orders satisfy it. -/
def comparison (op : BinaryOp) (holds : Ordering → Bool) (a b : Value) : Except EvalError Value :=
  match a.compare? b with
  | some order => .ok (.bool (holds order))
  | none => .error (.typeMismatch op a.type b.type)

/-- A connective of two truth values. -/
def connective (op : BinaryOp) (combine : Bool → Bool → Bool) (a b : Value) :
    Except EvalError Value :=
  match a, b with
  | .bool s, .bool t => .ok (.bool (combine s t))
  | _, _ => .error (.typeMismatch op a.type b.type)

/-- The value of an operator on the values of its operands. -/
def apply (op : BinaryOp) (a b : Value) : Except EvalError Value :=
  match op with
  | equal => .ok (.bool (a == b))
  | notEqual => .ok (.bool (a != b))
  | greaterThan => op.comparison Ordering.isGT a b
  | greaterThanOrEqual => op.comparison Ordering.isGE a b
  | lessThan => op.comparison Ordering.isLT a b
  | lessThanOrEqual => op.comparison Ordering.isLE a b
  | andAlso => op.connective and a b
  | orElse => op.connective or a b
  | add | subtract | multiply | divide | modulo => op.arithmetic a b

end BinaryOp

/-- The opposite of a truth value. -/
def Value.negate : Value → Except EvalError Value
  | bool b => .ok (bool !b)
  | v => .error (.notNegatable v.type)

namespace Expr

variable {σ : Type}

mutual

/-- The value of an expression that does not read the record. -/
def evaluate : Expr σ → Evaluation σ Value
  | field _ => throw (.readsRecord .memberAccess)
  | indexer _ => throw (.readsRecord .index)
  | constant v => pure v
  | captured name read => HostAction.run read (.capturedFailed name)
  | call name args apply => do
    let values ← evaluateAll args
    HostAction.run (apply values) (.callFailed name)
  | convert inner => inner.evaluate
  | not inner => do
    let v ← inner.evaluate
    liftExcept v.negate
  | binary op left right => do
    let a ← left.evaluate
    let b ← right.evaluate
    liftExcept (op.apply a b)

/-- The values of all arguments, from the first to the last. -/
def evaluateAll : List (Expr σ) → Evaluation σ (List Value)
  | [] => pure []
  | e :: es => do
    let v ← e.evaluate
    let vs ← evaluateAll es
    pure (v :: vs)

end

end Expr

end IssueQuery
