import IssueQuery.Expr.Evaluation

/-!
# Folding of closed parts

`Expr.fold` replaces every part of an expression that does not read the record, and is as large as
possible, by the constant it evaluates to.  What reads the record keeps its shape around the folded
parts and is never evaluated.  Parts are folded from left to right, and the first failure ends the
folding.
-/

namespace IssueQuery.Expr

variable {σ : Type}

/-- A closed expression becomes its value; an expression that reads the record is rebuilt. -/
def foldWith (e : Expr σ) (rebuilt : Evaluation σ (Expr σ)) : Evaluation σ (Expr σ) :=
  if e.dependsOnRecord then rebuilt else constant <$> e.evaluate

mutual

/-- The expression with its closed parts folded into constants. -/
def fold : Expr σ → Evaluation σ (Expr σ)
  | field name => pure (field name)
  | indexer key => indexer <$> key.fold
  | constant v => pure (constant v)
  | captured name read => constant <$> evaluate (captured name read)
  | call name args apply =>
    foldWith (call name args apply) do return call name (← foldAll args) apply
  | convert inner => foldWith (convert inner) do return convert (← inner.fold)
  | not inner => foldWith (not inner) do return not (← inner.fold)
  | binary op left right =>
    foldWith (binary op left right) do
      let l ← left.fold
      let r ← right.fold
      return binary op l r

/-- Folds all arguments, from the first to the last. -/
def foldAll : List (Expr σ) → Evaluation σ (List (Expr σ))
  | [] => pure []
  | e :: es => do
    let f ← e.fold
    let fs ← foldAll es
    return f :: fs

end

end IssueQuery.Expr
