import IssueQuery.Proofs.Expr.Folding

/-!
# What an expression means for a record

An expression that reads the record has no value of its own, but it has one for each record:
`Expr.evaluateOn` is `Expr.evaluate` with a `RecordReading` for the members and the indexed fields
(`Expr.evaluateOn_of_closed`).  What cannot be read may be an error of any kind, so the errors of an
evaluation are taken into that kind by a function `wrap`.

`Expr.fold_keeps_meaning` is the result: a folded expression means the same as the expression.
Folding moves the evaluation of the closed parts before all reading of the record.  This is not seen
in the value, since the actions of a pure expression leave the host as it is, and it is not seen in
the errors, since folding has failed already when a closed part does.
-/

namespace IssueQuery

variable {ε σ : Type}

/-- What is read from a record: a value or an error for each member, and for each field that is
looked up by a value. -/
structure RecordReading (ε : Type) where
  member : String → Except ε Value
  indexed : Value → Except ε Value

namespace Expr

section Meaning

variable (wrap : EvalError → ε) (record : RecordReading ε)

mutual

/-- The value of an expression for a record.  Operands, arguments and the keys of indexed fields are
evaluated from left to right, and the first failure ends the evaluation. -/
def evaluateOn : Expr σ → ExceptT ε (StateM σ) Value
  | field name => liftExcept (record.member name)
  | indexer key => do
    let v ← key.evaluateOn
    liftExcept (record.indexed v)
  | constant v => pure v
  | captured name read => ExceptT.adapt wrap (read.run (.capturedFailed name))
  | call name args apply => do
    let values ← evaluateAllOn args
    ExceptT.adapt wrap ((apply values).run (.callFailed name))
  | convert inner => inner.evaluateOn
  | not inner => do
    let v ← inner.evaluateOn
    liftExcept (v.negate.mapError wrap)
  | binary op left right => do
    let a ← left.evaluateOn
    let b ← right.evaluateOn
    liftExcept ((op.apply a b).mapError wrap)

/-- The values of all arguments for a record, from the first to the last. -/
def evaluateAllOn : List (Expr σ) → ExceptT ε (StateM σ) (List Value)
  | [] => pure []
  | e :: es => do
    let v ← e.evaluateOn
    let vs ← evaluateAllOn es
    pure (v :: vs)

end

/-! ### Closed expressions -/

mutual

/-- What does not read the record has its own value for every record. -/
theorem evaluateOn_of_closed (e : Expr σ) (he : e.dependsOnRecord = false) :
    e.evaluateOn wrap record = ExceptT.adapt wrap e.evaluate := by
  cases e with
  | field name => simp [dependsOnRecord] at he
  | indexer key => simp [dependsOnRecord] at he
  | constant v => rfl
  | captured name read => rfl
  | call name args apply =>
    rw [evaluateOn, evaluateAllOn_of_closed args he, evaluate, adapt_bind]
  | convert inner => exact evaluateOn_of_closed inner he
  | not inner =>
    have hinner : inner.dependsOnRecord = false := he
    rw [evaluateOn, evaluateOn_of_closed inner hinner, evaluate]
    simp only [adapt_bind, adapt_liftExcept]
  | binary op left right =>
    have hboth : left.dependsOnRecord = false ∧ right.dependsOnRecord = false := by
      simpa [dependsOnRecord] using he
    rw [evaluateOn, evaluateOn_of_closed left hboth.1, evaluateOn_of_closed right hboth.2, evaluate]
    simp only [adapt_bind, adapt_liftExcept]

/-- Arguments that do not read the record have the same values on every record. -/
theorem evaluateAllOn_of_closed (es : List (Expr σ)) (hes : anyDependsOnRecord es = false) :
    evaluateAllOn wrap record es = ExceptT.adapt wrap (evaluateAll es) := by
  cases es with
  | nil => rfl
  | cons e es =>
    have hboth : e.dependsOnRecord = false ∧ anyDependsOnRecord es = false := by
      simpa [anyDependsOnRecord] using hes
    rw [evaluateAllOn, evaluateOn_of_closed e hboth.1, evaluateAllOn_of_closed es hboth.2,
      evaluateAll]
    simp only [adapt_bind, adapt_pure]

end

/-! ### Pure expressions -/

mutual

/-- To evaluate a pure expression on a record leaves the host as it is. -/
theorem isPure_evaluateOn (e : Expr σ) (he : e.IsPure) :
    IssueQuery.IsPure (e.evaluateOn wrap record) := by
  cases e with
  | field name => exact isPure_liftExcept _
  | indexer key => exact (isPure_evaluateOn key he).bind fun v => isPure_liftExcept _
  | constant v => exact isPure_pure v
  | captured name read => exact (HostAction.IsPure.run he _).adapt wrap
  | call name args apply =>
    exact (isPure_evaluateAllOn args he.1).bind fun values => ((he.2 values).run _).adapt wrap
  | convert inner => exact isPure_evaluateOn inner he
  | not inner => exact (isPure_evaluateOn inner he).bind fun v => isPure_liftExcept _
  | binary op left right =>
    exact (isPure_evaluateOn left he.1).bind fun a =>
      (isPure_evaluateOn right he.2).bind fun b => isPure_liftExcept _

/-- To evaluate pure arguments on a record leaves the host as it is. -/
theorem isPure_evaluateAllOn (es : List (Expr σ)) (hes : AllPure es) :
    IssueQuery.IsPure (evaluateAllOn wrap record es) := by
  cases es with
  | nil => exact isPure_pure _
  | cons e es =>
    exact (isPure_evaluateOn e hes.1).bind fun v =>
      (isPure_evaluateAllOn es hes.2).bind fun vs => isPure_pure _

end

/-! ### Folding -/

/-- Computations that come to the same do so also when the same follows. -/
lemma outcome_bind_congr {α β : Type} {x y : ExceptT ε (StateM σ) α} {host : σ}
    (h : outcome x host = outcome y host) (f : α → ExceptT ε (StateM σ) β) :
    outcome (x >>= f) host = outcome (y >>= f) host := by
  rw [outcome_bind, h, outcome_bind]

/-- Two pure computations, one after the other, come to the same if each of them does. -/
lemma outcome_bind_congr_of_isPure {α β γ : Type} {x x' : ExceptT ε (StateM σ) α}
    {y y' : ExceptT ε (StateM σ) β} {host : σ} (hpure : IssueQuery.IsPure x)
    (hx : outcome x' host = outcome x host) (hy : outcome y' host = outcome y host)
    (f : α → β → ExceptT ε (StateM σ) γ) :
    outcome (do let a ← x'; let b ← y'; f a b) host =
      outcome (do let a ← x; let b ← y; f a b) host := by
  rw [outcome_bind, hx, outcome_bind]
  rcases hresult : outcome x host with ⟨_ | a, host₁⟩
  · rfl
  · obtain rfl := hpure.state_eq hresult
    exact outcome_bind_congr hy (f a)

mutual

/-- A folded expression means the same, at the moment of the folding, as the expression. -/
theorem outcome_evaluateOn_of_fold (e : Expr σ) {e' : Expr σ} {host host' : σ} (he : e.IsPure)
    (h : outcome e.fold host = (.ok e', host')) :
    outcome (e'.evaluateOn wrap record) host = outcome (e.evaluateOn wrap record) host := by
  by_cases hopen : e.dependsOnRecord = true
  · cases e with
    | field name =>
      simp only [fold, outcome_pure, Prod.mk.injEq, Except.ok.injEq] at h
      rw [← h.1]
    | indexer key =>
      rw [fold, outcome_map_eq_ok_iff] at h
      obtain ⟨key', hkey, rfl⟩ := h
      exact outcome_bind_congr (outcome_evaluateOn_of_fold key he hkey) _
    | constant v => simp [dependsOnRecord] at hopen
    | captured name read => simp [dependsOnRecord] at hopen
    | call name args apply =>
      rw [fold_call_of_open hopen, outcome_map_eq_ok_iff] at h
      obtain ⟨args', hargs, rfl⟩ := h
      exact outcome_bind_congr (outcome_evaluateAllOn_of_foldAll args he.1 hargs) _
    | convert inner =>
      have hreads : inner.dependsOnRecord = true := hopen
      rw [fold_convert_of_open hreads, outcome_map_eq_ok_iff] at h
      obtain ⟨inner', hinner, rfl⟩ := h
      rw [evaluateOn, evaluateOn]
      exact outcome_evaluateOn_of_fold inner he hinner
    | not inner =>
      have hreads : inner.dependsOnRecord = true := hopen
      rw [fold_not_of_open hreads, outcome_map_eq_ok_iff] at h
      obtain ⟨inner', hinner, rfl⟩ := h
      exact outcome_bind_congr (outcome_evaluateOn_of_fold inner he hinner) _
    | binary op left right =>
      obtain ⟨left', right', host₁, hleft, hright, rfl⟩ :=
        (outcome_fold_binary_eq_ok_iff hopen).mp h
      obtain rfl := (isPure_fold left he.1).state_eq hleft
      exact outcome_bind_congr_of_isPure (isPure_evaluateOn wrap record left he.1)
        (outcome_evaluateOn_of_fold left he.1 hleft)
        (outcome_evaluateOn_of_fold right he.2 hright) _
  · rw [Bool.not_eq_true] at hopen
    rw [fold_of_closed hopen, outcome_map_eq_ok_iff] at h
    obtain ⟨v, hvalue, rfl⟩ := h
    obtain rfl := (isPure_evaluate e he).state_eq hvalue
    rw [evaluateOn_of_closed wrap record e hopen, outcome_adapt, hvalue]
    rfl

/-- Folded arguments have the outcome of the arguments on every record. -/
theorem outcome_evaluateAllOn_of_foldAll (es : List (Expr σ)) {es' : List (Expr σ)}
    {host host' : σ} (hes : AllPure es) (h : outcome (foldAll es) host = (.ok es', host')) :
    outcome (evaluateAllOn wrap record es') host = outcome (evaluateAllOn wrap record es) host := by
  rcases outcome_foldAll_eq_ok_iff.mp h with _ | ⟨hfirst, hrest⟩
  · rfl
  · rename_i e es e' es' host₁
    obtain rfl := (isPure_fold e hes.1).state_eq hfirst
    exact outcome_bind_congr_of_isPure (isPure_evaluateOn wrap record e hes.1)
      (outcome_evaluateOn_of_fold e hes.1 hfirst)
      (outcome_evaluateAllOn_of_foldAll es hes.2 (outcome_foldAll_eq_ok_iff.mpr hrest)) _

end

end Meaning

/-- Folding a pure expression leaves the host as it is, and the folded expression has, for every
record, the value or the error that the expression has. -/
theorem fold_keeps_meaning {e e' : Expr σ} {host host' : σ} (hpure : e.IsPure)
    (hfold : outcome e.fold host = (.ok e', host')) :
    host' = host ∧ ∀ (ε : Type) (wrap : EvalError → ε) (record : RecordReading ε),
      outcome (e'.evaluateOn wrap record) host = outcome (e.evaluateOn wrap record) host :=
  ⟨(isPure_fold e hpure).state_eq hfold, fun _ wrap record =>
    outcome_evaluateOn_of_fold wrap record e hpure hfold⟩

/-- In `!x.Done && x[name] == 1 + step` the host gives the name and the step.  For a record whose
member `Done` cannot be read, the expression and what it folds to both have this as their error. -/
theorem fold_keeps_meaning_unreadable :
    let name : HostAction Nat := fun host => (.ok (.text "Sprint"), host)
    let step : HostAction Nat := fun host => (.ok (.int (.ofNat host)), host)
    let e : Expr Nat := binary .andAlso (not (field "Done"))
      (binary .equal (indexer (captured "name" name))
        (binary .add (constant (.int 1)) (captured "step" step)))
    let e' : Expr Nat := binary .andAlso (not (field "Done"))
      (binary .equal (customField "Sprint") (constant (.int 8)))
    let record : RecordReading String :=
      { member := fun _ => .error "no such member", indexed := fun key => .ok key }
    e.IsPure ∧ outcome e.fold 7 = (.ok e', 7) ∧
      outcome (e.evaluateOn EvalError.message record) 7 = (.error "no such member", 7) ∧
      outcome (e'.evaluateOn EvalError.message record) 7 =
        outcome (e.evaluateOn EvalError.message record) 7 := by
  intro name step e e' record
  have hpure : e.IsPure := by
    refine ⟨trivial, fun host => rfl, trivial, fun host => rfl⟩
  have hfold : outcome e.fold 7 = (.ok e', 7) := rfl
  exact ⟨hpure, hfold, rfl, (fold_keeps_meaning hpure hfold).2 String EvalError.message record⟩

end Expr

end IssueQuery
