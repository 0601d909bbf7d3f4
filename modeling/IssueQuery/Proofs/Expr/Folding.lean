import IssueQuery.Proofs.Outcome

/-!
# Folded expressions

Folding keeps what reads the record and what does not, and in a folded expression every part that
does not read the record is a constant (`Expr.isFolded_of_outcome_fold`).  A closed expression folds
to its value (`Expr.fold_of_closed`).

An expression is pure when the actions of the host that it runs leave the host as it is; then so do
its evaluation and its folding.
-/

namespace IssueQuery

variable {σ : Type}

namespace Expr

/-! ### Closed expressions -/

/-- What does not read the record folds to the constant it evaluates to. -/
lemma fold_of_closed {e : Expr σ} (he : e.dependsOnRecord = false) :
    e.fold = constant <$> e.evaluate := by
  cases e with
  | field name => simp [dependsOnRecord] at he
  | indexer key => simp [dependsOnRecord] at he
  | constant v => simp [fold, evaluate]
  | captured name read => rw [fold]
  | call name args apply => simp [fold, foldWith, he]
  | convert inner => simp [fold, foldWith, he]
  | not inner => simp [fold, foldWith, he]
  | binary op left right => simp [fold, foldWith, he]

/-- What reads the record is rebuilt around its folded parts. -/
lemma fold_call_of_open {name : String} {args : List (Expr σ)}
    {apply : List Value → HostAction σ} (h : anyDependsOnRecord args = true) :
    (call name args apply).fold = (fun folded => call name folded apply) <$> foldAll args := by
  simp [fold, foldWith, dependsOnRecord, h]

/-- A conversion of what reads the record stays. -/
lemma fold_convert_of_open {inner : Expr σ} (h : inner.dependsOnRecord = true) :
    (convert inner).fold = convert <$> inner.fold := by
  simp [fold, foldWith, dependsOnRecord, h]

/-- A negation of what reads the record stays. -/
lemma fold_not_of_open {inner : Expr σ} (h : inner.dependsOnRecord = true) :
    (Expr.not inner).fold = Expr.not <$> inner.fold := by
  simp [fold, foldWith, dependsOnRecord, h]

/-- An operator stays when one of its operands reads the record, and the left one is folded first.
-/
lemma fold_binary_of_open {op : BinaryOp} {left right : Expr σ}
    (h : (left.dependsOnRecord || right.dependsOnRecord) = true) :
    (binary op left right).fold = do
      let l ← left.fold
      let r ← right.fold
      return binary op l r := by
  rw [fold, foldWith, dependsOnRecord, if_pos h]

/-- Operands are folded one after the other. -/
lemma outcome_fold_binary_eq_ok_iff {op : BinaryOp} {left right e' : Expr σ} {s s' : σ}
    (h : (left.dependsOnRecord || right.dependsOnRecord) = true) :
    outcome (binary op left right).fold s = (.ok e', s') ↔
      ∃ left' right' s₁, outcome left.fold s = (.ok left', s₁) ∧
        outcome right.fold s₁ = (.ok right', s') ∧ e' = binary op left' right' := by
  simp only [fold_binary_of_open h, outcome_bind_eq_ok_iff, outcome_pure, Prod.mk.injEq,
    Except.ok.injEq]
  constructor
  · rintro ⟨left', s₁, hleft, right', s₂, hright, rfl, rfl⟩
    exact ⟨left', right', s₁, hleft, hright, rfl⟩
  · rintro ⟨left', right', s₁, hleft, hright, rfl⟩
    exact ⟨left', s₁, hleft, right', s', hright, rfl, rfl⟩

/-- Arguments are folded from the left to the right. -/
lemma foldAll_eq_mapM (es : List (Expr σ)) : foldAll es = es.mapM fold := by
  induction es with
  | nil => rfl
  | cons e es ih => rw [foldAll, ih, List.mapM_cons]

/-- Arguments are folded one after the other. -/
lemma outcome_foldAll_eq_ok_iff {es es' : List (Expr σ)} {s s' : σ} :
    outcome (foldAll es) s = (.ok es', s') ↔
      Successively (fun e s e' s' => outcome e.fold s = (.ok e', s')) es s es' s' := by
  rw [foldAll_eq_mapM, outcome_mapM_eq_ok_iff]

/-! ### Folded expressions -/

mutual

/-- Every part of the expression that does not read the record is a constant. -/
def IsFolded : Expr σ → Prop
  | field _ | constant _ => True
  | captured _ _ => False
  | indexer key => key.IsFolded
  | call _ args _ => anyDependsOnRecord args = true ∧ AllFolded args
  | convert inner | not inner => inner.dependsOnRecord = true ∧ inner.IsFolded
  | binary _ left right =>
    (left.dependsOnRecord || right.dependsOnRecord) = true ∧ left.IsFolded ∧ right.IsFolded

/-- All of the expressions are folded. -/
def AllFolded : List (Expr σ) → Prop
  | [] => True
  | e :: es => e.IsFolded ∧ AllFolded es

end

/-- A folded expression that does not read the record is a constant. -/
lemma IsFolded.eq_constant {e : Expr σ} (he : e.IsFolded) (hclosed : e.dependsOnRecord = false) :
    ∃ v, e = constant v := by
  cases e with
  | constant v => exact ⟨v, rfl⟩
  | captured name read => simp [IsFolded] at he
  | _ => simp_all [IsFolded, dependsOnRecord]

mutual

/-- Folding gives a folded expression, which reads the record exactly when the expression did. -/
theorem isFolded_of_outcome_fold (e : Expr σ) {e' : Expr σ} {s s' : σ}
    (h : outcome e.fold s = (.ok e', s')) :
    e'.IsFolded ∧ e'.dependsOnRecord = e.dependsOnRecord := by
  by_cases hopen : e.dependsOnRecord = true
  · cases e with
    | field name =>
      simp only [fold, outcome_pure, Prod.mk.injEq, Except.ok.injEq] at h
      obtain ⟨rfl, -⟩ := h
      exact ⟨trivial, rfl⟩
    | indexer key =>
      rw [fold, outcome_map_eq_ok_iff] at h
      obtain ⟨key', hkey, rfl⟩ := h
      exact ⟨(isFolded_of_outcome_fold key hkey).1, rfl⟩
    | constant v => simp [dependsOnRecord] at hopen
    | captured name read => simp [dependsOnRecord] at hopen
    | call name args apply =>
      rw [fold_call_of_open hopen, outcome_map_eq_ok_iff] at h
      obtain ⟨args', hargs, rfl⟩ := h
      obtain ⟨hfolded, hsame⟩ := allFolded_of_outcome_foldAll args hargs
      exact ⟨⟨hsame.trans hopen, hfolded⟩, hsame⟩
    | convert inner =>
      have hreads : inner.dependsOnRecord = true := hopen
      rw [fold_convert_of_open hreads, outcome_map_eq_ok_iff] at h
      obtain ⟨inner', hinner, rfl⟩ := h
      obtain ⟨hfolded, hsame⟩ := isFolded_of_outcome_fold inner hinner
      exact ⟨⟨hsame.trans hopen, hfolded⟩, hsame⟩
    | not inner =>
      have hreads : inner.dependsOnRecord = true := hopen
      rw [fold_not_of_open hreads, outcome_map_eq_ok_iff] at h
      obtain ⟨inner', hinner, rfl⟩ := h
      obtain ⟨hfolded, hsame⟩ := isFolded_of_outcome_fold inner hinner
      exact ⟨⟨hsame.trans hopen, hfolded⟩, hsame⟩
    | binary op left right =>
      obtain ⟨left', right', s₁, hleft, hright, rfl⟩ := (outcome_fold_binary_eq_ok_iff hopen).mp h
      obtain ⟨hl, hlsame⟩ := isFolded_of_outcome_fold left hleft
      obtain ⟨hr, hrsame⟩ := isFolded_of_outcome_fold right hright
      have hsame : (binary op left' right').dependsOnRecord =
          (binary op left right).dependsOnRecord := by
        simp only [dependsOnRecord, hlsame, hrsame]
      exact ⟨⟨hsame.trans hopen, hl, hr⟩, hsame⟩
  · rw [Bool.not_eq_true] at hopen
    rw [fold_of_closed hopen, outcome_map_eq_ok_iff] at h
    obtain ⟨v, -, rfl⟩ := h
    exact ⟨trivial, hopen.symm⟩

/-- Folded arguments are folded, and they read the record as the arguments do. -/
theorem allFolded_of_outcome_foldAll (es : List (Expr σ)) {es' : List (Expr σ)} {s s' : σ}
    (h : outcome (foldAll es) s = (.ok es', s')) :
    AllFolded es' ∧ anyDependsOnRecord es' = anyDependsOnRecord es := by
  rw [outcome_foldAll_eq_ok_iff] at h
  cases h with
  | nil => exact ⟨trivial, rfl⟩
  | cons hfold hfolds =>
    obtain ⟨hfirst, hfirstsame⟩ := isFolded_of_outcome_fold _ hfold
    obtain ⟨hrest, hrestsame⟩ :=
      allFolded_of_outcome_foldAll _ (outcome_foldAll_eq_ok_iff.mpr hfolds)
    exact ⟨⟨hfirst, hrest⟩, by simp only [anyDependsOnRecord, hfirstsame, hrestsame]⟩

end

end Expr

/-! ### Pure expressions -/

/-- An action that leaves the host as it is. -/
def HostAction.IsPure (action : HostAction σ) : Prop := ∀ host, (action host).2 = host

/-- A pure action leaves the host as it is. -/
lemma HostAction.IsPure.run {action : HostAction σ} (h : action.IsPure)
    (wrap : String → EvalError) : IssueQuery.IsPure (action.run wrap) := by
  intro host
  have hhost := h host
  simp only [outcome, HostAction.run]
  rcases h' : action host with ⟨_ | v, host'⟩ <;> rwa [h'] at hhost

namespace Expr

mutual

/-- The actions of the host in the expression leave the host as it is. -/
def IsPure : Expr σ → Prop
  | field _ | constant _ => True
  | captured _ read => read.IsPure
  | indexer inner | convert inner | not inner => inner.IsPure
  | call _ args apply => AllPure args ∧ ∀ values, (apply values).IsPure
  | binary _ left right => left.IsPure ∧ right.IsPure

/-- All of the expressions are pure. -/
def AllPure : List (Expr σ) → Prop
  | [] => True
  | e :: es => e.IsPure ∧ AllPure es

end

/-- Arguments are pure when each of them is. -/
lemma allPure_iff {es : List (Expr σ)} : AllPure es ↔ ∀ e ∈ es, e.IsPure := by
  induction es with
  | nil => simp [AllPure]
  | cons e es ih => simp [AllPure, ih]

mutual

/-- To evaluate a pure expression leaves the host as it is. -/
theorem isPure_evaluate (e : Expr σ) (he : e.IsPure) : IssueQuery.IsPure e.evaluate := by
  cases e with
  | field name => exact isPure_throw _
  | indexer key => exact isPure_throw _
  | constant v => exact isPure_pure v
  | captured name read => exact HostAction.IsPure.run he _
  | call name args apply =>
    rw [evaluate]
    exact (isPure_evaluateAll args he.1).bind fun values => (he.2 values).run _
  | convert inner => exact isPure_evaluate inner he
  | not inner => exact (isPure_evaluate inner he).bind fun v => isPure_liftExcept _
  | binary op left right =>
    exact (isPure_evaluate left he.1).bind fun a =>
      (isPure_evaluate right he.2).bind fun b => isPure_liftExcept _

/-- To evaluate pure arguments leaves the host as it is. -/
theorem isPure_evaluateAll (es : List (Expr σ)) (hes : AllPure es) :
    IssueQuery.IsPure (evaluateAll es) := by
  cases es with
  | nil => exact isPure_pure _
  | cons e es =>
    exact (isPure_evaluate e hes.1).bind fun v =>
      (isPure_evaluateAll es hes.2).bind fun vs => isPure_pure _

end

mutual

/-- To fold a pure expression leaves the host as it is. -/
theorem isPure_fold (e : Expr σ) (he : e.IsPure) : IssueQuery.IsPure e.fold := by
  by_cases hopen : e.dependsOnRecord = true
  · cases e with
    | field name => exact isPure_pure _
    | indexer key => exact (isPure_fold key he).map _
    | constant v => exact isPure_pure _
    | captured name read => simp [dependsOnRecord] at hopen
    | call name args apply =>
      rw [fold_call_of_open hopen]
      exact (isPure_foldAll args he.1).map _
    | convert inner =>
      have hreads : inner.dependsOnRecord = true := hopen
      rw [fold_convert_of_open hreads]
      exact (isPure_fold inner he).map _
    | not inner =>
      have hreads : inner.dependsOnRecord = true := hopen
      rw [fold_not_of_open hreads]
      exact (isPure_fold inner he).map _
    | binary op left right =>
      rw [fold_binary_of_open hopen]
      exact (isPure_fold left he.1).bind fun l =>
        (isPure_fold right he.2).bind fun r => isPure_pure _
  · rw [Bool.not_eq_true] at hopen
    rw [fold_of_closed hopen]
    exact (isPure_evaluate e he).map _

/-- To fold pure arguments leaves the host as it is. -/
theorem isPure_foldAll (es : List (Expr σ)) (hes : AllPure es) :
    IssueQuery.IsPure (foldAll es) := by
  cases es with
  | nil => exact isPure_pure _
  | cons e es =>
    exact (isPure_fold e hes.1).bind fun f =>
      (isPure_foldAll es hes.2).bind fun fs => isPure_pure _

end

end Expr

end IssueQuery
