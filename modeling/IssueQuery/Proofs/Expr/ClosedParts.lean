import IssueQuery.Proofs.Expr.Folding

/-!
# The closed parts of an expression

Folding evaluates nothing but the `Expr.closedParts` of an expression: the parts that do not read
the record and are not inside of a larger such part, from left to right.  Whatever else the
expression is made of stays as it is, and the values take the places of the parts
(`Expr.filledIn`).  `Expr.fold_eq_map_evaluateAll` is the result; the recursion of folding is not
needed any more after it.
-/

namespace IssueQuery.Expr

variable {σ : Type}

/-! ### Parts and their places -/

/-- All of an expression if it does not read the record, and otherwise the parts inside of it. -/
def partsWith (e : Expr σ) (inside : List (Expr σ)) : List (Expr σ) :=
  if e.dependsOnRecord then inside else [e]

mutual

/-- The largest parts of the expression that do not read the record, from left to right. -/
def closedParts : Expr σ → List (Expr σ)
  | field _ => []
  | indexer key => key.closedParts
  | constant v => [constant v]
  | captured name read => [captured name read]
  | call name args apply => partsWith (call name args apply) (closedPartsOfAll args)
  | convert inner => partsWith (convert inner) inner.closedParts
  | not inner => partsWith (.not inner) inner.closedParts
  | binary op left right =>
    partsWith (binary op left right) (left.closedParts ++ right.closedParts)

/-- The closed parts of all arguments. -/
def closedPartsOfAll : List (Expr σ) → List (Expr σ)
  | [] => []
  | e :: es => e.closedParts ++ closedPartsOfAll es

end

/-- A closed expression becomes the first value; what reads the record has its values inside. -/
def filledWith (e : Expr σ) (values : List Value) (inside : Expr σ) : Expr σ :=
  if e.dependsOnRecord then inside else constant (values.head?.getD .null)

mutual

/-- The expression with values in the places of its closed parts. -/
def filledIn : Expr σ → List Value → Expr σ
  | field name, _ => field name
  | indexer key, values => indexer (key.filledIn values)
  | constant v, values => filledWith (constant v) values (constant v)
  | captured name read, values => filledWith (captured name read) values (captured name read)
  | call name args apply, values =>
    filledWith (call name args apply) values (call name (allFilledIn args values) apply)
  | convert inner, values => filledWith (convert inner) values (convert (inner.filledIn values))
  | not inner, values => filledWith (.not inner) values (.not (inner.filledIn values))
  | binary op left right, values =>
    filledWith (binary op left right) values
      (binary op (left.filledIn (values.take left.closedParts.length))
        (right.filledIn (values.drop left.closedParts.length)))

/-- The arguments with values in the places of their closed parts. -/
def allFilledIn : List (Expr σ) → List Value → List (Expr σ)
  | [], _ => []
  | e :: es, values =>
    e.filledIn (values.take e.closedParts.length) ::
      allFilledIn es (values.drop e.closedParts.length)

end

/-- The key of a field that is looked up by its name, under conversions. -/
def indexKey? (e : Expr σ) : Option (Expr σ) :=
  match e.withoutConversions with
  | indexer key => some key
  | _ => none

/-- What does not read the record is its own only part. -/
lemma closedParts_of_closed {e : Expr σ} (he : e.dependsOnRecord = false) :
    e.closedParts = [e] := by
  cases e with
  | field name => simp [dependsOnRecord] at he
  | indexer key => simp [dependsOnRecord] at he
  | constant v => rfl
  | captured name read => rfl
  | call name args apply => simp [closedParts, partsWith, he]
  | convert inner => simp [closedParts, partsWith, he]
  | not inner => simp [closedParts, partsWith, he]
  | binary op left right => simp [closedParts, partsWith, he]

/-- An expression that does not read the record becomes its value. -/
lemma filledIn_of_closed {e : Expr σ} (he : e.dependsOnRecord = false) (values : List Value) :
    e.filledIn values = constant (values.head?.getD .null) := by
  cases e with
  | field name => simp [dependsOnRecord] at he
  | indexer key => simp [dependsOnRecord] at he
  | _ => simp [filledIn, filledWith, he]

/-- An operator that reads the record has the closed parts of its left operand and then those of the
right one. -/
lemma closedParts_binary_of_open {op : BinaryOp} {left right : Expr σ}
    (h : (binary op left right).dependsOnRecord = true) :
    (binary op left right).closedParts = left.closedParts ++ right.closedParts := by
  rw [closedParts, partsWith, if_pos h]

/-- Where an operator reads the record, the values are shared out between its operands, in order. -/
lemma filledIn_binary_of_open {op : BinaryOp} {left right : Expr σ}
    (h : (binary op left right).dependsOnRecord = true) (values : List Value) :
    (binary op left right).filledIn values =
      binary op (left.filledIn (values.take left.closedParts.length))
        (right.filledIn (values.drop left.closedParts.length)) := by
  rw [filledIn, filledWith, if_pos h]

/-- What reads the record is no constant, whatever is filled in. -/
lemma filledIn_ne_constant {e : Expr σ} (he : e.dependsOnRecord = true) (values : List Value)
    (v : Value) : e.filledIn values ≠ constant v := by
  cases e with
  | constant w => simp [dependsOnRecord] at he
  | captured name read => simp [dependsOnRecord] at he
  | field name => simp [filledIn]
  | indexer key => simp [filledIn]
  | _ => simp [filledIn, filledWith, he]

mutual

/-- The closed parts do not read the record. -/
theorem dependsOnRecord_of_mem_closedParts (e : Expr σ) :
    ∀ part ∈ e.closedParts, part.dependsOnRecord = false := by
  have hwith : ∀ inside : List (Expr σ), (∀ part ∈ inside, part.dependsOnRecord = false) →
      ∀ part ∈ e.partsWith inside, part.dependsOnRecord = false := by
    intro inside hinside part hpart
    rw [partsWith] at hpart
    split at hpart
    · exact hinside part hpart
    next hclosed =>
      rw [List.mem_singleton.mp hpart]
      simpa using hclosed
  cases e with
  | field name => nofun
  | indexer key => exact dependsOnRecord_of_mem_closedParts key
  | constant v => exact fun part hpart => by rw [List.mem_singleton.mp hpart]; rfl
  | captured name read => exact fun part hpart => by rw [List.mem_singleton.mp hpart]; rfl
  | call name args apply => exact hwith _ (dependsOnRecord_of_mem_closedPartsOfAll args)
  | convert inner => exact hwith _ (dependsOnRecord_of_mem_closedParts inner)
  | not inner => exact hwith _ (dependsOnRecord_of_mem_closedParts inner)
  | binary op left right =>
    refine hwith _ fun part hpart => ?_
    rcases List.mem_append.mp hpart with hleft | hright
    · exact dependsOnRecord_of_mem_closedParts left part hleft
    · exact dependsOnRecord_of_mem_closedParts right part hright

/-- The closed parts of arguments do not read the record. -/
theorem dependsOnRecord_of_mem_closedPartsOfAll (es : List (Expr σ)) :
    ∀ part ∈ closedPartsOfAll es, part.dependsOnRecord = false := by
  cases es with
  | nil => nofun
  | cons e es =>
    intro part hpart
    rcases List.mem_append.mp hpart with hfirst | hrest
    · exact dependsOnRecord_of_mem_closedParts e part hfirst
    · exact dependsOnRecord_of_mem_closedPartsOfAll es part hrest

end

/-- None of the closed parts reads the record. -/
lemma anyDependsOnRecord_closedParts (e : Expr σ) :
    anyDependsOnRecord e.closedParts = false := by
  rw [anyDependsOnRecord_eq_any, List.any_eq_false]
  intro part hpart
  simp [e.dependsOnRecord_of_mem_closedParts part hpart]

/-! ### Evaluating a list -/

/-- Two lists of arguments are evaluated one after the other. -/
lemma evaluateAll_append (es fs : List (Expr σ)) :
    evaluateAll (es ++ fs) = do
      let vs ← evaluateAll es
      let ws ← evaluateAll fs
      return vs ++ ws := by
  induction es with
  | nil => simp [evaluateAll]
  | cons e es ih => simp [evaluateAll, ih]

/-- There are as many values as expressions. -/
lemma length_of_outcome_evaluateAll {es : List (Expr σ)} {values : List Value} {s s' : σ}
    (h : outcome (evaluateAll es) s = (.ok values, s')) : values.length = es.length := by
  induction es generalizing values s with
  | nil =>
    simp only [evaluateAll, outcome_pure, Prod.mk.injEq, Except.ok.injEq] at h
    rw [← h.1]
    rfl
  | cons e es ih =>
    simp only [evaluateAll, outcome_bind_eq_ok_iff, outcome_pure, Prod.mk.injEq,
      Except.ok.injEq] at h
    obtain ⟨v, s₁, -, vs, s₂, hvs, rfl, rfl⟩ := h
    rw [List.length_cons, List.length_cons, ih hvs]

/-! ### Folding -/

/-- If folding one expression and then another fills in values, so does folding both. -/
lemma fold_pair_eq {α β γ : Type} {x : Evaluation σ α} {y : Evaluation σ β} {es fs : List (Expr σ)}
    {f : List Value → α} {g : List Value → β} (join : α → β → γ)
    (hx : x = f <$> evaluateAll es) (hy : y = g <$> evaluateAll fs) :
    (do let a ← x; let b ← y; return join a b) =
      (fun values => join (f (values.take es.length)) (g (values.drop es.length))) <$>
        evaluateAll (es ++ fs) := by
  rw [hx, hy, evaluateAll_append]
  simp only [map_eq_pure_bind, bind_assoc, pure_bind]
  refine bind_congr_of_outcome fun s vs s' hvs => bind_congr fun ws => ?_
  have hlength := length_of_outcome_evaluateAll hvs
  have htake : (vs ++ ws).take es.length = vs := by rw [← hlength, List.take_left]
  have hdrop : (vs ++ ws).drop es.length = ws := by rw [← hlength, List.drop_left]
  rw [htake, hdrop]

/-- An expression that is rebuilt from one thing is filled in as that thing is. -/
lemma fold_eq_of_map {α : Type} {e : Expr σ} {x : Evaluation σ α} {rebuild : α → Expr σ}
    {f : List Value → α} {parts : List (Expr σ)} (hfold : e.fold = rebuild <$> x)
    (hx : x = f <$> evaluateAll parts) (hparts : e.closedParts = parts)
    (hfilled : ∀ values, e.filledIn values = rebuild (f values)) :
    e.fold = e.filledIn <$> evaluateAll e.closedParts := by
  have hcomp : e.filledIn = rebuild ∘ f := funext hfilled
  rw [hfold, hx, ← comp_map, hparts, hcomp]

/-- A closed expression is folded by evaluating it as a whole. -/
lemma fold_eq_of_closed {e : Expr σ} (he : e.dependsOnRecord = false) :
    e.fold = e.filledIn <$> evaluateAll e.closedParts := by
  rw [fold_of_closed he, closedParts_of_closed he]
  simp only [evaluateAll, map_eq_pure_bind, bind_assoc, pure_bind]
  exact bind_congr fun v => by rw [filledIn_of_closed he, List.head?_cons, Option.getD_some]

mutual

/-- Folding evaluates the closed parts, from left to right, and puts their values in their
places. -/
theorem fold_eq_map_evaluateAll (e : Expr σ) :
    e.fold = e.filledIn <$> evaluateAll e.closedParts := by
  by_cases hopen : e.dependsOnRecord = true
  · cases e with
    | field name => simp [fold, filledIn, closedParts, evaluateAll]
    | indexer key =>
      have hkey := fold_eq_map_evaluateAll key
      exact fold_eq_of_map (by rw [fold]) hkey rfl fun values => rfl
    | constant v => simp [dependsOnRecord] at hopen
    | captured name read => simp [dependsOnRecord] at hopen
    | call name args apply =>
      have hargs := foldAll_eq_map_evaluateAll args
      refine fold_eq_of_map (fold_call_of_open hopen) hargs ?_ fun values => ?_
      · simp [closedParts, partsWith, hopen]
      · simp [filledIn, filledWith, hopen]
    | convert inner =>
      have hinner := fold_eq_map_evaluateAll inner
      refine fold_eq_of_map (fold_convert_of_open hopen) hinner ?_ fun values => ?_
      · simp [closedParts, partsWith, hopen]
      · simp [filledIn, filledWith, hopen]
    | not inner =>
      have hinner := fold_eq_map_evaluateAll inner
      refine fold_eq_of_map (fold_not_of_open hopen) hinner ?_ fun values => ?_
      · simp [closedParts, partsWith, hopen]
      · simp [filledIn, filledWith, hopen]
    | binary op left right =>
      have hboth := fold_pair_eq (binary op) (fold_eq_map_evaluateAll left)
        (fold_eq_map_evaluateAll right)
      rw [fold_binary_of_open hopen, hboth, closedParts_binary_of_open hopen]
      exact congrArg (· <$> evaluateAll (left.closedParts ++ right.closedParts))
        (funext (filledIn_binary_of_open hopen)).symm
  · exact fold_eq_of_closed (by simpa using hopen)

/-- To fold arguments is to evaluate their closed parts in order and to fill the values in. -/
theorem foldAll_eq_map_evaluateAll (es : List (Expr σ)) :
    foldAll es = allFilledIn es <$> evaluateAll (closedPartsOfAll es) := by
  cases es with
  | nil => simp [foldAll, allFilledIn, closedPartsOfAll, evaluateAll]
  | cons e es =>
    have hboth := fold_pair_eq List.cons (fold_eq_map_evaluateAll e)
      (foldAll_eq_map_evaluateAll es)
    rw [foldAll, hboth]
    rfl

end

end IssueQuery.Expr
