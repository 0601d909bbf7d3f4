import IssueQuery.Proofs.Compilation.Schedule

/-!
# The actions of the host that a compilation runs

What a compilation runs is not seen from its result, so it is compiled on a host that keeps a
record: `Pipeline.recorded` is the same pipeline with actions that also write down their name and
the values that they were given, and `Pipeline.runs` is the record at the end.

`Pipeline.toDirective_runs_schedule` says that the record is that of the schedule.  The steps are
carried out from the first on, each of them once and with the values of its operands, and the first
one that fails is the last one.
-/

namespace IssueQuery

variable {σ R : Type}

/-! ### Hosts with a record -/

/-- A run of an action of the host: the name that the action goes by, and the values that it was
given. -/
structure Run where
  name : String
  arguments : List Value

/-- A host with a record of all runs, from the first to the last. -/
structure Recorded (σ : Type) where
  host : σ
  runs : List Run

/-- The action, written down as a run. -/
def HostAction.recorded (action : HostAction σ) (run : Run) : HostAction (Recorded σ) :=
  fun r => ((action r.host).1, ⟨(action r.host).2, r.runs ++ [run]⟩)

namespace Expr

mutual

/-- The expression with actions that are written down. -/
def recorded : Expr σ → Expr (Recorded σ)
  | field name => field name
  | indexer key => indexer key.recorded
  | constant v => constant v
  | captured name read => captured name (read.recorded ⟨name, []⟩)
  | call name args apply =>
    call name (allRecorded args) fun values => (apply values).recorded ⟨name, values⟩
  | convert inner => convert inner.recorded
  | not inner => not inner.recorded
  | binary op left right => binary op left.recorded right.recorded

/-- The expressions with actions that are written down. -/
def allRecorded : List (Expr σ) → List (Expr (Recorded σ))
  | [] => []
  | e :: es => e.recorded :: allRecorded es

end

end Expr

/-- A local filter is not part of a compilation, so it is not written down. -/
def Stage.recorded : Stage σ R → Stage (Recorded σ) R
  | .filter condition => .filter condition.recorded
  | .order key direction secondary => .order key.recorded direction secondary
  | .take count => .take count
  | .skip count => .skip count
  | .localFilter predicate =>
    .localFilter fun record r =>
      ((predicate record r.host).1, { r with host := (predicate record r.host).2 })

/-- The pipeline with actions that are written down. -/
def Pipeline.recorded (p : Pipeline σ R) : Pipeline (Recorded σ) R :=
  ⟨p.newestFirst.map Stage.recorded⟩

/-- The runs that a compilation of the pipeline writes down. -/
def Pipeline.runs (registry : FieldRegistry) (p : Pipeline σ R) (c : Context σ) : List Run :=
  (outcome (p.recorded.toDirective registry) ⟨⟨c.host, []⟩, c.log⟩).2.host.runs

/-- The step with actions that are written down. -/
def Step.recorded : Step σ → Step (Recorded σ)
  | push v => push v
  | read name action => read name (action.recorded ⟨name, []⟩)
  | call name arity apply =>
    call name arity fun values => (apply values).recorded ⟨name, values⟩
  | negate => negate
  | combine op => combine op
  | orderByMember name direction => orderByMember name direction
  | orderByValue direction => orderByValue direction
  | refuse error => refuse error
  | translate condition => translate condition.recorded

/-- The name of the action of the host that a step runs. -/
def Step.action? : Step σ → Option String
  | read name _ | call name _ _ => some name
  | _ => none

/-- The run of a step that is carried out at a desk. -/
def Desk.run? (desk : Desk) : Step σ → Option Run
  | .read name _ => some ⟨name, []⟩
  | .call name arity _ => some ⟨name, (desk.values.take arity).reverse⟩
  | _ => none

/-! ### A record changes nothing -/

namespace Expr

mutual

/-- Whether an expression reads the record is the same when its actions are written down. -/
theorem dependsOnRecord_recorded (e : Expr σ) :
    e.recorded.dependsOnRecord = e.dependsOnRecord := by
  cases e with
  | call name args apply => exact anyDependsOnRecord_allRecorded args
  | convert inner => exact dependsOnRecord_recorded inner
  | not inner => exact dependsOnRecord_recorded inner
  | binary op left right =>
    rw [recorded, dependsOnRecord, dependsOnRecord_recorded left, dependsOnRecord_recorded right,
      dependsOnRecord]
  | _ => rfl

/-- Whether arguments read the record is the same when their actions are written down. -/
theorem anyDependsOnRecord_allRecorded (es : List (Expr σ)) :
    anyDependsOnRecord (allRecorded es) = anyDependsOnRecord es := by
  cases es with
  | nil => rfl
  | cons e es =>
    rw [allRecorded, anyDependsOnRecord, dependsOnRecord_recorded e,
      anyDependsOnRecord_allRecorded es, anyDependsOnRecord]

end

/-- Arguments are written down one by one. -/
lemma allRecorded_eq_map (es : List (Expr σ)) : allRecorded es = es.map recorded := by
  induction es with
  | nil => rfl
  | cons e es ih => rw [allRecorded, ih, List.map_cons]

/-- What has the same parts inside has the same parts. -/
lemma partsWith_recorded (e : Expr σ) (inside : List (Expr σ)) :
    partsWith e.recorded (inside.map recorded) = (partsWith e inside).map recorded := by
  rw [partsWith, partsWith, dependsOnRecord_recorded]
  cases e.dependsOnRecord <;> rfl

mutual

/-- The closed parts stand where they were, with actions that are written down. -/
theorem closedParts_recorded (e : Expr σ) :
    e.recorded.closedParts = e.closedParts.map recorded := by
  cases e with
  | indexer key => exact closedParts_recorded key
  | call name args apply =>
    rw [closedParts, ← partsWith_recorded, ← closedPartsOfAll_recorded args]
    rfl
  | convert inner =>
    rw [closedParts, ← partsWith_recorded, ← closedParts_recorded inner]
    rfl
  | not inner =>
    rw [closedParts, ← partsWith_recorded, ← closedParts_recorded inner]
    rfl
  | binary op left right =>
    rw [closedParts, ← partsWith_recorded, List.map_append, ← closedParts_recorded left,
      ← closedParts_recorded right]
    rfl
  | _ => rfl

/-- The closed parts of arguments stand where they were. -/
theorem closedPartsOfAll_recorded (es : List (Expr σ)) :
    closedPartsOfAll (allRecorded es) = (closedPartsOfAll es).map recorded := by
  cases es with
  | nil => rfl
  | cons e es =>
    rw [closedPartsOfAll, List.map_append, ← closedParts_recorded e,
      ← closedPartsOfAll_recorded es]
    rfl

end

/-- What is filled in alike inside is filled in alike. -/
lemma filledWith_recorded (e : Expr σ) (values : List Value) (inside : Expr σ) :
    filledWith e.recorded values inside.recorded = (filledWith e values inside).recorded := by
  rw [filledWith, filledWith, dependsOnRecord_recorded]
  cases e.dependsOnRecord <;> rfl

mutual

/-- Values are filled in at the same places. -/
theorem filledIn_recorded (e : Expr σ) (values : List Value) :
    e.recorded.filledIn values = (e.filledIn values).recorded := by
  cases e with
  | field name => rfl
  | indexer key => exact congrArg indexer (filledIn_recorded key values)
  | constant v => rfl
  | captured name read => rfl
  | call name args apply =>
    rw [filledIn, ← filledWith_recorded, recorded, filledIn, allFilledIn_recorded args, recorded]
  | convert inner =>
    rw [filledIn, ← filledWith_recorded, recorded, filledIn, filledIn_recorded inner, recorded]
  | not inner =>
    rw [filledIn, ← filledWith_recorded, recorded, filledIn, filledIn_recorded inner, recorded]
  | binary op left right =>
    rw [filledIn, ← filledWith_recorded, recorded, filledIn, filledIn_recorded left,
      filledIn_recorded right, closedParts_recorded, List.length_map, recorded]

/-- Values are filled into arguments at the same places. -/
theorem allFilledIn_recorded (es : List (Expr σ)) (values : List Value) :
    allFilledIn (allRecorded es) values = allRecorded (allFilledIn es values) := by
  cases es with
  | nil => rfl
  | cons e es =>
    rw [allRecorded, allFilledIn, allFilledIn, filledIn_recorded e, allFilledIn_recorded es,
      closedParts_recorded, List.length_map, allRecorded]

end

mutual

/-- The steps of an expression are the same, with actions that are written down. -/
theorem steps_recorded (e : Expr σ) : e.recorded.steps = e.steps.map Step.recorded := by
  cases e with
  | call name args apply =>
    rw [steps, List.map_append, ← stepsOfAll_recorded args, recorded, steps, allRecorded_eq_map,
      List.length_map]
    rfl
  | convert inner => exact steps_recorded inner
  | not inner =>
    rw [steps, List.map_append, ← steps_recorded inner]
    rfl
  | binary op left right =>
    rw [steps, List.map_append, List.map_append, ← steps_recorded left, ← steps_recorded right]
    rfl
  | _ => rfl

/-- The steps of arguments are the same, with actions that are written down. -/
theorem stepsOfAll_recorded (es : List (Expr σ)) :
    stepsOfAll (allRecorded es) = (stepsOfAll es).map Step.recorded := by
  cases es with
  | nil => rfl
  | cons e es =>
    rw [stepsOfAll, List.map_append, ← steps_recorded e, ← stepsOfAll_recorded es]
    rfl

end

/-- The steps of closed parts are the same, with actions that are written down. -/
lemma stepsOfAll_closedParts_recorded (e : Expr σ) :
    stepsOfAll e.recorded.closedParts = (stepsOfAll e.closedParts).map Step.recorded := by
  rw [closedParts_recorded, ← allRecorded_eq_map, stepsOfAll_recorded]

/-- Conversions are taken off in the same way. -/
lemma withoutConversions_recorded (e : Expr σ) :
    e.recorded.withoutConversions = e.withoutConversions.recorded := by
  induction e using withoutConversions.induct with
  | case1 inner ih => exact ih
  | case2 e he =>
    cases e with
    | convert inner => exact absurd rfl (he inner)
    | _ => rfl

/-- The steps of an ordering key are the same, with actions that are written down. -/
lemma keySteps_recorded (stage : String) (direction : Direction) (key : Expr σ) :
    key.recorded.keySteps stage direction = (key.keySteps stage direction).map Step.recorded := by
  rw [keySteps, keySteps, withoutConversions_recorded]
  cases key.withoutConversions with
  | indexer name =>
    simp only [recorded, dependsOnRecord_recorded, stepsOfAll_closedParts_recorded, List.map_append,
      List.map_cons, List.map_nil]
    cases name.dependsOnRecord <;> rfl
  | _ => rfl

/-- The steps of a condition are the same, with actions that are written down. -/
lemma conditionSteps_recorded (condition : Expr σ) :
    condition.recorded.conditionSteps = condition.conditionSteps.map Step.recorded := by
  rw [conditionSteps, stepsOfAll_closedParts_recorded, conditionSteps, List.map_append]
  rfl

/-- The literal on the right side of a comparison is the same. -/
lemma literalOperand_recorded (op : BinaryOp) (e : Expr σ) :
    e.recorded.literalOperand op = e.literalOperand op := by
  rw [literalOperand, withoutConversions_recorded, literalOperand]
  cases e.withoutConversions <;> rfl

/-- The left side of a comparison resolves to the same field. -/
lemma resolve_recorded (registry : FieldRegistry) (operator : String) (e : Expr σ) :
    registry.resolve operator e.recorded = registry.resolve operator e := by
  rw [FieldRegistry.resolve, withoutConversions_recorded, FieldRegistry.resolve]
  cases e.withoutConversions with
  | indexer key => cases key <;> rfl
  | _ => rfl

/-- A comparison is translated to the same. -/
lemma ofOperands_recorded (registry : FieldRegistry) (op : BinaryOp) (left right : Expr σ) :
    Comparison.ofOperands registry op left.recorded right.recorded =
      Comparison.ofOperands registry op left right := by
  rw [Comparison.ofOperands, resolve_recorded, literalOperand_recorded, Comparison.ofOperands]

/-- A translation runs nothing, so there is nothing to write down. -/
lemma ofExpr_recorded (registry : FieldRegistry) (e : Expr σ) :
    Predicate.ofExpr registry e.recorded = Predicate.ofExpr registry e := by
  induction e using Predicate.ofExpr.induct with
  | case1 left right ihl ihr =>
    rw [recorded, Predicate.ofExpr, Predicate.ofExpr, ihl, ihr]
  | case2 left right ihl ihr =>
    rw [recorded, Predicate.ofExpr, Predicate.ofExpr, ihl, ihr]
  | case3 op left right hand hor =>
    rw [recorded, Predicate.ofExpr.eq_3 registry op _ _ hand hor,
      Predicate.ofExpr.eq_3 registry op _ _ hand hor, ofOperands_recorded]
  | case4 e hand hor hbinary =>
    cases e with
    | binary op left right => exact absurd rfl (hbinary op left right)
    | _ => rfl

end Expr

/-! ### The schedule of a recorded pipeline -/

/-- The steps of a stage are the same, with actions that are written down. -/
lemma Stage.steps_recorded (stage : Stage σ R) (above : Option String) :
    stage.recorded.steps above = (stage.steps above).map Step.recorded := by
  cases stage with
  | order key direction secondary => exact Expr.keySteps_recorded _ direction key
  | localFilter predicate => cases above <;> rfl
  | _ => rfl

namespace Pipeline

/-- The steps of the first pass are the same, with actions that are written down. -/
lemma stepsDown_recorded (stages : List (Stage σ R)) (above : Option String) :
    stepsDown above (stages.map Stage.recorded) = (stepsDown above stages).map Step.recorded := by
  induction stages generalizing above with
  | nil => rfl
  | cons stage older ih =>
    have hname : stage.recorded.name = stage.name := by cases stage <;> rfl
    have hpushed : stage.recorded.isPushedDown = stage.isPushedDown := by cases stage <;> rfl
    rw [List.map_cons, stepsDown, stepsDown, List.map_append, Stage.steps_recorded, hname, hpushed,
      ih]

/-- What is selected from the stages of a recorded pipeline. -/
lemma filterMap_declared_recorded {α : Type} (p : Pipeline σ R)
    (f : Stage (Recorded σ) R → Option α) :
    p.recorded.declared.filterMap f = p.declared.filterMap fun stage => f stage.recorded := by
  rw [declared, recorded, ← List.map_reverse, List.filterMap_map]
  rfl

/-- The conditions of the pipeline are written down one by one. -/
lemma conditions_recorded (p : Pipeline σ R) :
    p.recorded.conditions = p.conditions.map Expr.recorded := by
  rw [conditions, filterMap_declared_recorded, conditions, List.map_filterMap]
  congr 1
  funext stage
  cases stage <;> rfl

/-- A recorded pipeline has the same schedule, with actions that are written down. -/
lemma schedule_recorded (p : Pipeline σ R) :
    p.recorded.schedule = p.schedule.map Step.recorded := by
  have hfirst : p.recorded.firstSteps = p.firstSteps.map Step.recorded :=
    stepsDown_recorded p.newestFirst none
  have hsecond : p.recorded.secondSteps = p.secondSteps.map Step.recorded := by
    rw [secondSteps, conditions_recorded, secondSteps, List.flatMap_map, List.map_flatMap]
    exact congrArg (List.flatMap · p.conditions) (funext Expr.conditionSteps_recorded)
  rw [schedule, hfirst, hsecond, schedule, List.map_append]

/-- A desk makes the same directive, since the limits and the starts are the same. -/
lemma directiveOf_recorded (p : Pipeline σ R) : p.recorded.directiveOf = p.directiveOf := by
  have hlimits : p.recorded.limits = p.limits := by
    rw [limits, filterMap_declared_recorded, limits]
    congr 1
    funext stage
    cases stage <;> rfl
  have hstarts : p.recorded.starts = p.starts := by
    rw [starts, filterMap_declared_recorded, starts]
    congr 1
    funext stage
    cases stage <;> rfl
  funext desk
  rw [directiveOf, hlimits, hstarts, directiveOf]

end Pipeline

/-! ### What a step writes down -/

/-- An action that is written down has the same outcome, and its run is the next in the record. -/
lemma outcome_ofEvaluation_recorded (action : HostAction σ) (run : Run)
    (wrap : String → EvalError) (r : Recorded σ) :
    outcome (Unlogged.ofEvaluation ((action.recorded run).run wrap)) r =
      ((outcome (Unlogged.ofEvaluation (action.run wrap)) r.host).1,
        ⟨(outcome (Unlogged.ofEvaluation (action.run wrap)) r.host).2, r.runs ++ [run]⟩) := by
  rw [Unlogged.outcome_ofEvaluation, Unlogged.outcome_ofEvaluation]
  simp only [outcome, HostAction.run, HostAction.recorded]
  rcases action r.host with ⟨_ | v, host⟩ <;> rfl

namespace Desk

variable {registry : FieldRegistry}

/-- A step that is written down has the same outcome, and its run, if it is one, is the next in the
record. -/
lemma outcome_carryOut_recorded (desk : Desk) (step : Step σ) (r : Recorded σ) :
    outcome (desk.carryOut registry step.recorded) r =
      ((outcome (desk.carryOut registry step) r.host).1,
        ⟨(outcome (desk.carryOut registry step) r.host).2,
          r.runs ++ (desk.run? step).toList⟩) := by
  have hsame (host : σ) : (⟨host, r.runs ++ (none : Option Run).toList⟩ : Recorded σ) =
      ⟨host, r.runs⟩ := by
    rw [Option.toList_none, List.append_nil]
  cases step with
  | read name action =>
    simp only [Step.recorded, carryOut, outcome_bind, outcome_ofEvaluation_recorded]
    rcases outcome (Unlogged.ofEvaluation (action.run (.capturedFailed name))) r.host with
      ⟨_ | v, host⟩ <;> rfl
  | call name arity apply =>
    simp only [Step.recorded, carryOut, outcome_bind, outcome_ofEvaluation_recorded]
    rcases outcome (Unlogged.ofEvaluation
      ((apply (desk.values.take arity).reverse).run (.callFailed name))) r.host with
      ⟨_ | v, host⟩ <;> rfl
  | negate =>
    rcases hvalues : desk.values with _ | ⟨a, values⟩
    · simp [Step.recorded, carryOut, run?, hvalues]
    · simp only [Step.recorded, carryOut, run?, hvalues, hsame, Unlogged.ofEvaluation_liftExcept,
        outcome_bind, outcome_liftExcept]
      cases a.negate.mapError Error.evaluation <;> rfl
  | combine op =>
    rcases hvalues : desk.values with _ | ⟨b, _ | ⟨a, values⟩⟩
    · simp [Step.recorded, carryOut, run?, hvalues]
    · simp [Step.recorded, carryOut, run?, hvalues]
    · simp only [Step.recorded, carryOut, run?, hvalues, hsame, Unlogged.ofEvaluation_liftExcept,
        outcome_bind, outcome_liftExcept]
      cases (op.apply a b).mapError Error.evaluation <;> rfl
  | orderByValue direction =>
    rcases hvalues : desk.values with _ | ⟨v, values⟩ <;>
      simp [Step.recorded, carryOut, run?, hvalues]
  | translate condition =>
    simp only [Step.recorded, carryOut, run?, hsame, Expr.filledIn_recorded, Expr.ofExpr_recorded,
      outcome_bind, outcome_liftExcept]
    cases Predicate.ofExpr registry (condition.filledIn desk.values.reverse) <;> rfl
  | _ => simp [Step.recorded, carryOut, run?]

/-! ### Steps up to the first that fails -/

/-- The steps are carried out one after the other, each of them once, and none but the last one
fails.  The entries are the runs of the steps, each of them if its step runs an action of the
host. -/
inductive Performs (registry : FieldRegistry) :
    Desk → σ → List (Step σ) → List (Option Run) → Except Error Desk → σ → Prop where
  | nil (desk : Desk) (host : σ) : Performs registry desk host [] [] (.ok desk) host
  | cons {desk desk₁ : Desk} {host host₁ host' : σ} {step : Step σ} {steps : List (Step σ)}
    {entries : List (Option Run)} {result : Except Error Desk} :
    outcome (desk.carryOut registry step) host = (.ok desk₁, host₁) →
      Performs registry desk₁ host₁ steps entries result host' →
      Performs registry desk host (step :: steps) (desk.run? step :: entries) result host'
  | fail {desk : Desk} {host host' : σ} {step : Step σ} {error : Error} :
    outcome (desk.carryOut registry step) host = (.error error, host') →
      Performs registry desk host [step] [desk.run? step] (.error error) host'

/-- All steps are carried out, or those up to the first that fails. -/
lemma exists_performs (registry : FieldRegistry) (steps : List (Step σ)) (desk : Desk) (host : σ) :
    ∃ started left entries result host', steps = started ++ left ∧
      Performs registry desk host started entries result host' ∧
      ∀ desk', result = .ok desk' → left = [] := by
  induction steps generalizing desk host with
  | nil => exact ⟨[], [], [], _, host, rfl, .nil desk host, fun _ _ => rfl⟩
  | cons step steps ih =>
    rcases hstep : outcome (desk.carryOut registry step) host with ⟨error | desk₁, host₁⟩
    · exact ⟨[step], steps, _, _, host₁, rfl, .fail hstep, nofun⟩
    · obtain ⟨started, left, entries, result, host', rfl, hsteps, hleft⟩ := ih desk₁ host₁
      exact ⟨step :: started, left, _, result, host', rfl, .cons hstep hsteps, hleft⟩

variable {desk : Desk} {host host' : σ} {started left : List (Step σ)} {entries : List (Option Run)}
  {result : Except Error Desk}

/-- Steps that are carried out up to the first that fails are carried out. -/
lemma Performs.outcome_carryOutAll (h : Performs registry desk host started entries result host')
    (hleft : ∀ desk', result = .ok desk' → left = []) :
    outcome (desk.carryOutAll registry (started ++ left)) host = (result, host') := by
  induction h with
  | nil desk host => simp [hleft desk rfl]
  | cons hstep _ ih =>
    rw [List.cons_append, carryOutAll, List.foldlM_cons, outcome_bind, hstep]
    exact ih hleft
  | fail hstep => rw [List.cons_append, carryOutAll, List.foldlM_cons, outcome_bind, hstep]

/-- The entries of the steps are what they write down. -/
lemma Performs.outcome_carryOutAll_recorded
    (h : Performs registry desk host started entries result host')
    (hleft : ∀ desk', result = .ok desk' → left = []) (runs : List Run) :
    outcome (desk.carryOutAll registry ((started ++ left).map Step.recorded)) ⟨host, runs⟩ =
      (result, ⟨host', runs ++ entries.reduceOption⟩) := by
  induction h generalizing runs with
  | nil desk host => simp [hleft desk rfl, List.reduceOption]
  | @cons desk _ _ _ _ step _ entries _ hstep _ ih =>
    have hruns : runs ++ (desk.run? step :: entries).reduceOption =
        runs ++ (desk.run? step).toList ++ entries.reduceOption := by
      cases desk.run? step <;> simp [List.reduceOption]
    rw [List.cons_append, List.map_cons, carryOutAll, List.foldlM_cons, outcome_bind,
      outcome_carryOut_recorded, hstep, hruns]
    exact ih hleft _
  | @fail desk _ _ step _ hstep =>
    have hruns : [desk.run? step].reduceOption = (desk.run? step).toList := by
      cases desk.run? step <;> rfl
    rw [List.cons_append, List.map_cons, carryOutAll, List.foldlM_cons, outcome_bind,
      outcome_carryOut_recorded, hstep, hruns]

/-- A run goes by the name of the action that its step runs. -/
lemma Performs.map_name (h : Performs registry desk host started entries result host') :
    entries.reduceOption.map Run.name = started.filterMap Step.action? := by
  have hstep (desk : Desk) (step : Step σ) : (desk.run? step).map Run.name = step.action? := by
    cases step <;> rfl
  have hcons (run : Option Run) (entries : List (Option Run)) :
      (run :: entries).reduceOption.map Run.name =
        (run.map Run.name).toList ++ entries.reduceOption.map Run.name := by
    cases run <;> rfl
  induction h with
  | nil desk host => rfl
  | @cons desk _ _ _ _ step _ _ _ _ _ ih =>
    rw [hcons, hstep, ih]
    cases hname : step.action? <;> simp [hname]
  | @fail desk _ _ step _ _ =>
    rw [hcons, hstep]
    cases hname : step.action? <;> simp [hname]

/-- Whatever stands before a step that is begun was carried out. -/
lemma Performs.exists_of_append_cons {before after : List (Step σ)} {step : Step σ}
    (h : Performs registry desk host (before ++ step :: after) entries result host') :
    ∃ desk₁ host₁ earlier later,
      outcome (desk.carryOutAll registry before) host = (.ok desk₁, host₁) ∧
      entries = earlier ++ later ∧ earlier.length = before.length ∧
      Performs registry desk₁ host₁ (step :: after) later result host' := by
  induction before generalizing desk host entries with
  | nil => exact ⟨desk, host, [], entries, rfl, rfl, rfl, h⟩
  | cons first before ih =>
    generalize hsteps : first :: before ++ step :: after = steps at h
    cases h with
    | nil => simp at hsteps
    | fail hfirst => simp at hsteps
    | cons hfirst hrest =>
      obtain ⟨rfl, rfl⟩ := List.cons.inj hsteps
      obtain ⟨desk₁, host₁, earlier, later, hbefore, rfl, hlength, hlater⟩ := ih hrest
      refine ⟨desk₁, host₁, _ :: earlier, later, ?_, rfl, congrArg (· + 1) hlength, hlater⟩
      rw [carryOutAll, List.foldlM_cons, outcome_bind, hfirst]
      exact hbefore

/-- A step that refuses a stage fails, so it is the last one. -/
lemma Performs.eq_nil_of_refuse {before after : List (Step σ)} {error : Error}
    (h : Performs registry desk host (before ++ .refuse error :: after) entries result host') :
    after = [] := by
  obtain ⟨desk₁, host₁, earlier, later, -, -, -, hlater⟩ := h.exists_of_append_cons
  cases hlater with
  | cons hrefuse _ => simp [carryOut] at hrefuse
  | fail _ => rfl

/-- A call that is begun is given the values of its arguments. -/
lemma Performs.call_arguments {before after : List (Step σ)} {name : String} {args : List (Expr σ)}
    {apply : List Value → HostAction σ} (hargs : Expr.anyDependsOnRecord args = false)
    (h : Performs registry desk host (before ++ (Expr.call name args apply).steps ++ after) entries
      result host') :
    ∃ desk₁ host₁ values host₂,
      outcome (desk.carryOutAll registry before) host = (.ok desk₁, host₁) ∧
      outcome (Expr.evaluateAll args) host₁ = (.ok values, host₂) ∧
      entries[(before ++ Expr.stepsOfAll args).length]? = some (some ⟨name, values⟩) := by
  have hsplit : before ++ (Expr.call name args apply).steps ++ after =
      before ++ Expr.stepsOfAll args ++ .call name args.length apply :: after := by
    rw [Expr.steps, List.append_assoc, List.append_assoc, List.append_assoc]
    rfl
  rw [hsplit] at h
  obtain ⟨desk₂, host₂, earlier, later, hdone, rfl, hlength, hlater⟩ := h.exists_of_append_cons
  rw [carryOutAll_append, outcome_bind_eq_ok_iff] at hdone
  obtain ⟨desk₁, host₁, hbefore, harguments⟩ := hdone
  rw [carryOutAll_stepsOfAll args hargs, outcome_map_eq_ok_iff] at harguments
  obtain ⟨values, hvalues, rfl⟩ := harguments
  rw [Unlogged.outcome_ofEvaluation_eq_ok_iff] at hvalues
  have hrun : (desk₁.pushAll values).run? (.call name args.length apply : Step σ) =
      some ⟨name, values⟩ := by
    simp [run?, pushAll, ← Expr.length_of_outcome_evaluateAll hvalues]
  have hentry : later.head? = some (some ⟨name, values⟩) := by
    rw [← hrun]
    cases hlater <;> rfl
  refine ⟨desk₁, host₁, values, host₂, hbefore, hvalues, ?_⟩
  rw [← hlength, List.getElem?_append_right le_rfl, Nat.sub_self, ← List.head?_eq_getElem?, hentry]

end Desk

/-! ### What a compilation evaluates -/

/-- The names of the actions that the evaluation of an expression runs, in postorder. -/
def Expr.actions (e : Expr σ) : List String := e.steps.filterMap Step.action?

namespace Pipeline

/-- What is evaluated for the orderings, from the newest to the oldest. -/
def orderingParts (p : Pipeline σ R) : List (Expr σ) :=
  (p.orderings.reverse.filterMap fun ordering => ordering.1.indexKey?).flatMap Expr.closedParts

/-- What is evaluated for the conditions, from the first declared to the last. -/
def conditionParts (p : Pipeline σ R) : List (Expr σ) := p.conditions.flatMap Expr.closedParts

end Pipeline

/-- The actions of some expressions are those of each of them, from the first to the last. -/
lemma Expr.filterMap_action?_stepsOfAll (es : List (Expr σ)) :
    (stepsOfAll es).filterMap Step.action? = es.flatMap actions := by
  induction es with
  | nil => rfl
  | cons e es ih => rw [stepsOfAll, List.filterMap_append, ih, List.flatMap_cons, actions]

/-- Of the steps for a stage, only those for the key of an indexed field run actions. -/
lemma Stage.filterMap_action?_steps (stage : Stage σ R) (above : Option String) :
    (stage.steps above).filterMap Step.action? =
      ((stage.ordering?.bind fun ordering => ordering.1.indexKey?).toList.flatMap
        Expr.closedParts).flatMap Expr.actions := by
  cases stage with
  | order key direction secondary =>
    rw [Stage.steps, Expr.keySteps, Stage.ordering?, Option.bind_some, Expr.indexKey?]
    cases key.withoutConversions with
    | indexer name =>
      rw [List.filterMap_append, Expr.filterMap_action?_stepsOfAll]
      cases name.dependsOnRecord <;> simp [Step.action?]
    | _ => rfl
  | localFilter predicate => cases above <;> rfl
  | _ => rfl

namespace Expr

mutual

/-- An evaluation refuses no stage. -/
theorem refuse_notMem_steps (e : Expr σ) (error : Error) : .refuse error ∉ e.steps := by
  cases e with
  | field name => nofun
  | indexer key => nofun
  | constant v => simp [steps]
  | captured name read => simp [steps]
  | call name args apply => simpa [steps] using refuse_notMem_stepsOfAll args error
  | convert inner => exact refuse_notMem_steps inner error
  | not inner => simpa [steps] using refuse_notMem_steps inner error
  | binary op left right =>
    have hleft := refuse_notMem_steps left error
    have hright := refuse_notMem_steps right error
    simpa [steps] using ⟨hleft, hright⟩

/-- An evaluation of arguments refuses no stage. -/
theorem refuse_notMem_stepsOfAll (es : List (Expr σ)) (error : Error) :
    .refuse error ∉ stepsOfAll es := by
  cases es with
  | nil => nofun
  | cons e es =>
    have hfirst := refuse_notMem_steps e error
    have hrest := refuse_notMem_stepsOfAll es error
    simpa [stepsOfAll] using ⟨hfirst, hrest⟩

end

end Expr

namespace Pipeline

/-- The first pass runs the actions of the ordering keys, from the newest to the oldest. -/
lemma filterMap_action?_firstSteps (p : Pipeline σ R) :
    p.firstSteps.filterMap Step.action? = p.orderingParts.flatMap Expr.actions := by
  have hdown (stages : List (Stage σ R)) (above : Option String) :
      (stepsDown above stages).filterMap Step.action? =
        (((stages.filterMap Stage.ordering?).filterMap fun ordering =>
          ordering.1.indexKey?).flatMap Expr.closedParts).flatMap Expr.actions := by
    induction stages generalizing above with
    | nil => rfl
    | cons stage older ih =>
      rw [stepsDown, List.filterMap_append, Stage.filterMap_action?_steps, ih]
      rcases hordering : stage.ordering? with _ | ordering
      · simp [hordering]
      · rcases hkey : ordering.1.indexKey? with _ | key <;> simp [hordering, hkey]
  rw [firstSteps, hdown, orderingParts, orderings, filterMap_declared, List.reverse_reverse]

/-- The second pass runs the actions of the conditions, from the first declared to the last. -/
lemma filterMap_action?_secondSteps (p : Pipeline σ R) :
    p.secondSteps.filterMap Step.action? = p.conditionParts.flatMap Expr.actions := by
  rw [secondSteps, conditionParts, List.filterMap_flatMap, List.flatMap_assoc]
  refine congrArg (List.flatMap · p.conditions) (funext fun condition => ?_)
  rw [Expr.conditionSteps, List.filterMap_append, Expr.filterMap_action?_stepsOfAll]
  exact List.append_nil _

/-- The conditions are evaluated and translated, and no stage is refused any more. -/
lemma refuse_notMem_secondSteps (p : Pipeline σ R) (error : Error) :
    .refuse error ∉ p.secondSteps := by
  intro hmem
  obtain ⟨condition, -, hsteps⟩ := List.mem_flatMap.mp hmem
  rcases List.mem_append.mp hsteps with hparts | hlast
  · exact Expr.refuse_notMem_stepsOfAll _ error hparts
  · simp at hlast

/-- A step that refuses a stage is the last one, so steps with it are among those of the first
pass. -/
lemma started_prefix_firstSteps {p : Pipeline σ R} {registry : FieldRegistry} {desk : Desk}
    {host host' : σ} {started left : List (Step σ)} {entries : List (Option Run)}
    {result : Except Error Desk} {error : Error} (hschedule : p.schedule = started ++ left)
    (h : Desk.Performs registry desk host started entries result host')
    (hrefuse : .refuse error ∈ started) : started <+: p.firstSteps := by
  rcases List.append_eq_append_iff.mp hschedule with ⟨more, rfl, hsecond⟩ | ⟨more, hfirst, -⟩
  · have hnotMem : .refuse error ∉ more := by
      intro hmem
      have hmem' : .refuse error ∈ p.secondSteps := by
        rw [hsecond]
        exact List.mem_append_left left hmem
      exact p.refuse_notMem_secondSteps error hmem'
    obtain ⟨before, after, hsplit⟩ :=
      List.append_of_mem ((List.mem_append.mp hrefuse).resolve_right hnotMem)
    rw [hsplit, List.append_assoc, List.cons_append] at h
    have hmore : more = [] := (List.append_eq_nil_iff.mp h.eq_nil_of_refuse).2
    rw [hmore, List.append_nil]
  · exact ⟨more, hfirst.symm⟩

/-- The actions of the host that a compilation runs are those of its schedule.  The steps are
carried out in their order, from the first on, each of them once, and the first that fails is the
last.

* The actions of the first pass are those in the closed parts of the keys of indexed fields that
  are ordered by, from the newest ordering to the oldest; those of the second are the actions in
  the closed parts of the conditions, in the order of their declaration.  Each part is evaluated in
  postorder, and no part reads the record.
* A call is given the values of its arguments.
* When a stage is refused, no condition is evaluated. -/
theorem toDirective_runs_schedule (registry : FieldRegistry) (p : Pipeline σ R) (c : Context σ) :
    ∃ started left entries result host,
      p.schedule = started ++ left ∧
      Desk.Performs registry {} c.host started entries result host ∧
      (∀ desk, result = .ok desk → left = []) ∧
      (outcome (p.toDirective registry) c).1 = result.map p.directiveOf ∧
      (outcome (p.toDirective registry) c).2.host = host ∧
      (outcome (p.recorded.toDirective registry) ⟨⟨c.host, []⟩, c.log⟩).1 =
        result.map p.directiveOf ∧
      (outcome (p.recorded.toDirective registry) ⟨⟨c.host, []⟩, c.log⟩).2.host =
        ⟨host, p.runs registry c⟩ ∧
      p.runs registry c = entries.reduceOption ∧
      (p.runs registry c).map Run.name = started.filterMap Step.action? ∧
      p.schedule = p.firstSteps ++ p.secondSteps ∧
      p.firstSteps.filterMap Step.action? = p.orderingParts.flatMap Expr.actions ∧
      p.secondSteps.filterMap Step.action? = p.conditionParts.flatMap Expr.actions ∧
      (∀ part ∈ p.orderingParts ++ p.conditionParts, part.dependsOnRecord = false) ∧
      (∀ before name args apply after, Expr.anyDependsOnRecord args = false →
        started = before ++ (Expr.call name args apply).steps ++ after →
        ∃ desk₁ host₁ values host₂,
          outcome (({} : Desk).carryOutAll registry before) c.host = (.ok desk₁, host₁) ∧
          outcome (Expr.evaluateAll args) host₁ = (.ok values, host₂) ∧
          entries[(before ++ Expr.stepsOfAll args).length]? = some (some ⟨name, values⟩)) ∧
      ∀ error, .refuse error ∈ started → started <+: p.firstSteps := by
  obtain ⟨started, left, entries, result, host, hschedule, hperforms, hleft⟩ :=
    Desk.exists_performs registry p.schedule {} c.host
  -- The compilation does its schedule, and the recorded one does the same with a record.
  have hplain := p.does_schedule registry c
  have hrecorded := p.recorded.does_schedule registry ⟨⟨c.host, []⟩, c.log⟩
  rw [hschedule, outcome_map, hperforms.outcome_carryOutAll hleft, Prod.mk.injEq] at hplain
  rw [p.schedule_recorded, hschedule, p.directiveOf_recorded, outcome_map,
    hperforms.outcome_carryOutAll_recorded hleft, Prod.mk.injEq] at hrecorded
  have hruns : p.runs registry c = entries.reduceOption := by
    rw [runs, hrecorded.2]
    rfl
  have hclosed : ∀ part ∈ p.orderingParts ++ p.conditionParts, part.dependsOnRecord = false := by
    intro part hpart
    rcases List.mem_append.mp hpart with hpart | hpart
    · obtain ⟨key, -, hkey⟩ := List.mem_flatMap.mp hpart
      exact key.dependsOnRecord_of_mem_closedParts part hkey
    · obtain ⟨condition, -, hcondition⟩ := List.mem_flatMap.mp hpart
      exact condition.dependsOnRecord_of_mem_closedParts part hcondition
  refine ⟨started, left, entries, result, host, hschedule, hperforms, hleft, hplain.1, hplain.2,
    hrecorded.1, ?_, hruns, ?_, rfl, p.filterMap_action?_firstSteps,
    p.filterMap_action?_secondSteps, hclosed, ?_,
    fun error => started_prefix_firstSteps hschedule hperforms⟩
  · rw [hruns, hrecorded.2, List.nil_append]
  · rw [hruns, hperforms.map_name]
  · rintro before name args apply after hargs rfl
    exact hperforms.call_arguments hargs

/-- The ordering comes first although it was declared last, and a call after its arguments. -/
example :
    let count (name : String) : Expr Nat :=
      .captured name fun n => (.ok (.int (Int64.ofNat n)), n + 1)
    let total : Expr Nat := .call "total" [count "votes", count "watches"] fun _ n => (.ok .null, n)
    let p : Pipeline Nat Unit := .ofDeclared [
      .filter (.binary .equal (.field "Votes") total),
      .order (.indexer (count "column")) .ascending false]
    p.runs .issue ⟨0, []⟩ =
      [⟨"column", []⟩, ⟨"votes", []⟩, ⟨"watches", []⟩, ⟨"total", [.int 1, .int 2]⟩] := by
  cbv

end Pipeline

end IssueQuery
