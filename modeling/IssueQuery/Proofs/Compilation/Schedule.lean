import IssueQuery.Proofs.Compilation.Declaration
import IssueQuery.Proofs.Expr.ClosedParts

/-!
# The schedule of a compilation

A compilation walks down the pipeline and up again, and each of the two walks folds trees from left
to right.  The result is a fixed list of `Step`s, the `Pipeline.schedule`: the closed parts of the
ordering keys from the newest stage to the oldest one, then those of the conditions in the order of
their declaration, every part in postorder, and behind the parts of a stage what is done with their
values.  `Desk.carryOut` carries out a single step.  Values lie in a pile on the desk: a step takes
its operands from the top and puts its result there.

`Pipeline.does_schedule` says that a compilation does the steps of its schedule one after the other
until one of them fails, and nothing else but writing to the log.
-/

namespace IssueQuery

variable {σ R α β : Type}

/-! ### Apart from the log -/

/-- A computation on the host that may fail as a compilation does. -/
abbrev Unlogged (σ : Type) := ExceptT Error (StateM σ)

/-- An evaluation as a part of such a computation. -/
def Unlogged.ofEvaluation (e : Evaluation σ α) : Unlogged σ α := ExceptT.adapt Error.evaluation e

/-- Apart from the log, a compilation does what a computation on the host does. -/
def Does (x : Compilation σ α) (y : Unlogged σ α) : Prop :=
  ∀ c, ((outcome x c).1, (outcome x c).2.host) = outcome y c.host

namespace Unlogged

/-- An evaluation keeps its outcome, with its error as one of compilation. -/
lemma outcome_ofEvaluation (e : Evaluation σ α) (host : σ) :
    outcome (ofEvaluation e) host =
      ((outcome e host).1.mapError Error.evaluation, (outcome e host).2) := rfl

/-- An evaluation has a value exactly when it has this value by itself. -/
lemma outcome_ofEvaluation_eq_ok_iff {e : Evaluation σ α} {a : α} {host host' : σ} :
    outcome (ofEvaluation e) host = (.ok a, host') ↔ outcome e host = (.ok a, host') := by
  rw [outcome_ofEvaluation]
  rcases outcome e host with ⟨_ | b, host₁⟩ <;> simp [Except.mapError]

/-- To evaluate nothing is to do nothing. -/
@[simp] lemma ofEvaluation_pure (a : α) :
    ofEvaluation (pure a : Evaluation σ α) = pure a := rfl

/-- Evaluations one after the other are so as parts of a compilation. -/
@[simp] lemma ofEvaluation_bind (x : Evaluation σ α) (f : α → Evaluation σ β) :
    ofEvaluation (x >>= f) = ofEvaluation x >>= fun a => ofEvaluation (f a) :=
  adapt_bind Error.evaluation x f

/-- A map of the value of an evaluation goes with it. -/
@[simp] lemma ofEvaluation_map (g : α → β) (x : Evaluation σ α) :
    ofEvaluation (g <$> x) = g <$> ofEvaluation x := by
  rw [map_eq_pure_bind, map_eq_pure_bind, ofEvaluation_bind]
  rfl

/-- A result without effects stays one, with its error as one of compilation. -/
@[simp] lemma ofEvaluation_liftExcept (r : Except EvalError α) :
    ofEvaluation (liftExcept r : Evaluation σ α) = liftExcept (r.mapError Error.evaluation) :=
  adapt_liftExcept Error.evaluation r

end Unlogged

section Does

variable {x : Compilation σ α} {y : Unlogged σ α} {f : α → Compilation σ β} {g : α → Unlogged σ β}

/-- A compilation that only returns a value does nothing. -/
lemma does_pure (a : α) : Does (pure a : Compilation σ α) (pure a) := fun _ => rfl

/-- A compilation that only has a result does nothing. -/
lemma does_liftExcept (r : Except Error α) :
    Does (liftExcept r : Compilation σ α) (liftExcept r) := by
  intro c
  rw [outcome_liftExcept, outcome_liftExcept]

/-- An evaluation writes nothing to the log. -/
lemma does_ofEvaluation (e : Evaluation σ α) :
    Does (Compilation.ofEvaluation e) (Unlogged.ofEvaluation e) := fun _ => rfl

/-- Compilations one after the other do one thing after the other. -/
lemma Does.bind (hx : Does x y) (hf : ∀ a, Does (f a) (g a)) : Does (x >>= f) (y >>= g) := by
  intro c
  have hfirst := hx c
  rw [outcome_bind, outcome_bind, ← hfirst]
  rcases outcome x c with ⟨_ | a, c₁⟩
  · rfl
  · exact hf a c₁

/-- What is only noted is not done. -/
lemma Does.note {y : Unlogged σ α} {x : Unit → Compilation σ α} (hx : Does (x ()) y)
    (event : LogEvent) : Does (Compilation.note event >>= x) y := by
  intro c
  rw [outcome_bind, outcome_note]
  exact hx _

end Does

/-! ### Steps -/

/-- One step of a compilation. -/
inductive Step (σ : Type) where
  /-- A constant is put on the pile. -/
  | push (v : Value)
  | read (name : String) (read : HostAction σ)
  /-- A function of the host is applied to the values on top, as many as it has arguments. -/
  | call (name : String) (arity : Nat) (apply : List Value → HostAction σ)
  | negate
  | combine (op : BinaryOp)
  | orderByMember (name : String) (direction : Direction)
  /-- The value on top becomes the name of a field to order by. -/
  | orderByValue (direction : Direction)
  /-- The stage cannot be compiled. -/
  | refuse (error : Error)
  /-- The values on the pile are filled into the condition, which is translated. -/
  | translate (condition : Expr σ)

/-- The values that are not used yet, the last of them in front, and what was compiled so far. -/
structure Desk where
  values : List Value := []
  orderClauses : List OrderClause := []
  predicates : List Predicate := []

namespace Desk

/-- Puts values on the pile, from the first to the last. -/
def pushAll (desk : Desk) (values : List Value) : Desk :=
  { desk with values := values.reverse ++ desk.values }

/-- Carries out one step.  A pile on which a step does not find its operands is left alone. -/
def carryOut (registry : FieldRegistry) (desk : Desk) (step : Step σ) : Unlogged σ Desk :=
  match step with
  | .push v => pure (desk.pushAll [v])
  | .read name read => do
    let v ← Unlogged.ofEvaluation (read.run (.capturedFailed name))
    pure (desk.pushAll [v])
  | .call name arity apply => do
    let v ← Unlogged.ofEvaluation
      ((apply (desk.values.take arity).reverse).run (.callFailed name))
    pure { desk with values := v :: desk.values.drop arity }
  | .negate =>
    match desk.values with
    | a :: values => do
      let v ← Unlogged.ofEvaluation (liftExcept a.negate)
      pure { desk with values := v :: values }
    | [] => pure desk
  | .combine op =>
    match desk.values with
    | b :: a :: values => do
      let v ← Unlogged.ofEvaluation (liftExcept (op.apply a b))
      pure { desk with values := v :: values }
    | _ => pure desk
  | .orderByMember name direction =>
    pure { desk with orderClauses := ⟨.member name, direction⟩ :: desk.orderClauses }
  | .orderByValue direction =>
    match desk.values with
    | v :: values =>
      pure { desk with
        values
        orderClauses := ⟨.dynamic v.fieldName, direction⟩ :: desk.orderClauses }
    | [] => pure desk
  | .refuse error => throw error
  | .translate condition => do
    let predicate ← liftExcept
      (Predicate.ofExpr registry (condition.filledIn desk.values.reverse))
    pure { desk with values := [], predicates := desk.predicates ++ [predicate] }

/-- Carries out steps one after the other. -/
def carryOutAll (registry : FieldRegistry) (desk : Desk) (steps : List (Step σ)) :
    Unlogged σ Desk :=
  steps.foldlM (carryOut registry) desk

/-- Steps are carried out up to some point, and then those after it. -/
lemma carryOutAll_append (registry : FieldRegistry) (desk : Desk) (steps later : List (Step σ)) :
    desk.carryOutAll registry (steps ++ later) =
      desk.carryOutAll registry steps >>= fun desk => desk.carryOutAll registry later :=
  List.foldlM_append

/-- A single step is carried out by itself. -/
lemma carryOutAll_singleton (registry : FieldRegistry) (desk : Desk) (step : Step σ) :
    desk.carryOutAll registry [step] = desk.carryOut registry step := by
  simp [carryOutAll]

/-- Without steps the desk stays as it is. -/
@[simp] lemma carryOutAll_nil (registry : FieldRegistry) (desk : Desk) :
    desk.carryOutAll registry ([] : List (Step σ)) = pure desk := rfl

/-- Without values the pile stays as it is. -/
@[simp] lemma pushAll_nil (desk : Desk) : desk.pushAll [] = desk := rfl

/-- Values are put on the pile up to some point, and then those after it. -/
lemma pushAll_append (desk : Desk) (values later : List Value) :
    desk.pushAll (values ++ later) = (desk.pushAll values).pushAll later := by
  simp [pushAll]

end Desk

namespace Expr

mutual

/-- The steps of an expression that does not read the record, in postorder: both operands before
the operator, and the arguments before the call.  A part that reads the record has none. -/
def steps : Expr σ → List (Step σ)
  | field _ | indexer _ => []
  | constant v => [.push v]
  | captured name read => [.read name read]
  | call name args apply => stepsOfAll args ++ [.call name args.length apply]
  | convert inner => inner.steps
  | not inner => inner.steps ++ [.negate]
  | binary op left right => left.steps ++ right.steps ++ [.combine op]

/-- The steps of all arguments, from the first to the last. -/
def stepsOfAll : List (Expr σ) → List (Step σ)
  | [] => []
  | e :: es => e.steps ++ stepsOfAll es

end

/-- The steps of an ordering key, under conversions.  The parts of the key of an indexed field are
evaluated first, also when it reads the record and is refused then. -/
def keySteps (stage : String) (direction : Direction) (key : Expr σ) : List (Step σ) :=
  match key.withoutConversions with
  | .field name => [.orderByMember name direction]
  | .indexer name =>
    stepsOfAll name.closedParts ++
      [if name.dependsOnRecord then .refuse (.unsupportedField stage) else .orderByValue direction]
  | _ => [.refuse (.unsupportedField stage)]

/-- The steps of a condition. -/
def conditionSteps (condition : Expr σ) : List (Step σ) :=
  stepsOfAll condition.closedParts ++ [.translate condition]

end Expr

/-- The steps of a stage in the first pass, below a stage that the server carries out if there is
one. -/
def Stage.steps (above : Option String) : Stage σ R → List (Step σ)
  | .order key direction secondary => key.keySteps (orderName direction secondary) direction
  | .localFilter _ =>
    above.toList.map fun name => .refuse (.notSupported ("LocalWhere followed by " ++ name))
  | .filter _ | .take _ | .skip _ => []

namespace Pipeline

/-- The steps of the first pass over stages, the newest of them in front. -/
def stepsDown : Option String → List (Stage σ R) → List (Step σ)
  | _, [] => []
  | above, stage :: older =>
    stage.steps above ++ stepsDown (if stage.isPushedDown then some stage.name else above) older

/-- The steps for the ordering keys and the local filters, from the newest stage to the oldest. -/
def firstSteps (p : Pipeline σ R) : List (Step σ) := stepsDown none p.newestFirst

/-- The steps for the conditions, from the first declared to the last. -/
def secondSteps (p : Pipeline σ R) : List (Step σ) := p.conditions.flatMap Expr.conditionSteps

/-- All steps of the compilation of a pipeline. -/
def schedule (p : Pipeline σ R) : List (Step σ) := p.firstSteps ++ p.secondSteps

/-- The directive for what was compiled; of all limits and starts the last declared counts. -/
def directiveOf (p : Pipeline σ R) (desk : Desk) : Directive :=
  CompiledQuery.directive
    { filters := desk.predicates
      orderClauses := desk.orderClauses
      maxResults := p.limits.getLast?
      startAt := p.starts.getLast? }

end Pipeline

/-! ### Evaluation in postorder -/

namespace Desk

variable {registry : FieldRegistry}

mutual

/-- The steps of a closed expression put its value on the pile. -/
theorem carryOutAll_steps (e : Expr σ) (he : e.dependsOnRecord = false) (desk : Desk) :
    desk.carryOutAll registry e.steps =
      (fun v => desk.pushAll [v]) <$> Unlogged.ofEvaluation e.evaluate := by
  cases e with
  | field name => simp [Expr.dependsOnRecord] at he
  | indexer key => simp [Expr.dependsOnRecord] at he
  | constant v => simp [Expr.steps, Expr.evaluate, carryOutAll_singleton, carryOut]
  | captured name read =>
    simp [Expr.steps, Expr.evaluate, carryOutAll_singleton, carryOut]
  | call name args apply =>
    have hargs := carryOutAll_stepsOfAll args he desk
    rw [Expr.steps, carryOutAll_append, hargs, Expr.evaluate]
    simp only [Unlogged.ofEvaluation_bind, map_eq_pure_bind, bind_assoc, pure_bind,
      carryOutAll_singleton, carryOut]
    -- The values that the call finds on the pile are exactly those of its arguments.
    refine bind_congr_of_outcome fun host values host' hvalues => ?_
    have hlength := Expr.length_of_outcome_evaluateAll
      (Unlogged.outcome_ofEvaluation_eq_ok_iff.mp hvalues)
    have htake : ((desk.pushAll values).values.take args.length).reverse = values := by
      simp [pushAll, ← hlength]
    have hdrop : (desk.pushAll values).values.drop args.length = desk.values := by
      simp [pushAll, ← hlength]
    rw [htake, hdrop]
    rfl
  | convert inner => exact carryOutAll_steps inner he desk
  | not inner =>
    have hinner := carryOutAll_steps inner he desk
    rw [Expr.steps, carryOutAll_append, hinner, Expr.evaluate]
    simp only [Unlogged.ofEvaluation_bind, map_eq_pure_bind, bind_assoc, pure_bind,
      carryOutAll_singleton, carryOut]
    rfl
  | binary op left right =>
    have hboth : left.dependsOnRecord = false ∧ right.dependsOnRecord = false := by
      simpa [Expr.dependsOnRecord] using he
    have hleft := carryOutAll_steps left hboth.1 desk
    have hright := carryOutAll_steps right hboth.2
    rw [Expr.steps, carryOutAll_append, carryOutAll_append, hleft, Expr.evaluate]
    simp only [Unlogged.ofEvaluation_bind, map_eq_pure_bind, bind_assoc, pure_bind, hright,
      carryOutAll_singleton, carryOut]
    rfl

/-- The steps of closed expressions put their values on the pile, one after the other. -/
theorem carryOutAll_stepsOfAll (es : List (Expr σ)) (hes : Expr.anyDependsOnRecord es = false)
    (desk : Desk) :
    desk.carryOutAll registry (Expr.stepsOfAll es) =
      (fun vs => desk.pushAll vs) <$> Unlogged.ofEvaluation (Expr.evaluateAll es) := by
  cases es with
  | nil => simp [Expr.stepsOfAll, Expr.evaluateAll]
  | cons e es =>
    have hboth : e.dependsOnRecord = false ∧ Expr.anyDependsOnRecord es = false := by
      simpa [Expr.anyDependsOnRecord] using hes
    have hfirst := carryOutAll_steps e hboth.1 desk
    have hrest := carryOutAll_stepsOfAll es hboth.2
    rw [Expr.stepsOfAll, carryOutAll_append, hfirst, Expr.evaluateAll]
    simp only [Unlogged.ofEvaluation_bind, map_eq_pure_bind, bind_assoc, pure_bind, hrest]
    refine bind_congr fun v => bind_congr fun vs => ?_
    rw [← pushAll_append]
    rfl

end

/-- The closed parts of an expression put their values on the pile, from which the folded expression
is made. -/
lemma carryOutAll_closedParts (e : Expr σ) (desk : Desk) :
    desk.carryOutAll registry (Expr.stepsOfAll e.closedParts) =
      (fun vs => desk.pushAll vs) <$> Unlogged.ofEvaluation (Expr.evaluateAll e.closedParts) :=
  carryOutAll_stepsOfAll _ e.anyDependsOnRecord_closedParts desk

/-! ### Ordering keys and conditions -/

/-- The steps for the key of an indexed field fold it and order by the constant that it gives. -/
lemma carryOutAll_keySteps_indexer (stage : String) (direction : Direction) (name : Expr σ)
    (desk : Desk) :
    desk.carryOutAll registry ((Expr.indexer name).keySteps stage direction) =
      Unlogged.ofEvaluation name.fold >>= fun folded =>
        match folded with
        | .constant v => pure { desk with
            orderClauses := ⟨.dynamic v.fieldName, direction⟩ :: desk.orderClauses }
        | _ => throw (.unsupportedField stage) := by
  rw [name.fold_eq_map_evaluateAll, Unlogged.ofEvaluation_map]
  simp only [Expr.keySteps, Expr.withoutConversions, carryOutAll_append, carryOutAll_closedParts,
    carryOutAll_singleton, map_eq_pure_bind, bind_assoc, pure_bind]
  cases hname : name.dependsOnRecord with
  | true =>
    refine bind_congr fun values => ?_
    rw [if_pos rfl]
    split
    next v hv => exact absurd hv (Expr.filledIn_ne_constant hname values v)
    next => rfl
  | false =>
    simp [Expr.closedParts_of_closed hname, Expr.evaluateAll, Expr.filledIn_of_closed hname,
      carryOut, pushAll]

/-- The steps for a condition fold and translate it. -/
lemma carryOutAll_conditionSteps (condition : Expr σ) {desk : Desk} (hempty : desk.values = []) :
    desk.carryOutAll registry condition.conditionSteps =
      Unlogged.ofEvaluation condition.fold >>= fun folded =>
        liftExcept (Predicate.ofExpr registry folded) >>= fun predicate =>
          pure { desk with predicates := desk.predicates ++ [predicate] } := by
  rw [condition.fold_eq_map_evaluateAll, Unlogged.ofEvaluation_map]
  simp only [Expr.conditionSteps, carryOutAll_append, carryOutAll_closedParts,
    carryOutAll_singleton, map_eq_pure_bind, bind_assoc, pure_bind]
  refine bind_congr fun values => ?_
  simp [carryOut, pushAll, hempty]

end Desk

/-! ### The first pass -/

section FirstPass

variable {registry : FieldRegistry} {desk : Desk}

/-- The steps for an ordering key find its field. -/
lemma does_toOrderField (key : Expr σ) (stage : String) (direction : Direction)
    {f : FieldRef → Compilation σ β} {g : Desk → Unlogged σ β}
    (hfield : ∀ field, Does (f field)
      (g { desk with orderClauses := ⟨field, direction⟩ :: desk.orderClauses })) :
    Does (key.toOrderField stage >>= f)
      (desk.carryOutAll registry (key.keySteps stage direction) >>= g) := by
  induction key using Expr.withoutConversions.induct with
  | case1 inner ih => exact ih
  | case2 key hkey =>
    cases key with
    | convert inner => exact absurd rfl (hkey inner)
    | field name =>
      simpa [Expr.toOrderField, Expr.keySteps, Expr.withoutConversions, Desk.carryOutAll_singleton,
        Desk.carryOut] using hfield (.member name)
    | indexer name =>
      rw [Desk.carryOutAll_keySteps_indexer, bind_assoc]
      simp only [Expr.toOrderField, Expr.withoutConversions, bind_assoc]
      refine (does_ofEvaluation name.fold).bind fun folded => ?_
      cases folded with
      | constant v => simpa using hfield (.dynamic v.fieldName)
      | _ => exact fun _ => rfl
    | _ => exact fun _ => rfl

/-- The steps for a stage take it up. -/
lemma does_visit (d : Draft σ) (stage : Stage σ R) {f : Draft σ → Compilation σ β}
    {g : Desk → Unlogged σ β}
    (htaken : ∀ clauses, Does (f (d.taken stage clauses))
      (g { desk with orderClauses := clauses.reverse ++ desk.orderClauses })) :
    Does (d.visit stage >>= f) (desk.carryOutAll registry (stage.steps d.above) >>= g) := by
  cases stage with
  | order key direction secondary =>
    rw [Draft.visit, bind_assoc]
    refine does_toOrderField key _ direction fun field => ?_
    simpa [Draft.taken, Stage.condition?, Stage.limit?, Stage.start?, Stage.isPushedDown]
      using htaken [⟨field, direction⟩]
  | filter condition =>
    simpa [Draft.visit, Draft.taken, Stage.steps, Stage.condition?, Stage.limit?, Stage.start?,
      Stage.isPushedDown] using htaken []
  | take count =>
    have hnone := htaken []
    cases hmax : d.maxResults with
    | none =>
      simpa [Draft.visit, Draft.taken, Stage.steps, hmax, Stage.condition?, Stage.limit?,
        Stage.start?, Stage.isPushedDown] using hnone
    | some kept =>
      simp only [Draft.visit, hmax, bind_assoc, pure_bind]
      refine Does.note ?_ _
      simpa [Draft.taken, Stage.steps, hmax, Stage.condition?, Stage.limit?,
        Stage.start?, Stage.isPushedDown] using hnone
  | skip count =>
    have hnone := htaken []
    cases hstart : d.startAt with
    | none =>
      simpa [Draft.visit, Draft.taken, Stage.steps, hstart, Stage.condition?, Stage.limit?,
        Stage.start?, Stage.isPushedDown] using hnone
    | some kept =>
      simp only [Draft.visit, hstart, bind_assoc, pure_bind]
      refine Does.note ?_ _
      simpa [Draft.taken, Stage.steps, hstart, Stage.condition?, Stage.limit?,
        Stage.start?, Stage.isPushedDown] using hnone
  | localFilter predicate =>
    cases habove : d.above with
    | none =>
      have hsame : d.taken (.localFilter predicate : Stage σ R) [] = d := by
        simp [Draft.taken, Stage.condition?, Stage.limit?, Stage.start?, Stage.isPushedDown]
      simpa [Draft.visit, Stage.steps, habove, hsame] using htaken []
    | some name =>
      simp only [Draft.visit, habove, Stage.steps, Option.toList_some, List.map_cons,
        List.map_nil, Desk.carryOutAll_singleton]
      exact fun _ => rfl

/-- What the first pass has collected from some stages, the newest in front, in a draft and on a
desk. -/
structure Draft.AgreesWith (d : Draft σ) (newer : List (Stage σ R)) (desk : Desk) : Prop where
  conditions : d.conditions = (newer.filterMap Stage.condition?).reverse
  orderClauses : d.orderClauses = desk.orderClauses
  maxResults : d.maxResults = (newer.filterMap Stage.limit?).head?
  startAt : d.startAt = (newer.filterMap Stage.start?).head?
  values : desk.values = []
  predicates : desk.predicates = []

/-- One more stage keeps draft and desk in agreement. -/
lemma Draft.AgreesWith.taken {d : Draft σ} {newer : List (Stage σ R)}
    (h : d.AgreesWith newer desk) (stage : Stage σ R) (clauses : List OrderClause) :
    (d.taken stage clauses).AgreesWith (newer ++ [stage])
      { desk with orderClauses := clauses.reverse ++ desk.orderClauses } where
  conditions := by
    rw [Draft.taken, h.conditions, List.filterMap_append, List.reverse_append]
    cases stage <;> rfl
  orderClauses := by rw [Draft.taken, h.orderClauses]
  maxResults := by
    rw [Draft.taken, h.maxResults, List.filterMap_append, List.head?_append]
    cases stage <;> rfl
  startAt := by
    rw [Draft.taken, h.startAt, List.filterMap_append, List.head?_append]
    cases stage <;> rfl
  values := h.values
  predicates := h.predicates

/-- The steps down the pipeline are the first pass. -/
lemma does_foldlM_visit (older : List (Stage σ R)) {newer : List (Stage σ R)} {d : Draft σ}
    (hd : d.AgreesWith newer desk) {f : Draft σ → Compilation σ β} {g : Desk → Unlogged σ β}
    (hrest : ∀ d' desk', Draft.AgreesWith d' (newer ++ older) desk' → Does (f d') (g desk')) :
    Does (older.foldlM Draft.visit d >>= f)
      (desk.carryOutAll registry (Pipeline.stepsDown d.above older) >>= g) := by
  induction older generalizing newer d desk with
  | nil => simpa [Pipeline.stepsDown] using hrest d desk (by simpa using hd)
  | cons stage older ih =>
    simp only [List.foldlM_cons, Pipeline.stepsDown, Desk.carryOutAll_append, bind_assoc]
    refine does_visit d stage fun clauses => ?_
    have habove : (d.taken stage clauses).above =
        if stage.isPushedDown then some stage.name else d.above := rfl
    rw [← habove]
    refine ih (hd.taken stage clauses) fun d' desk' hd' => hrest d' desk' ?_
    simpa using hd'

end FirstPass

/-! ### The second pass -/

/-- The steps for the conditions are the second pass. -/
lemma does_mapM_toPredicate {registry : FieldRegistry} (conditions : List (Expr σ)) {desk : Desk}
    (hempty : desk.values = []) {f : List Predicate → Compilation σ β} {g : Desk → Unlogged σ β}
    (hrest : ∀ predicates, Does (f predicates)
      (g { desk with predicates := desk.predicates ++ predicates })) :
    Does (conditions.mapM (Expr.toPredicate registry) >>= f)
      (desk.carryOutAll registry (conditions.flatMap Expr.conditionSteps) >>= g) := by
  induction conditions generalizing desk f with
  | nil => simpa using hrest []
  | cons condition conditions ih =>
    simp only [List.mapM_cons, Expr.toPredicate, List.flatMap_cons, Desk.carryOutAll_append,
      bind_assoc, pure_bind, Desk.carryOutAll_conditionSteps condition hempty]
    refine (does_ofEvaluation condition.fold).bind fun folded => ?_
    refine (does_liftExcept (Predicate.ofExpr registry folded)).bind fun predicate => ?_
    have hnext : ({ desk with predicates := desk.predicates ++ [predicate] } : Desk).values = [] :=
      hempty
    refine ih hnext fun predicates => ?_
    simpa using hrest (predicate :: predicates)

/-! ### The whole compilation -/

/-- A compilation carries out its schedule, and apart from that it only writes to the log. -/
theorem Pipeline.does_schedule (registry : FieldRegistry) (p : Pipeline σ R) :
    Does (p.toDirective registry)
      (p.directiveOf <$> ({} : Desk).carryOutAll registry p.schedule) := by
  have hbegin : ({} : Draft σ).AgreesWith ([] : List (Stage σ R)) {} :=
    ⟨rfl, rfl, rfl, rfl, rfl, rfl⟩
  simp only [toDirective, compile, schedule, firstSteps, secondSteps, Desk.carryOutAll_append,
    map_eq_pure_bind, bind_assoc, pure_bind]
  refine does_foldlM_visit p.newestFirst hbegin fun d desk hd => ?_
  have hconditions : d.conditions = p.conditions := by
    rw [hd.conditions, conditions, filterMap_declared]
    rfl
  rw [hconditions]
  refine does_mapM_toPredicate p.conditions hd.values fun predicates => ?_
  have hlimit : p.limits.getLast? = d.maxResults := p.getLast?_limits.trans hd.maxResults.symm
  have hstart : p.starts.getLast? = d.startAt := p.getLast?_starts.trans hd.startAt.symm
  rw [directiveOf, hlimit, hstart, hd.orderClauses, hd.predicates]
  exact does_pure _

end IssueQuery
