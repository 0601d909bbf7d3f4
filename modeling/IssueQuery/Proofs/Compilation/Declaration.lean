import IssueQuery.Proofs.Outcome

/-!
# Compilation keeps the order of declaration

The first pass of a compilation walks a pipeline from its newest stage to its oldest one and fills a
`Draft`.  `Draft.Collects` says what the draft holds after any number of stages: the conditions and
the ordering keys that were met, the oldest in front, the limit and the start that were met first,
and the name of the pushed-down stage that was met last.  What one step does is `Draft.Takes`
(`Draft.outcome_visit_eq_ok_iff`).  It keeps the invariant (`Draft.Collects.concat`), and so does
the whole pass (`Draft.Collects.foldlM`).

`toDirective_keeps_declaration` puts the two passes together: in a compiled directive conditions
and ordering keys stand in the order of their declaration, nothing is lost or doubled, and the last
declared limit and start are the ones that count.
-/

namespace IssueQuery

variable {σ R : Type}

/-! ### The parts of a pipeline -/

namespace Stage

/-- The condition of a stage that has one. -/
def condition? : Stage σ R → Option (Expr σ)
  | filter condition => some condition
  | _ => none

/-- The key and the direction of an ordering stage. -/
def ordering? : Stage σ R → Option (Expr σ × Direction)
  | order key direction _ => some (key, direction)
  | _ => none

/-- The count of a stage that limits the number of records. -/
def limit? : Stage σ R → Option UInt32
  | take count => some count
  | _ => none

/-- The count of a stage that passes over records. -/
def start? : Stage σ R → Option UInt32
  | skip count => some count
  | _ => none

end Stage

namespace Pipeline

/-- The conditions in the order of their declaration. -/
def conditions (p : Pipeline σ R) : List (Expr σ) := p.declared.filterMap Stage.condition?

/-- The ordering keys with their directions, in the order of their declaration. -/
def orderings (p : Pipeline σ R) : List (Expr σ × Direction) :=
  p.declared.filterMap Stage.ordering?

/-- The limits in the order of their declaration. -/
def limits (p : Pipeline σ R) : List UInt32 := p.declared.filterMap Stage.limit?

/-- The starts in the order of their declaration. -/
def starts (p : Pipeline σ R) : List UInt32 := p.declared.filterMap Stage.start?

end Pipeline

/-! ### What keys and conditions stand for -/

/-- An ordering key names a field: a member by its own name, and an indexed field by the name that
its key folds to.  Folding may run actions of the host. -/
inductive Expr.NamesField : Expr σ → σ → FieldRef → σ → Prop where
  | member (name : String) (host : σ) : NamesField (.field name) host (.member name) host
  | dynamic {key : Expr σ} {v : Value} {host host' : σ} :
    outcome key.fold host = (.ok (.constant v), host') →
      NamesField (.indexer key) host (.dynamic v.fieldName) host'
  | convert {inner : Expr σ} {field : FieldRef} {host host' : σ} :
    NamesField inner host field host' → NamesField (.convert inner) host field host'

/-- The clause of an ordering stage: the field that its key names and its direction. -/
def OrdersBy (ordering : Expr σ × Direction) (host : σ) (clause : OrderClause) (host' : σ) : Prop :=
  ordering.1.NamesField host clause.field host' ∧ clause.direction = ordering.2

/-- The predicate that a condition folds and translates to. -/
def TranslatesTo (registry : FieldRegistry) (condition : Expr σ) (host : σ) (predicate : Predicate)
    (host' : σ) : Prop :=
  ∃ folded, outcome condition.fold host = (.ok folded, host') ∧
    Predicate.ofExpr registry folded = .ok predicate

namespace Expr

/-- A conversion around an ordering key does not matter. -/
@[simp] lemma toOrderField_convert (stage : String) (inner : Expr σ) :
    (convert inner).toOrderField stage = inner.toOrderField stage := rfl

/-- A member names itself and leaves the host as it is. -/
lemma namesField_field_iff {name : String} {host host' : σ} {field : FieldRef} :
    (Expr.field name).NamesField host field host' ↔ field = .member name ∧ host = host' := by
  constructor
  · rintro ⟨⟩
    exact ⟨rfl, rfl⟩
  · rintro ⟨rfl, rfl⟩
    exact .member name host

/-- The key of an indexed field gives the field its name when it folds to a constant. -/
lemma outcome_toOrderField_indexer_eq_ok_iff {stage : String} {key : Expr σ} {c c' : Context σ}
    {field : FieldRef} :
    outcome ((indexer key).toOrderField stage) c = (.ok field, c') ↔
      ∃ v, outcome key.fold c.host = (.ok (.constant v), c'.host) ∧ c'.log = c.log ∧
        field = .dynamic v.fieldName := by
  simp only [toOrderField, withoutConversions, outcome_bind_eq_ok_iff,
    outcome_ofEvaluation_eq_ok_iff]
  constructor
  · rintro ⟨folded, c₁, ⟨hfold, hlog⟩, hfield⟩
    cases folded with
    | constant v =>
      simp only [outcome_pure, Prod.mk.injEq, Except.ok.injEq] at hfield
      obtain ⟨rfl, rfl⟩ := hfield
      exact ⟨v, hfold, hlog, rfl⟩
    | _ => simp at hfield
  · rintro ⟨v, hfold, hlog, rfl⟩
    exact ⟨.constant v, c', ⟨hfold, hlog⟩, rfl⟩

/-- The field of an ordering key is found exactly when the key names it. -/
lemma outcome_toOrderField_eq_ok_iff {stage : String} {key : Expr σ} {c c' : Context σ}
    {field : FieldRef} :
    outcome (key.toOrderField stage) c = (.ok field, c') ↔
      key.NamesField c.host field c'.host ∧ c'.log = c.log := by
  induction key using withoutConversions.induct with
  | case1 inner ih =>
    rw [toOrderField_convert, ih]
    constructor
    · rintro ⟨hinner, hlog⟩
      exact ⟨.convert hinner, hlog⟩
    · rintro ⟨⟨⟩, hlog⟩
      exact ⟨‹_›, hlog⟩
  | case2 key hkey =>
    cases key with
    | convert inner => exact absurd rfl (hkey inner)
    | field name =>
      simp only [toOrderField, withoutConversions, outcome_pure, Prod.mk.injEq, Except.ok.injEq,
        namesField_field_iff, Context.eq_iff, and_assoc, @eq_comm _ field, @eq_comm _ c'.log]
    | indexer key =>
      rw [outcome_toOrderField_indexer_eq_ok_iff]
      constructor
      · rintro ⟨v, hfold, hlog, rfl⟩
        exact ⟨.dynamic hfold, hlog⟩
      · rintro ⟨⟨⟩, hlog⟩
        exact ⟨_, ‹_›, hlog, rfl⟩
    | _ =>
      simp only [toOrderField, withoutConversions, outcome_throw, Prod.mk.injEq, reduceCtorEq,
        false_and, false_iff, not_and]
      rintro ⟨⟩

end Expr

/-! ### One step of the first pass -/

namespace Draft

variable {stage : Stage σ R} {d d' : Draft σ} {host host' : σ} {c c' : Context σ}

/-- The draft with a stage taken up, whose ordering key has given the clauses.  A limit or a start
that is there already stays. -/
def taken (d : Draft σ) (stage : Stage σ R) (clauses : List OrderClause) : Draft σ where
  conditions := stage.condition?.toList ++ d.conditions
  orderClauses := clauses.reverse ++ d.orderClauses
  maxResults := d.maxResults.or stage.limit?
  startAt := d.startAt.or stage.start?
  above := if stage.isPushedDown then some stage.name else d.above

/-- What is noted about a stage: its limit or start does not count when one is there already. -/
def shadowed (d : Draft σ) : Stage σ R → List LogEvent
  | .take count => d.maxResults.toList.map fun kept => .shadowedTake kept count
  | .skip count => d.startAt.toList.map fun kept => .shadowedSkip kept count
  | .filter _ | .order _ _ _ | .localFilter _ => []

/-- What one stage does to a draft and to the host. -/
structure Takes (stage : Stage σ R) (d : Draft σ) (host : σ) (d' : Draft σ) (host' : σ) : Prop where
  /-- Nothing that the server carries out was met before a local filter. -/
  unobstructed : stage.isPushedDown = false → d.above = none
  taken : ∃ clauses, Successively OrdersBy stage.ordering?.toList host clauses host' ∧
    d' = d.taken stage clauses

/-- A stage without a key is taken up unless it is a local filter below a pushed-down stage. -/
lemma outcome_visit_of_ordering?_eq_none (hnone : stage.ordering? = none)
    (hfree : stage.isPushedDown = false → d.above = none) :
    outcome (d.visit stage) c =
      (.ok (d.taken stage []), { c with log := c.log ++ d.shadowed stage }) := by
  cases stage with
  | filter condition =>
    simp [visit, taken, shadowed, Stage.condition?, Stage.limit?, Stage.start?, Stage.isPushedDown]
  | order key direction secondary => simp [Stage.ordering?] at hnone
  | take count =>
    cases hmax : d.maxResults <;>
      simp [visit, taken, shadowed, hmax, outcome_map, Except.map, Stage.condition?, Stage.limit?,
        Stage.start?, Stage.isPushedDown]
  | skip count =>
    cases hstart : d.startAt <;>
      simp [visit, taken, shadowed, hstart, outcome_map, Except.map, Stage.condition?, Stage.limit?,
        Stage.start?, Stage.isPushedDown]
  | localFilter predicate =>
    have habove : d.above = none := hfree rfl
    have hsame : d.taken (.localFilter predicate : Stage σ R) [] = d := by
      simp [taken, Stage.condition?, Stage.limit?, Stage.start?, Stage.isPushedDown]
    simp [visit, hsame, shadowed, habove]

/-- A local filter below a pushed-down stage is not taken up. -/
lemma outcome_visit_ne_ok (hfree : ¬ (stage.isPushedDown = false → d.above = none)) :
    outcome (d.visit stage) c ≠ (.ok d', c') := by
  rw [Classical.not_imp] at hfree
  obtain ⟨hlocal, habove⟩ := hfree
  cases stage with
  | localFilter predicate =>
    obtain ⟨name, hname⟩ := Option.ne_none_iff_exists'.mp habove
    simp [visit, hname]
  | _ => simp [Stage.isPushedDown] at hlocal

/-- A stage is taken up exactly when it can be, and then does to the draft and to the log what its
kind says. -/
lemma outcome_visit_eq_ok_iff :
    outcome (d.visit stage) c = (.ok d', c') ↔
      Takes stage d c.host d' c'.host ∧ c'.log = c.log ++ d.shadowed stage := by
  cases hordering : stage.ordering? with
  | some ordering =>
    cases stage with
    | order key direction secondary =>
      have htaken (field : FieldRef) : ({ d with
          orderClauses := ⟨field, direction⟩ :: d.orderClauses
          above := some (Stage.order key direction secondary : Stage σ R).name } : Draft σ) =
          d.taken (.order key direction secondary : Stage σ R) [⟨field, direction⟩] := by
        simp [taken, Stage.condition?, Stage.limit?, Stage.start?, Stage.isPushedDown]
      simp only [visit, htaken, outcome_bind_eq_ok_iff, outcome_pure, Prod.mk.injEq,
        Except.ok.injEq, Expr.outcome_toOrderField_eq_ok_iff, shadowed, List.append_nil]
      constructor
      · rintro ⟨field, c₁, ⟨hfield, hlog⟩, rfl, rfl⟩
        exact ⟨⟨nofun, _, .cons ⟨hfield, rfl⟩ (.nil _), rfl⟩, hlog⟩
      · rintro ⟨⟨-, clauses, hclauses, rfl⟩, hlog⟩
        obtain ⟨⟨field, _⟩, ⟨hfield, rfl⟩, rfl⟩ := successively_singleton_iff.mp hclauses
        exact ⟨field, c', ⟨hfield, hlog⟩, rfl, rfl⟩
    | _ => simp [Stage.ordering?] at hordering
  | none =>
    by_cases hfree : stage.isPushedDown = false → d.above = none
    · rw [outcome_visit_of_ordering?_eq_none hordering hfree, Prod.mk.injEq, Except.ok.injEq]
      constructor
      · rintro ⟨rfl, rfl⟩
        exact ⟨⟨hfree, [], by rw [hordering]; exact .nil _, rfl⟩, rfl⟩
      · rintro ⟨⟨-, clauses, hclauses, rfl⟩, hlog⟩
        rw [hordering] at hclauses
        obtain ⟨rfl, hhost⟩ := successively_nil_iff.mp hclauses
        exact ⟨rfl, Context.eq_iff.mpr ⟨hhost.symm, hlog.symm⟩⟩
    · exact ⟨fun h => absurd h (outcome_visit_ne_ok hfree), fun h => absurd h.1.unobstructed hfree⟩

/-! ### The whole first pass -/

/-- What a draft holds after the given stages, the newest in front, when the host has gone from one
state to another. -/
structure Collects (newest : List (Stage σ R)) (host : σ) (d : Draft σ) (host' : σ) : Prop where
  conditions : d.conditions = (newest.filterMap Stage.condition?).reverse
  /-- The keys are resolved from the newest to the oldest. -/
  orderClauses :
    Successively OrdersBy (newest.filterMap Stage.ordering?) host d.orderClauses.reverse host'
  maxResults : d.maxResults = (newest.filterMap Stage.limit?).head?
  startAt : d.startAt = (newest.filterMap Stage.start?).head?
  /-- The pushed-down stage that was met last stands nearest to the stages to come. -/
  above : d.above = (newest.filter Stage.isPushedDown).getLast?.map Stage.name

/-- Without stages nothing is collected. -/
lemma collects_nil (host : σ) : Collects ([] : List (Stage σ R)) host {} host where
  conditions := rfl
  orderClauses := .nil host
  maxResults := rfl
  startAt := rfl
  above := rfl

/-- What is selected from one more element comes last. -/
private theorem filterMap_concat {α β : Type} (f : α → Option β) (as : List α) (a : α) :
    (as ++ [a]).filterMap f = as.filterMap f ++ (f a).toList := by
  rw [List.filterMap_append]
  cases h : f a <;> simp [h]

/-- One more stage keeps the invariant. -/
lemma Collects.concat {newest : List (Stage σ R)} {stage : Stage σ R} {host host₁ host' : σ}
    {d d' : Draft σ} (hd : Collects newest host d host₁) (h : Takes stage d host₁ d' host') :
    Collects (newest ++ [stage]) host d' host' := by
  obtain ⟨clauses, hclauses, rfl⟩ := h.taken
  exact {
    conditions := by
      rw [taken, hd.conditions, filterMap_concat, List.reverse_append]
      cases stage.condition? <;> rfl
    orderClauses := by
      rw [taken, List.reverse_append, List.reverse_reverse, filterMap_concat]
      exact hd.orderClauses.append hclauses
    maxResults := by
      rw [taken, hd.maxResults, filterMap_concat, List.head?_append, Option.head?_toList]
    startAt := by
      rw [taken, hd.startAt, filterMap_concat, List.head?_append, Option.head?_toList]
    above := by
      rw [taken, hd.above, List.filter_append]
      cases hstage : stage.isPushedDown <;> simp [hstage] }

/-- The first pass over all stages to come keeps the invariant. -/
lemma Collects.foldlM {newest stages : List (Stage σ R)} {host : σ} {d d' : Draft σ}
    {c c' : Context σ} (hd : Collects newest host d c.host)
    (h : outcome (stages.foldlM visit d) c = (.ok d', c')) :
    Collects (newest ++ stages) host d' c'.host := by
  refine outcome_foldlM_preserves (P := fun newest d c => Collects newest host d c.host) ?_ hd h
  intro newest stage d c d₁ c₁ hd hvisit
  exact hd.concat (outcome_visit_eq_ok_iff.mp hvisit).1

end Draft

/-! ### Both passes -/

/-- A condition is compiled exactly when it folds and translates. -/
lemma Expr.outcome_toPredicate_eq_ok_iff {registry : FieldRegistry} {condition : Expr σ}
    {predicate : Predicate} {c c' : Context σ} :
    outcome (condition.toPredicate registry) c = (.ok predicate, c') ↔
      TranslatesTo registry condition c.host predicate c'.host ∧ c'.log = c.log := by
  simp only [toPredicate, outcome_bind_eq_ok_iff, outcome_ofEvaluation_eq_ok_iff,
    outcome_liftExcept, Prod.mk.injEq, TranslatesTo]
  constructor
  · rintro ⟨folded, c₁, ⟨hfold, hlog⟩, htranslate, rfl⟩
    exact ⟨⟨folded, hfold, htranslate⟩, hlog⟩
  · rintro ⟨⟨folded, hfold, htranslate⟩, hlog⟩
    exact ⟨folded, c', ⟨hfold, hlog⟩, htranslate, rfl⟩

/-- The conditions are compiled one after another. -/
lemma successively_translatesTo {registry : FieldRegistry} {conditions : List (Expr σ)}
    {predicates : List Predicate} {c c' : Context σ}
    (h : outcome (conditions.mapM (Expr.toPredicate registry)) c = (.ok predicates, c')) :
    Successively (TranslatesTo registry) conditions c.host predicates c'.host := by
  rw [outcome_mapM_eq_ok_iff] at h
  induction h with
  | nil c => exact .nil c.host
  | cons hfirst _ ih => exact .cons (Expr.outcome_toPredicate_eq_ok_iff.mp hfirst).1 ih

namespace Pipeline

/-- A compiled pipeline went through both passes. -/
lemma outcome_compile_eq_ok_iff {registry : FieldRegistry} {p : Pipeline σ R} {q : CompiledQuery}
    {c c' : Context σ} :
    outcome (p.compile registry) c = (.ok q, c') ↔
      ∃ draft c₁ predicates, outcome (p.newestFirst.foldlM Draft.visit {}) c = (.ok draft, c₁) ∧
        outcome (draft.conditions.mapM (Expr.toPredicate registry)) c₁ = (.ok predicates, c') ∧
        q = ⟨predicates, draft.orderClauses, draft.maxResults, draft.startAt⟩ := by
  simp only [compile, outcome_bind_eq_ok_iff, outcome_pure, Prod.mk.injEq, Except.ok.injEq]
  constructor
  · rintro ⟨draft, c₁, hfirst, predicates, c₂, hsecond, rfl, rfl⟩
    exact ⟨draft, c₁, predicates, hfirst, hsecond, rfl⟩
  · rintro ⟨draft, c₁, predicates, hfirst, hsecond, rfl⟩
    exact ⟨draft, c₁, hfirst, predicates, c', hsecond, rfl, rfl⟩

/-- A directive is the text of a compiled pipeline. -/
lemma outcome_toDirective_eq_ok_iff {registry : FieldRegistry} {p : Pipeline σ R} {d : Directive}
    {c c' : Context σ} :
    outcome (p.toDirective registry) c = (.ok d, c') ↔
      ∃ q, outcome (p.compile registry) c = (.ok q, c') ∧ q.directive = d := by
  simp only [toDirective, outcome_bind_eq_ok_iff, outcome_pure, Prod.mk.injEq, Except.ok.injEq]
  constructor
  · rintro ⟨q, c₁, hq, rfl, rfl⟩
    exact ⟨q, hq, rfl⟩
  · rintro ⟨q, hq, rfl⟩
    exact ⟨q, c', hq, rfl, rfl⟩

/-- What the first pass has collected from all stages, in terms of their declaration. -/
lemma collects_of_outcome_foldlM {p : Pipeline σ R} {draft : Draft σ} {c c' : Context σ}
    (h : outcome (p.newestFirst.foldlM Draft.visit {}) c = (.ok draft, c')) :
    Draft.Collects p.newestFirst c.host draft c'.host := by
  simpa using (Draft.collects_nil c.host).foldlM h

/-- A pipeline that is made of declared stages has these in the order of their declaration. -/
@[simp] lemma declared_ofDeclared (stages : List (Stage σ R)) :
    (ofDeclared stages).declared = stages := by
  rw [ofDeclared, declared, List.reverse_reverse]

/-- The conditions around one of them, in the order of their declaration. -/
lemma conditions_ofDeclared_append (earlier later : List (Stage σ R)) (body : Expr σ) :
    (ofDeclared (earlier ++ .filter body :: later)).conditions =
      earlier.filterMap Stage.condition? ++ body :: later.filterMap Stage.condition? := by
  rw [conditions, declared_ofDeclared, List.filterMap_append, List.filterMap_cons]
  rfl

/-- What is selected from the declared stages, the other way around, is selected from the newest
to the oldest. -/
lemma filterMap_declared {α : Type} (p : Pipeline σ R) (f : Stage σ R → Option α) :
    p.declared.filterMap f = (p.newestFirst.filterMap f).reverse := by
  rw [declared, List.filterMap_reverse]

/-- The last declared limit is the first that is met from the newest stage to the oldest. -/
lemma getLast?_limits (p : Pipeline σ R) :
    p.limits.getLast? = (p.newestFirst.filterMap Stage.limit?).head? := by
  rw [limits, filterMap_declared, List.getLast?_reverse]

/-- And so is the last declared start among the starts. -/
lemma getLast?_starts (p : Pipeline σ R) :
    p.starts.getLast? = (p.newestFirst.filterMap Stage.start?).head? := by
  rw [starts, filterMap_declared, List.getLast?_reverse]

/-- The first pass leaves the conditions in the order of their declaration. -/
lemma conditions_eq_of_outcome_foldlM {p : Pipeline σ R} {draft : Draft σ} {c c' : Context σ}
    (h : outcome (p.newestFirst.foldlM Draft.visit {}) c = (.ok draft, c')) :
    draft.conditions = p.conditions := by
  rw [conditions, filterMap_declared, (collects_of_outcome_foldlM h).conditions]

/-- The text of a compiled pipeline keeps the order of declaration.  The conditions are joined from
the first declared to the last, each as the predicate that it folds and translates to; the ordering
keys stand in one list after one header, which is there exactly when there is an ordering; and the
last declared limit and start count.  The keys are resolved first, from the last declared to the
first, and then the conditions, from the first declared to the last. -/
theorem toDirective_keeps_declaration {registry : FieldRegistry} {p : Pipeline σ R}
    {d : Directive} {c c' : Context σ}
    (h : outcome (p.toDirective registry) c = (.ok d, c')) :
    ∃ (host : σ) (predicates : List Predicate),
      Successively OrdersBy p.orderings.reverse c.host d.orderClauses.reverse host ∧
      Successively (TranslatesTo registry) p.conditions host predicates c'.host ∧
      d.filterText = String.intercalate " and " (predicates.map Predicate.jql) ∧
      (p.conditions = [] → d.filterText = "") ∧
      d.maxResults = p.limits.getLast? ∧
      d.startAt = p.starts.getLast? ∧
      d.jql = d.filterText ++
        if p.orderings.isEmpty then ""
        else " order by " ++ String.intercalate ", "
          (d.orderClauses.map fun clause => clause.field.text ++ " " ++ clause.direction.text) := by
  obtain ⟨q, hq, rfl⟩ := outcome_toDirective_eq_ok_iff.mp h
  obtain ⟨draft, c₁, predicates, hfirst, hsecond, rfl⟩ := outcome_compile_eq_ok_iff.mp hq
  have hdraft := collects_of_outcome_foldlM hfirst
  have hclauses : Successively OrdersBy p.orderings.reverse c.host draft.orderClauses.reverse
      c₁.host := by
    rw [orderings, filterMap_declared, List.reverse_reverse]
    exact hdraft.orderClauses
  have hpredicates : Successively (TranslatesTo registry) p.conditions c₁.host predicates
      c'.host := by
    rw [← conditions_eq_of_outcome_foldlM hfirst]
    exact successively_translatesTo hsecond
  refine ⟨c₁.host, predicates, hclauses, hpredicates, rfl, ?_, ?_, ?_, ?_⟩
  · intro hnone
    have hnil : predicates = [] := by simpa [hnone] using hpredicates.isEmpty_eq
    rw [hnil, CompiledQuery.directive, CompiledQuery.filterText, List.map_nil,
      String.intercalate_nil]
  · rw [limits, filterMap_declared, List.getLast?_reverse]
    exact hdraft.maxResults
  · rw [starts, filterMap_declared, List.getLast?_reverse]
    exact hdraft.startAt
  · have hempty : draft.orderClauses.isEmpty = p.orderings.isEmpty := by
      simpa using hclauses.isEmpty_eq.symm
    simp only [Directive.jql, Directive.orderText, CompiledQuery.directive, hempty]
    rfl

/-- A pipeline with stages of every kind in a mixed order, on a host that counts its readings. -/
def mixedSample : Pipeline Nat Unit :=
  let reading (name : String) : Expr Nat :=
    .captured name fun n => (.ok (.int (Int64.ofNat n)), n + 1)
  .ofDeclared [
    .order (.field "Created") .ascending false,
    .take 5,
    .filter (.binary .equal (.field "Summary") (.constant (.text "x"))),
    .skip 2,
    .take 7,
    .order (.convert (.indexer (reading "column"))) .descending true,
    .filter (.binary .greaterThan (.field "Votes") (reading "votes")),
    .localFilter fun _ => pure true]

/-- The mixed sample: both orderings in the order of their declaration, both conditions, and the
last limit and start. -/
theorem toDirective_keeps_declaration_mixed :
    ∃ (host : Nat) (predicates : List Predicate),
      Successively OrdersBy mixedSample.orderings.reverse 0
        [⟨.dynamic "0", .descending⟩, ⟨.member "Created", .ascending⟩] host ∧
      Successively (TranslatesTo .issue) mixedSample.conditions host predicates 2 ∧
      "Summary ~ \"x\" and Votes > 1" = String.intercalate " and " (predicates.map Predicate.jql) ∧
      some 7 = mixedSample.limits.getLast? ∧
      some 2 = mixedSample.starts.getLast? := by
  have h : outcome (mixedSample.toDirective .issue) ⟨0, []⟩ =
      (.ok ⟨"Summary ~ \"x\" and Votes > 1",
        [⟨.member "Created", .ascending⟩, ⟨.dynamic "0", .descending⟩], some 7, some 2, ["0"]⟩,
        ⟨2, [.shadowedTake 7 5]⟩) := by
    cbv
  obtain ⟨host, predicates, hkeys, hfilters, htext, -, hmax, hstart, -⟩ :=
    toDirective_keeps_declaration h
  exact ⟨host, predicates, hkeys, hfilters, htext, hmax, hstart⟩

end Pipeline

end IssueQuery
