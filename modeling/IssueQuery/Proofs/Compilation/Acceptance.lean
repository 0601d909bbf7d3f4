import IssueQuery.Proofs.Compilation.Declaration
import IssueQuery.Proofs.Compilation.Translation

/-!
# Which pipelines are compiled

A pipeline is `Translatable` when no local filter is declared before a stage that the server carries
out, every ordering key is a field that can be named, and every condition folds to a tree of
comparisons that the query language has.

`toDirective_accepts_or_first_error` says that exactly the translatable pipelines are compiled, and
which error the others end with.  Errors of ordering keys and of misplaced local filters come first,
from the newest stage to the oldest; then come those of the conditions, in the order of declaration.
The actions of the host are supposed to leave the host as it is, so that it does not matter when
they run.
-/

namespace IssueQuery

variable {σ R : Type}

/-- The error arises while a query is compiled, before any field is looked up. -/
def Error.ArisesInCompilation (error : Error) : Prop :=
  error.precedesRequest = true ∧ ∀ name, error ≠ .fieldNotFound name

/-! ### Ordering keys -/

namespace Expr

/-- The expression can be ordered by: under conversions, it is a member, or an indexed field whose
key does not read the record and has a value. -/
inductive IsOrderKey (host : σ) : Expr σ → Prop where
  | member (name : String) : IsOrderKey host (.field name)
  | indexed {key : Expr σ} {v : Value} :
    key.dependsOnRecord = false → (outcome key.evaluate host).1 = .ok v →
      IsOrderKey host (.indexer key)
  | convert {inner : Expr σ} : IsOrderKey host inner → IsOrderKey host (.convert inner)

/-- Why a stage of the given name cannot order by the expression. -/
inductive OrderKeyError (stage : String) (host : σ) : Expr σ → Error → Prop where
  | node {e : Expr σ} :
    (∀ name, e ≠ .field name) → (∀ key, e ≠ .indexer key) → (∀ inner, e ≠ .convert inner) →
      OrderKeyError stage host e (.unsupportedField stage)
  | folding {key : Expr σ} {cause : EvalError} :
    (outcome key.fold host).1 = .error cause →
      OrderKeyError stage host (.indexer key) (.evaluation cause)
  | readsRecord {key folded : Expr σ} :
    (outcome key.fold host).1 = .ok folded → key.dependsOnRecord = true →
      OrderKeyError stage host (.indexer key) (.unsupportedField stage)
  | convert {inner : Expr σ} {error : Error} :
    OrderKeyError stage host inner error → OrderKeyError stage host (.convert inner) error

/-- A closed expression folds without error exactly when it has a value. -/
lemma fold_result_of_closed {e : Expr σ} (he : e.dependsOnRecord = false) (host : σ) :
    (outcome e.fold host).1 = (outcome e.evaluate host).1.map constant := by
  rw [fold_of_closed he, outcome_map]

/-- The error of an ordering key precedes every request and is about no field of the server. -/
lemma OrderKeyError.arisesInCompilation {stage : String} {host : σ} {key : Expr σ} {error : Error}
    (h : OrderKeyError stage host key error) : error.ArisesInCompilation := by
  induction h with
  | convert _ ih => exact ih
  | _ => exact ⟨rfl, nofun⟩

/-- What can be ordered by is not refused. -/
lemma IsOrderKey.not_orderKeyError {stage : String} {host : σ} {key : Expr σ} {error : Error}
    (hkey : key.IsOrderKey host) : ¬ OrderKeyError stage host key error := by
  intro h
  induction hkey with
  | member name =>
    cases h with
    | node hfield _ _ => exact hfield name rfl
  | indexed hclosed hv =>
    cases h with
    | node _ hindexer _ => exact hindexer _ rfl
    | folding hcause => simp [fold_result_of_closed hclosed, hv, Except.map] at hcause
    | readsRecord _ hopen => simp [hclosed] at hopen
  | convert _ ih =>
    cases h with
    | node _ _ hconvert => exact hconvert _ rfl
    | convert hinner => exact ih hinner

/-- A key that names a field can be ordered by. -/
lemma NamesField.isOrderKey {key : Expr σ} {host host' : σ} {field : FieldRef}
    (h : key.NamesField host field host') : key.IsOrderKey host := by
  induction h with
  | member name host => exact .member name
  | @dynamic key v host host' hfold =>
    have hclosed : key.dependsOnRecord = false :=
      (isFolded_of_outcome_fold key hfold).2.symm
    have hresult := fold_result_of_closed hclosed host
    rw [hfold] at hresult
    cases hv : (outcome key.evaluate host).1 with
    | error cause => simp [hv, Except.map] at hresult
    | ok w => exact .indexed hclosed hv
  | convert _ ih => exact .convert ih

/-- Naming a field by a pure key leaves the host as it is. -/
lemma NamesField.host_eq {key : Expr σ} {host host' : σ} {field : FieldRef}
    (h : key.NamesField host field host') (hkey : key.IsPure) : host' = host := by
  induction h with
  | member name host => rfl
  | @dynamic key v host host' hfold =>
    have hpure : key.IsPure := hkey
    exact (isPure_fold key hpure).state_eq hfold
  | convert _ ih => exact ih hkey

/-- An ordering key whose field is not found is refused for its reason. -/
lemma orderKeyError_of_outcome_toOrderField {stage : String} {key : Expr σ} {c c' : Context σ}
    {error : Error} (h : outcome (key.toOrderField stage) c = (.error error, c')) :
    OrderKeyError stage c.host key error := by
  induction key using withoutConversions.induct with
  | case1 inner ih => exact .convert (ih h)
  | case2 key hkey =>
    cases key with
    | convert inner => exact absurd rfl (hkey inner)
    | field name => simp [toOrderField, withoutConversions] at h
    | indexer key =>
      simp only [toOrderField, withoutConversions, outcome_bind_eq_error_iff,
        outcome_ofEvaluation_eq_error_iff, outcome_ofEvaluation_eq_ok_iff] at h
      rcases h with ⟨cause, rfl, hfold, -⟩ | ⟨folded, c₁, ⟨hfold, -⟩, hrest⟩
      · exact .folding (by rw [hfold])
      · -- A constant would have been taken as the name, so the key reads the record.
        have hreads : key.dependsOnRecord = true := by
          by_contra hclosed
          rw [Bool.not_eq_true] at hclosed
          rw [fold_of_closed hclosed, outcome_map_eq_ok_iff] at hfold
          obtain ⟨v, -, rfl⟩ := hfold
          simp at hrest
        have herror : error = .unsupportedField stage := by
          cases folded with
          | constant v => simp at hrest
          | _ =>
            simp only [outcome_throw, Prod.mk.injEq, Except.error.injEq] at hrest
            exact hrest.1.symm
        rw [herror]
        exact .readsRecord (by rw [hfold]) hreads
    | _ =>
      simp only [toOrderField, withoutConversions, outcome_throw, Prod.mk.injEq,
        Except.error.injEq] at h
      obtain ⟨rfl, -⟩ := h
      exact .node (by simp) (by simp) (by simp)

/-! ### Conditions -/

/-- The condition folds without error to a tree of comparisons that the query language has. -/
def IsTranslatable (registry : FieldRegistry) (host : σ) (condition : Expr σ) : Prop :=
  ∃ folded, (outcome condition.fold host).1 = .ok folded ∧
    ∀ leaf ∈ folded.leaves, leaf.IsComparison registry

/-- Why a condition is not translated: it does not fold, or else one of its leaves, of which the
leftmost counts, is no comparison. -/
inductive ConditionError (registry : FieldRegistry) (host : σ) (condition : Expr σ) :
    Error → Prop where
  | folding {cause : EvalError} :
    (outcome condition.fold host).1 = .error cause →
      ConditionError registry host condition (.evaluation cause)
  | leaf {folded : Expr σ} {error : Error} :
    (outcome condition.fold host).1 = .ok folded →
      FirstLeafError registry folded.leaves error →
        ConditionError registry host condition error

/-- The error of a leaf precedes every request and is about no field of the server. -/
lemma LeafError.arisesInCompilation {registry : FieldRegistry} {leaf : Expr σ} {error : Error}
    (h : LeafError registry leaf error) : error.ArisesInCompilation := by
  cases h <;> exact ⟨rfl, nofun⟩

/-- The error of a condition, be it that of its folding or of a leaf, arises in compilation. -/
lemma ConditionError.arisesInCompilation {registry : FieldRegistry} {host : σ} {condition : Expr σ}
    {error : Error} (h : ConditionError registry host condition error) :
    error.ArisesInCompilation := by
  rcases h with _ | ⟨-, _, _, _, -, -, hleaf⟩
  · exact ⟨rfl, nofun⟩
  · exact hleaf.arisesInCompilation

/-- What can be translated is not refused. -/
lemma IsTranslatable.not_conditionError {registry : FieldRegistry} {host : σ} {condition : Expr σ}
    {error : Error} (h : condition.IsTranslatable registry host) :
    ¬ ConditionError registry host condition error := by
  obtain ⟨folded, hfold, hleaves⟩ := h
  rintro (hcause | ⟨hfold', before, leaf, after, heq, -, herror⟩)
  · rw [hfold] at hcause
    simp at hcause
  · rw [hfold, Except.ok.injEq] at hfold'
    subst hfold'
    exact (hleaves leaf (by simp [heq])).not_leafError herror

/-- A condition that folds and translates can be translated. -/
lemma isTranslatable_of_translatesTo {registry : FieldRegistry} {condition : Expr σ}
    {host host' : σ} {predicate : Predicate}
    (h : TranslatesTo registry condition host predicate host') :
    condition.IsTranslatable registry host := by
  obtain ⟨folded, hfold, hpredicate⟩ := h
  have hfolded := (isFolded_of_outcome_fold condition hfold).1
  exact ⟨folded, by rw [hfold], (Predicate.exists_ofExpr_eq_ok_iff hfolded).mp ⟨_, hpredicate⟩⟩

/-- A condition whose compilation fails is refused for its reason. -/
lemma conditionError_of_outcome_toPredicate {registry : FieldRegistry} {condition : Expr σ}
    {c c' : Context σ} {error : Error}
    (h : outcome (condition.toPredicate registry) c = (.error error, c')) :
    ConditionError registry c.host condition error := by
  simp only [toPredicate, outcome_bind_eq_error_iff, outcome_ofEvaluation_eq_error_iff,
    outcome_ofEvaluation_eq_ok_iff, outcome_liftExcept, Prod.mk.injEq] at h
  rcases h with ⟨cause, rfl, hfold, -⟩ | ⟨folded, c₁, ⟨hfold, -⟩, herror, -⟩
  · exact .folding (by rw [hfold])
  · have hfolded := (isFolded_of_outcome_fold condition hfold).1
    exact .leaf (by rw [hfold]) (Predicate.firstLeafError_of_ofExpr hfolded herror)

end Expr

/-! ### Stages of the first pass -/

/-- The actions of the host in the stage leave the host as it is. -/
def Stage.IsPure : Stage σ R → Prop
  | .filter condition => condition.IsPure
  | .order key _ _ => key.IsPure
  | .take _ | .skip _ | .localFilter _ => True

/-- Why a stage is refused, given the stages that were declared after it, the newest in front.  A
local filter is named together with the nearest of them that the server carries out. -/
inductive StageError (host : σ) (newer : List (Stage σ R)) : Stage σ R → Error → Prop where
  | order {key : Expr σ} {direction : Direction} {secondary : Bool} {error : Error} :
    key.OrderKeyError (Stage.orderName direction secondary) host error →
      StageError host newer (.order key direction secondary) error
  | localFilter {predicate : LocalPredicate σ R} {above : Stage σ R} :
    (newer.filter Stage.isPushedDown).getLast? = some above →
      StageError host newer (.localFilter predicate)
        (.notSupported ("LocalWhere followed by " ++ above.name))

/-- The error of a stage in the first pass arises in compilation. -/
lemma StageError.arisesInCompilation {host : σ} {newer : List (Stage σ R)} {stage : Stage σ R}
    {error : Error} (h : StageError host newer stage error) : error.ArisesInCompilation := by
  cases h with
  | order hkey => exact hkey.arisesInCompilation
  | localFilter _ => exact ⟨rfl, nofun⟩

namespace Draft

variable {newer : List (Stage σ R)} {stage : Stage σ R} {host : σ} {d d' : Draft σ}
  {c c' : Context σ}

/-- A stage that is taken up is not refused. -/
lemma Takes.not_stageError {host' host₁ : σ} {error : Error} (h : Takes stage d host₁ d' host')
    (hd : Collects newer host d host₁) : ¬ StageError host₁ newer stage error := by
  rintro (hkey | habove)
  · obtain ⟨clauses, hclauses, -⟩ := h.taken
    obtain ⟨clause, ⟨hnames, -⟩, -⟩ := successively_singleton_iff.mp hclauses
    exact hnames.isOrderKey.not_orderKeyError hkey
  · have hnone := h.unobstructed rfl
    rw [hd.above, habove] at hnone
    simp at hnone

/-- A stage at which the first pass fails is refused for its reason. -/
lemma stageError_of_outcome_visit {error : Error} (hd : Collects newer host d c.host)
    (h : outcome (d.visit stage) c = (.error error, c')) :
    StageError c.host newer stage error := by
  cases stage with
  | filter condition => simp [visit] at h
  | order key direction secondary =>
    simp only [visit, outcome_bind_eq_error_iff, outcome_pure, Prod.mk.injEq, reduceCtorEq,
      false_and, and_false, exists_false, or_false] at h
    exact .order (Expr.orderKeyError_of_outcome_toOrderField h)
  | take count =>
    cases hmax : d.maxResults <;>
      simp [visit, hmax, outcome_map_eq_error_iff] at h
  | skip count =>
    cases hstart : d.startAt <;>
      simp [visit, hstart, outcome_map_eq_error_iff] at h
  | localFilter predicate =>
    cases habove : d.above with
    | none => simp [visit, habove] at h
    | some name =>
      simp only [visit, habove, outcome_throw, Prod.mk.injEq, Except.error.injEq] at h
      obtain ⟨rfl, -⟩ := h
      rw [hd.above, Option.map_eq_some_iff] at habove
      obtain ⟨above, hlast, rfl⟩ := habove
      exact .localFilter hlast

/-- Ordering by a key of a pure stage leaves the host as it is. -/
lemma host_eq_of_ordersBy (hpure : ∀ stage ∈ newer, stage.IsPure) :
    ∀ ordering ∈ newer.filterMap Stage.ordering?, ∀ s clause s',
      OrdersBy ordering s clause s' → s' = s := by
  intro ordering hordering s clause s' hclause
  obtain ⟨stage, hstage, hsome⟩ := List.mem_filterMap.mp hordering
  cases stage with
  | order key direction secondary =>
    simp only [Stage.ordering?, Option.some.injEq] at hsome
    subst hsome
    exact hclause.1.host_eq (hpure _ hstage)
  | _ => simp [Stage.ordering?] at hsome

/-- Pure stages leave the host as it is. -/
lemma Collects.host_eq {host' : σ} (hd : Collects newer host d host')
    (hpure : ∀ stage ∈ newer, stage.IsPure) : host' = host :=
  hd.orderClauses.state_eq (host_eq_of_ordersBy hpure)

end Draft

/-! ### Pipelines -/

namespace Pipeline

/-- The actions of the host in the pipeline leave the host as it is. -/
def IsPure (p : Pipeline σ R) : Prop := ∀ stage ∈ p.newestFirst, stage.IsPure

/-- What a pipeline must satisfy to be compiled. -/
structure Translatable (registry : FieldRegistry) (host : σ) (p : Pipeline σ R) : Prop where
  /-- Nothing that the server carries out is declared after a local filter. -/
  localLast : p.declared.Pairwise fun earlier later =>
    later.isPushedDown = true → earlier.isPushedDown = true
  orderKeys : ∀ ordering ∈ p.orderings, ordering.1.IsOrderKey host
  conditions : ∀ condition ∈ p.conditions, condition.IsTranslatable registry host

/-- No ordering stage and no local filter is refused. -/
def PassesFirst (host : σ) (p : Pipeline σ R) : Prop :=
  ∀ newer stage older, p.newestFirst = newer ++ stage :: older →
    ∀ error, ¬ StageError host newer stage error

/-- The error is that of the newest stage, an ordering or a local filter, that is refused. -/
def FirstPassError (host : σ) (p : Pipeline σ R) (error : Error) : Prop :=
  ∃ newer stage older, p.newestFirst = newer ++ stage :: older ∧
    PassesFirst host (⟨newer⟩ : Pipeline σ R) ∧ StageError host newer stage error

/-- The error is that of the earliest declared condition that is refused. -/
def SecondPassError (registry : FieldRegistry) (host : σ) (p : Pipeline σ R) (error : Error) :
    Prop :=
  ∃ before condition after, p.conditions = before ++ condition :: after ∧
    (∀ earlier ∈ before, earlier.IsTranslatable registry host) ∧
    condition.ConditionError registry host error

variable {registry : FieldRegistry} {p : Pipeline σ R} {c c' : Context σ}

/-- Where the first pass gets through, no stage is refused. -/
lemma passesFirst_of_outcome_foldlM {draft : Draft σ} (hp : p.IsPure)
    (h : outcome (p.newestFirst.foldlM Draft.visit {}) c = (.ok draft, c')) :
    PassesFirst c.host p := by
  intro newer stage older hsplit error
  rw [hsplit] at h
  obtain ⟨d₁, c₁, d₂, c₂, hbefore, hvisit⟩ := outcome_foldlM_append_cons_eq_ok h
  have hcollects : Draft.Collects newer c.host d₁ c₁.host :=
    collects_of_outcome_foldlM (p := ⟨newer⟩) hbefore
  have hhost : c₁.host = c.host :=
    hcollects.host_eq fun s hs => hp s (by simp [hsplit, hs])
  rw [← hhost]
  rw [← hhost] at hcollects
  exact (Draft.outcome_visit_eq_ok_iff.mp hvisit).1.not_stageError hcollects

/-- Where the first pass fails, the newest stage that is refused is the reason. -/
lemma firstPassError_of_outcome_foldlM {error : Error} (hp : p.IsPure)
    (h : outcome (p.newestFirst.foldlM Draft.visit {}) c = (.error error, c')) :
    FirstPassError c.host p error := by
  obtain ⟨newer, stage, older, draft, c₁, hsplit, hbefore, hvisit⟩ := outcome_foldlM_eq_error h
  have hnewer : IsPure (⟨newer⟩ : Pipeline σ R) := fun s hs => hp s (by simp [hsplit, hs])
  have hcollects : Draft.Collects newer c.host draft c₁.host :=
    collects_of_outcome_foldlM (p := ⟨newer⟩) hbefore
  have hhost : c₁.host = c.host := hcollects.host_eq hnewer
  have hstage := Draft.stageError_of_outcome_visit hcollects hvisit
  rw [hhost] at hstage
  exact ⟨newer, stage, older, hsplit, passesFirst_of_outcome_foldlM hnewer hbefore, hstage⟩

/-- The conditions of a pure pipeline are pure. -/
lemma IsPure.condition (hp : p.IsPure) {condition : Expr σ} (h : condition ∈ p.conditions) :
    condition.IsPure := by
  obtain ⟨stage, hstage, hsome⟩ := List.mem_filterMap.mp h
  cases stage with
  | filter body =>
    simp only [Stage.condition?, Option.some.injEq] at hsome
    subst hsome
    exact hp (.filter body) (by simpa [declared] using hstage)
  | _ => simp [Stage.condition?] at hsome

/-- Translating a pure condition leaves the host as it is. -/
lemma host_eq_of_translatesTo {condition : Expr σ} {host host' : σ} {predicate : Predicate}
    (h : TranslatesTo registry condition host predicate host') (hpure : condition.IsPure) :
    host' = host := by
  obtain ⟨folded, hfold, -⟩ := h
  exact (Expr.isPure_fold condition hpure).state_eq hfold

/-- Conditions that are compiled one after another can all be translated. -/
lemma isTranslatable_of_outcome_mapM {conditions : List (Expr σ)} {predicates : List Predicate}
    (hpure : ∀ condition ∈ conditions, condition.IsPure)
    (h : outcome (conditions.mapM (Expr.toPredicate registry)) c = (.ok predicates, c')) :
    c'.host = c.host ∧ ∀ condition ∈ conditions, condition.IsTranslatable registry c.host := by
  have hsteps := successively_translatesTo h
  have hkeeps : ∀ condition ∈ conditions, ∀ s predicate s',
      TranslatesTo registry condition s predicate s' → s' = s :=
    fun condition hmem _ _ _ hstep => host_eq_of_translatesTo hstep (hpure condition hmem)
  refine ⟨hsteps.state_eq hkeeps, fun condition hmem => ?_⟩
  obtain ⟨predicate, hpredicate⟩ := hsteps.exists_of_state_eq hkeeps condition hmem
  exact Expr.isTranslatable_of_translatesTo hpredicate

/-- Where the second pass fails, the earliest condition that is refused is the reason. -/
lemma secondPassError_of_outcome_mapM {error : Error} (hp : p.IsPure)
    (h : outcome (p.conditions.mapM (Expr.toPredicate registry)) c = (.error error, c')) :
    SecondPassError registry c.host p error := by
  obtain ⟨before, condition, after, predicates, c₁, hsplit, hbefore, hcondition⟩ :=
    outcome_mapM_eq_error h
  have hpure : ∀ earlier ∈ before, earlier.IsPure :=
    fun earlier hearlier => hp.condition (by simp [hsplit, hearlier])
  obtain ⟨hhost, hall⟩ := isTranslatable_of_outcome_mapM hpure hbefore
  refine ⟨before, condition, after, hsplit, hall, ?_⟩
  rw [← hhost]
  exact Expr.conditionError_of_outcome_toPredicate hcondition

/-- A property of each element and those before it, as one of pairs. -/
private theorem pairwise_of_forall_split {α : Type} {S : α → α → Prop} {l : List α}
    (h : ∀ before a after, l = before ++ a :: after → ∀ b ∈ before, S b a) : l.Pairwise S := by
  induction l with
  | nil => exact .nil
  | cons x l ih =>
    refine List.pairwise_cons.mpr ⟨fun a ha => ?_, ih fun before a after heq b hb => ?_⟩
    · obtain ⟨before, after, rfl⟩ := List.append_of_mem ha
      exact h (x :: before) a after rfl x List.mem_cons_self
    · exact h (x :: before) a after (by rw [heq]; rfl) b (List.mem_cons_of_mem _ hb)

/-- A pipeline whose stages are not refused has its local filters last. -/
lemma PassesFirst.localLast {host : σ} (h : PassesFirst host p) :
    p.declared.Pairwise fun earlier later =>
      later.isPushedDown = true → earlier.isPushedDown = true := by
  rw [declared, List.pairwise_reverse]
  refine pairwise_of_forall_split fun newer stage older hsplit later hlater hpushed => ?_
  cases stage with
  | localFilter predicate =>
    have hmem : later ∈ newer.filter Stage.isPushedDown := List.mem_filter.mpr ⟨hlater, hpushed⟩
    obtain ⟨above, habove⟩ : ∃ above, (newer.filter Stage.isPushedDown).getLast? = some above :=
      ⟨_, List.getLast?_eq_some_getLast (List.ne_nil_of_mem hmem)⟩
    exact absurd (.localFilter habove) (h newer _ older hsplit _)
  | _ => rfl

/-- No stage of a pipeline that satisfies the conditions of compilation is refused. -/
lemma Translatable.not_stageError {host : σ} {newer older : List (Stage σ R)} {stage : Stage σ R}
    {error : Error} (h : p.Translatable registry host)
    (hsplit : p.newestFirst = newer ++ stage :: older) : ¬ StageError host newer stage error := by
  rintro (@⟨key, direction, secondary, error, hkey⟩ | ⟨habove⟩)
  · have hmem : (key, direction) ∈ p.orderings := by
      refine List.mem_filterMap.mpr ⟨.order key direction secondary, ?_, rfl⟩
      simp [declared, hsplit]
    exact (h.orderKeys _ hmem).not_orderKeyError hkey
  · have hpairs := h.localLast
    rw [declared, List.pairwise_reverse, hsplit, List.pairwise_append] at hpairs
    have hmem := List.mem_filter.mp (List.mem_of_getLast? habove)
    have hlocal := hpairs.2.2 _ hmem.1 _ List.mem_cons_self hmem.2
    simp [Stage.isPushedDown] at hlocal

/-! ### Acceptance -/

/-- Why a pipeline is not compiled: a stage of the first pass is refused, or else a condition. -/
def Refusal (registry : FieldRegistry) (host : σ) (p : Pipeline σ R) (error : Error) : Prop :=
  p.FirstPassError host error ∨ p.PassesFirst host ∧ p.SecondPassError registry host error

/-- A refusal comes before any request and before any field is looked up. -/
lemma Refusal.arisesInCompilation {host : σ} {error : Error}
    (h : p.Refusal registry host error) : error.ArisesInCompilation := by
  rcases h with ⟨_, _, _, -, -, hstage⟩ | ⟨-, _, _, _, -, -, hcondition⟩
  · exact hstage.arisesInCompilation
  · exact hcondition.arisesInCompilation

/-- A pipeline that satisfies the conditions of compilation is not refused. -/
lemma Translatable.not_refusal {host : σ} {error : Error} (h : p.Translatable registry host) :
    ¬ p.Refusal registry host error := by
  rintro (⟨newer, stage, older, hsplit, -, hstage⟩ | ⟨-, before, condition, after, heq, -, herror⟩)
  · exact h.not_stageError hsplit hstage
  · exact (h.conditions condition (by simp [heq])).not_conditionError herror

/-- What the first pass has collected from a pure pipeline, and the host that it leaves. -/
lemma collects_of_isPure {draft : Draft σ} (hp : p.IsPure)
    (h : outcome (p.newestFirst.foldlM Draft.visit {}) c = (.ok draft, c')) :
    Draft.Collects p.newestFirst c.host draft c.host ∧ draft.conditions = p.conditions ∧
      c'.host = c.host := by
  have hcollects := collects_of_outcome_foldlM h
  have hhost : c'.host = c.host := hcollects.host_eq hp
  rw [hhost] at hcollects
  exact ⟨hcollects, conditions_eq_of_outcome_foldlM h, hhost⟩

/-- The ordering keys of a pipeline that goes through the first pass can be ordered by. -/
lemma isOrderKey_of_collects {draft : Draft σ} {host : σ} (hp : p.IsPure)
    (h : Draft.Collects p.newestFirst host draft host) {ordering : Expr σ × Direction}
    (hordering : ordering ∈ p.orderings) : ordering.1.IsOrderKey host := by
  have hmem : ordering ∈ p.newestFirst.filterMap Stage.ordering? := by
    rwa [orderings, filterMap_declared, List.mem_reverse] at hordering
  obtain ⟨clause, hnames, -⟩ := h.orderClauses.exists_of_state_eq
    (Draft.host_eq_of_ordersBy hp) ordering hmem
  exact hnames.isOrderKey

/-- A pure pipeline that is compiled satisfies the conditions of compilation. -/
lemma translatable_of_outcome_toDirective {d : Directive} (hp : p.IsPure)
    (h : outcome (p.toDirective registry) c = (.ok d, c')) : p.Translatable registry c.host := by
  obtain ⟨q, hq, -⟩ := outcome_toDirective_eq_ok_iff.mp h
  obtain ⟨draft, c₁, predicates, hfirst, hsecond, -⟩ := outcome_compile_eq_ok_iff.mp hq
  obtain ⟨hcollects, hconditions, hhost⟩ := collects_of_isPure hp hfirst
  rw [hconditions] at hsecond
  obtain ⟨-, htranslatable⟩ :=
    isTranslatable_of_outcome_mapM (fun condition hmem => hp.condition hmem) hsecond
  rw [hhost] at htranslatable
  exact {
    localLast := (passesFirst_of_outcome_foldlM hp hfirst).localLast
    orderKeys := fun ordering hmem => isOrderKey_of_collects hp hcollects hmem
    conditions := htranslatable }

/-- A pure pipeline that is not compiled is refused for its reason. -/
lemma refusal_of_outcome_toDirective {error : Error} (hp : p.IsPure)
    (h : outcome (p.toDirective registry) c = (.error error, c')) :
    p.Refusal registry c.host error := by
  simp only [toDirective, compile, outcome_bind_eq_error_iff, outcome_pure, Prod.mk.injEq,
    reduceCtorEq, false_and, and_false, exists_false, or_false] at h
  rcases h with hfirst | ⟨draft, c₁, hfirst, hsecond⟩
  · exact .inl (firstPassError_of_outcome_foldlM hp hfirst)
  · obtain ⟨-, hconditions, hhost⟩ := collects_of_isPure hp hfirst
    rw [hconditions] at hsecond
    have herror := secondPassError_of_outcome_mapM hp hsecond
    rw [hhost] at herror
    exact .inr ⟨passesFirst_of_outcome_foldlM hp hfirst, herror⟩

/-- Exactly the translatable pipelines are compiled.  Any other is refused: for its newest ordering
or local filter that is refused, and where there is none, for its earliest declared condition that
is. -/
theorem toDirective_accepts_or_first_error (registry : FieldRegistry) {p : Pipeline σ R}
    (hp : p.IsPure) (c : Context σ) :
    ((∃ d c', outcome (p.toDirective registry) c = (.ok d, c')) ↔
      p.Translatable registry c.host) ∧
    ∀ error c', outcome (p.toDirective registry) c = (.error error, c') →
      p.Refusal registry c.host error ∧ error.precedesRequest = true ∧
        ∀ name, error ≠ .fieldNotFound name := by
  refine ⟨⟨?_, ?_⟩, ?_⟩
  · rintro ⟨d, c', hok⟩
    exact translatable_of_outcome_toDirective hp hok
  · intro htranslatable
    rcases h : outcome (p.toDirective registry) c with ⟨error | d, c'⟩
    · exact absurd (refusal_of_outcome_toDirective hp h) htranslatable.not_refusal
    · exact ⟨d, c', rfl⟩
  · intro error c' herror
    have hrefusal := refusal_of_outcome_toDirective hp herror
    exact ⟨hrefusal, hrefusal.arisesInCompilation⟩

/-- A pipeline that reads the host in a condition and in an ordering key, and that limits the number
of records after a local filter. -/
def limitedLateSample : Pipeline Nat Unit :=
  .ofDeclared [
    .filter (.binary .lessThan (.field "Votes")
      (.captured "votes" fun n => (.ok (.int (Int64.ofNat n)), n))),
    .localFilter fun _ => pure true,
    .take 5,
    .order (.indexer (.captured "column" fun n => (.ok (.text "Team"), n))) .descending false]

/-- The limit after the local filter is the first error of the sample, before anything of its
condition. -/
theorem toDirective_accepts_or_first_error_limitedLate :
    limitedLateSample.IsPure ∧ ¬ limitedLateSample.Translatable .issue 3 ∧
      limitedLateSample.Refusal .issue 3 (.notSupported "LocalWhere followed by Take") := by
  have hp : limitedLateSample.IsPure := by
    intro stage hstage
    simp only [limitedLateSample, ofDeclared, List.reverse_cons, List.reverse_nil, List.nil_append,
      List.cons_append, List.mem_cons, List.not_mem_nil, or_false] at hstage
    rcases hstage with rfl | rfl | rfl | rfl
    · exact fun _ => rfl
    · trivial
    · trivial
    · exact ⟨trivial, fun _ => rfl⟩
  have h : outcome (limitedLateSample.toDirective .issue) ⟨3, []⟩ =
      (.error (.notSupported "LocalWhere followed by Take"), ⟨3, []⟩) := by
    cbv
  obtain ⟨haccepts, hrefuses⟩ := toDirective_accepts_or_first_error .issue hp ⟨3, []⟩
  refine ⟨hp, fun htranslatable => ?_, (hrefuses _ _ h).1⟩
  obtain ⟨d, c', hok⟩ := haccepts.mpr htranslatable
  rw [h] at hok
  simp at hok

end Pipeline

end IssueQuery
