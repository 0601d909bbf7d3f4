import IssueQuery.Proofs.Compilation.Recording

/-!
# Stages of different kinds commute

In a pipeline whose local filters are declared last no stage is refused for its place.  Its schedule
is then made of the steps for its orderings and of those for its conditions, wherever the stages
stand among each other (`Pipeline.LocalLast.schedule_eq`).  Two pipelines with the same schedule and
with the same limit and start compile alike (`Pipeline.compilesAlike_of_schedule_eq`), and that is
all that `Pipeline.LocalLast.toDirective_commutes` needs.

The log is left out: when a limit and a start are overridden by later ones, the two warnings come in
the order of the stages.
-/

namespace IssueQuery

variable {σ R : Type}

/-! ### Kinds of stages -/

/-- The kinds of stages. -/
inductive StageKind where
  | condition | ordering | limit | start | localFilter
  deriving DecidableEq

/-- The kind of a stage; all orderings are of one kind. -/
def Stage.kind : Stage σ R → StageKind
  | filter _ => .condition
  | order _ _ _ => .ordering
  | take _ => .limit
  | skip _ => .start
  | localFilter _ => .localFilter

namespace Pipeline

/-- The stages of a kind in the order of their declaration. -/
def ofKind (p : Pipeline σ R) (kind : StageKind) : List (Stage σ R) :=
  p.declared.filter fun stage => stage.kind = kind

/-- All local filters are declared after the stages that the server carries out. -/
def LocalLast (p : Pipeline σ R) : Prop :=
  p.declared.Pairwise fun earlier later => later.isPushedDown = true → earlier.isPushedDown = true

/-- Compiled from the same context, the pipelines give the same directive or the same error, leave
the same host and run the same actions in the same order. -/
def CompilesAlike (registry : FieldRegistry) (p p' : Pipeline σ R) : Prop :=
  ∀ c, (outcome (p.toDirective registry) c).1 = (outcome (p'.toDirective registry) c).1 ∧
    (outcome (p.toDirective registry) c).2.host = (outcome (p'.toDirective registry) c).2.host ∧
    p.runs registry c = p'.runs registry c

/-- The schedule, the last limit and the last start are all that a compilation depends on. -/
lemma compilesAlike_of_schedule_eq {registry : FieldRegistry} {p p' : Pipeline σ R}
    (hschedule : p.schedule = p'.schedule) (hlimit : p.limits.getLast? = p'.limits.getLast?)
    (hstart : p.starts.getLast? = p'.starts.getLast?) : p.CompilesAlike registry p' := by
  intro c
  have hdirective : p.directiveOf = p'.directiveOf := by
    funext desk
    rw [directiveOf, hlimit, hstart, directiveOf]
  have hplain := p.does_schedule registry c
  rw [hschedule, hdirective, ← p'.does_schedule registry c, Prod.mk.injEq] at hplain
  have hrecorded := p.recorded.does_schedule registry ⟨⟨c.host, []⟩, c.log⟩
  rw [p.schedule_recorded, p.directiveOf_recorded, hschedule, hdirective, ← p'.schedule_recorded,
    ← p'.directiveOf_recorded, ← p'.recorded.does_schedule registry ⟨⟨c.host, []⟩, c.log⟩,
    Prod.mk.injEq] at hrecorded
  exact ⟨hplain.1, hplain.2, congrArg Recorded.runs hrecorded.2⟩

end Pipeline

/-! ### The schedule without refused places -/

/-- A stage that the server carries out has the same steps below any other. -/
lemma Stage.steps_of_isPushedDown {stage : Stage σ R} (h : stage.isPushedDown = true)
    (above : Option String) : stage.steps above = stage.steps none := by
  cases stage with
  | localFilter predicate => simp [isPushedDown] at h
  | _ => rfl

/-- At the end of a pipeline only orderings have steps in the first pass. -/
lemma Stage.steps_none_of_kind {stage : Stage σ R} (h : stage.kind ≠ .ordering) :
    stage.steps none = [] := by
  cases stage with
  | order key direction secondary => simp [kind] at h
  | _ => rfl

namespace Pipeline

/-- Without local filters each stage has the steps that it would have alone, whatever comes after.
-/
lemma stepsDown_of_isPushedDown {stages : List (Stage σ R)}
    (h : ∀ stage ∈ stages, stage.isPushedDown = true) (above : Option String) :
    stepsDown above stages = stages.flatMap (Stage.steps none) := by
  induction stages generalizing above with
  | nil => rfl
  | cons stage older ih =>
    rw [stepsDown, Stage.steps_of_isPushedDown (h stage List.mem_cons_self),
      ih fun s hs => h s (List.mem_cons_of_mem _ hs), List.flatMap_cons]

/-- Where the local filters come first on the way down, each stage has the steps that it would have
alone. -/
lemma stepsDown_of_pairwise {stages : List (Stage σ R)}
    (h : stages.Pairwise fun later earlier =>
      later.isPushedDown = true → earlier.isPushedDown = true) :
    stepsDown none stages = stages.flatMap (Stage.steps none) := by
  induction h with
  | nil => rfl
  | @cons stage older hstage _ ih =>
    rw [stepsDown, List.flatMap_cons]
    cases hpushed : stage.isPushedDown with
    | true =>
      have holder : ∀ s ∈ older, s.isPushedDown = true := fun s hs => hstage s hs hpushed
      rw [stepsDown_of_isPushedDown holder]
    | false =>
      rw [if_neg (by simp), ih]

/-- The conditions of a pipeline are those of its condition stages. -/
lemma conditions_eq_ofKind (p : Pipeline σ R) :
    p.conditions = (p.ofKind .condition).filterMap Stage.condition? := by
  rw [conditions, ofKind, List.filterMap_filter]
  refine List.filterMap_congr fun stage _ => ?_
  cases stage <;> rfl

/-- The limits of a pipeline are those of its limiting stages. -/
lemma limits_eq_ofKind (p : Pipeline σ R) :
    p.limits = (p.ofKind .limit).filterMap Stage.limit? := by
  rw [limits, ofKind, List.filterMap_filter]
  refine List.filterMap_congr fun stage _ => ?_
  cases stage <;> rfl

/-- The starts of a pipeline are those of its skipping stages. -/
lemma starts_eq_ofKind (p : Pipeline σ R) :
    p.starts = (p.ofKind .start).filterMap Stage.start? := by
  rw [starts, ofKind, List.filterMap_filter]
  refine List.filterMap_congr fun stage _ => ?_
  cases stage <;> rfl

/-- With the local filters at the end, the first pass resolves the orderings and does nothing
else. -/
lemma LocalLast.firstSteps_eq {p : Pipeline σ R} (hlocal : p.LocalLast) :
    p.firstSteps = (p.ofKind .ordering).reverse.flatMap (Stage.steps none) := by
  have hpairwise : p.newestFirst.Pairwise fun later earlier =>
      later.isPushedDown = true → earlier.isPushedDown = true := by
    rw [LocalLast, declared, List.pairwise_reverse] at hlocal
    exact hlocal
  have hothers (stages : List (Stage σ R)) : stages.flatMap (Stage.steps none) =
      (stages.filter fun stage => stage.kind = .ordering).flatMap (Stage.steps none) := by
    induction stages with
    | nil => rfl
    | cons stage stages ih =>
      rw [List.flatMap_cons, ih]
      by_cases hkind : stage.kind = .ordering
      · simp [hkind]
      · simp [hkind, Stage.steps_none_of_kind hkind]
  rw [firstSteps, stepsDown_of_pairwise hpairwise, hothers, ofKind, declared, List.filter_reverse,
    List.reverse_reverse]

/-- With the local filters at the end, the schedule has the orderings from the newest to the oldest,
and then the conditions in the order of their declaration. -/
lemma LocalLast.schedule_eq {p : Pipeline σ R} (hlocal : p.LocalLast) :
    p.schedule = (p.ofKind .ordering).reverse.flatMap (Stage.steps none) ++
      ((p.ofKind .condition).filterMap Stage.condition?).flatMap Expr.conditionSteps := by
  rw [schedule, hlocal.firstSteps_eq, secondSteps, conditions_eq_ofKind]

/-! ### Exchanging neighbours -/

/-- Exchanging neighbours of different kinds keeps the stages of every kind. -/
lemma ofKind_exchange {before after : List (Stage σ R)} {a b : Stage σ R} (hkind : a.kind ≠ b.kind)
    (kind : StageKind) :
    (ofDeclared (before ++ b :: a :: after)).ofKind kind =
      (ofDeclared (before ++ a :: b :: after)).ofKind kind := by
  have hpair : ([b, a] : List (Stage σ R)).filter (fun stage => stage.kind = kind) =
      [a, b].filter fun stage => stage.kind = kind := by
    by_cases ha : a.kind = kind
    · have hb : b.kind ≠ kind := fun hb => hkind (ha.trans hb.symm)
      simp [ha, hb]
    · simp [List.filter_cons, ha]
  have hsplit (x y : Stage σ R) : before ++ x :: y :: after = before ++ [x, y] ++ after := by simp
  simp only [ofKind, declared, ofDeclared, List.reverse_reverse, hsplit, List.filter_append, hpair]

/-- Exchanging neighbours that the server carries out leaves the local filters at the end. -/
lemma LocalLast.exchange {before after : List (Stage σ R)} {a b : Stage σ R}
    (hlocal : (ofDeclared (before ++ a :: b :: after)).LocalLast) (hb : b.isPushedDown = true) :
    (ofDeclared (before ++ b :: a :: after)).LocalLast := by
  simp only [LocalLast, declared, ofDeclared, List.reverse_reverse, List.pairwise_append,
    List.pairwise_cons, List.mem_cons, forall_eq_or_imp] at hlocal ⊢
  obtain ⟨hbefore, ⟨⟨-, haafter⟩, hbafter, hafter⟩, hacross⟩ := hlocal
  refine ⟨hbefore, ⟨⟨fun _ => hb, hbafter⟩, haafter, hafter⟩, fun stage hstage => ?_⟩
  obtain ⟨hstagea, hstageb, hrest⟩ := hacross stage hstage
  exact ⟨hstageb, hstagea, hrest⟩

/-- Stages of different kinds commute when the local filters are declared last.

* Exchanging two neighbours of different kinds that the server carries out changes neither the
  directive, with its custom fields, nor the error, nor the actions of the host that are run.
* So a compilation depends on the conditions and on the orderings, each in the order of their
  declaration, and on the last limit and the last start.  The limits and starts before them have no
  effect. -/
theorem LocalLast.toDirective_commutes {registry : FieldRegistry} {p : Pipeline σ R}
    (hlocal : p.LocalLast) :
    (∀ before a b after, p.declared = before ++ a :: b :: after →
      a.isPushedDown = true → b.isPushedDown = true → a.kind ≠ b.kind →
      p.CompilesAlike registry (.ofDeclared (before ++ b :: a :: after))) ∧
    ∀ p', p'.LocalLast → p.ofKind .condition = p'.ofKind .condition →
      p.ofKind .ordering = p'.ofKind .ordering → p.limits.getLast? = p'.limits.getLast? →
      p.starts.getLast? = p'.starts.getLast? → p.CompilesAlike registry p' := by
  have hdepends : ∀ p', p'.LocalLast → p.ofKind .condition = p'.ofKind .condition →
      p.ofKind .ordering = p'.ofKind .ordering → p.limits.getLast? = p'.limits.getLast? →
      p.starts.getLast? = p'.starts.getLast? → p.CompilesAlike registry p' := by
    intro p' hlocal' hconditions horderings
    have hschedule : p.schedule = p'.schedule := by
      rw [hlocal.schedule_eq, hlocal'.schedule_eq, hconditions, horderings]
    exact compilesAlike_of_schedule_eq hschedule
  refine ⟨fun before a b after hdeclared _ hb hkind => ?_, hdepends⟩
  obtain rfl : p = ofDeclared (before ++ a :: b :: after) := by
    rw [← hdeclared, ofDeclared, declared, List.reverse_reverse]
  have hsame := @ofKind_exchange _ _ before after _ _ hkind
  refine hdepends _ (hlocal.exchange hb) (hsame _).symm (hsame _).symm ?_ ?_
  · rw [limits_eq_ofKind, limits_eq_ofKind, hsame]
  · rw [starts_eq_ofKind, starts_eq_ofKind, hsame]

/-- A captured value that is different each time it is read. -/
def countingValue (name : String) : Expr Nat :=
  .captured name fun n => (.ok (.int (Int64.ofNat n)), n + 1)

/-- A condition and an ordering that both read values, between two limits. -/
def localLastSample : Pipeline Nat Unit :=
  .ofDeclared [
    .take 5,
    .filter (.binary .equal (.field "Votes") (countingValue "votes")),
    .order (.indexer (countingValue "column")) .ascending false,
    .take 7,
    .localFilter fun _ => pure true]

/-- Two orders of the sample's stages that compile alike: one exchange of neighbours, and one that
also leaves out the limit that is not the last. -/
theorem toDirective_commutes_sample :
    localLastSample.LocalLast ∧
      localLastSample.CompilesAlike .issue (.ofDeclared [
        .take 5,
        .order (.indexer (countingValue "column")) .ascending false,
        .filter (.binary .equal (.field "Votes") (countingValue "votes")),
        .take 7,
        .localFilter fun _ => pure true]) ∧
      localLastSample.CompilesAlike .issue (.ofDeclared [
        .take 7,
        .order (.indexer (countingValue "column")) .ascending false,
        .filter (.binary .equal (.field "Votes") (countingValue "votes"))]) := by
  have hlocal : localLastSample.LocalLast := by
    simp [LocalLast, localLastSample, declared, ofDeclared, Stage.isPushedDown]
  obtain ⟨hexchange, hdepends⟩ := @LocalLast.toDirective_commutes _ _ .issue _ hlocal
  refine ⟨hlocal, ?_, ?_⟩
  · exact hexchange [.take 5] _ _ [.take 7, .localFilter fun _ => pure true] rfl rfl rfl (by decide)
  · refine hdepends _ ?_ rfl rfl rfl rfl
    simp [LocalLast, declared, ofDeclared, Stage.isPushedDown]

end Pipeline

end IssueQuery
