import IssueQuery.Proofs.Compilation.Recording

/-!
# The answers of the host

A compilation finds everything in its pipeline but what the host answers to the actions that it
runs.  `Pipeline.replies` has the runs of a compilation, from the first to the last, each with its
answer; the runs are those that a recorded pipeline writes down (`Pipeline.map_fst_replies`).

`Pipeline.toDirective_congr` is the result: compilations that get the same answers have the same
result, whatever the host and the log are like and whatever the actions do to the host.
-/

namespace IssueQuery

variable {σ R : Type}

/-- What the host answers to an action. -/
abbrev Answer := Except String Value

/-- An action that is run gives its answer or fails with it. -/
lemma HostAction.outcome_run_fst (action : HostAction σ) (wrap : String → EvalError) (host : σ) :
    (outcome (action.run wrap) host).1 = (action host).1.mapError wrap := by
  simp only [outcome, HostAction.run]
  rcases action host with ⟨_ | v, host'⟩ <;> rfl

namespace Desk

variable {registry : FieldRegistry} {desk : Desk} {step : Step σ} {steps : List (Step σ)}
  {host host' : σ}

/-- The run of a step that is carried out at a desk, with the answer of the host. -/
def reply? (desk : Desk) (host : σ) : Step σ → Option (Run × Answer)
  | .read name action => some (⟨name, []⟩, (action host).1)
  | .call name arity apply =>
    let values := (desk.values.take arity).reverse
    some (⟨name, values⟩, (apply values host).1)
  | _ => none

/-- The runs of some steps up to the first that fails, with the answers of the host. -/
def replies (registry : FieldRegistry) : Desk → σ → List (Step σ) → List (Run × Answer)
  | _, _, [] => []
  | desk, host, step :: steps =>
    (desk.reply? host step).toList ++
      match outcome (desk.carryOut registry step) host with
      | (.ok desk', host') => replies registry desk' host' steps
      | (.error _, _) => []

/-- The runs with answers are the runs of the steps. -/
lemma map_fst_reply? (desk : Desk) (host : σ) (step : Step σ) :
    (desk.reply? host step).map Prod.fst = desk.run? step := by
  cases step <;> rfl

/-- What is answered is the only thing that the result of a step does not find at the desk. -/
lemma carryOut_congr
    (h : (desk.reply? host step).map Prod.snd = (desk.reply? host' step).map Prod.snd) :
    (outcome (desk.carryOut registry step) host).1 =
      (outcome (desk.carryOut registry step) host').1 := by
  have hrun (action : HostAction σ) (wrap : String → EvalError) (f : Value → Desk)
      (hanswer : (action host).1 = (action host').1) :
      (outcome (do let v ← Unlogged.ofEvaluation (action.run wrap); pure (f v)) host).1 =
        (outcome (do let v ← Unlogged.ofEvaluation (action.run wrap); pure (f v)) host').1 := by
    rw [← map_eq_pure_bind, outcome_map, outcome_map, Unlogged.outcome_ofEvaluation,
      Unlogged.outcome_ofEvaluation, HostAction.outcome_run_fst, HostAction.outcome_run_fst,
      hanswer]
  have hvalue (r : Except EvalError Value) (f : Value → Desk) :
      (outcome (do let v ← Unlogged.ofEvaluation (liftExcept r); pure (f v)) host).1 =
        (outcome (do let v ← Unlogged.ofEvaluation (liftExcept r); pure (f v)) host').1 := by
    rw [← map_eq_pure_bind, outcome_map, outcome_map, Unlogged.ofEvaluation_liftExcept,
      outcome_liftExcept, outcome_liftExcept]
  cases step with
  | read name action => exact hrun action _ _ (Option.some.inj h)
  | call name arity apply => exact hrun _ _ _ (Option.some.inj h)
  | negate =>
    rw [carryOut]
    cases desk.values with
    | nil => rfl
    | cons a values => exact hvalue _ _
  | combine op =>
    rw [carryOut]
    rcases desk.values with _ | ⟨b, _ | ⟨a, values⟩⟩
    · rfl
    · rfl
    · exact hvalue _ _
  | orderByValue direction =>
    rw [carryOut]
    cases desk.values <;> rfl
  | translate condition =>
    rw [carryOut, ← map_eq_pure_bind, outcome_map, outcome_map, outcome_liftExcept,
      outcome_liftExcept]
  | _ => rfl

/-- Steps that get the same answers come to the same. -/
lemma carryOutAll_congr
    (h : (desk.replies registry host steps).map Prod.snd =
      (desk.replies registry host' steps).map Prod.snd) :
    (outcome (desk.carryOutAll registry steps) host).1 =
      (outcome (desk.carryOutAll registry steps) host').1 := by
  induction steps generalizing desk host host' with
  | nil => rfl
  | cons step steps ih =>
    have hlength (host : σ) :
        ((desk.reply? host step).map Prod.snd).toList.length = (desk.run? step).toList.length := by
      rw [← desk.map_fst_reply? host step]
      cases desk.reply? host step <;> rfl
    simp only [replies, List.map_append, ← Option.toList_map] at h
    obtain ⟨hfirst, hrest⟩ := List.append_inj h ((hlength host).trans (hlength host').symm)
    have hanswer :
        (desk.reply? host step).map Prod.snd = (desk.reply? host' step).map Prod.snd := by
      simpa only [Option.head?_toList] using congrArg List.head? hfirst
    have hstep : (outcome (desk.carryOut registry step) host).1 =
      (outcome (desk.carryOut registry step) host').1 := carryOut_congr hanswer
    rw [carryOutAll, List.foldlM_cons, outcome_bind, outcome_bind]
    rcases houtcome : outcome (desk.carryOut registry step) host with ⟨error | desk₁, host₁⟩ <;>
      rcases houtcome' : outcome (desk.carryOut registry step) host' with
        ⟨error' | desk₁', host₁'⟩ <;>
      rw [houtcome, houtcome'] at hstep hrest
    · exact hstep
    · cases hstep
    · cases hstep
    · obtain rfl := Except.ok.inj hstep
      exact ih hrest

/-- The replies are to the runs that are written down. -/
lemma runs_carryOutAll_recorded (registry : FieldRegistry) (desk : Desk) (host : σ)
    (steps : List (Step σ)) (runs : List Run) :
    (outcome (desk.carryOutAll registry (steps.map Step.recorded)) ⟨host, runs⟩).2.runs =
      runs ++ (desk.replies registry host steps).map Prod.fst := by
  induction steps generalizing desk host runs with
  | nil => exact (List.append_nil runs).symm
  | cons step steps ih =>
    rw [List.map_cons, carryOutAll, List.foldlM_cons, outcome_bind, outcome_carryOut_recorded,
      replies, List.map_append, ← Option.toList_map, map_fst_reply?, ← List.append_assoc]
    rcases outcome (desk.carryOut registry step) host with ⟨error | desk₁, host₁⟩
    · exact (List.append_nil _).symm
    · exact ih desk₁ host₁ _

end Desk

namespace Pipeline

/-- The runs of a compilation of the pipeline, with the answers of the host. -/
def replies (registry : FieldRegistry) (p : Pipeline σ R) (c : Context σ) : List (Run × Answer) :=
  ({} : Desk).replies registry c.host p.schedule

/-- What the host answers in the course of a compilation of the pipeline. -/
def answers (registry : FieldRegistry) (p : Pipeline σ R) (c : Context σ) : List Answer :=
  (p.replies registry c).map Prod.snd

/-- The host answers to the runs of the compilation. -/
theorem map_fst_replies (registry : FieldRegistry) (p : Pipeline σ R) (c : Context σ) :
    (p.replies registry c).map Prod.fst = p.runs registry c := by
  have hrecorded := p.recorded.does_schedule registry ⟨⟨c.host, []⟩, c.log⟩
  rw [p.schedule_recorded, outcome_map, Prod.mk.injEq] at hrecorded
  rw [runs, hrecorded.2, Desk.runs_carryOutAll_recorded, List.nil_append, replies]

/-- Compilations that get the same answers have the same result. -/
theorem toDirective_congr {registry : FieldRegistry} {p : Pipeline σ R} {c c' : Context σ}
    (h : p.answers registry c = p.answers registry c') :
    (outcome (p.toDirective registry) c).1 = (outcome (p.toDirective registry) c').1 := by
  have hdoes (c : Context σ) : (outcome (p.toDirective registry) c).1 =
      (outcome (({} : Desk).carryOutAll registry p.schedule) c.host).1.map p.directiveOf := by
    have hschedule := p.does_schedule registry c
    rw [outcome_map, Prod.mk.injEq] at hschedule
    exact hschedule.1
  rw [hdoes, hdoes, Desk.carryOutAll_congr h]

end Pipeline

end IssueQuery
