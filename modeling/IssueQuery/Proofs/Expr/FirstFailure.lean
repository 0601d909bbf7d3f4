import IssueQuery.Proofs.Compilation.Acceptance
import IssueQuery.Proofs.Expr.NormalForm

/-!
# Which failure a folding ends with

Folding an expression evaluates parts of it, and an evaluation that fails ends the folding.  Where a
part stands is said by its address, the indices of the direct parts on the way down to it
(`Expr.partAt?`), and the lexicographic order of addresses goes from left to right.  A part that
does not read the record, inside of none but parts that do, is a largest closed part
(`Expr.IsLargestClosedAt`).  This mentions no recursion of folding.

`Expr.fold_fails_leftmost` says that folding fails exactly when a largest closed part does, and that
it fails as the leftmost of those.  Since nothing but closed parts is evaluated, no failure is about
reading the record, neither that of a folding nor that of a compilation.
-/

namespace IssueQuery

variable {σ R : Type}

/-! ### Failures of closed expressions -/

/-- A text begins with the first character of its first part. -/
lemma head?_toList_append {s : String} {c : Char} (t : String) (h : s.toList.head? = some c) :
    (s ++ t).toList.head? = some c := by
  rw [String.toList_append, List.head?_append, h, Option.some_or]

namespace EvalError

/-- The failure is one that a closed expression can have. -/
def IsOfClosed (cause : EvalError) : Prop := ∀ kind, cause ≠ readsRecord kind

/-- The failure reads like that of an evaluation that has met the record. -/
def SaysReadsRecord (cause : EvalError) : Prop :=
  ∃ kind, cause.message = (readsRecord kind).message

/-- The name of a kind of node begins with a capital letter. -/
lemma exists_isUpper_head?_name (kind : NodeKind) :
    ∃ c, kind.name.toList.head? = some c ∧ c.isUpper = true := by
  cases kind with
  | binary op => cases op <;> simp [NodeKind.name, BinaryOp.name]
  | _ => simp [NodeKind.name]

/-- The message of a failure that a closed expression can have begins with a small letter. -/
lemma IsOfClosed.exists_not_isUpper_head?_message {cause : EvalError} (h : cause.IsOfClosed) :
    ∃ c, cause.message.toList.head? = some c ∧ c.isUpper = false := by
  cases cause with
  | readsRecord kind => exact absurd rfl (h kind)
  | _ =>
    -- The equations of `message` would compare its texts, so it is opened by hand.
    delta message
    dsimp only
    simp [String.toList_append]

/-- The message tells whether a failure is one that a closed expression can have. -/
lemma IsOfClosed.not_saysReadsRecord {cause : EvalError} (h : cause.IsOfClosed) :
    ¬ cause.SaysReadsRecord := by
  rintro ⟨kind, hmessage⟩
  obtain ⟨upper, hname, hupper⟩ := exists_isUpper_head?_name kind
  obtain ⟨lower, hlower, hnotUpper⟩ := h.exists_not_isUpper_head?_message
  have hhead : (readsRecord kind).message.toList.head? = some upper :=
    head?_toList_append _ hname
  rw [hmessage, hhead, Option.some.injEq] at hlower
  rw [hlower, hnotUpper] at hupper
  exact Bool.false_ne_true hupper

end EvalError

namespace BinaryOp

variable {op : BinaryOp} {a b : Value} {cause : EvalError}

/-- Arithmetic does not complain that a record is read. -/
lemma isOfClosed_of_arithmetic (h : op.arithmetic a b = .error cause) : cause.IsOfClosed := by
  rintro kind rfl
  rw [arithmetic.eq_def] at h
  grind

/-- No comparison complains that a record is read. -/
lemma isOfClosed_of_comparison {holds : Ordering → Bool}
    (h : op.comparison holds a b = .error cause) : cause.IsOfClosed := by
  rintro kind rfl
  rw [comparison] at h
  split at h <;> simp at h

/-- No connective complains that a record is read. -/
lemma isOfClosed_of_connective {combine : Bool → Bool → Bool}
    (h : op.connective combine a b = .error cause) : cause.IsOfClosed := by
  rintro kind rfl
  rw [connective.eq_def] at h
  split at h <;> simp at h

/-- No operator complains that a record is read. -/
lemma isOfClosed_of_apply (h : op.apply a b = .error cause) : cause.IsOfClosed := by
  cases op with
  | equal | notEqual => simp [apply] at h
  | greaterThan | greaterThanOrEqual | lessThan | lessThanOrEqual =>
    exact isOfClosed_of_comparison h
  | andAlso | orElse => exact isOfClosed_of_connective h
  | add | subtract | multiply | divide | modulo => exact isOfClosed_of_arithmetic h

end BinaryOp

/-- Negation does not complain that a record is read. -/
lemma Value.isOfClosed_of_negate {v : Value} {cause : EvalError} (h : v.negate = .error cause) :
    cause.IsOfClosed := by
  rintro kind rfl
  cases v <;> simp [negate] at h

/-- An action of the host fails in the words of its caller. -/
lemma HostAction.exists_of_outcome_run_eq_error {action : HostAction σ}
    {wrap : String → EvalError} {cause : EvalError} {host host' : σ}
    (h : outcome (action.run wrap) host = (.error cause, host')) :
    ∃ message, cause = wrap message := by
  rw [outcome, HostAction.run] at h
  split at h
  · simp at h
  · rename_i message _ _
    simp only [Prod.mk.injEq, Except.error.injEq] at h
    exact ⟨message, h.1.symm⟩

namespace Expr

mutual

/-- Only what does not read the record has a value. -/
theorem closed_of_outcome_evaluate (e : Expr σ) {v : Value} {host host' : σ}
    (h : outcome e.evaluate host = (.ok v, host')) : e.dependsOnRecord = false := by
  cases e with
  | field name => simp [evaluate] at h
  | indexer key => simp [evaluate] at h
  | constant w => rfl
  | captured name read => rfl
  | call name args apply =>
    rw [evaluate, outcome_bind_eq_ok_iff] at h
    obtain ⟨values, host₁, hargs, -⟩ := h
    exact closed_of_outcome_evaluateAll args hargs
  | convert inner => exact closed_of_outcome_evaluate inner h
  | not inner =>
    rw [evaluate, outcome_bind_eq_ok_iff] at h
    obtain ⟨w, host₁, hinner, -⟩ := h
    exact closed_of_outcome_evaluate inner hinner
  | binary op left right =>
    simp only [evaluate, outcome_bind_eq_ok_iff] at h
    obtain ⟨a, host₁, hleft, b, host₂, hright, -⟩ := h
    rw [dependsOnRecord, closed_of_outcome_evaluate left hleft,
      closed_of_outcome_evaluate right hright, Bool.or_false]

/-- Arguments that have values do not read the record. -/
theorem closed_of_outcome_evaluateAll (es : List (Expr σ)) {values : List Value} {host host' : σ}
    (h : outcome (evaluateAll es) host = (.ok values, host')) : anyDependsOnRecord es = false := by
  cases es with
  | nil => rfl
  | cons e es =>
    simp only [evaluateAll, outcome_bind_eq_ok_iff] at h
    obtain ⟨v, host₁, hfirst, vs, host₂, hrest, -⟩ := h
    rw [anyDependsOnRecord, closed_of_outcome_evaluate e hfirst,
      closed_of_outcome_evaluateAll es hrest, Bool.or_false]

end

mutual

/-- What does not read the record does not fail for reading it. -/
theorem isOfClosed_of_outcome_evaluate (e : Expr σ) {cause : EvalError} {host host' : σ}
    (hclosed : e.dependsOnRecord = false) (h : outcome e.evaluate host = (.error cause, host')) :
    cause.IsOfClosed := by
  cases e with
  | field name => simp [dependsOnRecord] at hclosed
  | indexer key => simp [dependsOnRecord] at hclosed
  | constant v => simp [evaluate] at h
  | captured name read =>
    obtain ⟨message, rfl⟩ := HostAction.exists_of_outcome_run_eq_error h
    exact nofun
  | call name args apply =>
    rw [evaluate, outcome_bind_eq_error_iff] at h
    rcases h with hargs | ⟨values, host₁, -, hcall⟩
    · exact isOfClosed_of_outcome_evaluateAll args hclosed hargs
    · obtain ⟨message, rfl⟩ := HostAction.exists_of_outcome_run_eq_error hcall
      exact nofun
  | convert inner => exact isOfClosed_of_outcome_evaluate inner hclosed h
  | not inner =>
    rw [evaluate, outcome_bind_eq_error_iff] at h
    rcases h with hinner | ⟨v, host₁, -, hnegate⟩
    · exact isOfClosed_of_outcome_evaluate inner hclosed hinner
    · rw [outcome_liftExcept, Prod.mk.injEq] at hnegate
      exact Value.isOfClosed_of_negate hnegate.1
  | binary op left right =>
    obtain ⟨hleft, hright⟩ : left.dependsOnRecord = false ∧ right.dependsOnRecord = false := by
      simpa [dependsOnRecord] using hclosed
    simp only [evaluate, outcome_bind_eq_error_iff, outcome_liftExcept, Prod.mk.injEq] at h
    rcases h with hfirst | ⟨a, host₁, -, hsecond | ⟨b, host₂, -, happly, -⟩⟩
    · exact isOfClosed_of_outcome_evaluate left hleft hfirst
    · exact isOfClosed_of_outcome_evaluate right hright hsecond
    · exact BinaryOp.isOfClosed_of_apply happly

/-- Arguments that do not read the record fail as a closed expression can. -/
theorem isOfClosed_of_outcome_evaluateAll (es : List (Expr σ)) {cause : EvalError} {host host' : σ}
    (hclosed : anyDependsOnRecord es = false)
    (h : outcome (evaluateAll es) host = (.error cause, host')) : cause.IsOfClosed := by
  cases es with
  | nil => simp [evaluateAll] at h
  | cons e es =>
    obtain ⟨hfirst, hrest⟩ : e.dependsOnRecord = false ∧ anyDependsOnRecord es = false := by
      simpa [anyDependsOnRecord] using hclosed
    simp only [evaluateAll, outcome_bind_eq_error_iff, outcome_pure, Prod.mk.injEq, reduceCtorEq,
      false_and, and_false, exists_false, or_false] at h
    rcases h with hhead | ⟨v, host₁, -, htail⟩
    · exact isOfClosed_of_outcome_evaluate e hfirst hhead
    · exact isOfClosed_of_outcome_evaluateAll es hrest htail

end

/-- A folding never fails for reading the record. -/
lemma isOfClosed_of_outcome_fold {e : Expr σ} {cause : EvalError} {host host' : σ}
    (h : outcome e.fold host = (.error cause, host')) : cause.IsOfClosed := by
  rw [fold_eq_map_evaluateAll, outcome_map_eq_error_iff] at h
  exact isOfClosed_of_outcome_evaluateAll _ (anyDependsOnRecord_closedParts e) h

/-! ### Addresses -/

/-- The part at an address: the indices of the direct parts on the way down to it. -/
def partAt? : Expr σ → List Nat → Option (Expr σ)
  | e, [] => some e
  | e, i :: address => e.parts[i]?.bind fun part => part.partAt? address

/-- At the address there is a part that does not read the record and is not inside of another such
part. -/
structure IsLargestClosedAt (e : Expr σ) (address : List Nat) (part : Expr σ) : Prop where
  stands : e.partAt? address = some part
  closed : part.dependsOnRecord = false
  inside : ∀ above below outer, address = above ++ below → below ≠ [] →
    e.partAt? above = some outer → outer.dependsOnRecord = true

/-- The leftmost largest closed part that fails has this failure. -/
def FailsLeftmost (e : Expr σ) (host : σ) (cause : EvalError) : Prop :=
  ∃ address part, e.IsLargestClosedAt address part ∧
    outcome part.evaluate host = (.error cause, host) ∧
    ∀ earlier other, e.IsLargestClosedAt earlier other → earlier < address →
      ∃ v, outcome other.evaluate host = (.ok v, host)

/-- What does not read the record is its own largest closed part. -/
lemma isLargestClosedAt_iff_of_closed {e part : Expr σ} {address : List Nat}
    (he : e.dependsOnRecord = false) :
    e.IsLargestClosedAt address part ↔ address = [] ∧ part = e := by
  constructor
  · intro h
    have hnil : address = [] := by
      by_contra hne
      have hopen := h.inside [] address e rfl hne rfl
      rw [he] at hopen
      exact Bool.false_ne_true hopen
    subst hnil
    exact ⟨rfl, (Option.some.inj h.stands).symm⟩
  · rintro ⟨rfl, rfl⟩
    refine ⟨rfl, he, fun above below outer hsplit hne => ?_⟩
    exact absurd (List.append_eq_nil_iff.mp hsplit.symm).2 hne

/-- The largest closed parts of what reads the record are those of its direct parts. -/
lemma isLargestClosedAt_iff_of_open {e part : Expr σ} {address : List Nat}
    (he : e.dependsOnRecord = true) :
    e.IsLargestClosedAt address part ↔ ∃ i address' inner, address = i :: address' ∧
      e.parts[i]? = some inner ∧ inner.IsLargestClosedAt address' part := by
  constructor
  · rintro ⟨hstands, hclosed, hinside⟩
    cases address with
    | nil =>
      rw [← Option.some.inj hstands, he] at hclosed
      exact absurd hclosed (by decide)
    | cons i address =>
      obtain ⟨inner, hinner, hpart⟩ := Option.bind_eq_some_iff.mp hstands
      refine ⟨i, address, inner, rfl, hinner, hpart, hclosed, ?_⟩
      intro above below outer hsplit hne houter
      refine hinside (i :: above) below outer (by rw [hsplit, List.cons_append]) hne ?_
      exact Option.bind_eq_some_iff.mpr ⟨inner, hinner, houter⟩
  · rintro ⟨i, address, inner, rfl, hinner, hstands, hclosed, hinside⟩
    refine ⟨Option.bind_eq_some_iff.mpr ⟨inner, hinner, hstands⟩, hclosed, ?_⟩
    intro above below outer hsplit hne houter
    cases above with
    | nil => rwa [← Option.some.inj houter]
    | cons j above =>
      rw [List.cons_append, List.cons.injEq] at hsplit
      obtain ⟨rfl, hsplit⟩ := hsplit
      obtain ⟨inner', hinner', houter⟩ := Option.bind_eq_some_iff.mp houter
      rw [hinner, Option.some.injEq] at hinner'
      subst hinner'
      exact hinside above below outer hsplit hne houter

/-- No two failures are the leftmost one. -/
lemma FailsLeftmost.unique {e : Expr σ} {host : σ} {cause cause' : EvalError}
    (h : e.FailsLeftmost host cause) (h' : e.FailsLeftmost host cause') : cause = cause' := by
  obtain ⟨address, part, hpart, hfails, hbefore⟩ := h
  obtain ⟨address', part', hpart', hfails', hbefore'⟩ := h'
  rcases lt_trichotomy address address' with hlt | rfl | hlt
  · obtain ⟨v, hv⟩ := hbefore' address part hpart hlt
    rw [hfails] at hv
    simp at hv
  · have hsame : part = part' := Option.some.inj (hpart.stands.symm.trans hpart'.stands)
    rw [← hsame, hfails] at hfails'
    simpa using hfails'
  · obtain ⟨v, hv⟩ := hbefore address' part' hpart' hlt
    rw [hfails'] at hv
    simp at hv

/-! ### Folding the parts -/

/-- The parts of a pure expression are pure. -/
lemma IsPure.of_mem_parts {e part : Expr σ} (he : e.IsPure) (hpart : part ∈ e.parts) :
    part.IsPure := by
  cases e with
  | call name args apply => exact allPure_iff.mp he.1 part hpart
  | binary op left right =>
    rcases List.mem_pair.mp hpart with rfl | rfl
    · exact he.1
    · exact he.2
  | indexer key => rwa [List.mem_singleton.mp hpart]
  | convert inner => rwa [List.mem_singleton.mp hpart]
  | not inner => rwa [List.mem_singleton.mp hpart]
  | _ => simp [parts] at hpart

/-- What reads the record fails to fold as its direct parts do, one after another. -/
lemma outcome_mapM_fold_eq_error_of_open {e : Expr σ} {cause : EvalError} {host host' : σ}
    (hopen : e.dependsOnRecord = true) (h : outcome e.fold host = (.error cause, host')) :
    outcome (e.parts.mapM fold) host = (.error cause, host') := by
  cases e with
  | field name => simp [fold] at h
  | constant v => simp [dependsOnRecord] at hopen
  | captured name read => simp [dependsOnRecord] at hopen
  | call name args apply =>
    rw [fold_call_of_open hopen, outcome_map_eq_error_iff, foldAll_eq_mapM] at h
    exact h
  | indexer key =>
    rw [fold, outcome_map_eq_error_iff] at h
    simp [parts, outcome_map_eq_error_iff, h]
  | convert inner =>
    have hreads : inner.dependsOnRecord = true := hopen
    rw [fold_convert_of_open hreads, outcome_map_eq_error_iff] at h
    simp [parts, outcome_map_eq_error_iff, h]
  | not inner =>
    have hreads : inner.dependsOnRecord = true := hopen
    rw [fold_not_of_open hreads, outcome_map_eq_error_iff] at h
    simp [parts, outcome_map_eq_error_iff, h]
  | binary op left right =>
    simp only [fold_binary_of_open hopen, outcome_bind_eq_error_iff, outcome_pure, Prod.mk.injEq,
      reduceCtorEq, false_and, and_false, exists_false, or_false] at h
    simpa [parts, outcome_bind_eq_error_iff, outcome_map_eq_error_iff] using h

/-- The parts of what has been folded can be folded as well, each by itself. -/
lemma exists_outcome_fold_of_mem_parts {e e' part : Expr σ} {host host' : σ} (hpure : e.IsPure)
    (hopen : e.dependsOnRecord = true) (h : outcome e.fold host = (.ok e', host'))
    (hpart : part ∈ e.parts) : ∃ part', outcome part.fold host = (.ok part', host) := by
  obtain ⟨-, hparts⟩ := (outcome_fold_eq_ok_iff_of_open hopen).mp h
  have hkeeps : ∀ a ∈ e.parts, ∀ s b s', outcome a.fold s = (.ok b, s') → s' = s :=
    fun a ha s b s' hfold => (isPure_fold a (hpure.of_mem_parts ha)).state_eq hfold
  exact hparts.exists_of_state_eq hkeeps part hpart

/-- Where folding succeeds, all largest closed parts have values. -/
lemma exists_value_of_outcome_fold {e e' : Expr σ} {host host' : σ} (hpure : e.IsPure)
    (h : outcome e.fold host = (.ok e', host')) {address : List Nat} {part : Expr σ}
    (hpart : e.IsLargestClosedAt address part) :
    ∃ v, outcome part.evaluate host = (.ok v, host) := by
  induction e using induction_on_parts generalizing e' host' address part with
  | step e ih =>
    by_cases hopen : e.dependsOnRecord = true
    · obtain ⟨i, address, inner, rfl, hinner, hpart⟩ :=
        (isLargestClosedAt_iff_of_open hopen).mp hpart
      have hmem : inner ∈ e.parts := List.mem_of_getElem? hinner
      obtain ⟨inner', hfold⟩ := exists_outcome_fold_of_mem_parts hpure hopen h hmem
      exact ih inner hmem (hpure.of_mem_parts hmem) hfold hpart
    · rw [Bool.not_eq_true] at hopen
      obtain ⟨rfl, rfl⟩ := (isLargestClosedAt_iff_of_closed hopen).mp hpart
      rw [fold_of_closed hopen, outcome_map_eq_ok_iff] at h
      obtain ⟨v, hv, -⟩ := h
      obtain rfl := (isPure_evaluate part hpure).state_eq hv
      exact ⟨v, hv⟩

/-- Where folding fails, it fails as the leftmost largest closed part that does. -/
lemma failsLeftmost_of_outcome_fold {e : Expr σ} {cause : EvalError} {host host' : σ}
    (hpure : e.IsPure) (h : outcome e.fold host = (.error cause, host')) :
    e.FailsLeftmost host cause := by
  induction e using induction_on_parts generalizing host' with
  | step e ih =>
    by_cases hopen : e.dependsOnRecord = true
    · have hparts := outcome_mapM_fold_eq_error_of_open hopen h
      obtain ⟨before, inner, after, folded, host₁, hsplit, hbefore, hinner⟩ :=
        outcome_mapM_eq_error hparts
      have hpureParts : ∀ a ∈ e.parts, a.IsPure := fun a => hpure.of_mem_parts
      rw [outcome_mapM_eq_ok_iff] at hbefore
      have hkeeps : ∀ a ∈ before, ∀ s b s', outcome a.fold s = (.ok b, s') → s' = s :=
        fun a ha s b s' hfold =>
          (isPure_fold a (hpureParts a (by simp [hsplit, ha]))).state_eq hfold
      obtain rfl : host₁ = host := hbefore.state_eq hkeeps
      have hmem : inner ∈ e.parts := by simp [hsplit]
      obtain ⟨address, part, hpart, hfails, hearlier⟩ :=
        ih inner hmem (hpureParts inner hmem) hinner
      have hat : e.parts[before.length]? = some inner := by simp [hsplit]
      refine ⟨before.length :: address, part, ?_, hfails, ?_⟩
      · exact (isLargestClosedAt_iff_of_open hopen).mpr ⟨_, address, inner, rfl, hat, hpart⟩
      · intro earlier other hother hlt
        obtain ⟨i, earlier, outer, rfl, houter, hother⟩ :=
          (isLargestClosedAt_iff_of_open hopen).mp hother
        rcases List.cons_lt_cons_iff.mp hlt with hi | ⟨rfl, hleft⟩
        · -- The part is inside of one that has been folded before.
          have hmemBefore : outer ∈ before := by
            rw [hsplit, List.getElem?_append_left hi] at houter
            exact List.mem_of_getElem? houter
          obtain ⟨outer', hfold⟩ := hbefore.exists_of_state_eq hkeeps outer hmemBefore
          exact exists_value_of_outcome_fold (hpureParts outer (by simp [hsplit, hmemBefore]))
            hfold hother
        · rw [hat, Option.some.injEq] at houter
          subst houter
          exact hearlier earlier other hother hleft
    · rw [Bool.not_eq_true] at hopen
      rw [fold_of_closed hopen, outcome_map_eq_error_iff] at h
      obtain rfl := (isPure_evaluate e hpure).state_eq h
      refine ⟨[], e, (isLargestClosedAt_iff_of_closed hopen).mpr ⟨rfl, rfl⟩, h, ?_⟩
      exact fun earlier other _ hlt => absurd hlt (List.not_lt_nil earlier)

/-- A pure expression fails to fold exactly when its leftmost failure is this one. -/
lemma outcome_fold_eq_error_iff {e : Expr σ} {cause : EvalError} {host host' : σ}
    (hpure : e.IsPure) :
    outcome e.fold host = (.error cause, host') ↔ host' = host ∧ e.FailsLeftmost host cause := by
  constructor
  · intro h
    exact ⟨(isPure_fold e hpure).state_eq h, failsLeftmost_of_outcome_fold hpure h⟩
  · rintro ⟨rfl, hleftmost⟩
    rcases h : outcome e.fold host' with ⟨other | e', host₁⟩
    · obtain rfl := (isPure_fold e hpure).state_eq h
      rw [(failsLeftmost_of_outcome_fold hpure h).unique hleftmost]
    · obtain ⟨address, part, hpart, hfails, -⟩ := hleftmost
      obtain ⟨v, hv⟩ := exists_value_of_outcome_fold hpure h hpart
      rw [hfails] at hv
      simp at hv

/-! ### Compilations -/

/-- An ordering key never fails for reading the record. -/
lemma OrderKeyError.isOfClosed {stage : String} {host : σ} {key : Expr σ} {cause : EvalError}
    (h : OrderKeyError stage host key (.evaluation cause)) : cause.IsOfClosed := by
  generalize herror : Error.evaluation cause = error at h
  induction h with
  | folding hcause =>
    obtain rfl := Error.evaluation.inj herror
    exact isOfClosed_of_outcome_fold (Prod.ext hcause rfl)
  | convert _ ih => exact ih herror
  | _ => simp at herror

/-- A condition never fails for reading the record. -/
lemma ConditionError.isOfClosed {registry : FieldRegistry} {host : σ} {condition : Expr σ}
    {cause : EvalError} (h : ConditionError registry host condition (.evaluation cause)) :
    cause.IsOfClosed := by
  cases h with
  | folding hcause => exact isOfClosed_of_outcome_fold (Prod.ext hcause rfl)
  | leaf _ hfirst =>
    obtain ⟨-, leaf, -, -, -, hleaf⟩ := hfirst
    cases hleaf

end Expr

/-- A pipeline is never refused for reading the record. -/
lemma Pipeline.Refusal.isOfClosed {registry : FieldRegistry} {host : σ} {p : Pipeline σ R}
    {cause : EvalError} (h : p.Refusal registry host (.evaluation cause)) : cause.IsOfClosed := by
  rcases h with ⟨_, _, _, -, -, hstage⟩ | ⟨-, _, _, _, -, -, hcondition⟩
  · cases hstage with
    | order hkey => exact hkey.isOfClosed
  · exact hcondition.isOfClosed

/-- How evaluation and folding fail, for pure expressions:

* Only what does not read the record has a value.
* Folding fails exactly when some largest closed part does.
* Its error is exactly the failure, as one of evaluation, of the leftmost largest closed part that
  fails, and the host is left as it was.
* This failure never says that a part reads the record, and a pipeline is not refused for such a
  failure either. -/
theorem Expr.fold_fails_leftmost {e : Expr σ} {p : Pipeline σ R} (he : e.IsPure) (hp : p.IsPure)
    (registry : FieldRegistry) (c : Context σ) :
    (∀ v host', outcome e.evaluate c.host = (.ok v, host') → e.dependsOnRecord = false) ∧
    ((∃ error c', outcome (Compilation.ofEvaluation e.fold) c = (.error error, c')) ↔
      ∃ address part cause host', e.IsLargestClosedAt address part ∧
        outcome part.evaluate c.host = (.error cause, host')) ∧
    (∀ error c', outcome (Compilation.ofEvaluation e.fold) c = (.error error, c') ↔
      c' = c ∧ ∃ cause, error = .evaluation cause ∧ e.FailsLeftmost c.host cause) ∧
    (∀ cause, e.FailsLeftmost c.host cause → ¬ cause.SaysReadsRecord) ∧
    ∀ cause c', outcome (p.toDirective registry) c = (.error (.evaluation cause), c') →
      ¬ cause.SaysReadsRecord := by
  have hfails : ∀ error c', outcome (Compilation.ofEvaluation e.fold) c = (.error error, c') ↔
      c' = c ∧ ∃ cause, error = .evaluation cause ∧ e.FailsLeftmost c.host cause := by
    intro error c'
    simp only [outcome_ofEvaluation_eq_error_iff, outcome_fold_eq_error_iff he, Context.eq_iff]
    constructor
    · rintro ⟨cause, rfl, ⟨hhost, hleftmost⟩, hlog⟩
      exact ⟨⟨hhost, hlog⟩, cause, rfl, hleftmost⟩
    · rintro ⟨⟨hhost, hlog⟩, cause, rfl, hleftmost⟩
      exact ⟨cause, rfl, ⟨hhost, hleftmost⟩, hlog⟩
  refine ⟨fun v host' => closed_of_outcome_evaluate e, ⟨?_, ?_⟩, hfails, ?_, ?_⟩
  · rintro ⟨error, c', h⟩
    obtain ⟨-, cause, -, address, part, hpart, hevaluate, -⟩ := (hfails error c').mp h
    exact ⟨address, part, cause, c.host, hpart, hevaluate⟩
  · rintro ⟨address, part, cause, host', hpart, hevaluate⟩
    rcases h : outcome (Compilation.ofEvaluation e.fold) c with ⟨error | e', c'⟩
    · exact ⟨error, c', rfl⟩
    · obtain ⟨hfold, -⟩ := outcome_ofEvaluation_eq_ok_iff.mp h
      obtain ⟨v, hv⟩ := exists_value_of_outcome_fold he hfold hpart
      rw [hv] at hevaluate
      simp at hevaluate
  · intro cause hleftmost
    have hfold := (outcome_fold_eq_error_iff he).mpr ⟨rfl, hleftmost⟩
    exact (isOfClosed_of_outcome_fold hfold).not_saysReadsRecord
  · intro cause c' h
    exact (Pipeline.refusal_of_outcome_toDirective hp h).isOfClosed.not_saysReadsRecord

/-- In `near(x.Votes, 1 / 0) && x[name] == "x"` the division fails, and so would the name. -/
theorem Expr.fold_fails_leftmost_division :
    let near : List Value → HostAction Nat := fun _ host => (.ok (.bool true), host)
    let name : HostAction Nat := fun host => (.error "no name", host)
    let quotient : Expr Nat := .binary .divide (.constant (.int 1)) (.constant (.int 0))
    let e : Expr Nat := .binary .andAlso (.call "near" [.field "Votes", quotient] near)
      (.binary .equal (.indexer (.captured "name" name)) (.constant (.text "x")))
    let p : Pipeline Nat Unit := .ofDeclared [.filter e]
    e.IsPure ∧ p.IsPure ∧ e.IsLargestClosedAt [0, 1] quotient ∧
      e.FailsLeftmost 5 (.integerFailed .divide 1 0) ∧
      ¬ (EvalError.integerFailed .divide 1 0).SaysReadsRecord := by
  intro near name quotient e p
  have he : e.IsPure := by
    refine ⟨⟨⟨trivial, ⟨trivial, trivial⟩, trivial⟩, fun _ _ => rfl⟩, fun _ => rfl, trivial⟩
  have hp : p.IsPure := by
    intro stage hstage
    rw [List.mem_singleton.mp hstage]
    exact he
  have hfold : outcome (Compilation.ofEvaluation e.fold) ⟨5, []⟩ =
      (.error (.evaluation (.integerFailed .divide 1 0)), ⟨5, []⟩) := by
    rfl
  obtain ⟨-, -, herror, hsays, -⟩ := fold_fails_leftmost he hp .issue ⟨5, []⟩
  obtain ⟨-, cause, hcause, hleftmost⟩ := (herror _ _).mp hfold
  obtain rfl := Error.evaluation.inj hcause
  have hopen : e.dependsOnRecord = true := rfl
  have hcall : (Expr.call "near" [.field "Votes", quotient] near).dependsOnRecord = true := rfl
  have hpart : e.IsLargestClosedAt [0, 1] quotient :=
    (isLargestClosedAt_iff_of_open hopen).mpr ⟨0, [1], _, rfl, rfl,
      (isLargestClosedAt_iff_of_open hcall).mpr ⟨1, [], quotient, rfl, rfl,
        (isLargestClosedAt_iff_of_closed rfl).mpr ⟨rfl, rfl⟩⟩⟩
  exact ⟨he, hp, hpart, hleftmost, hsays _ hleftmost⟩

end IssueQuery
