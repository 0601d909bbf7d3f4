import IssueQuery.Proofs.Compilation.Declaration

/-!
# Limits and starts that do not count

Of all limits of a pipeline, and of all its starts, the last declared counts.  The others are not
dropped in silence: a compilation writes a warning for each of them to the log, from the newest
stage to the oldest one, and each warning names the count that is kept and the one that is ignored.

`Pipeline.warnings` reads these warnings off the declaration alone.  The first pass of a compilation
meets the stages one by one, each declared before all those that it has met already.
`Pipeline.warnings_onto` says what such a stage adds to the warnings, and
`Draft.log_eq_of_foldlM` that the first pass writes exactly this.  The second pass writes
nothing (`log_eq_of_outcome_mapM`).
-/

namespace IssueQuery

variable {σ R : Type}

/-! ### Warnings -/

namespace LogEvent

/-- The limit that a warning says is ignored. -/
def ignoredLimit? : LogEvent → Option UInt32
  | shadowedTake _ ignored => some ignored
  | _ => none

/-- The start that a warning says is ignored. -/
def ignoredStart? : LogEvent → Option UInt32
  | shadowedSkip _ ignored => some ignored
  | _ => none

/-- A warning is about a limit or about a start. -/
lemma length_of_forall_warn {events : List LogEvent}
    (h : ∀ event ∈ events, event.level = .warn) :
    events.length =
      (events.filterMap ignoredLimit?).length + (events.filterMap ignoredStart?).length := by
  induction events with
  | nil => rfl
  | cons event events ih =>
    have hrest := ih fun e he => h e (List.mem_cons_of_mem event he)
    have hevent := h event List.mem_cons_self
    cases event with
    | shadowedTake kept ignored =>
      simp only [List.length_cons, List.filterMap_cons, ignoredLimit?, ignoredStart?]
      omega
    | shadowedSkip kept ignored =>
      simp only [List.length_cons, List.filterMap_cons, ignoredLimit?, ignoredStart?]
      omega
    | request traced jql maxResults startAt => cases traced <;> simp [level] at hevent
    | _ => simp [level] at hevent

end LogEvent

/-- The warning about a stage that does not count, when the given limit and start are kept. -/
def Stage.warning? (limit start : Option UInt32) : Stage σ R → Option LogEvent
  | take ignored => limit.map fun kept => .shadowedTake kept ignored
  | skip ignored => start.map fun kept => .shadowedSkip kept ignored
  | filter _ | order _ _ _ | localFilter _ => none

namespace Stage

variable {limit start : Option UInt32} {stage : Stage σ R} {event : LogEvent}

/-- There is a warning about a limit where a limit is kept, and about a start where a start is. -/
lemma warning?_eq_some_iff :
    stage.warning? limit start = some event ↔
      (∃ kept ignored, stage = .take ignored ∧ limit = some kept ∧
        event = .shadowedTake kept ignored) ∨
      ∃ kept ignored, stage = .skip ignored ∧ start = some kept ∧
        event = .shadowedSkip kept ignored := by
  cases stage <;> simp [warning?, eq_comm]

/-- Where a limit is kept, the warnings about limits name the limits. -/
lemma warning?_bind_ignoredLimit? :
    (stage.warning? limit start).bind LogEvent.ignoredLimit? =
      limit.bind fun _ => stage.limit? := by
  cases stage with
  | take ignored => cases limit <;> rfl
  | skip ignored => cases limit <;> cases start <;> rfl
  | _ => cases limit <;> rfl

/-- Where a start is kept, the warnings about starts name the starts. -/
lemma warning?_bind_ignoredStart? :
    (stage.warning? limit start).bind LogEvent.ignoredStart? =
      start.bind fun _ => stage.start? := by
  cases stage with
  | take ignored => cases limit <;> cases start <;> rfl
  | skip ignored => cases start <;> rfl
  | _ => cases start <;> rfl

end Stage

namespace Pipeline

/-- The stages without the limit and the start that are declared last, the newest in front. -/
def withoutKept (p : Pipeline σ R) : List (Stage σ R) :=
  (p.newestFirst.eraseP fun stage => stage.limit?.isSome).eraseP fun stage => stage.start?.isSome

/-- The warnings about the limits and the starts that do not count, from the newest to the oldest.
Each names the last declared count of its own kind as the one that is kept. -/
def warnings (p : Pipeline σ R) : List LogEvent :=
  p.withoutKept.filterMap (Stage.warning? p.limits.getLast? p.starts.getLast?)

end Pipeline

/-! ### What is left when the last declared counts are taken out -/

section Lists

variable {α β : Type} {f : α → Option β}

/-- Without the first element from which something is selected, the selection loses its head. -/
private theorem filterMap_eraseP_self (as : List α) :
    (as.eraseP fun a => (f a).isSome).filterMap f = (as.filterMap f).tail := by
  induction as with
  | nil => rfl
  | cons a as ih => cases ha : f a <;> simp [ha, ih]

/-- Without an element from which nothing is selected, the selection is the same. -/
private theorem filterMap_eraseP_of_eq_none {q : α → Bool} (hq : ∀ a, q a = true → f a = none)
    (as : List α) : (as.eraseP q).filterMap f = as.filterMap f := by
  rcases List.exists_or_eq_self_of_eraseP q as with hsame | ⟨a, before, after, -, ha, has, herased⟩
  · rw [hsame]
  · rw [herased, has, List.filterMap_append, List.filterMap_append, List.filterMap_cons, hq a ha]

/-- Something is selected from some element exactly when the selection is not empty. -/
private theorem any_isSome (as : List α) :
    (as.any fun a => (f a).isSome) = !(as.filterMap f).isEmpty := by
  induction as with
  | nil => rfl
  | cons a as ih => cases ha : f a <;> simp [ha, ih]

/-- All elements but the last, and then the last if there is one, are all elements. -/
private theorem dropLast_append_toList (as : List α) : as.dropLast ++ as.getLast?.toList = as := by
  cases hlast : as.getLast? with
  | none => simp [List.getLast?_eq_none_iff.mp hlast]
  | some a => exact List.dropLast_append_getLast? a hlast

/-- The last element is the one that is erased when nothing is selected before it. -/
private theorem eraseP_concat (as : List α) (a : α) :
    (as ++ [a]).eraseP (fun x => (f x).isSome) = as.eraseP (fun x => (f x).isSome) ++
      if (f a).isSome && (as.filterMap f).isEmpty then [] else [a] := by
  rw [List.eraseP_append, any_isSome]
  cases hselected : (as.filterMap f).isEmpty with
  | false => simp
  | true =>
    have hsame : as.eraseP (fun x => (f x).isSome) = as := by
      refine List.eraseP_of_forall_not fun x hx => ?_
      simp [List.filterMap_eq_nil_iff.mp (List.isEmpty_iff.mp hselected) x hx]
    cases ha : f a <;> simp [ha, hsame]

end Lists

namespace Stage

/-- A stage that limits the records does not skip any. -/
lemma start?_eq_none_of_limit? {stage : Stage σ R} (h : stage.limit?.isSome = true) :
    stage.start? = none := by
  cases stage with
  | skip count => simp [limit?] at h
  | _ => rfl

/-- A stage that skips records does not limit them. -/
lemma limit?_eq_none_of_start? {stage : Stage σ R} (h : stage.start?.isSome = true) :
    stage.limit? = none := by
  cases stage with
  | take count => simp [start?] at h
  | _ => rfl

end Stage

namespace Pipeline

variable {p : Pipeline σ R} {stage : Stage σ R}

/-- Of all limits only the last declared is taken out. -/
lemma filterMap_limit?_withoutKept :
    p.withoutKept.filterMap Stage.limit? = p.limits.dropLast.reverse := by
  rw [withoutKept, filterMap_eraseP_of_eq_none fun _ => Stage.limit?_eq_none_of_start?,
    filterMap_eraseP_self, limits, filterMap_declared, List.dropLast_reverse, List.reverse_reverse]

/-- Of all starts only the last declared is taken out. -/
lemma filterMap_start?_withoutKept :
    p.withoutKept.filterMap Stage.start? = p.starts.dropLast.reverse := by
  rw [withoutKept, filterMap_eraseP_self,
    filterMap_eraseP_of_eq_none fun _ => Stage.start?_eq_none_of_limit?, starts, filterMap_declared,
    List.dropLast_reverse, List.reverse_reverse]

/-- The warnings name every limit but the last declared. -/
lemma filterMap_ignoredLimit?_warnings :
    p.warnings.filterMap LogEvent.ignoredLimit? = p.limits.dropLast.reverse := by
  -- The count that is kept does not matter here, only whether there is one.
  simp only [warnings, List.filterMap_filterMap, Stage.warning?_bind_ignoredLimit?]
  cases hlast : p.limits.getLast? with
  | none => simp [List.getLast?_eq_none_iff.mp hlast]
  | some kept => exact filterMap_limit?_withoutKept

/-- The warnings name every start but the last declared. -/
lemma filterMap_ignoredStart?_warnings :
    p.warnings.filterMap LogEvent.ignoredStart? = p.starts.dropLast.reverse := by
  simp only [warnings, List.filterMap_filterMap, Stage.warning?_bind_ignoredStart?]
  cases hlast : p.starts.getLast? with
  | none => simp [List.getLast?_eq_none_iff.mp hlast]
  | some kept => exact filterMap_start?_withoutKept

/-- What is logged about a shadowed stage is logged as a warning. -/
lemma level_of_mem_warnings {event : LogEvent} (h : event ∈ p.warnings) : event.level = .warn := by
  obtain ⟨stage, -, hstage⟩ := List.mem_filterMap.mp h
  rcases Stage.warning?_eq_some_iff.mp hstage with ⟨kept, ignored, -, -, rfl⟩ |
    ⟨kept, ignored, -, -, rfl⟩
  · rfl
  · rfl

/-- A warning about a limit names the last declared limit as the one that is kept. -/
lemma getLast?_limits_of_mem_warnings {kept ignored : UInt32}
    (h : .shadowedTake kept ignored ∈ p.warnings) : p.limits.getLast? = some kept := by
  obtain ⟨stage, -, hstage⟩ := List.mem_filterMap.mp h
  rcases Stage.warning?_eq_some_iff.mp hstage with ⟨_, _, -, hlimit, ⟨⟩⟩ | ⟨_, _, -, -, ⟨⟩⟩
  exact hlimit

/-- A warning about a start names the last declared start as the one that is kept. -/
lemma getLast?_starts_of_mem_warnings {kept ignored : UInt32}
    (h : .shadowedSkip kept ignored ∈ p.warnings) : p.starts.getLast? = some kept := by
  obtain ⟨stage, -, hstage⟩ := List.mem_filterMap.mp h
  rcases Stage.warning?_eq_some_iff.mp hstage with ⟨_, _, -, -, ⟨⟩⟩ | ⟨_, _, -, hstart, ⟨⟩⟩
  exact hstart

/-- There is one warning for each limit and for each start but the last. -/
lemma length_warnings : p.warnings.length = (p.limits.length - 1) + (p.starts.length - 1) := by
  rw [LogEvent.length_of_forall_warn fun _ => level_of_mem_warnings,
    filterMap_ignoredLimit?_warnings, filterMap_ignoredStart?_warnings, List.length_reverse,
    List.length_dropLast, List.length_reverse, List.length_dropLast]

/-! ### One more stage before all others -/

/-- The pipeline put onto one more stage, which is declared before all of its own. -/
def onto (p : Pipeline σ R) (stage : Stage σ R) : Pipeline σ R := ⟨p.newestFirst ++ [stage]⟩

/-- What is selected from the stage below comes before all that is selected from the pipeline. -/
lemma filterMap_declared_onto {α : Type} (f : Stage σ R → Option α) :
    (p.onto stage).declared.filterMap f = (f stage).toList ++ p.declared.filterMap f := by
  rw [declared, onto, List.reverse_append, List.reverse_singleton, List.singleton_append,
    List.filterMap_cons, declared]
  cases f stage <;> rfl

/-- What is selected last stays when something is selected at all. -/
lemma getLast?_filterMap_declared_onto {α : Type} {f : Stage σ R → Option α} {newer : Stage σ R}
    {a : α} (hnewer : newer ∈ p.newestFirst) (hf : f newer = some a) :
    ((p.onto stage).declared.filterMap f).getLast? = (p.declared.filterMap f).getLast? := by
  have hmem : a ∈ p.declared.filterMap f :=
    List.mem_filterMap.mpr ⟨newer, List.mem_reverse.mpr hnewer, hf⟩
  rw [filterMap_declared_onto, List.getLast?_append,
    Option.or_of_isSome (List.getLast?_isSome.mpr (List.ne_nil_of_mem hmem))]

/-- The warning about a stage of the pipeline is the same on top of one more stage. -/
lemma warning?_onto {newer : Stage σ R} (h : newer ∈ p.newestFirst) :
    newer.warning? (p.onto stage).limits.getLast? (p.onto stage).starts.getLast? =
      newer.warning? p.limits.getLast? p.starts.getLast? := by
  cases newer with
  | take count =>
    have hkept : (p.onto stage).limits.getLast? = p.limits.getLast? :=
      getLast?_filterMap_declared_onto h rfl
    rw [Stage.warning?, Stage.warning?, hkept]
  | skip count =>
    have hkept : (p.onto stage).starts.getLast? = p.starts.getLast? :=
      getLast?_filterMap_declared_onto h rfl
    rw [Stage.warning?, Stage.warning?, hkept]
  | _ => rfl

/-- One more stage is left out only when it is the only limit or the only start. -/
lemma withoutKept_onto :
    (p.onto stage).withoutKept = p.withoutKept ++
      if (stage.limit?.isSome && p.limits.isEmpty) || (stage.start?.isSome && p.starts.isEmpty)
      then [] else [stage] := by
  have hlimits : p.limits.isEmpty = (p.newestFirst.filterMap Stage.limit?).isEmpty := by
    rw [limits, filterMap_declared, List.isEmpty_reverse]
  have hstarts : p.starts.isEmpty =
      ((p.newestFirst.eraseP fun stage => stage.limit?.isSome).filterMap Stage.start?).isEmpty := by
    rw [filterMap_eraseP_of_eq_none fun _ => Stage.start?_eq_none_of_limit?, starts,
      filterMap_declared, List.isEmpty_reverse]
  rw [withoutKept, onto, eraseP_concat, ← hlimits]
  cases hlimit : stage.limit?.isSome && p.limits.isEmpty with
  | true => simp [withoutKept]
  | false =>
    rw [if_neg Bool.false_ne_true, eraseP_concat, ← hstarts, Bool.false_or, withoutKept]

/-- One more stage is warned about when another one of its kind is declared after it. -/
lemma warnings_onto :
    (p.onto stage).warnings = p.warnings ++
      (stage.warning? p.limits.getLast? p.starts.getLast?).toList := by
  have hsame : ∀ newer ∈ p.withoutKept,
      newer.warning? (p.onto stage).limits.getLast? (p.onto stage).starts.getLast? =
        newer.warning? p.limits.getLast? p.starts.getLast? :=
    fun newer h => warning?_onto (List.mem_of_mem_eraseP (List.mem_of_mem_eraseP h))
  rw [warnings, withoutKept_onto, List.filterMap_append, List.filterMap_congr hsame, ← warnings]
  congr 1
  -- The new stage comes last.  It is either the first of its kind and left out, or its kind has a
  -- last count already.
  cases stage with
  | take count =>
    rw [limits, filterMap_declared_onto, ← limits]
    cases p.limits with
    | nil => simp [Stage.warning?, Stage.limit?]
    | cons first later =>
      simp [Stage.warning?, Stage.limit?, Stage.start?, List.getLast?_cons]
  | skip count =>
    rw [starts, filterMap_declared_onto, ← starts]
    cases p.starts with
    | nil => simp [Stage.warning?, Stage.start?]
    | cons first later =>
      simp [Stage.warning?, Stage.limit?, Stage.start?, List.getLast?_cons]
  | _ => rfl

end Pipeline

/-! ### The log of a compilation -/

namespace Draft

variable {p : Pipeline σ R} {d d' : Draft σ} {c c' : Context σ} {host host' : σ}

/-- What is noted about a stage is what it adds to the warnings. -/
lemma Collects.shadowed_eq (hd : Collects p.newestFirst host d host') (stage : Stage σ R) :
    d.shadowed stage = (stage.warning? p.limits.getLast? p.starts.getLast?).toList := by
  rw [p.getLast?_limits, p.getLast?_starts, ← hd.maxResults, ← hd.startAt]
  cases stage with
  | take count => cases h : d.maxResults <;> simp [shadowed, Stage.warning?, h]
  | skip count => cases h : d.startAt <;> simp [shadowed, Stage.warning?, h]
  | _ => rfl

/-- A stage that is taken up writes what it adds to the warnings. -/
lemma Collects.log_eq_of_visit {stage : Stage σ R} {before : List LogEvent}
    (hd : Collects p.newestFirst host d c.host) (hlog : c.log = before ++ p.warnings)
    (h : outcome (d.visit stage) c = (.ok d', c')) :
    c'.log = before ++ (p.onto stage).warnings := by
  rw [(outcome_visit_eq_ok_iff.mp h).2, hlog, hd.shadowed_eq, Pipeline.warnings_onto,
    List.append_assoc]

/-- The first pass writes the warnings of the stages that it meets, and nothing else. -/
lemma log_eq_of_foldlM (h : outcome (p.newestFirst.foldlM visit {}) c = (.ok d, c')) :
    c'.log = c.log ++ p.warnings := by
  have hbegin : Collects ([] : List (Stage σ R)) c.host {} c.host ∧
      c.log = c.log ++ (⟨[]⟩ : Pipeline σ R).warnings :=
    ⟨collects_nil c.host, (List.append_nil c.log).symm⟩
  refine (outcome_foldlM_preserves (P := fun newest d c₁ => Collects newest c.host d c₁.host ∧
    c₁.log = c.log ++ (⟨newest⟩ : Pipeline σ R).warnings) ?_ hbegin h).2
  rintro newest stage d c₁ d₁ c₂ ⟨hd, hlog⟩ hvisit
  have htakes := (outcome_visit_eq_ok_iff.mp hvisit).1
  exact ⟨hd.concat htakes, Collects.log_eq_of_visit (p := ⟨newest⟩) hd hlog hvisit⟩

end Draft

/-- The second pass writes nothing. -/
lemma log_eq_of_outcome_mapM {registry : FieldRegistry} {conditions : List (Expr σ)}
    {predicates : List Predicate} {c c' : Context σ}
    (h : outcome (conditions.mapM (Expr.toPredicate registry)) c = (.ok predicates, c')) :
    c'.log = c.log := by
  rw [outcome_mapM_eq_ok_iff] at h
  induction h with
  | nil c => rfl
  | cons hfirst _ ih => exact ih.trans (Expr.outcome_toPredicate_eq_ok_iff.mp hfirst).2

namespace Pipeline

variable {p : Pipeline σ R}

/-- A compilation that succeeds has written the warnings of its pipeline to the log. -/
lemma log_of_outcome_compile {registry : FieldRegistry} {q : CompiledQuery} {c c' : Context σ}
    (h : outcome (p.compile registry) c = (.ok q, c')) : c'.log = c.log ++ p.warnings := by
  obtain ⟨draft, c₁, predicates, hfirst, hsecond, -⟩ := outcome_compile_eq_ok_iff.mp h
  rw [log_eq_of_outcome_mapM hsecond, Draft.log_eq_of_foldlM hfirst]

/-- A compilation drops no limit and no start in silence.  It writes a warning about each one after
which another of its kind is declared, from the newest to the oldest, and nothing else.  Every
warning names the count of its own kind that the directive keeps, and that is the last declared.
The counts that are ignored and the one that is kept are together all that were declared, so a limit
never hides a start, nor a start a limit. -/
theorem toDirective_accounts_for_paging {registry : FieldRegistry} {d : Directive}
    {c c' : Context σ} (h : outcome (p.toDirective registry) c = (.ok d, c')) :
    c'.log = c.log ++ p.warnings ∧
      p.warnings.length = (p.limits.length - 1) + (p.starts.length - 1) ∧
      (∀ event ∈ p.warnings, event.level = .warn) ∧
      d.maxResults = p.limits.getLast? ∧
      d.startAt = p.starts.getLast? ∧
      (∀ kept ignored, .shadowedTake kept ignored ∈ p.warnings → d.maxResults = some kept) ∧
      (∀ kept ignored, .shadowedSkip kept ignored ∈ p.warnings → d.startAt = some kept) ∧
      p.limits = (p.warnings.filterMap LogEvent.ignoredLimit?).reverse ++ d.maxResults.toList ∧
      p.starts = (p.warnings.filterMap LogEvent.ignoredStart?).reverse ++ d.startAt.toList := by
  obtain ⟨q, hq, rfl⟩ := outcome_toDirective_eq_ok_iff.mp h
  obtain ⟨draft, c₁, predicates, hfirst, -, rfl⟩ := outcome_compile_eq_ok_iff.mp hq
  have hdraft := collects_of_outcome_foldlM hfirst
  have hlimit : draft.maxResults = p.limits.getLast? := by
    rw [hdraft.maxResults, p.getLast?_limits]
  have hstart : draft.startAt = p.starts.getLast? := by
    rw [hdraft.startAt, p.getLast?_starts]
  refine ⟨log_of_outcome_compile hq, length_warnings, fun _ => level_of_mem_warnings, hlimit,
    hstart, ?_, ?_, ?_, ?_⟩
  · intro kept ignored hmem
    exact hlimit.trans (getLast?_limits_of_mem_warnings hmem)
  · intro kept ignored hmem
    exact hstart.trans (getLast?_starts_of_mem_warnings hmem)
  · rw [filterMap_ignoredLimit?_warnings, List.reverse_reverse, CompiledQuery.directive, hlimit,
      dropLast_append_toList]
  · rw [filterMap_ignoredStart?_warnings, List.reverse_reverse, CompiledQuery.directive, hstart,
      dropLast_append_toList]

/-- A pipeline whose limits and starts stand between each other and between other stages. -/
def repagedSample : Pipeline Nat Unit :=
  .ofDeclared [
    .take 5,
    .skip 1,
    .filter (.binary .greaterThan (.field "Votes")
      (.captured "votes" fun n => (.ok (.int (Int64.ofNat n)), n + 1))),
    .take 50,
    .order (.field "Created") .ascending false,
    .skip 2,
    .skip 20,
    .take 7,
    .localFilter fun _ => pure true]

/-- The sample keeps the last of its three limits and of its three starts, and warns of the two that
are shadowed on either side, from the newest to the oldest. -/
theorem toDirective_accounts_for_paging_repaged :
    repagedSample.warnings =
        [.shadowedSkip 20 2, .shadowedTake 7 50, .shadowedSkip 20 1, .shadowedTake 7 5] ∧
      repagedSample.warnings.length = (3 - 1) + (3 - 1) ∧
      repagedSample.limits = [5, 50] ++ [7] ∧
      repagedSample.starts = [1, 2] ++ [20] := by
  have h : outcome (repagedSample.toDirective .issue) ⟨3, [.lookupCancelled]⟩ =
      (.ok ⟨"Votes > 3", [⟨.member "Created", .ascending⟩], some 7, some 20, []⟩,
        ⟨4, [.lookupCancelled, .shadowedSkip 20 2, .shadowedTake 7 50, .shadowedSkip 20 1,
          .shadowedTake 7 5]⟩) := by
    cbv
  obtain ⟨hlog, hlength, -, -, -, -, -, hlimits, hstarts⟩ := toDirective_accounts_for_paging h
  have hwarnings : repagedSample.warnings = [.shadowedSkip 20 2, .shadowedTake 7 50,
      .shadowedSkip 20 1, .shadowedTake 7 5] :=
    (List.cons.inj hlog).2.symm
  rw [hwarnings] at hlimits hstarts
  exact ⟨hwarnings, hlength, hlimits, hstarts⟩

end Pipeline

end IssueQuery
