import IssueQuery.LocalPlan
import IssueQuery.Proofs.Compilation.Declaration

/-!
# Local filters of compiled pipelines

`LocalPlan.ofPipeline` looks for local filters only down to the newest stage that the server carries
out.  For a pipeline that compiles nothing is lost by that: a local filter is refused as soon as a
pushed-down stage was met (`localPredicates_of_outcome_foldlM`), so the plan has the filters of all
local stages.

`Screened` says what it means to run filters over records: each filter is tested once on each record
that all before it have passed, in the order of the page.  `execute_screens_page` says that the plan
of a compiled pipeline does exactly that, so that the page gives the records that pass all local
filters, whatever other stages were declared.
-/

namespace IssueQuery

variable {σ R : Type}

/-! ### Running filters -/

/-- A predicate is tested once on each record, from the first to the last, and the records that it
holds for are kept. -/
inductive LocalPredicate.Screens (predicate : LocalPredicate σ R) :
    List R → σ → List R → σ → Prop where
  | nil (host : σ) : Screens predicate [] host [] host
  | keep {r : R} {rs kept : List R} {host host₁ host' : σ} :
    (predicate r).run host = (true, host₁) → Screens predicate rs host₁ kept host' →
      Screens predicate (r :: rs) host (r :: kept) host'
  | drop {r : R} {rs kept : List R} {host host₁ host' : σ} :
    (predicate r).run host = (false, host₁) → Screens predicate rs host₁ kept host' →
      Screens predicate (r :: rs) host kept host'

/-- The first filter screens all records, the next one those that the first one kept, and so on. -/
inductive Screened : List (LocalPredicate σ R) → List R → σ → List R → σ → Prop where
  | nil (records : List R) (host : σ) : Screened [] records host records host
  | cons {filter : LocalPredicate σ R} {filters : List (LocalPredicate σ R)}
    {records kept left : List R} {host host₁ host' : σ} :
    filter.Screens records host kept host₁ → Screened filters kept host₁ left host' →
      Screened (filter :: filters) records host left host'

/-- What a predicate keeps stands in the order of the records and no oftener. -/
lemma LocalPredicate.Screens.sublist {predicate : LocalPredicate σ R} {records kept : List R}
    {host host' : σ} (h : predicate.Screens records host kept host') : kept.Sublist records := by
  induction h with
  | nil host => exact .slnil
  | keep _ _ ih => exact ih.cons_cons _
  | drop _ _ ih => exact ih.cons _

/-- The records that are left are some of those on the page, in the same order. -/
lemma Screened.sublist {filters : List (LocalPredicate σ R)} {records left : List R}
    {host host' : σ} (h : Screened filters records host left host') : left.Sublist records := by
  induction h with
  | nil records host => exact .refl records
  | cons hfirst _ ih => exact ih.trans hfirst.sublist

/-- A predicate that leaves the host as it is keeps the records that it holds for on this host. -/
lemma LocalPredicate.Screens.eq_filter {predicate : LocalPredicate σ R} {records kept : List R}
    {host host' : σ} (h : predicate.Screens records host kept host')
    (hpure : ∀ r host, ((predicate r).run host).2 = host) :
    kept = records.filter (fun r => ((predicate r).run host).1) ∧ host' = host := by
  induction h with
  | nil host => exact ⟨rfl, rfl⟩
  | @keep r rs kept host host₁ host' htest _ ih =>
    obtain rfl : host₁ = host := by simpa [htest] using hpure r host
    obtain ⟨rfl, rfl⟩ := ih
    simp [htest]
  | @drop r rs kept host host₁ host' htest _ ih =>
    obtain rfl : host₁ = host := by simpa [htest] using hpure r host
    obtain ⟨rfl, rfl⟩ := ih
    simp [htest]

/-- Filters that leave the host as it is leave the records that all of them hold for. -/
lemma Screened.eq_filter {filters : List (LocalPredicate σ R)} {records left : List R}
    {host host' : σ} (h : Screened filters records host left host')
    (hpure : ∀ filter ∈ filters, ∀ r host, ((filter r).run host).2 = host) :
    left = records.filter fun r => filters.all fun filter => ((filter r).run host).1 := by
  induction h with
  | nil records host => simp
  | cons hfirst _ ih =>
    obtain ⟨rfl, rfl⟩ := hfirst.eq_filter (hpure _ List.mem_cons_self)
    rw [ih fun filter hmem => hpure filter (List.mem_cons_of_mem _ hmem), List.filter_filter]
    simp only [List.all_cons, Bool.and_comm]

/-- Keeping the records that a predicate holds for is to screen them. -/
lemma LocalPredicate.screens_keep (predicate : LocalPredicate σ R) (records : List R) (host : σ) :
    predicate.Screens records host ((predicate.keep records).run host).1
      ((predicate.keep records).run host).2 := by
  induction records generalizing host with
  | nil => exact .nil host
  | cons r rs ih =>
    obtain ⟨holds, host₁, htest⟩ : ∃ holds host₁, (predicate r).run host = (holds, host₁) :=
      ⟨_, _, rfl⟩
    have hkeep : (predicate.keep (r :: rs)).run host =
        (if holds then r :: ((predicate.keep rs).run host₁).1
          else ((predicate.keep rs).run host₁).1, ((predicate.keep rs).run host₁).2) := by
      rw [keep, run_bind_of_eq htest]
      rfl
    rw [hkeep]
    cases holds with
    | true => exact .keep htest (ih host₁)
    | false => exact .drop htest (ih host₁)

namespace LocalPlan

/-- One stage of a plan screens the records and notes in the log how many there are. -/
lemma run_step (records : List R) (filter : LocalPredicate σ R) (c : Context σ) :
    (step records filter).run c =
      (((filter.keep records).run c.host).1,
        { host := ((filter.keep records).run c.host).2
          log := c.log ++ [.localFilter records.length] }) := rfl

/-- A plan runs its filters from the first declared to the last. -/
lemma screened_execute (records : List R) (filters : List (LocalPredicate σ R)) (c : Context σ) :
    Screened filters records c.host ((execute ⟨records, filters⟩).run c).1
      ((execute ⟨records, filters⟩).run c).2.host := by
  induction filters generalizing records c with
  | nil => exact .nil records c.host
  | cons filter filters ih =>
    have hrest := ih ((step records filter).run c).1 ((step records filter).run c).2
    rw [run_step] at hrest
    exact .cons (filter.screens_keep records c.host) hrest

end LocalPlan

/-! ### Local filters stand last -/

namespace Draft

variable {stages : List (Stage σ R)} {d d' : Draft σ} {c c' : Context σ}

/-- Below a pushed-down stage all stages are pushed down. -/
lemma isPushedDown_of_above (habove : d.above.isSome = true)
    (h : outcome (stages.foldlM visit d) c = (.ok d', c')) :
    ∀ stage ∈ stages, stage.isPushedDown = true := by
  induction stages generalizing d c with
  | nil => nofun
  | cons stage stages ih =>
    rw [List.foldlM_cons, outcome_bind_eq_ok_iff] at h
    obtain ⟨d₁, c₁, hvisit, hrest⟩ := h
    have htakes := (outcome_visit_eq_ok_iff.mp hvisit).1
    have hpushed : stage.isPushedDown = true := by
      by_contra hlocal
      rw [htakes.unobstructed (by simpa using hlocal)] at habove
      simp at habove
    have habove₁ : d₁.above.isSome = true := by
      obtain ⟨clauses, -, rfl⟩ := htakes.taken
      simp [taken, hpushed]
    exact List.forall_mem_cons.mpr ⟨hpushed, ih habove₁ hrest⟩

/-- The stages down to the first pushed-down one have all the local predicates. -/
lemma localPredicates_of_outcome_foldlM
    (h : outcome (stages.foldlM visit d) c = (.ok d', c')) :
    (stages.takeWhile (!·.isPushedDown)).filterMap Stage.localPredicate? =
      stages.filterMap Stage.localPredicate? := by
  induction stages generalizing d c with
  | nil => rfl
  | cons stage stages ih =>
    have hcons := h
    rw [List.foldlM_cons, outcome_bind_eq_ok_iff] at h
    obtain ⟨d₁, c₁, hvisit, hrest⟩ := h
    cases hstage : stage.isPushedDown with
    | false => simp only [List.takeWhile_cons, hstage, Bool.not_false, if_true,
        List.filterMap_cons, ih hrest]
    | true =>
      -- From here on nothing is local, so that nothing is left out.
      obtain ⟨clauses, -, rfl⟩ := (outcome_visit_eq_ok_iff.mp hvisit).1.taken
      have hrest' := isPushedDown_of_above (by simp [taken, hstage]) hrest
      have hnone : (stage :: stages).filterMap Stage.localPredicate? = [] := by
        refine List.filterMap_eq_nil_iff.mpr fun other hother => ?_
        have hpushed : other.isPushedDown = true :=
          (List.mem_cons.mp hother).elim (fun heq => heq ▸ hstage) (hrest' other)
        cases other <;> simp_all [Stage.isPushedDown, Stage.localPredicate?]
      rw [hnone]
      simp [hstage]

end Draft

namespace Pipeline

/-- The predicates of the local filters, in the order of their declaration. -/
def localPredicates (p : Pipeline σ R) : List (LocalPredicate σ R) :=
  p.declared.filterMap Stage.localPredicate?

/-- A pipeline has one predicate for each local stage. -/
lemma length_localPredicates (p : Pipeline σ R) :
    p.localPredicates.length = p.declared.countP (!·.isPushedDown) := by
  rw [localPredicates, List.length_filterMap_eq_countP]
  refine List.countP_congr fun stage _ => ?_
  cases stage <;> simp [Stage.isPushedDown, Stage.localPredicate?]

/-- The plan of a pipeline that compiles has the predicates of all its local stages. -/
lemma filters_ofPipeline {registry : FieldRegistry} {p : Pipeline σ R} {d : Directive}
    {c c' : Context σ} (h : outcome (p.toDirective registry) c = (.ok d, c')) (records : List R) :
    LocalPlan.ofPipeline p records = ⟨records, p.localPredicates⟩ := by
  obtain ⟨q, hq, -⟩ := outcome_toDirective_eq_ok_iff.mp h
  obtain ⟨draft, c₁, predicates, hfirst, -, -⟩ := outcome_compile_eq_ok_iff.mp hq
  rw [LocalPlan.ofPipeline, Draft.localPredicates_of_outcome_foldlM hfirst, localPredicates,
    filterMap_declared]

/-- The plan of a pipeline that compiles runs all its local filters over the fetched records, in the
order of declaration.  What is left are the records that pass them all, in the order of the page;
other stages do not matter.  A filter that reads the host sees what the tests before it have left
there. -/
theorem execute_screens_page {registry : FieldRegistry} {p : Pipeline σ R} {d : Directive}
    {c₀ c₁ : Context σ} (h : outcome (p.toDirective registry) c₀ = (.ok d, c₁))
    (records : List R) (c : Context σ) :
    (LocalPlan.ofPipeline p records).stages = p.declared.countP (!·.isPushedDown) ∧
    Screened p.localPredicates records c.host
      ((LocalPlan.ofPipeline p records).execute.run c).1
      ((LocalPlan.ofPipeline p records).execute.run c).2.host ∧
    ((LocalPlan.ofPipeline p records).execute.run c).1.Sublist records ∧
    ((∀ predicate ∈ p.localPredicates, ∀ r host, ((predicate r).run host).2 = host) →
      ((LocalPlan.ofPipeline p records).execute.run c).1 =
        records.filter fun r =>
          p.localPredicates.all fun predicate => ((predicate r).run c.host).1) := by
  have hscreened := LocalPlan.screened_execute records p.localPredicates c
  rw [filters_ofPipeline h]
  exact ⟨p.length_localPredicates, hscreened, hscreened.sublist, hscreened.eq_filter⟩

/-- A pipeline with two local filters, on a host that keeps a list of the tests. -/
def screenedSample : Pipeline (List (String × Nat)) Nat :=
  .ofDeclared [
    .filter (.binary .equal (.field "Summary") (.constant (.text "x"))),
    .skip 2,
    .order (.field "Created") .ascending false,
    .take 3,
    .localFilter fun n tests => (1 < n, tests ++ [("large", n)]),
    .localFilter fun n tests => (n % 2 = 0, tests ++ [("even", n)])]

/-- The second filter sees what the first one left, and neither the conditions nor the paging are
done again. -/
theorem execute_screens_page_sample :
    (LocalPlan.ofPipeline screenedSample [4, 1, 3, 4]).stages = 2 ∧
      Screened screenedSample.localPredicates [4, 1, 3, 4] [] [4, 4]
        [("large", 4), ("large", 1), ("large", 3), ("large", 4), ("even", 4), ("even", 3),
          ("even", 4)] := by
  have h : outcome (screenedSample.toDirective .issue) ⟨[], []⟩ =
      (.ok ⟨"Summary ~ \"x\"", [⟨.member "Created", .ascending⟩], some 3, some 2, []⟩,
        ⟨[], []⟩) := by
    cbv
  obtain ⟨hstages, hscreened, -, -⟩ := execute_screens_page h [4, 1, 3, 4] ⟨[], []⟩
  exact ⟨hstages, hscreened⟩

/-- A local filter below a stage that is pushed down would be lost; such a pipeline does not
compile. -/
example : (LocalPlan.ofPipeline (.ofDeclared [.localFilter fun _ => pure false, .take 2] :
    Pipeline Unit Nat) [4, 1]).stages = 0 := rfl

end Pipeline

end IssueQuery
