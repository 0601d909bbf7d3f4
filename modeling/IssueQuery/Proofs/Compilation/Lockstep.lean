import IssueQuery.Proofs.Compilation.Declaration

/-!
# Two compilations in step

A law about two compilations, of two pipelines or with two registries, says that they go on together
and what their results have in common.  Two computations are `InStep` when from every state both
succeed or both fail, with results or errors that are related, and leave the same state.  The lemmas
of this module compose such pairs, so that a law about whole compilations only needs to be shown
where the two differ.

`Pipeline.inStep_compile` is the result for compilations.  The first pass does not look at the
conditions that it collects, so two pipelines whose stages agree in everything but their conditions
are compiled in step if the second pass over the conditions is.
-/

namespace IssueQuery

variable {ε σ α β γ δ R : Type}

/-! ### Results -/

/-- Both results are values that `V` relates, or both are errors that `E` relates. -/
inductive Alike (V : α → β → Prop) (E : ε → ε → Prop) : Except ε α → Except ε β → Prop where
  | ok {a : α} {b : β} : V a b → Alike V E (.ok a) (.ok b)
  | error {e e' : ε} : E e e' → Alike V E (.error e) (.error e')

namespace Alike

variable {V : α → β → Prop} {W : γ → δ → Prop} {E : ε → ε → Prop} {x : Except ε α} {y : Except ε β}

/-- A result is alike to itself. -/
lemma refl {V : α → α → Prop} {x : Except ε α} (hV : ∀ a, x = .ok a → V a a) (hE : ∀ e, E e e) :
    Alike V E x x := by
  cases x with
  | ok a => exact .ok (hV a rfl)
  | error e => exact .error (hE e)

/-- What follows must be alike for the values that both have. -/
lemma bind {f : α → Except ε γ} {g : β → Except ε δ} (h : Alike V E x y)
    (hf : ∀ a b, V a b → Alike W E (f a) (g b)) : Alike W E (x >>= f) (y >>= g) := by
  cases h with
  | ok hab => exact hf _ _ hab
  | error he => exact .error he

/-- What follows the same result must be alike. -/
lemma bind_same {f : α → Except ε γ} {g : α → Except ε δ} (hE : ∀ e, E e e)
    (hf : ∀ a, Alike W E (f a) (g a)) : Alike W E (x >>= f) (x >>= g) := by
  have hsame : Alike Eq E x x := .refl (fun _ _ => rfl) hE
  refine hsame.bind fun a b hab => ?_
  rw [← hab]
  exact hf a

/-- Alike results stay alike when their values are mapped to related ones. -/
lemma map {f : α → γ} {g : β → δ} (h : Alike V E x y) (hf : ∀ a b, V a b → W (f a) (g b)) :
    Alike W E (f <$> x) (g <$> y) := by
  cases h with
  | ok hab => exact .ok (hf _ _ hab)
  | error he => exact .error he

end Alike

/-! ### Computations -/

/-- From every state both computations come to results that are alike and leave the same state. -/
def InStep (V : α → β → Prop) (E : ε → ε → Prop) (x : ExceptT ε (StateM σ) α)
    (y : ExceptT ε (StateM σ) β) : Prop :=
  ∀ s, Alike V E (outcome x s).1 (outcome y s).1 ∧ (outcome x s).2 = (outcome y s).2

namespace InStep

variable {V : α → β → Prop} {W : γ → δ → Prop} {E : ε → ε → Prop}
  {x : ExceptT ε (StateM σ) α} {y : ExceptT ε (StateM σ) β}

/-- A computation is in step with itself. -/
lemma refl {V : α → α → Prop} {x : ExceptT ε (StateM σ) α}
    (hV : ∀ s a s', outcome x s = (.ok a, s') → V a a) (hE : ∀ e, E e e) : InStep V E x x :=
  fun s => ⟨.refl (fun a ha => hV s a (outcome x s).2 (Prod.ext ha rfl)) hE, rfl⟩

/-- A computation comes to the very same as itself. -/
lemma same (hE : ∀ e, E e e) : InStep Eq E x x := .refl (fun _ _ _ _ => rfl) hE

/-- Computations in step stay so for a weaker relation of their values. -/
lemma imp {V' : α → β → Prop} (h : InStep V E x y) (hV : ∀ a b, V a b → V' a b) :
    InStep V' E x y := by
  intro s
  obtain ⟨hresult, hstate⟩ := h s
  refine ⟨?_, hstate⟩
  generalize (outcome x s).1 = r, (outcome y s).1 = r' at hresult
  cases hresult with
  | ok hab => exact .ok (hV _ _ hab)
  | error he => exact .error he

/-- Computations that only return related values are in step. -/
lemma pure {a : α} {b : β} (h : V a b) :
    InStep V E (Pure.pure a : ExceptT ε (StateM σ) α) (Pure.pure b) :=
  fun _ => ⟨.ok h, rfl⟩

/-- Results that are alike are in step as computations. -/
lemma liftExcept {r : Except ε α} {r' : Except ε β} (h : Alike V E r r') :
    InStep V E (liftExcept r : ExceptT ε (StateM σ) α) (liftExcept r') := by
  intro s
  rw [outcome_liftExcept, outcome_liftExcept]
  exact ⟨h, rfl⟩

/-- What follows must be in step for the results that both can have. -/
lemma bind_of_outcome {f : α → ExceptT ε (StateM σ) γ} {g : β → ExceptT ε (StateM σ) δ}
    (h : InStep V E x y)
    (hf : ∀ s a b s', outcome x s = (.ok a, s') → outcome y s = (.ok b, s') → V a b →
      InStep W E (f a) (g b)) : InStep W E (x >>= f) (y >>= g) := by
  intro s
  obtain ⟨hresult, hstate⟩ := h s
  rw [outcome_bind, outcome_bind]
  rcases hx : outcome x s with ⟨r, s₁⟩
  rcases hy : outcome y s with ⟨r', s₂⟩
  rw [hx, hy] at hresult hstate
  obtain rfl : s₁ = s₂ := hstate
  cases hresult with
  | ok hab => exact hf s _ _ s₁ hx hy hab s₁
  | error he => exact ⟨.error he, rfl⟩

/-- What follows must be in step for related values, whatever the state is. -/
lemma bind {f : α → ExceptT ε (StateM σ) γ} {g : β → ExceptT ε (StateM σ) δ} (h : InStep V E x y)
    (hf : ∀ a b, V a b → InStep W E (f a) (g b)) : InStep W E (x >>= f) (y >>= g) :=
  h.bind_of_outcome fun _ a b _ _ _ => hf a b

/-- What follows the same computation must be in step. -/
lemma bind_same {f : α → ExceptT ε (StateM σ) γ} {g : α → ExceptT ε (StateM σ) δ}
    (hE : ∀ e, E e e) (hf : ∀ a, InStep W E (f a) (g a)) : InStep W E (x >>= f) (x >>= g) := by
  refine (same hE).bind fun a b hab => ?_
  rw [← hab]
  exact hf a

/-- Computations stay in step when their values are mapped to related ones. -/
lemma map {f : α → γ} {g : β → δ} (h : InStep V E x y) (hf : ∀ a b, V a b → W (f a) (g b)) :
    InStep W E (f <$> x) (g <$> y) := by
  rw [map_eq_pure_bind, map_eq_pure_bind]
  exact h.bind fun a b hab => .pure (hf a b hab)

/-- Computations that come to the very same are the same. -/
lemma eq {x y : ExceptT ε (StateM σ) α} (h : InStep Eq Eq x y) : x = y := by
  refine eq_of_outcome fun s => Prod.ext ?_ (h s).2
  obtain ⟨hresult, -⟩ := h s
  generalize (outcome x s).1 = r, (outcome y s).1 = r' at hresult
  cases hresult with
  | ok hab => rw [hab]
  | error he => rw [he]

/-- Where the first computation succeeds, so does the second. -/
lemma exists_ok_right (h : InStep V E x y) {s s' : σ} {a : α} (hx : outcome x s = (.ok a, s')) :
    ∃ b, outcome y s = (.ok b, s') ∧ V a b := by
  obtain ⟨hresult, hstate⟩ := h s
  rcases hy : outcome y s with ⟨r, s₁⟩
  rw [hx, hy] at hresult hstate
  obtain rfl : s' = s₁ := hstate
  cases hresult with
  | ok hab => exact ⟨_, rfl, hab⟩

/-- Where the second computation succeeds, so does the first. -/
lemma exists_ok_left (h : InStep V E x y) {s s' : σ} {b : β} (hy : outcome y s = (.ok b, s')) :
    ∃ a, outcome x s = (.ok a, s') ∧ V a b := by
  obtain ⟨hresult, hstate⟩ := h s
  rcases hx : outcome x s with ⟨r, s₁⟩
  rw [hx, hy] at hresult hstate
  obtain rfl : s₁ = s' := hstate
  cases hresult with
  | ok hab => exact ⟨_, rfl, hab⟩

/-- Two traversals are in step if they are at each pair of elements. -/
lemma mapM {P : α → γ → Prop} {as : List α} {cs : List γ} {f : α → ExceptT ε (StateM σ) β}
    {g : γ → ExceptT ε (StateM σ) δ} {V : β → δ → Prop} (h : List.Forall₂ P as cs)
    (hf : ∀ a c, P a c → InStep V E (f a) (g c)) :
    InStep (List.Forall₂ V) E (as.mapM f) (cs.mapM g) := by
  induction h with
  | nil => exact .pure .nil
  | cons hfirst _ ih =>
    rw [List.mapM_cons, List.mapM_cons]
    exact (hf _ _ hfirst).bind fun b d hbd => ih.bind fun bs ds hrest => .pure (.cons hbd hrest)

/-- Two left folds are in step if they are at each pair of elements. -/
lemma foldlM {P : β → δ → Prop} {as : List β} {cs : List δ} {f : α → β → ExceptT ε (StateM σ) α}
    {g : γ → δ → ExceptT ε (StateM σ) γ} {V : α → γ → Prop} {a : α} {c : γ}
    (h : List.Forall₂ P as cs)
    (hf : ∀ a c b d, V a c → P b d → InStep V E (f a b) (g c d)) (hac : V a c) :
    InStep V E (as.foldlM f a) (cs.foldlM g c) := by
  induction h generalizing a c with
  | nil => exact .pure hac
  | cons hfirst _ ih =>
    rw [List.foldlM_cons, List.foldlM_cons]
    exact (hf a c _ _ hac hfirst).bind fun a' c' hac' => ih hac'

/-- Two traversals that differ at one element are in step if they are there. -/
lemma mapM_at {V : β → β → Prop} (as as' : List α) {a a' : α} {f : α → ExceptT ε (StateM σ) β}
    (h : InStep V E (f a) (f a')) (hE : ∀ e, E e e) :
    InStep (fun bs bs' => ∃ before b b' after, before.length = as.length ∧ V b b' ∧
        bs = before ++ b :: after ∧ bs' = before ++ b' :: after) E
      ((as ++ a :: as').mapM f) ((as ++ a' :: as').mapM f) := by
  have hbefore : InStep (fun bs bs' => bs = bs' ∧ bs.length = as.length) E (as.mapM f)
      (as.mapM f) :=
    .refl (fun s bs s' hbs => ⟨rfl, (outcome_mapM_eq_ok_iff.mp hbs).length_eq.symm⟩) hE
  simp only [List.mapM_append, List.mapM_cons, bind_assoc, pure_bind]
  refine hbefore.bind ?_
  rintro before _ ⟨rfl, hlength⟩
  refine h.bind fun b b' hb => bind_same hE fun after => ?_
  exact .pure ⟨before, b, b', after, hlength, hb, rfl, rfl⟩

/-- Evaluations in step are so as parts of a compilation. -/
lemma ofEvaluation {x : Evaluation σ α} {y : Evaluation σ β} {E : Error → Error → Prop}
    (h : InStep V Eq x y) (hE : ∀ e, E e e) :
    InStep V E (Compilation.ofEvaluation x) (Compilation.ofEvaluation y) := by
  intro c
  obtain ⟨hresult, hstate⟩ := h c.host
  rw [outcome_ofEvaluation, outcome_ofEvaluation]
  generalize (outcome x c.host).1 = r, (outcome y c.host).1 = r' at hresult
  refine ⟨?_, by rw [hstate]⟩
  cases hresult with
  | ok hab => exact .ok hab
  | error he => exact .error (he ▸ hE _)

end InStep

/-! ### The first pass -/

/-- The stages agree in everything that the first pass looks at: they are of one kind, with keys
that name the same field and with equal counts. -/
inductive Stage.AgreesWith : Stage σ R → Stage σ R → Prop where
  | filter (condition condition' : Expr σ) : AgreesWith (.filter condition) (.filter condition')
  | order {key key' : Expr σ} (direction : Direction) (secondary : Bool) :
    (∀ stage, key.toOrderField stage = key'.toOrderField stage) →
      AgreesWith (.order key direction secondary) (.order key' direction secondary)
  | take (count : UInt32) : AgreesWith (.take count) (.take count)
  | skip (count : UInt32) : AgreesWith (.skip count) (.skip count)
  | localFilter (predicate predicate' : LocalPredicate σ R) :
    AgreesWith (.localFilter predicate) (.localFilter predicate')

/-- Every stage agrees with itself. -/
lemma Stage.AgreesWith.refl (stage : Stage σ R) : stage.AgreesWith stage := by
  cases stage with
  | filter condition => exact .filter _ _
  | order key direction secondary => exact .order direction secondary fun _ => rfl
  | take count => exact .take count
  | skip count => exact .skip count
  | localFilter predicate => exact .localFilter _ _

/-- Stages agree with themselves, one by one. -/
lemma Stage.AgreesWith.refl_all (stages : List (Stage σ R)) :
    List.Forall₂ AgreesWith stages stages :=
  List.forall₂_same.mpr fun stage _ => .refl stage

/-- The stages around two that agree do so as well. -/
lemma Stage.AgreesWith.around {stage stage' : Stage σ R} (h : stage.AgreesWith stage')
    (earlier later : List (Stage σ R)) :
    List.Forall₂ AgreesWith (earlier ++ stage :: later) (earlier ++ stage' :: later) :=
  List.rel_append (refl_all earlier) (.cons h (refl_all later))

/-- The drafts are equal but for their conditions. -/
def Draft.SameFrame (d d' : Draft σ) : Prop := { d' with conditions := d.conditions } = d

/-- Stages that agree are taken up in step. -/
lemma Draft.inStep_visit {E : Error → Error → Prop} (hE : ∀ e, E e e) {stage stage' : Stage σ R}
    {d d' : Draft σ} (hd : d.SameFrame d') (h : stage.AgreesWith stage') :
    InStep SameFrame E (d.visit stage) (d'.visit stage') := by
  obtain ⟨conditions, clauses, maxResults, startAt, above⟩ := d
  obtain ⟨conditions', clauses', maxResults', startAt', above'⟩ := d'
  simp only [SameFrame, Draft.mk.injEq, true_and] at hd
  obtain ⟨rfl, rfl, rfl, rfl⟩ := hd
  cases h with
  | filter condition condition' => exact .pure rfl
  | order direction secondary hkey =>
    simp only [visit, Stage.name, hkey]
    exact .bind_same hE fun field => .pure rfl
  | take count =>
    cases maxResults' with
    | none => exact .pure rfl
    | some kept => exact .bind_same hE fun _ => .pure rfl
  | skip count =>
    cases startAt' with
    | none => exact .pure rfl
    | some kept => exact .bind_same hE fun _ => .pure rfl
  | localFilter predicate predicate' =>
    cases above' with
    | none => exact .pure rfl
    | some name => exact fun _ => ⟨.error (hE _), rfl⟩

/-- Lists of stages that agree are taken up in step. -/
lemma Draft.inStep_foldlM {E : Error → Error → Prop} (hE : ∀ e, E e e)
    {stages stages' : List (Stage σ R)} {d d' : Draft σ} (hd : d.SameFrame d')
    (h : List.Forall₂ Stage.AgreesWith stages stages') :
    InStep SameFrame E (stages.foldlM visit d) (stages'.foldlM visit d') :=
  .foldlM h (fun _ _ _ _ hd hstage => inStep_visit hE hd hstage) hd

namespace Pipeline

/-- Pipelines whose stages agree in all but their conditions are compiled in step if the second pass
over the conditions is; what is not made of the conditions is the same in both queries. -/
theorem inStep_compile {registry registry' : FieldRegistry} {p p' : Pipeline σ R}
    {V : List Predicate → List Predicate → Prop} {E : Error → Error → Prop} (hE : ∀ e, E e e)
    (hstages : List.Forall₂ Stage.AgreesWith p.declared p'.declared)
    (hconditions : InStep V E (p.conditions.mapM (Expr.toPredicate registry))
      (p'.conditions.mapM (Expr.toPredicate registry'))) :
    InStep (fun q q' => ∃ filters, V q.filters filters ∧ q' = { q with filters }) E
      (p.compile registry) (p'.compile registry') := by
  have hfirst : InStep Draft.SameFrame E (p.newestFirst.foldlM Draft.visit {})
      (p'.newestFirst.foldlM Draft.visit {}) :=
    Draft.inStep_foldlM hE rfl (List.forall₂_reverse_iff.mp hstages)
  refine hfirst.bind_of_outcome fun s d d' s' hd hd' hframe => ?_
  rw [conditions_eq_of_outcome_foldlM hd, conditions_eq_of_outcome_foldlM hd']
  refine hconditions.bind fun filters filters' hfilters => .pure ⟨filters', hfilters, ?_⟩
  rw [← hframe]

end Pipeline

end IssueQuery
