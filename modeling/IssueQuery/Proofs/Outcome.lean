import IssueQuery.Compilation
import Mathlib

/-!
# Outcomes of computations

An `Evaluation` and a `Compilation` take a state to a result and the next state, their `outcome`.
The lemmas `outcome_bind_eq_ok_iff` and `outcome_bind_eq_error_iff` read the outcome of a composed
computation off the outcomes of its parts, so that later proofs never open the monad.

`Successively R as s bs s'` says that the elements of `as` are processed one after another, each
from the state that the one before it left, and that they give the elements of `bs`.  It is what
`mapM` does when nothing fails (`outcome_mapM_eq_ok_iff`).  For `foldlM` the induction is made once,
in `outcome_foldlM_preserves`: an invariant may speak of the elements that are taken up already.
-/

namespace IssueQuery

variable {ε σ α β : Type}

/-- What a computation comes to in a state: its result and the next state. -/
def outcome (x : ExceptT ε (StateM σ) α) (s : σ) : Except ε α × σ := x s

/-! ### Computations that cannot fail -/

/-- A composed computation goes on from where its first part has come to. -/
lemma run_bind_of_eq {x : StateM σ α} {f : α → StateM σ β} {a : α} {s s₁ : σ}
    (h : x.run s = (a, s₁)) : (x >>= f).run s = (f a).run s₁ := by
  change (f (x.run s).1).run (x.run s).2 = (f a).run s₁
  rw [h]

/-- Looking at the state does not change it. -/
lemma run_get_bind (f : σ → StateM σ β) (s : σ) : (get >>= f).run s = (f s).run s := rfl

/-! ### Composed results -/

/-- A composed result is a success exactly when both of its parts are. -/
lemma except_bind_eq_ok_iff {x : Except ε α} {f : α → Except ε β} {b : β} :
    (x >>= f) = .ok b ↔ ∃ a, x = .ok a ∧ f a = .ok b := by
  cases x <;> simp [bind, Except.bind]

/-- It is a failure when its first part is, or its second part after the first. -/
lemma except_bind_eq_error_iff {x : Except ε α} {f : α → Except ε β} {e : ε} :
    (x >>= f) = .error e ↔ x = .error e ∨ ∃ a, x = .ok a ∧ f a = .error e := by
  cases x <;> simp [bind, Except.bind]

/-- To wrap errors does not change what succeeds. -/
lemma except_mapError_eq_ok_iff {ε' : Type} {wrap : ε → ε'} {x : Except ε α} {a : α} :
    x.mapError wrap = .ok a ↔ x = .ok a := by
  cases x <;> simp [Except.mapError]

/-- A wrapped error is the error of the computation, wrapped. -/
lemma except_mapError_eq_error_iff {ε' : Type} {wrap : ε → ε'} {x : Except ε α} {e : ε'} :
    x.mapError wrap = .error e ↔ ∃ cause, x = .error cause ∧ e = wrap cause := by
  cases x <;> simp [Except.mapError, eq_comm]

/-- What a function of a result comes to is the function of what the result is. -/
lemma except_map_eq_ok_iff {g : α → β} {x : Except ε α} {b : β} :
    g <$> x = .ok b ↔ ∃ a, x = .ok a ∧ g a = b := by
  cases x <;> simp [Functor.map, Except.map]

/-! ### Composed computations -/

section Composition

variable {x : ExceptT ε (StateM σ) α} {f : α → ExceptT ε (StateM σ) β} {s s' : σ}

/-- A value is its own result, and the state stays. -/
@[simp] lemma outcome_pure (a : α) (s : σ) :
    outcome (pure a : ExceptT ε (StateM σ) α) s = (.ok a, s) := rfl

/-- An error is the result, and the state stays. -/
@[simp] lemma outcome_throw (e : ε) (s : σ) :
    outcome (throw e : ExceptT ε (StateM σ) α) s = (.error e, s) := rfl

/-- A result that needs no state leaves it as it is. -/
@[simp] lemma outcome_liftExcept (r : Except ε α) (s : σ) :
    outcome (liftExcept r : ExceptT ε (StateM σ) α) s = (r, s) := by
  cases r <;> rfl

/-- A composed computation goes on with the result of its first part or stops with its error. -/
lemma outcome_bind (x : ExceptT ε (StateM σ) α) (f : α → ExceptT ε (StateM σ) β) (s : σ) :
    outcome (x >>= f) s =
      match outcome x s with
      | (.ok a, s₁) => outcome (f a) s₁
      | (.error e, s₁) => (.error e, s₁) := by
  simp only [outcome, bind, ExceptT.bind, ExceptT.mk, StateT.bind]
  rcases x s with ⟨_ | a, s₁⟩ <;> rfl

/-- A composed computation succeeds exactly when both of its parts do. -/
lemma outcome_bind_eq_ok_iff {b : β} :
    outcome (x >>= f) s = (.ok b, s') ↔
      ∃ a s₁, outcome x s = (.ok a, s₁) ∧ outcome (f a) s₁ = (.ok b, s') := by
  rw [outcome_bind]
  rcases outcome x s with ⟨_ | a, s₁⟩ <;> simp [and_assoc]

/-- A composed computation fails in its first part, or in its second part after the first. -/
lemma outcome_bind_eq_error_iff {e : ε} :
    outcome (x >>= f) s = (.error e, s') ↔
      outcome x s = (.error e, s') ∨
        ∃ a s₁, outcome x s = (.ok a, s₁) ∧ outcome (f a) s₁ = (.error e, s') := by
  rw [outcome_bind]
  rcases outcome x s with ⟨_ | a, s₁⟩ <;> simp [and_assoc]

/-- Computations that come to the same in every state are the same. -/
lemma eq_of_outcome {x y : ExceptT ε (StateM σ) α} (h : ∀ s, outcome x s = outcome y s) : x = y :=
  funext h

/-- What follows a computation only matters for the results that it can have. -/
lemma bind_congr_of_outcome {g : α → ExceptT ε (StateM σ) β}
    (h : ∀ s a s', outcome x s = (.ok a, s') → f a = g a) : x >>= f = x >>= g := by
  refine eq_of_outcome fun s => ?_
  rw [outcome_bind, outcome_bind]
  rcases hx : outcome x s with ⟨_ | a, s₁⟩
  · rfl
  · simp only [h s a s₁ hx]

/-- A function of the result changes neither an error nor the next state. -/
lemma outcome_map (g : α → β) (x : ExceptT ε (StateM σ) α) (s : σ) :
    outcome (g <$> x) s = ((outcome x s).1.map g, (outcome x s).2) := by
  rw [map_eq_pure_bind, outcome_bind]
  rcases outcome x s with ⟨_ | a, s₁⟩ <;> rfl

/-- A function of a result is applied where the computation succeeds. -/
lemma outcome_map_eq_ok_iff {g : α → β} {b : β} :
    outcome (g <$> x) s = (.ok b, s') ↔ ∃ a, outcome x s = (.ok a, s') ∧ g a = b := by
  rw [outcome_map]
  rcases outcome x s with ⟨_ | a, s₁⟩ <;> simp [Except.map, and_assoc, and_comm]

/-- A function of a result does not change how the computation fails. -/
lemma outcome_map_eq_error_iff {g : α → β} {e : ε} :
    outcome (g <$> x) s = (.error e, s') ↔ outcome x s = (.error e, s') := by
  rw [outcome_map]
  rcases outcome x s with ⟨_ | a, s₁⟩ <;> simp [Except.map]

end Composition

/-! ### Errors of another kind -/

section Adaptation

variable {ε' : Type} (wrap : ε → ε')

/-- Only the errors become others. -/
lemma outcome_adapt (x : ExceptT ε (StateM σ) α) (s : σ) :
    outcome (ExceptT.adapt wrap x) s = ((outcome x s).1.mapError wrap, (outcome x s).2) := rfl

/-- A value has no error to wrap. -/
@[simp] lemma adapt_pure (a : α) :
    ExceptT.adapt wrap (pure a : ExceptT ε (StateM σ) α) = pure a := rfl

/-- The errors of two steps are wrapped in each of them. -/
@[simp] lemma adapt_bind (x : ExceptT ε (StateM σ) α) (f : α → ExceptT ε (StateM σ) β) :
    ExceptT.adapt wrap (x >>= f) = ExceptT.adapt wrap x >>= fun a => ExceptT.adapt wrap (f a) := by
  refine eq_of_outcome fun s => ?_
  rw [outcome_adapt, outcome_bind, outcome_bind, outcome_adapt]
  rcases outcome x s with ⟨_ | a, s₁⟩ <;> rfl

/-- The error of a result that needs no state is wrapped in the result. -/
@[simp] lemma adapt_liftExcept (r : Except ε α) :
    ExceptT.adapt wrap (liftExcept r : ExceptT ε (StateM σ) α) = liftExcept (r.mapError wrap) := by
  cases r <;> rfl

end Adaptation

/-! ### Pure computations -/

/-- A computation is pure when it leaves the state as it is.  Run again, it gives the same
result. -/
def IsPure (x : ExceptT ε (StateM σ) α) : Prop := ∀ s, (outcome x s).2 = s

section Purity

variable {x : ExceptT ε (StateM σ) α} {f : α → ExceptT ε (StateM σ) β}

/-- A value leaves the state as it is. -/
lemma isPure_pure (a : α) : IsPure (pure a : ExceptT ε (StateM σ) α) := fun _ => rfl

/-- An error leaves the state as it is. -/
lemma isPure_throw (e : ε) : IsPure (throw e : ExceptT ε (StateM σ) α) := fun _ => rfl

/-- A result that needs no state leaves it as it is. -/
lemma isPure_liftExcept (r : Except ε α) : IsPure (liftExcept r : ExceptT ε (StateM σ) α) :=
  fun s => by rw [outcome_liftExcept]

/-- Two steps that leave the state as it is do so one after the other. -/
lemma IsPure.bind (hx : IsPure x) (hf : ∀ a, IsPure (f a)) : IsPure (x >>= f) := by
  intro s
  have hs := hx s
  rw [outcome_bind]
  rcases hx' : outcome x s with ⟨_ | a, s₁⟩
  · rwa [hx'] at hs
  · rw [hx'] at hs
    exact (hf a s₁).trans hs

/-- A function of a result does not touch the state. -/
lemma IsPure.map (hx : IsPure x) (g : α → β) : IsPure (g <$> x) := by
  intro s
  rw [outcome_map]
  exact hx s

/-- The errors of a computation do not matter for what it leaves. -/
lemma IsPure.adapt {ε' : Type} (hx : IsPure x) (wrap : ε → ε') : IsPure (ExceptT.adapt wrap x) := by
  intro s
  rw [outcome_adapt]
  exact hx s

/-- After a pure computation the state is the one before it. -/
lemma IsPure.state_eq (hx : IsPure x) {r : Except ε α} {s s' : σ} (h : outcome x s = (r, s')) :
    s' = s := by
  have hs := hx s
  rwa [h] at hs

end Purity

/-! ### Parts of a compilation -/

section Parts

variable {c c' : Context σ}

/-- A context is what it holds. -/
lemma Context.eq_iff : c = c' ↔ c.host = c'.host ∧ c.log = c'.log := by
  cases c
  cases c'
  simp

/-- A note in the log is always made and leaves the host as it is. -/
@[simp] lemma outcome_note (event : LogEvent) (c : Context σ) :
    outcome (Compilation.note event) c = (.ok (), { c with log := c.log ++ [event] }) := rfl

/-- An evaluation within a compilation acts on the host only. -/
lemma outcome_ofEvaluation (e : Evaluation σ α) (c : Context σ) :
    outcome (Compilation.ofEvaluation e) c =
      ((outcome e c.host).1.mapError Error.evaluation,
        { c with host := (outcome e c.host).2 }) := rfl

/-- An evaluation inside of a compilation succeeds on the host and logs nothing. -/
lemma outcome_ofEvaluation_eq_ok_iff {e : Evaluation σ α} {a : α} :
    outcome (Compilation.ofEvaluation e) c = (.ok a, c') ↔
      outcome e c.host = (.ok a, c'.host) ∧ c'.log = c.log := by
  rw [outcome_ofEvaluation]
  rcases outcome e c.host with ⟨_ | b, host⟩
  · simp [Except.mapError]
  · simp [Except.mapError, Context.eq_iff, and_assoc, eq_comm]

/-- An evaluation inside of a compilation fails on the host, and its cause is wrapped. -/
lemma outcome_ofEvaluation_eq_error_iff {e : Evaluation σ α} {error : Error} :
    outcome (Compilation.ofEvaluation e) c = (.error error, c') ↔
      ∃ cause, error = .evaluation cause ∧ outcome e c.host = (.error cause, c'.host) ∧
        c'.log = c.log := by
  rw [outcome_ofEvaluation]
  rcases outcome e c.host with ⟨cause | b, host⟩
  · simp only [Except.mapError, Prod.mk.injEq, Except.error.injEq, Context.eq_iff]
    constructor
    · rintro ⟨rfl, hhost, hlog⟩
      exact ⟨cause, rfl, ⟨rfl, hhost⟩, hlog.symm⟩
    · rintro ⟨_, rfl, ⟨rfl, hhost⟩, hlog⟩
      exact ⟨rfl, hhost, hlog.symm⟩
  · simp [Except.mapError]

end Parts

/-! ### One after another -/

/-- The elements of a list are processed in their order, each from the state that the one before it
left, by steps that `R` allows. -/
inductive Successively (R : α → σ → β → σ → Prop) : List α → σ → List β → σ → Prop where
  | nil (s : σ) : Successively R [] s [] s
  | cons {a : α} {as : List α} {b : β} {bs : List β} {s s₁ s' : σ} :
    R a s b s₁ → Successively R as s₁ bs s' → Successively R (a :: as) s (b :: bs) s'

/-- Nothing done in succession gives nothing and keeps the state. -/
lemma successively_nil_iff {R : α → σ → β → σ → Prop} {bs : List β} {s s' : σ} :
    Successively R [] s bs s' ↔ bs = [] ∧ s' = s := by
  constructor
  · rintro ⟨⟩
    exact ⟨rfl, rfl⟩
  · rintro ⟨rfl, rfl⟩
    exact .nil s'

/-- One step in succession is that step. -/
lemma successively_singleton_iff {R : α → σ → β → σ → Prop} {a : α} {bs : List β} {s s' : σ} :
    Successively R [a] s bs s' ↔ ∃ b, R a s b s' ∧ bs = [b] := by
  constructor
  · rintro ⟨⟩
    rename_i b bs s₁ ha hnil
    obtain ⟨rfl, rfl⟩ := successively_nil_iff.mp hnil
    exact ⟨b, ha, rfl⟩
  · rintro ⟨b, ha, rfl⟩
    exact .cons ha (.nil s')

/-- There are as many results as elements; in particular there are none together. -/
lemma Successively.isEmpty_eq {R : α → σ → β → σ → Prop} {as : List α} {bs : List β} {s s' : σ}
    (h : Successively R as s bs s') : as.isEmpty = bs.isEmpty := by
  cases h <;> rfl

/-- There are as many results as elements. -/
lemma Successively.length_eq {R : α → σ → β → σ → Prop} {as : List α} {bs : List β} {s s' : σ}
    (h : Successively R as s bs s') : as.length = bs.length := by
  induction h with
  | nil s => rfl
  | cons _ _ ih => rw [List.length_cons, ih, List.length_cons]

/-- Only what the steps do on the elements of the list matters. -/
lemma Successively.imp {R R' : α → σ → β → σ → Prop} {as : List α} {bs : List β} {s s' : σ}
    (h : Successively R as s bs s') (hR : ∀ a ∈ as, ∀ s b s', R a s b s' → R' a s b s') :
    Successively R' as s bs s' := by
  induction h with
  | nil s => exact .nil s
  | cons hfirst _ ih =>
    have hrest := ih fun a ha => hR a (List.mem_cons_of_mem _ ha)
    exact .cons (hR _ List.mem_cons_self _ _ _ hfirst) hrest

/-- Only what the steps do on the listed elements counts. -/
lemma successively_congr {R R' : α → σ → β → σ → Prop} {as : List α} {bs : List β} {s s' : σ}
    (hR : ∀ a ∈ as, ∀ s b s', R a s b s' ↔ R' a s b s') :
    Successively R as s bs s' ↔ Successively R' as s bs s' :=
  ⟨fun h => h.imp fun a ha s b s' => (hR a ha s b s').mp,
    fun h => h.imp fun a ha s b s' => (hR a ha s b s').mpr⟩

/-- Elements that give themselves and leave every state as it is do so together. -/
lemma successively_self {R : α → σ → α → σ → Prop} {as : List α} {s : σ}
    (hR : ∀ a ∈ as, ∀ s, R a s a s) : Successively R as s as s := by
  induction as with
  | nil => exact .nil s
  | cons a as ih =>
    exact .cons (hR a List.mem_cons_self s) (ih fun b hb => hR b (List.mem_cons_of_mem _ hb))

/-- What each step gives can be read in another way. -/
lemma Successively.map {γ : Type} {R : α → σ → β → σ → Prop} {R' : α → σ → γ → σ → Prop}
    {as : List α} {bs : List β} {s s' : σ} (f : β → γ)
    (hf : ∀ a s b s', R a s b s' → R' a s (f b) s') (h : Successively R as s bs s') :
    Successively R' as s (bs.map f) s' := by
  induction h with
  | nil s => exact .nil s
  | cons hfirst _ ih => exact .cons (hf _ _ _ _ hfirst) ih

/-- Two lists are processed one after the other. -/
lemma Successively.append {R : α → σ → β → σ → Prop} {as as' : List α} {bs bs' : List β}
    {s s₁ s' : σ} (h : Successively R as s bs s₁) (h' : Successively R as' s₁ bs' s') :
    Successively R (as ++ as') s (bs ++ bs') s' := by
  induction h with
  | nil s => exact h'
  | cons hfirst _ ih => exact .cons hfirst (ih h')

/-- Around one of the elements the others are processed before it and after it. -/
lemma Successively.exists_of_append_cons {R : α → σ → β → σ → Prop} {as as' : List α} {a : α}
    {bs : List β} {s s' : σ} (h : Successively R (as ++ a :: as') s bs s') :
    ∃ bs₁ b bs₂ s₁ s₂, bs = bs₁ ++ b :: bs₂ ∧ Successively R as s bs₁ s₁ ∧ R a s₁ b s₂ ∧
      Successively R as' s₂ bs₂ s' := by
  induction as generalizing bs s with
  | nil =>
    rcases h with _ | ⟨ha, hrest⟩
    exact ⟨[], _, _, s, _, rfl, .nil s, ha, hrest⟩
  | cons x as ih =>
    rcases h with _ | ⟨hx, hrest⟩
    obtain ⟨bs₁, b, bs₂, s₁, s₂, rfl, hbefore, ha, hafter⟩ := ih hrest
    exact ⟨_ :: bs₁, b, bs₂, s₁, s₂, rfl, .cons hx hbefore, ha, hafter⟩

/-- A traversal succeeds exactly when its steps do, one after another. -/
lemma outcome_mapM_eq_ok_iff {f : α → ExceptT ε (StateM σ) β} {as : List α} {bs : List β}
    {s s' : σ} :
    outcome (as.mapM f) s = (.ok bs, s') ↔
      Successively (fun a s b s' => outcome (f a) s = (.ok b, s')) as s bs s' := by
  induction as generalizing bs s with
  | nil =>
    rw [List.mapM_nil, outcome_pure]
    constructor
    · rintro ⟨⟩
      exact .nil s'
    · rintro ⟨⟩
      rfl
  | cons a as ih =>
    simp only [List.mapM_cons, outcome_bind_eq_ok_iff, outcome_pure, Prod.mk.injEq, Except.ok.injEq]
    constructor
    · rintro ⟨b, s₁, ha, bs, s₂, has, rfl, rfl⟩
      exact .cons ha (ih.mp has)
    · rintro ⟨⟩
      rename_i b bs s₁ ha has
      exact ⟨b, s₁, ha, bs, s', ih.mpr has, rfl, rfl⟩

/-- Steps that leave the state as it is leave it as it is together. -/
lemma Successively.state_eq {R : α → σ → β → σ → Prop} {as : List α} {bs : List β} {s s' : σ}
    (h : Successively R as s bs s') (hR : ∀ a ∈ as, ∀ s b s', R a s b s' → s' = s) : s' = s := by
  induction h with
  | nil s => rfl
  | cons hfirst _ ih =>
    have hrest := ih fun a ha => hR a (List.mem_cons_of_mem _ ha)
    exact hrest.trans (hR _ List.mem_cons_self _ _ _ hfirst)

/-- Steps that leave the state as it is are all taken from the first state. -/
lemma Successively.exists_of_state_eq {R : α → σ → β → σ → Prop} {as : List α} {bs : List β}
    {s s' : σ} (h : Successively R as s bs s') (hR : ∀ a ∈ as, ∀ s b s', R a s b s' → s' = s) :
    ∀ a ∈ as, ∃ b, R a s b s := by
  induction h with
  | nil s => nofun
  | @cons a as b bs s s₁ s' hfirst _ ih =>
    obtain rfl : s₁ = s := hR a List.mem_cons_self _ _ _ hfirst
    intro x hx
    rcases List.mem_cons.mp hx with rfl | hx
    · exact ⟨b, hfirst⟩
    · exact ih (fun y hy => hR y (List.mem_cons_of_mem _ hy)) x hx

/-! ### Left folds -/

/-- What every step of a left fold keeps, with one more element taken up, the whole fold keeps. -/
lemma outcome_foldlM_preserves {P : List α → β → σ → Prop} {f : β → α → ExceptT ε (StateM σ) β}
    (hstep : ∀ taken a b s b' s', P taken b s → outcome (f b a) s = (.ok b', s') →
      P (taken ++ [a]) b' s')
    {taken as : List α} {b b' : β} {s s' : σ} (hbegin : P taken b s)
    (h : outcome (as.foldlM f b) s = (.ok b', s')) : P (taken ++ as) b' s' := by
  induction as generalizing taken b s with
  | nil =>
    rw [List.foldlM_nil, outcome_pure, Prod.mk.injEq, Except.ok.injEq] at h
    obtain ⟨rfl, rfl⟩ := h
    rwa [List.append_nil]
  | cons a as ih =>
    rw [List.foldlM_cons, outcome_bind_eq_ok_iff] at h
    obtain ⟨b₁, s₁, ha, hrest⟩ := h
    have hnext := hstep taken a b s b₁ s₁ hbegin ha
    simpa using ih hnext hrest

/-! ### The first failure -/

/-- A traversal that fails succeeds up to some element and fails there. -/
lemma outcome_mapM_eq_error {f : α → ExceptT ε (StateM σ) β} {as : List α} {e : ε} {s s' : σ}
    (h : outcome (as.mapM f) s = (.error e, s')) :
    ∃ before a after bs s₁, as = before ++ a :: after ∧
      outcome (before.mapM f) s = (.ok bs, s₁) ∧ outcome (f a) s₁ = (.error e, s') := by
  induction as generalizing s with
  | nil => simp at h
  | cons a as ih =>
    rw [List.mapM_cons, outcome_bind_eq_error_iff] at h
    rcases h with ha | ⟨b, s₁, ha, hrest⟩
    · exact ⟨[], a, as, [], s, rfl, rfl, ha⟩
    · have has : outcome (as.mapM f) s₁ = (.error e, s') := by
        simpa [outcome_map_eq_error_iff] using hrest
      obtain ⟨before, x, after, bs, s₂, rfl, hbefore, hx⟩ := ih has
      refine ⟨a :: before, x, after, b :: bs, s₂, rfl, ?_, hx⟩
      rw [outcome_mapM_eq_ok_iff] at hbefore ⊢
      exact .cons ha hbefore

/-- A left fold that fails succeeds up to some element and fails there. -/
lemma outcome_foldlM_eq_error {f : β → α → ExceptT ε (StateM σ) β} {as : List α} {b : β} {e : ε}
    {s s' : σ} (h : outcome (as.foldlM f b) s = (.error e, s')) :
    ∃ before a after b₁ s₁, as = before ++ a :: after ∧
      outcome (before.foldlM f b) s = (.ok b₁, s₁) ∧ outcome (f b₁ a) s₁ = (.error e, s') := by
  induction as generalizing b s with
  | nil => simp at h
  | cons a as ih =>
    rw [List.foldlM_cons, outcome_bind_eq_error_iff] at h
    rcases h with ha | ⟨b₁, s₁, ha, hrest⟩
    · exact ⟨[], a, as, b, s, rfl, rfl, ha⟩
    · obtain ⟨before, x, after, b₂, s₂, rfl, hbefore, hx⟩ := ih hrest
      refine ⟨a :: before, x, after, b₂, s₂, rfl, ?_, hx⟩
      rw [List.foldlM_cons, outcome_bind_eq_ok_iff]
      exact ⟨b₁, s₁, ha, hbefore⟩

/-- A left fold that succeeds succeeds at each element after all those before it. -/
lemma outcome_foldlM_append_cons_eq_ok {f : β → α → ExceptT ε (StateM σ) β} {before after : List α}
    {a : α} {b b' : β} {s s' : σ}
    (h : outcome ((before ++ a :: after).foldlM f b) s = (.ok b', s')) :
    ∃ b₁ s₁ b₂ s₂, outcome (before.foldlM f b) s = (.ok b₁, s₁) ∧
      outcome (f b₁ a) s₁ = (.ok b₂, s₂) := by
  rw [List.foldlM_append, outcome_bind_eq_ok_iff] at h
  obtain ⟨b₁, s₁, hbefore, hrest⟩ := h
  rw [List.foldlM_cons, outcome_bind_eq_ok_iff] at hrest
  obtain ⟨b₂, s₂, ha, -⟩ := hrest
  exact ⟨b₁, s₁, b₂, s₂, hbefore, ha⟩

end IssueQuery
