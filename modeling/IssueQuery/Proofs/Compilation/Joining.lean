import IssueQuery.Proofs.Compilation.CustomFields
import IssueQuery.Proofs.Compilation.Exchange

/-!
# Two conditions as one

Two conditions that are declared one right after the other say the same as their conjunction in one
stage.  `Pipeline.toDirective_join` is the law: with the two stages a pipeline is compiled exactly
when it is with the one, and the two directives only differ in that the predicates stand side by
side in the one and are joined in parentheses in the other.

A closed condition is never compiled, whether it stands alone or in a conjunction, so nothing has to
be supposed about the conditions.  The actions of the host run in the same order in both forms as
long as nothing fails.
-/

namespace IssueQuery

variable {σ R : Type} {registry : FieldRegistry} {a b : Expr σ}

/-! ### One condition -/

/-- A conjunction is translated exactly when its sides are, one after the other. -/
lemma translatesTo_and_iff {host host' : σ} {predicate : Predicate} :
    TranslatesTo registry (.binary .andAlso a b) host predicate host' ↔
      ∃ l host₁ r, TranslatesTo registry a host l host₁ ∧ TranslatesTo registry b host₁ r host' ∧
        predicate = .and l r := by
  have hand : BinaryOp.andAlso.isConnective = true := rfl
  simp only [translatesTo_binary_iff, Predicate.ofExpr_connective_eq_ok_iff hand]
  constructor
  · rintro ⟨a', host₁, b', ha, hb, l, r, hl, hr, rfl⟩
    exact ⟨l, host₁, r, ⟨a', ha, hl⟩, ⟨b', hb, hr⟩, rfl⟩
  · rintro ⟨l, host₁, r, ⟨a', ha, hl⟩, ⟨b', hb, hr⟩, rfl⟩
    exact ⟨a', host₁, b', ha, hb, l, r, hl, hr, rfl⟩

/-- A conjunction is compiled exactly when its sides are, one after the other. -/
lemma outcome_toPredicate_and_eq_ok_iff {c c' : Context σ} {predicate : Predicate} :
    outcome ((Expr.binary .andAlso a b).toPredicate registry) c = (.ok predicate, c') ↔
      ∃ l c₁ r, outcome (a.toPredicate registry) c = (.ok l, c₁) ∧
        outcome (b.toPredicate registry) c₁ = (.ok r, c') ∧ predicate = .and l r := by
  simp only [Expr.outcome_toPredicate_eq_ok_iff, translatesTo_and_iff]
  constructor
  · rintro ⟨⟨l, host₁, r, hl, hr, rfl⟩, hlog⟩
    exact ⟨l, ⟨host₁, c.log⟩, r, ⟨hl, rfl⟩, ⟨hr, hlog⟩, rfl⟩
  · rintro ⟨l, c₁, r, ⟨hl, hlog⟩, ⟨hr, hlog'⟩, rfl⟩
    exact ⟨⟨l, c₁.host, r, hl, hr, rfl⟩, hlog'.trans hlog⟩

/-! ### All conditions -/

/-- The second predicates are the first with the one of `a` and the one of `b`, which stand behind
`n` others, joined to one. -/
inductive Predicate.Joins (registry : FieldRegistry) (a b : Expr σ) (n : Nat) :
    List Predicate → List Predicate → Prop where
  | mk {before after : List Predicate} {l r : Predicate} {host host₁ host₂ : σ} :
    before.length = n → TranslatesTo registry a host l host₁ →
      TranslatesTo registry b host₁ r host₂ →
        Joins registry a b n (before ++ l :: r :: after) (before ++ .and l r :: after)

variable {before after : List (Expr σ)} {predicates : List Predicate} {c c' : Context σ}

/-- Two conditions one after the other that are compiled can be joined. -/
lemma outcome_mapM_join
    (h : outcome ((before ++ a :: b :: after).mapM (Expr.toPredicate registry)) c =
      (.ok predicates, c')) :
    ∃ joined, Predicate.Joins registry a b before.length predicates joined ∧
      outcome ((before ++ .binary .andAlso a b :: after).mapM (Expr.toPredicate registry)) c =
        (.ok joined, c') := by
  rw [outcome_mapM_eq_ok_iff] at h
  obtain ⟨earlier, l, _, c₁, c₂, rfl, hbefore, hl, hrest⟩ := h.exists_of_append_cons
  cases hrest with
  | @cons _ _ r later _ c₃ _ hr hafter =>
    have hfirst := (Expr.outcome_toPredicate_eq_ok_iff.mp hl).1
    have hsecond := (Expr.outcome_toPredicate_eq_ok_iff.mp hr).1
    have hboth := outcome_toPredicate_and_eq_ok_iff.mpr ⟨l, c₂, r, hl, hr, rfl⟩
    exact ⟨_, .mk hbefore.length_eq.symm hfirst hsecond,
      outcome_mapM_eq_ok_iff.mpr (hbefore.append (.cons hboth hafter))⟩

/-- A conjunction that is compiled can be split. -/
lemma outcome_mapM_split
    (h : outcome ((before ++ .binary .andAlso a b :: after).mapM (Expr.toPredicate registry)) c =
      (.ok predicates, c')) :
    ∃ split, Predicate.Joins registry a b before.length split predicates ∧
      outcome ((before ++ a :: b :: after).mapM (Expr.toPredicate registry)) c =
        (.ok split, c') := by
  rw [outcome_mapM_eq_ok_iff] at h
  obtain ⟨earlier, _, later, c₁, c₃, rfl, hbefore, hboth, hafter⟩ := h.exists_of_append_cons
  obtain ⟨l, c₂, r, hl, hr, rfl⟩ := outcome_toPredicate_and_eq_ok_iff.mp hboth
  have hfirst := (Expr.outcome_toPredicate_eq_ok_iff.mp hl).1
  have hsecond := (Expr.outcome_toPredicate_eq_ok_iff.mp hr).1
  exact ⟨_, .mk hbefore.length_eq.symm hfirst hsecond,
    outcome_mapM_eq_ok_iff.mpr (hbefore.append (.cons hl (.cons hr hafter)))⟩

/-- Joined predicates name the same fields. -/
lemma Predicate.Joins.dynamicNames_eq {n : Nat} {joined : List Predicate}
    (h : Joins registry a b n predicates joined) :
    (joined.map dynamicNames).flatten = (predicates.map dynamicNames).flatten := by
  cases h with
  | mk _ _ _ =>
    simp

/-! ### Pipelines -/

namespace Pipeline

variable (earlier later : List (Stage σ R))

variable (a b) in
/-- The first pass takes up two conditions like their conjunction. -/
lemma inStep_foldlM_join :
    InStep Draft.SameFrame Eq
      ((ofDeclared (earlier ++ .filter a :: .filter b :: later)).newestFirst.foldlM Draft.visit {})
      ((ofDeclared (earlier ++ .filter (.binary .andAlso a b) :: later)).newestFirst.foldlM
        Draft.visit {}) := by
  simp only [ofDeclared, List.reverse_append, List.reverse_cons, List.append_assoc,
    List.foldlM_append, List.singleton_append, List.foldlM_cons, Draft.visit, pure_bind]
  refine .bind_same (fun _ => rfl) fun draft => ?_
  exact Draft.inStep_foldlM (fun _ => rfl) rfl (Stage.AgreesWith.refl_all earlier.reverse)

/-- The conditions around two of them, in the order of their declaration. -/
lemma conditions_ofDeclared_append_two :
    (ofDeclared (earlier ++ .filter a :: .filter b :: later)).conditions =
      earlier.filterMap Stage.condition? ++ a :: b :: later.filterMap Stage.condition? := by
  rw [conditions_ofDeclared_append, List.filterMap_cons]
  rfl

variable {earlier later} {q : CompiledQuery}

/-- A pipeline with two conditions that is compiled is so with their conjunction. -/
lemma outcome_compile_join
    (h : outcome ((ofDeclared (earlier ++ .filter a :: .filter b :: later)).compile registry) c =
      (.ok q, c')) :
    ∃ joined, Predicate.Joins registry a b (earlier.filterMap Stage.condition?).length
        q.filters joined ∧
      outcome ((ofDeclared (earlier ++ .filter (.binary .andAlso a b) :: later)).compile
        registry) c = (.ok { q with filters := joined }, c') := by
  obtain ⟨draft, c₁, predicates, hfirst, hsecond, rfl⟩ := outcome_compile_eq_ok_iff.mp h
  obtain ⟨draft', hfirst', hframe⟩ := (inStep_foldlM_join a b earlier later).exists_ok_right hfirst
  rw [conditions_eq_of_outcome_foldlM hfirst, conditions_ofDeclared_append_two] at hsecond
  obtain ⟨joined, hjoins, hsecond'⟩ := outcome_mapM_join hsecond
  rw [← conditions_ofDeclared_append, ← conditions_eq_of_outcome_foldlM hfirst'] at hsecond'
  refine ⟨joined, hjoins, outcome_compile_eq_ok_iff.mpr ⟨draft', c₁, joined, hfirst', hsecond', ?_⟩⟩
  rw [← hframe]

/-- A pipeline with a conjunction that is compiled is so with its two sides. -/
lemma outcome_compile_split
    (h : outcome ((ofDeclared (earlier ++ .filter (.binary .andAlso a b) :: later)).compile
      registry) c = (.ok q, c')) :
    ∃ split, Predicate.Joins registry a b (earlier.filterMap Stage.condition?).length
        split q.filters ∧
      outcome ((ofDeclared (earlier ++ .filter a :: .filter b :: later)).compile registry) c =
        (.ok { q with filters := split }, c') := by
  obtain ⟨draft, c₁, predicates, hfirst, hsecond, rfl⟩ := outcome_compile_eq_ok_iff.mp h
  obtain ⟨draft', hfirst', hframe⟩ := (inStep_foldlM_join a b earlier later).exists_ok_left hfirst
  rw [conditions_eq_of_outcome_foldlM hfirst, conditions_ofDeclared_append] at hsecond
  obtain ⟨split, hjoins, hsecond'⟩ := outcome_mapM_split hsecond
  rw [← conditions_ofDeclared_append_two, ← conditions_eq_of_outcome_foldlM hfirst'] at hsecond'
  refine ⟨split, hjoins, outcome_compile_eq_ok_iff.mpr ⟨draft', c₁, split, hfirst', hsecond', ?_⟩⟩
  rw [← hframe]

/-- With two conditions that are declared one after the other a pipeline is compiled exactly when it
is with their conjunction.  Both forms leave the same context behind, and the two directives differ
in nothing but the text of the condition: where the one has the texts of the two predicates side by
side, the other has both in parentheses, joined by `and`. -/
theorem toDirective_join (registry : FieldRegistry) (a b : Expr σ)
    (earlier later : List (Stage σ R)) (c : Context σ) :
    ((∃ d c', outcome ((ofDeclared (earlier ++ .filter a :: .filter b :: later)).toDirective
        registry) c = (.ok d, c')) ↔
      ∃ d c', outcome ((ofDeclared (earlier ++ .filter (.binary .andAlso a b) :: later)).toDirective
        registry) c = (.ok d, c')) ∧
    ∀ d c₁ d' c₂,
      outcome ((ofDeclared (earlier ++ .filter a :: .filter b :: later)).toDirective registry) c =
        (.ok d, c₁) →
      outcome ((ofDeclared (earlier ++ .filter (.binary .andAlso a b) :: later)).toDirective
        registry) c = (.ok d', c₂) →
      c₂ = c₁ ∧ ∃ (before after : List Predicate) (l r : Predicate) (host host₁ host₂ : σ),
        before.length = (earlier.filterMap Stage.condition?).length ∧
        TranslatesTo registry a host l host₁ ∧ TranslatesTo registry b host₁ r host₂ ∧
        d.filterText = String.intercalate " and "
          (before.map Predicate.jql ++ l.jql :: r.jql :: after.map Predicate.jql) ∧
        d'.filterText = String.intercalate " and "
          (before.map Predicate.jql ++ ("(" ++ l.jql ++ " and " ++ r.jql ++ ")") ::
            after.map Predicate.jql) ∧
        d' = { d with filterText := d'.filterText } := by
  refine ⟨⟨?_, ?_⟩, ?_⟩
  · rintro ⟨d, c', h⟩
    obtain ⟨q, hq, -⟩ := outcome_toDirective_eq_ok_iff.mp h
    obtain ⟨joined, -, hjoined⟩ := outcome_compile_join hq
    exact ⟨_, c', outcome_toDirective_eq_ok_iff.mpr ⟨_, hjoined, rfl⟩⟩
  · rintro ⟨d, c', h⟩
    obtain ⟨q, hq, -⟩ := outcome_toDirective_eq_ok_iff.mp h
    obtain ⟨split, -, hsplit⟩ := outcome_compile_split hq
    exact ⟨_, c', outcome_toDirective_eq_ok_iff.mpr ⟨_, hsplit, rfl⟩⟩
  · intro d c₁ d' c₂ h h'
    -- The second directive is the one that the first pipeline gives when it is joined.
    obtain ⟨q, hq, rfl⟩ := outcome_toDirective_eq_ok_iff.mp h
    obtain ⟨joined, hjoins, hjoined⟩ := outcome_compile_join hq
    rw [outcome_toDirective_eq_ok_iff.mpr ⟨_, hjoined, rfl⟩] at h'
    cases h'
    have hdirective := CompiledQuery.directive_withFilters hjoins.dynamicNames_eq
    obtain ⟨filters, orderClauses, maxResults, startAt⟩ := q
    cases hjoins with
    | @mk before after l r host host₁ host₂ hlength hl hr =>
      refine ⟨rfl, before, after, l, r, host, host₁, host₂, hlength, hl, hr, ?_, ?_, hdirective⟩
      · simp [CompiledQuery.directive, CompiledQuery.filterText]
      · simp [CompiledQuery.directive, CompiledQuery.filterText, Predicate.jql]

/-- Records with many votes. -/
def manyVotesSample : Expr Unit := .binary .greaterThan (.field "Votes") (.constant (.int 3))

/-- Records of one team. -/
def coreTeamSample : Expr Unit :=
  .binary .equal (.indexer (.constant (.text "Team"))) (.constant (.text "core"))

/-- Two conditions of the sample joined to one, and a closed condition that can neither be joined
nor stand alone. -/
theorem toDirective_join_votesTeam :
    (∃ d, outcome ((ofDeclared ([] ++ .filter manyVotesSample :: .filter coreTeamSample ::
        [.take 5]) : Pipeline Unit Unit).toDirective .issue) ⟨(), []⟩ = (.ok d, ⟨(), []⟩) ∧
      ⟨"(Votes > 3 and \"Team\" ~ \"core\")", [], some 5, none, ["Team"]⟩ =
        { d with filterText := "(Votes > 3 and \"Team\" ~ \"core\")" }) ∧
    ¬ ∃ d c', outcome ((ofDeclared ([] ++ .filter (.binary .andAlso manyVotesSample
      (.constant (.bool true))) :: [.take 5]) : Pipeline Unit Unit).toDirective .issue)
        ⟨(), []⟩ = (.ok d, c') := by
  have hboth : outcome ((ofDeclared ([] ++ .filter (.binary .andAlso manyVotesSample
      coreTeamSample) :: [.take 5]) : Pipeline Unit Unit).toDirective .issue) ⟨(), []⟩ =
      (.ok ⟨"(Votes > 3 and \"Team\" ~ \"core\")", [], some 5, none, ["Team"]⟩, ⟨(), []⟩) := by
    cbv
  have hclosed : outcome ((ofDeclared ([] ++ .filter manyVotesSample ::
      .filter (.constant (.bool true)) :: [.take 5]) : Pipeline Unit Unit).toDirective .issue)
      ⟨(), []⟩ = (.error (.notSupported "Constant"), ⟨(), []⟩) := by
    cbv
  obtain ⟨hiff, hsame⟩ := toDirective_join (R := Unit) .issue manyVotesSample coreTeamSample []
    [.take 5] ⟨(), []⟩
  obtain ⟨hiff', -⟩ := toDirective_join (R := Unit) .issue manyVotesSample
    (.constant (.bool true)) [] [.take 5] ⟨(), []⟩
  constructor
  · obtain ⟨d, c', h⟩ := hiff.mpr ⟨_, _, hboth⟩
    obtain ⟨rfl, _, _, _, _, _, _, _, -, -, -, -, -, hd⟩ := hsame _ _ _ _ h hboth
    exact ⟨d, h, hd⟩
  · rw [← hiff', hclosed]
    rintro ⟨d, c', ⟨⟩⟩

end Pipeline

end IssueQuery
