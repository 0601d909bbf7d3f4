import IssueQuery.Proofs.Compilation.Recording

/-!
# The normal form of an expression

A folded expression is a normal form: its closed parts are constants, and it folds to itself.

What folding does is said here without the recursion of `Expr.fold`.  `Expr.FoldsTo` goes down from
the top of an expression.  A node that does not read the record is replaced, together with all that
is below it, by the constant that it evaluates to; such a node has only open nodes above it, so the
closed part is as large as possible.  A node that reads the record is kept (`Expr.SameNode`), and
its parts are treated in turn from left to right.  `Expr.outcome_fold_eq_ok_iff` says that this is
what folding does, and `Expr.fold_normalForm` what comes out.
-/

namespace IssueQuery.Expr

variable {σ : Type}

/-! ### The parts of an expression -/

/-- The direct parts of an expression, from left to right. -/
def parts : Expr σ → List (Expr σ)
  | field _ | constant _ | captured _ _ => []
  | indexer key => [key]
  | call _ args _ => args
  | convert inner | not inner => [inner]
  | binary _ left right => [left, right]

/-- An expression occurs in another one: it is the whole, or it occurs in a direct part. -/
def HasPart : Expr σ → Expr σ → Prop := Relation.ReflTransGen fun whole part => part ∈ whole.parts

/-- The parts are smaller, so that one can go by induction on them. -/
lemma sizeOf_lt_of_mem_parts {e part : Expr σ} (h : part ∈ e.parts) : sizeOf part < sizeOf e := by
  cases e with
  | field name => simp [parts] at h
  | constant v => simp [parts] at h
  | captured name read => simp [parts] at h
  | call name args apply =>
    have hmem : part ∈ args := h
    have hargs := List.sizeOf_lt_of_mem hmem
    simp only [call.sizeOf_spec]
    omega
  | binary op left right =>
    rcases List.mem_pair.mp h with rfl | rfl <;> simp only [binary.sizeOf_spec] <;> omega
  | indexer key => obtain rfl := List.mem_singleton.mp h; simp
  | convert inner => obtain rfl := List.mem_singleton.mp h; simp
  | not inner => obtain rfl := List.mem_singleton.mp h; simp

/-- What holds of an expression when it holds of its direct parts holds of every expression. -/
@[elab_as_elim]
theorem induction_on_parts {P : Expr σ → Prop} (e : Expr σ)
    (step : ∀ e, (∀ part ∈ e.parts, P part) → P e) : P e :=
  step e fun part hpart =>
    have := sizeOf_lt_of_mem_parts hpart
    induction_on_parts part step
termination_by sizeOf e

/-- The parts are recorded with the expression. -/
lemma parts_recorded (e : Expr σ) : e.recorded.parts = e.parts.map recorded := by
  cases e with
  | call name args apply => exact allRecorded_eq_map args
  | _ => rfl

/-! ### What folding does -/

/-- The second expression has the node of the first one at its top: the same kind of node with the
same name or operator and, for a call, the same function on as many arguments. -/
inductive SameNode : Expr σ → Expr σ → Prop where
  | field (name : String) : SameNode (field name) (field name)
  | indexer (key key' : Expr σ) : SameNode (indexer key) (indexer key')
  | call (name : String) (apply : List Value → HostAction σ) {args args' : List (Expr σ)} :
    args'.length = args.length → SameNode (call name args apply) (call name args' apply)
  | convert (inner inner' : Expr σ) : SameNode (convert inner) (convert inner')
  | not (inner inner' : Expr σ) : SameNode (not inner) (not inner')
  | binary (op : BinaryOp) (left right left' right' : Expr σ) :
    SameNode (binary op left right) (binary op left' right')

/-- From the top down to them, the largest closed parts of an expression are evaluated one after
another, and each is replaced by one constant with its value; all nodes above them are kept. -/
inductive FoldsTo : Expr σ → σ → Expr σ → σ → Prop where
  | evaluated {e : Expr σ} {v : Value} {host host' : σ} :
    e.dependsOnRecord = false → outcome e.evaluate host = (.ok v, host') →
      FoldsTo e host (constant v) host'
  | kept {e e' : Expr σ} {host host' : σ} :
    e.dependsOnRecord = true → SameNode e e' → Successively FoldsTo e.parts host e'.parts host' →
      FoldsTo e host e' host'

/-- A node with one part folds to the node around the folded part. -/
lemma outcome_map_fold_eq_ok_iff {node : Expr σ → Expr σ} {inner e' : Expr σ} {host host' : σ} :
    outcome (node <$> inner.fold) host = (.ok e', host') ↔ ∃ inner', e' = node inner' ∧
      Successively (fun e s e' s' => outcome e.fold s = (.ok e', s')) [inner] host [inner']
        host' := by
  rw [outcome_map_eq_ok_iff]
  constructor
  · rintro ⟨inner', hinner, rfl⟩
    exact ⟨inner', rfl, .cons hinner (.nil host')⟩
  · rintro ⟨_, rfl, hparts⟩
    obtain ⟨inner', hinner, hsame⟩ := successively_singleton_iff.mp hparts
    exact ⟨inner', hinner, by rw [List.head_eq_of_cons_eq hsame]⟩

/-- An expression that reads the record folds to the same node around its folded parts. -/
lemma outcome_fold_eq_ok_iff_of_open {e e' : Expr σ} {host host' : σ}
    (hopen : e.dependsOnRecord = true) :
    outcome e.fold host = (.ok e', host') ↔ SameNode e e' ∧
      Successively (fun e s e' s' => outcome e.fold s = (.ok e', s')) e.parts host e'.parts
        host' := by
  cases e with
  | field name =>
    simp only [fold, outcome_pure, Prod.mk.injEq, Except.ok.injEq]
    constructor
    · rintro ⟨rfl, rfl⟩
      exact ⟨.field name, .nil host⟩
    · rintro ⟨⟨⟩, hparts⟩
      exact ⟨rfl, (successively_nil_iff.mp hparts).2.symm⟩
  | indexer key =>
    rw [fold, outcome_map_fold_eq_ok_iff]
    constructor
    · rintro ⟨key', rfl, hparts⟩
      exact ⟨.indexer key key', hparts⟩
    · rintro ⟨⟨⟩, hparts⟩
      exact ⟨_, rfl, hparts⟩
  | constant v => simp [dependsOnRecord] at hopen
  | captured name read => simp [dependsOnRecord] at hopen
  | call name args apply =>
    rw [fold_call_of_open hopen, outcome_map_eq_ok_iff]
    constructor
    · rintro ⟨args', hargs, rfl⟩
      rw [outcome_foldAll_eq_ok_iff] at hargs
      exact ⟨.call name apply hargs.length_eq.symm, hargs⟩
    · rintro ⟨⟨⟩, hparts⟩
      exact ⟨_, outcome_foldAll_eq_ok_iff.mpr hparts, rfl⟩
  | convert inner =>
    have hreads : inner.dependsOnRecord = true := hopen
    rw [fold_convert_of_open hreads, outcome_map_fold_eq_ok_iff]
    constructor
    · rintro ⟨inner', rfl, hparts⟩
      exact ⟨.convert inner inner', hparts⟩
    · rintro ⟨⟨⟩, hparts⟩
      exact ⟨_, rfl, hparts⟩
  | not inner =>
    have hreads : inner.dependsOnRecord = true := hopen
    rw [fold_not_of_open hreads, outcome_map_fold_eq_ok_iff]
    constructor
    · rintro ⟨inner', rfl, hparts⟩
      exact ⟨.not inner inner', hparts⟩
    · rintro ⟨⟨⟩, hparts⟩
      exact ⟨_, rfl, hparts⟩
  | binary op left right =>
    rw [outcome_fold_binary_eq_ok_iff hopen]
    constructor
    · rintro ⟨left', right', s₁, hleft, hright, rfl⟩
      exact ⟨.binary op left right left' right', .cons hleft (.cons hright (.nil host'))⟩
    · rintro ⟨⟨⟩, ⟨⟩⟩
      rename_i left' right' s₁ hleft hrest
      obtain ⟨_, hright, hright'⟩ := successively_singleton_iff.mp hrest
      obtain rfl := List.head_eq_of_cons_eq hright'
      exact ⟨left', right', s₁, hleft, hright, rfl⟩

/-- Folding replaces the largest closed parts by their values and keeps all other nodes. -/
theorem outcome_fold_eq_ok_iff (e : Expr σ) {e' : Expr σ} {host host' : σ} :
    outcome e.fold host = (.ok e', host') ↔ FoldsTo e host e' host' := by
  induction e using induction_on_parts generalizing e' host host' with
  | step e ih =>
    by_cases hopen : e.dependsOnRecord = true
    · have hparts : Successively (fun e s e' s' => outcome e.fold s = (.ok e', s')) e.parts host
          e'.parts host' ↔ Successively FoldsTo e.parts host e'.parts host' :=
        successively_congr fun part hpart s part' s' => ih part hpart
      rw [outcome_fold_eq_ok_iff_of_open hopen, hparts]
      constructor
      · rintro ⟨hnode, hfolds⟩
        exact .kept hopen hnode hfolds
      · rintro (⟨hclosed, -⟩ | ⟨-, hnode, hfolds⟩)
        · simp [hclosed] at hopen
        · exact ⟨hnode, hfolds⟩
    · rw [Bool.not_eq_true] at hopen
      rw [fold_of_closed hopen, outcome_map_eq_ok_iff]
      constructor
      · rintro ⟨v, hvalue, rfl⟩
        exact .evaluated hopen hvalue
      · rintro (⟨-, hvalue⟩ | ⟨hreads, -, -⟩)
        · exact ⟨_, hvalue, rfl⟩
        · simp [hopen] at hreads

/-! ### Folding again -/

/-- Arguments are folded when each of them is. -/
lemma allFolded_iff {es : List (Expr σ)} : AllFolded es ↔ ∀ e ∈ es, e.IsFolded := by
  induction es with
  | nil => simp [AllFolded]
  | cons e es ih => simp [AllFolded, ih]

/-- An expression is folded when it is a constant or reads the record, and its parts are folded. -/
lemma isFolded_iff {e : Expr σ} :
    e.IsFolded ↔ (e.dependsOnRecord = false → ∃ v, e = constant v) ∧
      ∀ part ∈ e.parts, part.IsFolded := by
  cases e with
  | binary op left right =>
    cases hleft : left.dependsOnRecord <;> simp [IsFolded, dependsOnRecord, parts, hleft]
  | _ => simp [IsFolded, dependsOnRecord, parts, allFolded_iff]

/-- Whatever is inside of a folded expression is folded. -/
lemma IsFolded.of_hasPart {e part : Expr σ} (he : e.IsFolded) (hpart : e.HasPart part) :
    part.IsFolded := by
  induction hpart with
  | refl => exact he
  | tail _ hmem ih => exact (isFolded_iff.mp ih).2 _ hmem

/-- The actions of the host do not matter for whether an expression is folded. -/
lemma IsFolded.recorded {e : Expr σ} (he : e.IsFolded) : e.recorded.IsFolded := by
  induction e using induction_on_parts with
  | step e ih =>
    obtain ⟨hconstant, hparts⟩ := isFolded_iff.mp he
    refine isFolded_iff.mpr ⟨fun hclosed => ?_, fun part hpart => ?_⟩
    · rw [dependsOnRecord_recorded] at hclosed
      obtain ⟨v, rfl⟩ := hconstant hclosed
      exact ⟨v, rfl⟩
    · rw [parts_recorded] at hpart
      obtain ⟨part, hmem, rfl⟩ := List.mem_map.mp hpart
      exact ih part hmem (hparts part hmem)

/-- A folded expression folds to itself, and no action of the host is run. -/
lemma IsFolded.fold_eq {e : Expr σ} (he : e.IsFolded) : e.fold = pure e := by
  induction e using induction_on_parts with
  | step e ih =>
    obtain ⟨hconstant, hparts⟩ := isFolded_iff.mp he
    by_cases hopen : e.dependsOnRecord = true
    · refine eq_of_outcome fun host => ?_
      have hnode : SameNode e e := by
        cases e with
        | constant v => simp [dependsOnRecord] at hopen
        | captured name read => simp [dependsOnRecord] at hopen
        | call name args apply => exact .call name apply rfl
        | _ => constructor
      refine (outcome_fold_eq_ok_iff_of_open hopen).mpr ⟨hnode, successively_self ?_⟩
      intro part hpart s
      rw [ih part hpart (hparts part hpart), outcome_pure]
    · obtain ⟨v, rfl⟩ := hconstant (by simpa using hopen)
      rw [fold]

/-! ### The normal form -/

/-- What folding gives:

* No captured value is left in it, and each of its parts that does not read the record is a
  constant.
* It is the expression with its largest closed parts replaced by one constant each, which has the
  value of the part, and with all nodes that read the record.
* It reads the record exactly when the expression does.
* It folds to itself, and then no action of the host is run. -/
theorem fold_normalForm {e e' : Expr σ} {host host' : σ}
    (hfold : outcome e.fold host = (.ok e', host')) :
    (∀ part, e'.HasPart part → part.kind ≠ .captured) ∧
    (∀ part, e'.HasPart part → part.dependsOnRecord = false → ∃ v, part = constant v) ∧
    FoldsTo e host e' host' ∧
    e'.dependsOnRecord = e.dependsOnRecord ∧
    (∀ host₁, outcome e'.fold host₁ = (.ok e', host₁)) ∧
    ∀ r : Recorded σ, outcome e'.recorded.fold r = (.ok e'.recorded, r) := by
  obtain ⟨hfolded, hsame⟩ := isFolded_of_outcome_fold e hfold
  refine ⟨fun part hpart => ?_, fun part hpart => (hfolded.of_hasPart hpart).eq_constant,
    (outcome_fold_eq_ok_iff e).mp hfold, hsame, fun host₁ => ?_, fun r => ?_⟩
  · have hpartFolded := hfolded.of_hasPart hpart
    cases part with
    | captured name read => simp [IsFolded] at hpartFolded
    | _ => simp [kind]
  · rw [hfolded.fold_eq, outcome_pure]
  · rw [hfolded.recorded.fold_eq, outcome_pure]

/-- A call without arguments and a conversion are closed, and a call with one argument that reads
the record is not: `near(x.Summary, word(), Convert(<width>)) && !(x[<column>])`. -/
theorem fold_normalForm_mixed :
    let count : HostAction Nat := fun n => (.ok (.int (.ofNat n)), n + 1)
    let near : List Value → HostAction Nat := fun _ n => (.ok (.bool true), n + 1)
    let e : Expr Nat := binary .andAlso
      (call "near"
        [field "Summary", call "word" [] fun _ => count, convert (captured "width" count)] near)
      (not (indexer (captured "column" count)))
    let e' : Expr Nat := binary .andAlso
      (call "near" [field "Summary", constant (.int 0), constant (.int 1)] near)
      (not (indexer (constant (.int 2))))
    outcome e.fold 0 = (.ok e', 3) ∧ (∀ part, e'.HasPart part → part.kind ≠ .captured) ∧
      ∀ host, outcome e'.fold host = (.ok e', host) := by
  intro count near e e'
  have hfold : outcome e.fold 0 = (.ok e', 3) := rfl
  obtain ⟨hcaptured, -, -, -, hagain, -⟩ := fold_normalForm hfold
  exact ⟨hfold, hcaptured, hagain⟩

end IssueQuery.Expr
