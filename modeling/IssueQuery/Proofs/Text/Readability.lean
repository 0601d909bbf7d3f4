import IssueQuery.Proofs.Text.Lexemes

/-!
# Unique readability

A query can be read in one way only.  When names are made of word characters and no text has a
double quote, two queries with the same text have the same predicates, up to how their literals are
written, and the same ordering (`CompiledQuery.jql_uniquely_readable`).

The proof reads both texts from the left.  A predicate is followed by nothing, by a blank or by a
closing parenthesis, and two predicates that begin two equal texts are the same and leave the same
rest (`Predicate.readsAs`, by induction over both trees).  What separates two predicates is not how
an ordering begins, so the same holds for lists of them (`read_intercalate`).
-/

namespace IssueQuery

/-! ### Predicates -/

/-- The field and the operand of the comparison can be read. -/
def Comparison.IsReadable (c : Comparison) : Prop := c.field.IsReadable ∧ c.operand.IsReadable

/-- The same field and operator, and operands with the same text. -/
structure Comparison.SameText (c c' : Comparison) : Prop where
  field : c.field = c'.field
  operator : c.operator = c'.operator
  operand : c.operand.text = c'.operand.text

namespace Predicate

/-- All comparisons of the predicate can be read. -/
def IsReadable (p : Predicate) : Prop := ∀ c ∈ p.comparisons, c.IsReadable

/-- The same tree of connectives over comparisons with the same text. -/
inductive SameText : Predicate → Predicate → Prop where
  | comparison {c c' : Comparison} : c.SameText c' → SameText (.comparison c) (.comparison c')
  | and {l l' r r' : Predicate} : SameText l l' → SameText r r' → SameText (.and l r) (.and l' r')
  | or {l l' r r' : Predicate} : SameText l l' → SameText r r' → SameText (.or l r) (.or l' r')

end Predicate

/-- An operand does not make `is` into `is not`. -/
lemma Operand.append_ne_not {operand : Operand} (h : operand.IsReadable) {r : List Char}
    (hr : Stops r) (cs : List Char) :
    operand.text.toList ++ r ≠ 'n' :: 'o' :: 't' :: ' ' :: cs := by
  intro heq
  have hnot : IsLexeme ['n', 'o', 't'] := .word (by decide)
  have hread : operand.text.toList = ['n', 'o', 't'] ∧ r = ' ' :: cs :=
    (isLexeme_text h).read hnot hr (.blank cs) heq
  exact operand.text_ne_not hread.1

namespace Comparison

variable {c c' : Comparison} {r r' : List Char}

/-- A comparison is its field, its operator and its operand, with blanks between them. -/
lemma text_append (c : Comparison) (r : List Char) :
    c.text.toList ++ r = c.field.text.toList ++
      ' ' :: (c.operator.text.toList ++ ' ' :: (c.operand.text.toList ++ r)) := by
  simp [text, String.toList_append]

/-- Two comparisons that begin two equal texts are the same and leave the same rest. -/
lemma read (hc : c.IsReadable) (hc' : c'.IsReadable) (hr : Stops r) (hr' : Stops r')
    (h : c.text.toList ++ r = c'.text.toList ++ r') : c.SameText c' ∧ r = r' := by
  rw [text_append, text_append] at h
  obtain ⟨hfield, h⟩ := (FieldRef.isLexeme_text hc.1).read (FieldRef.isLexeme_text hc'.1)
    (.blank _) (.blank _) h
  obtain ⟨hoperator, h⟩ := Operator.read (Operand.append_ne_not hc.2 hr)
    (Operand.append_ne_not hc'.2 hr') (List.cons.inj h).2
  obtain ⟨hoperand, h⟩ := (Operand.isLexeme_text hc.2).read (Operand.isLexeme_text hc'.2) hr hr' h
  exact ⟨⟨FieldRef.eq_of_text_eq hc.1 hc'.1 hfield, hoperator, String.toList_inj.mp hoperand⟩, h⟩

/-- A comparison begins with its field, and so neither with a blank nor with a parenthesis. -/
lemma exists_text_eq_cons (hc : c.IsReadable) :
    ∃ d ds, c.text.toList = d :: ds ∧ d ≠ ' ' ∧ d ≠ '(' := by
  obtain ⟨d, ds, hfield, hd⟩ := FieldRef.exists_text_eq_cons hc.1
  have htext := c.text_append []
  rw [List.append_nil, hfield] at htext
  exact ⟨d, _, htext, hd⟩

end Comparison

namespace Predicate

variable {p p' l l' q q' : Predicate} {r r' : List Char}

/-- The text of two predicates with a word between them, in parentheses. -/
def group (l : Predicate) (word : List Char) (q : Predicate) : List Char :=
  '(' :: (l.jql.toList ++ ' ' :: (word ++ ' ' :: (q.jql.toList ++ [')'])))

/-- A conjunction is a group around the word `and`. -/
lemma jql_and (l q : Predicate) : (and l q).jql.toList = group l ['a', 'n', 'd'] q := by
  simp [jql, group, String.toList_append]

/-- A disjunction is a group around the word `or`. -/
lemma jql_or (l q : Predicate) : (or l q).jql.toList = group l ['o', 'r'] q := by
  simp [jql, group, String.toList_append]

/-- Whatever follows the two predicates, they begin equal texts only if they are the same and leave
the same rest. -/
def ReadsAs (p p' : Predicate) : Prop :=
  ∀ r r', Stops r → Stops r' → p.jql.toList ++ r = p'.jql.toList ++ r' → p.SameText p' ∧ r = r'

/-- A group before other text, laid out from the left. -/
lemma group_append (l q : Predicate) (word r : List Char) :
    group l word q ++ r =
      '(' :: (l.jql.toList ++ ' ' :: (word ++ ' ' :: (q.jql.toList ++ ')' :: r))) := by
  simp [group]

/-- Two groups are read from the left: the first side, the word, the second side. -/
lemma group_read {word word' : List Char} (hl : l.ReadsAs l') (hq : q.ReadsAs q')
    (hword : IsLexeme word) (hword' : IsLexeme word')
    (h : group l word q ++ r = group l' word' q' ++ r') :
    word = word' ∧ l.SameText l' ∧ q.SameText q' ∧ r = r' := by
  rw [group_append, group_append] at h
  obtain ⟨hleft, h⟩ := hl _ _ (.blank _) (.blank _) (List.cons.inj h).2
  obtain ⟨hwords, h⟩ := hword.read hword' (.blank _) (.blank _) (List.cons.inj h).2
  obtain ⟨hright, h⟩ := hq _ _ (.close _) (.close _) (List.cons.inj h).2
  exact ⟨hwords, hleft, hright, (List.cons.inj h).2⟩

/-- A predicate of its own does not begin like another one in parentheses. -/
lemma comparison_append_ne_group {c : Comparison} (hc : c.IsReadable) {word : List Char} :
    (comparison c).jql.toList ++ r ≠ group l word q ++ r' := by
  obtain ⟨d, ds, htext, -, hd⟩ := Comparison.exists_text_eq_cons hc
  intro h
  rw [jql, htext] at h
  exact hd (List.cons.inj h).1

/-- A conjunction can be read when both sides can. -/
lemma isReadable_and {l q : Predicate} :
    (and l q).IsReadable ↔ l.IsReadable ∧ q.IsReadable := List.forall_mem_append

/-- A disjunction can be read when both sides can. -/
lemma isReadable_or {l q : Predicate} :
    (or l q).IsReadable ↔ l.IsReadable ∧ q.IsReadable := List.forall_mem_append

/-- Two predicates that begin two equal texts are the same and leave the same rest. -/
theorem readsAs (hp : p.IsReadable) (hp' : p'.IsReadable) : p.ReadsAs p' := by
  have hand : IsLexeme ['a', 'n', 'd'] := .word (by decide)
  have hor : IsLexeme ['o', 'r'] := .word (by decide)
  induction p generalizing p' with
  | comparison c =>
    have hc : c.IsReadable := hp c List.mem_cons_self
    intro r r' hr hr' h
    cases p' with
    | comparison c' =>
      have hc' : c'.IsReadable := hp' c' List.mem_cons_self
      obtain ⟨hsame, hrest⟩ := Comparison.read hc hc' hr hr' h
      exact ⟨.comparison hsame, hrest⟩
    | and l' q' =>
      rw [jql_and] at h
      exact absurd h (comparison_append_ne_group hc)
    | or l' q' =>
      rw [jql_or] at h
      exact absurd h (comparison_append_ne_group hc)
  | and l q ihl ihq =>
    obtain ⟨hl, hq⟩ := isReadable_and.mp hp
    intro r r' hr hr' h
    rw [jql_and] at h
    cases p' with
    | comparison c' =>
      exact absurd h.symm (comparison_append_ne_group (hp' c' List.mem_cons_self))
    | and l' q' =>
      obtain ⟨hl', hq'⟩ := isReadable_and.mp hp'
      rw [jql_and] at h
      obtain ⟨-, hleft, hright, hrest⟩ := group_read (ihl hl hl') (ihq hq hq') hand hand h
      exact ⟨.and hleft hright, hrest⟩
    | or l' q' =>
      obtain ⟨hl', hq'⟩ := isReadable_or.mp hp'
      rw [jql_or] at h
      exact absurd (group_read (ihl hl hl') (ihq hq hq') hand hor h).1 (by decide)
  | or l q ihl ihq =>
    obtain ⟨hl, hq⟩ := isReadable_or.mp hp
    intro r r' hr hr' h
    rw [jql_or] at h
    cases p' with
    | comparison c' =>
      exact absurd h.symm (comparison_append_ne_group (hp' c' List.mem_cons_self))
    | and l' q' =>
      obtain ⟨hl', hq'⟩ := isReadable_and.mp hp'
      rw [jql_and] at h
      exact absurd (group_read (ihl hl hl') (ihq hq hq') hor hand h).1 (by decide)
    | or l' q' =>
      obtain ⟨hl', hq'⟩ := isReadable_or.mp hp'
      rw [jql_or] at h
      obtain ⟨-, hleft, hright, hrest⟩ := group_read (ihl hl hl') (ihq hq hq') hor hor h
      exact ⟨.or hleft hright, hrest⟩

/-- A predicate does not begin with a blank. -/
lemma exists_jql_eq_cons (hp : p.IsReadable) : ∃ d ds, p.jql.toList = d :: ds ∧ d ≠ ' ' := by
  cases p with
  | comparison c =>
    obtain ⟨d, ds, htext, hd, -⟩ :=
      Comparison.exists_text_eq_cons (hp c List.mem_cons_self)
    exact ⟨d, ds, htext, hd⟩
  | and l q => exact ⟨'(', _, jql_and l q, by decide⟩
  | or l q => exact ⟨'(', _, jql_or l q, by decide⟩

end Predicate

/-! ### Orderings -/

namespace OrderClause

variable {clause clause' : OrderClause} {r r' : List Char}

/-- Two clauses that begin two equal texts are the same and leave the same rest. -/
lemma read (hc : clause.field.IsReadable) (hc' : clause'.field.IsReadable)
    (h : clause.text.toList ++ r = clause'.text.toList ++ r') : clause = clause' ∧ r = r' := by
  obtain ⟨field, direction⟩ := clause
  obtain ⟨field', direction'⟩ := clause'
  have hsplit : field.text.toList ++ ' ' :: (direction.text.toList ++ r) =
      field'.text.toList ++ ' ' :: (direction'.text.toList ++ r') := by
    simpa [text, String.toList_append] using h
  obtain ⟨hfield, hrest⟩ := (FieldRef.isLexeme_text hc).read (FieldRef.isLexeme_text hc')
    (.blank _) (.blank _) hsplit
  obtain rfl := FieldRef.eq_of_text_eq hc hc' hfield
  cases direction <;> cases direction' <;> simp [Direction.text] at hrest
  · exact ⟨rfl, hrest⟩
  · exact ⟨rfl, hrest⟩

end OrderClause

/-! ### Lists -/

/-- Two separated lists that begin two equal texts have the same elements, if equal texts have the
same element in front and what follows the lists does not begin with the separator. -/
lemma read_intercalate {α : Type} {text : α → String} {separator : String} {P : α → Prop}
    {Same : α → α → Prop} (Ends : List Char → Prop)
    (hread : ∀ a b r r', P a → P b → Ends r → Ends r' →
      (text a).toList ++ r = (text b).toList ++ r' → Same a b ∧ r = r')
    (hseparator : ∀ r, Ends (separator.toList ++ r)) {as bs : List α} {r r' : List Char}
    (has : ∀ a ∈ as, P a) (hbs : ∀ b ∈ bs, P b) (hr : Ends r) (hr' : Ends r')
    (hnot : ∀ cs, r ≠ separator.toList ++ cs) (hnot' : ∀ cs, r' ≠ separator.toList ++ cs)
    (hne : as ≠ []) (hne' : bs ≠ [])
    (h : (String.intercalate separator (as.map text)).toList ++ r =
      (String.intercalate separator (bs.map text)).toList ++ r') :
    List.Forall₂ Same as bs ∧ r = r' := by
  induction as generalizing bs with
  | nil => exact absurd rfl hne
  | cons a as ih =>
    obtain ⟨b, bs, rfl⟩ := List.exists_cons_of_ne_nil hne'
    have ha : P a := has a List.mem_cons_self
    have hb : P b := hbs b List.mem_cons_self
    cases as with
    | nil =>
      cases bs with
      | nil =>
        obtain ⟨hsame, hrest⟩ := hread a b r r' ha hb hr hr' (by simpa using h)
        exact ⟨.cons hsame .nil, hrest⟩
      | cons b₁ bs =>
        obtain ⟨-, hrest⟩ := hread a b r _ ha hb hr (hseparator _) (by simpa using h)
        exact absurd hrest (hnot _)
    | cons a₁ as =>
      cases bs with
      | nil =>
        obtain ⟨-, hrest⟩ := hread a b _ r' ha hb (hseparator _) hr' (by simpa using h)
        exact absurd hrest.symm (hnot' _)
      | cons b₁ bs =>
        simp only [List.map_cons, String.intercalate_cons_cons, String.toList_append,
          List.append_assoc] at h
        obtain ⟨hsame, hrest⟩ := hread a b _ _ ha hb (hseparator _) (hseparator _) h
        obtain ⟨hlater, hend⟩ := ih (fun x hx => has x (List.mem_cons_of_mem _ hx))
          (fun x hx => hbs x (List.mem_cons_of_mem _ hx)) (List.cons_ne_nil _ _)
          (List.cons_ne_nil _ _) (by simpa using hrest)
        exact ⟨.cons hsame hlater, hend⟩

/-! ### Whole queries -/

/-- Names are made of word characters or stand in quotes, and no text has a double quote. -/
structure CompiledQuery.IsReadable (q : CompiledQuery) : Prop where
  filters : ∀ p ∈ q.filters, p.IsReadable
  orderClauses : ∀ clause ∈ q.orderClauses, clause.field.IsReadable

namespace Directive

/-- The ordering is nothing, or it begins with its header. -/
lemma orderText_cases (d : Directive) :
    (d.orderClauses = [] ∧ d.orderText.toList = []) ∨
    (d.orderClauses ≠ [] ∧ d.orderText.toList = " order by ".toList ++
      (String.intercalate ", " (d.orderClauses.map OrderClause.text)).toList) := by
  cases h : d.orderClauses with
  | nil => exact .inl ⟨rfl, by simp [orderText, h]⟩
  | cons clause clauses =>
    refine .inr ⟨List.cons_ne_nil _ _, ?_⟩
    rw [orderText, h, List.isEmpty_cons, if_neg Bool.false_ne_true, String.toList_append]

variable {d d' : Directive}

/-- The ordering ends the condition in front of it, also when it is empty. -/
lemma stops_orderText (d : Directive) : Stops d.orderText.toList := by
  rcases d.orderText_cases with ⟨-, htext⟩ | ⟨-, htext⟩
  · rw [htext]
    exact .nil
  · rw [htext]
    exact .blank _

/-- An ordering does not begin like another condition. -/
lemma orderText_ne_and (d : Directive) (cs : List Char) :
    d.orderText.toList ≠ " and ".toList ++ cs := by
  rcases d.orderText_cases with ⟨-, htext⟩ | ⟨-, htext⟩ <;> simp [htext]

/-- An ordering is known from its text. -/
lemma orderClauses_eq_of_orderText_eq
    (hd : ∀ clause ∈ d.orderClauses, clause.field.IsReadable)
    (hd' : ∀ clause ∈ d'.orderClauses, clause.field.IsReadable)
    (h : d.orderText.toList = d'.orderText.toList) : d.orderClauses = d'.orderClauses := by
  rcases d.orderText_cases with ⟨hnil, htext⟩ | ⟨hne, htext⟩ <;>
    rcases d'.orderText_cases with ⟨hnil', htext'⟩ | ⟨hne', htext'⟩
  · rw [hnil, hnil']
  · simp [htext, htext'] at h
  · simp [htext, htext'] at h
  · rw [htext, htext', List.append_cancel_left_eq] at h
    have hclauses : List.Forall₂ (· = ·) d.orderClauses d'.orderClauses ∧ ([] : List Char) = [] :=
      read_intercalate (fun _ => True) (fun _ _ _ _ hc hc' _ _ => OrderClause.read hc hc')
        (fun _ => trivial) hd hd' trivial trivial (by simp) (by simp) hne hne'
        (congrArg (· ++ []) h)
    exact List.forall₂_eq_eq_eq ▸ hclauses.1

end Directive

namespace CompiledQuery

/-- Conditions do not begin with a blank. -/
lemma exists_filterText_eq_cons {q : CompiledQuery} (hq : q.IsReadable) (hne : q.filters ≠ []) :
    ∃ c cs, q.filterText.toList = c :: cs ∧ c ≠ ' ' := by
  obtain ⟨p, ps, heq⟩ := List.exists_cons_of_ne_nil hne
  obtain ⟨c, cs, hp, hc⟩ := Predicate.exists_jql_eq_cons (hq.filters p (by simp [heq]))
  cases ps with
  | nil => exact ⟨c, cs, by simp [filterText, heq, hp], hc⟩
  | cons p₁ ps =>
    have htext : q.filterText.toList = p.jql.toList ++ " and ".toList ++
        (String.intercalate " and " ((p₁ :: ps).map Predicate.jql)).toList := by
      rw [filterText, heq, List.map_cons, List.map_cons, String.intercalate_cons_cons,
        String.toList_append, String.toList_append]
    rw [hp] at htext
    exact ⟨c, _, htext, hc⟩

/-- Conditions do not begin like an ordering. -/
lemma filterText_append_ne_orderText {q : CompiledQuery} (hq : q.IsReadable)
    (hne : q.filters ≠ []) (d : Directive) (cs : List Char) :
    q.filterText.toList ++ cs ≠ d.orderText.toList := by
  obtain ⟨c, ds, htext, hc⟩ := exists_filterText_eq_cons hq hne
  rw [htext]
  rcases d.orderText_cases with ⟨-, horder⟩ | ⟨-, horder⟩
  · simp [horder]
  · intro h
    rw [horder] at h
    exact hc (List.cons.inj h).1

/-- The conditions are read first, and the ordering is what is left. -/
lemma read_filters {q q' : CompiledQuery} (hq : q.IsReadable) (hq' : q'.IsReadable)
    {d d' : Directive} (h : q.filterText.toList ++ d.orderText.toList =
      q'.filterText.toList ++ d'.orderText.toList) :
    List.Forall₂ Predicate.SameText q.filters q'.filters ∧
      d.orderText.toList = d'.orderText.toList := by
  by_cases hnil : q.filters = [] <;> by_cases hnil' : q'.filters = []
  · rw [hnil, hnil']
    exact ⟨.nil, by simpa [filterText, hnil, hnil'] using h⟩
  · have hempty : q.filterText.toList = [] := by simp [filterText, hnil]
    rw [hempty, List.nil_append] at h
    exact absurd h.symm (filterText_append_ne_orderText hq' hnil' _ _)
  · have hempty : q'.filterText.toList = [] := by simp [filterText, hnil']
    rw [hempty, List.nil_append] at h
    exact absurd h (filterText_append_ne_orderText hq hnil _ _)
  · have hand : ∀ r, Stops (" and ".toList ++ r) := fun _ => .blank _
    exact read_intercalate Stops
      (fun _ _ _ _ hp hp' hr hr' => Predicate.readsAs hp hp' _ _ hr hr') hand hq.filters
      hq'.filters d.stops_orderText d'.stops_orderText d.orderText_ne_and d'.orderText_ne_and
      hnil hnil' h

/-- A query is read in one way only.  If names are made of word characters or stand in quotes, and
no text has a double quote, then equal texts come from the same list of predicates, up to how their
literals are written, and the same list of ordering clauses. -/
theorem jql_uniquely_readable {q q' : CompiledQuery} (hq : q.IsReadable) (hq' : q'.IsReadable)
    (h : q.directive.jql = q'.directive.jql) :
    List.Forall₂ Predicate.SameText q.filters q'.filters ∧ q.orderClauses = q'.orderClauses := by
  have htext : q.filterText.toList ++ q.directive.orderText.toList =
      q'.filterText.toList ++ q'.directive.orderText.toList := by
    rw [← String.toList_append, ← String.toList_append]
    exact congrArg String.toList h
  obtain ⟨hfilters, horder⟩ := read_filters hq hq' htext
  exact ⟨hfilters,
    Directive.orderClauses_eq_of_orderText_eq hq.orderClauses hq'.orderClauses horder⟩

/-- Issues due from a day on, without a team of a misleading name, in a misleading order. -/
def dueSample (due : Value) (team : Operand) : CompiledQuery where
  filters := [
    .and (.comparison ⟨.member "Due", .greaterThanOrEquals, .literal due⟩)
      (.comparison ⟨.dynamic "Team is not null) or (Team", .is, team⟩)]
  orderClauses := [⟨.dynamic "Team asc, Due", .descending⟩]
  maxResults := none
  startAt := none

/-- The sample can be read when its literals have no double quote. -/
lemma dueSample_isReadable {due : Value} {team : Operand} (hdue : due.IsQuoteFree)
    (hteam : team.IsReadable) : (dueSample due team).IsReadable where
  filters := by
    have hname : (FieldRef.member "Due").IsReadable := ⟨by decide, by decide⟩
    have hteamName : (FieldRef.dynamic "Team is not null) or (Team").IsReadable := by
      show '"' ∉ _
      decide
    simp only [dueSample, List.forall_mem_singleton]
    exact Predicate.isReadable_and.mpr ⟨List.forall_mem_singleton.mpr ⟨hname, hdue⟩,
      List.forall_mem_singleton.mpr ⟨hteamName, hteam⟩⟩
  orderClauses := by
    simp only [dueSample, List.forall_mem_singleton]
    show '"' ∉ _
    decide

/-- The day as it was written down, and null as a literal. -/
def writtenSample : CompiledQuery := dueSample (.literalDate "2024/03/05") (.literal .null)

/-- The same day as a date, and null by its keyword. -/
def computedSample : CompiledQuery :=
  dueSample (.dateTime (.ofDate ⟨2024, 3, 5, by decide, by decide, by decide, by decide⟩)) .null

/-- The two queries have the same text, although a name looks like an ordering and another one like
a condition; what differs is how the day and null are written down. -/
theorem jql_uniquely_readable_sample :
    writtenSample.directive.jql = computedSample.directive.jql ∧
      List.Forall₂ Predicate.SameText writtenSample.filters computedSample.filters ∧
      writtenSample.orderClauses = computedSample.orderClauses := by
  have hwritten : writtenSample.IsReadable := by
    refine dueSample_isReadable ?_ ?_
    · rintro s ⟨⟩
      decide
    · rintro s ⟨⟩
  have hcomputed : computedSample.IsReadable := by
    refine dueSample_isReadable ?_ trivial
    rintro s ⟨⟩
  have htext : writtenSample.directive.jql = computedSample.directive.jql := by
    cbv
  exact ⟨htext, jql_uniquely_readable hwritten hcomputed htext⟩

end CompiledQuery

end IssueQuery
