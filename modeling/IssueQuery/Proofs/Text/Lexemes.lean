import IssueQuery.Directive
import Mathlib

/-!
# Lexemes of queries

The fields and the operands of a query are lexemes: words without blanks, double quotes and
parentheses, and quoted texts without a double quote inside.  Wherever a lexeme stands, it is
followed by nothing, by a blank or by a closing parenthesis, and so two texts that begin with a
lexeme each can only agree when the lexemes do (`IsLexeme.read`).

Literals that are not text are words (`Value.isLexeme_jql`); none of them is the word `not`, which
would make an `is` in front of it another operator.
-/

namespace IssueQuery

/-- A character that words are made of. -/
def IsWordChar (c : Char) : Prop := c ≠ ' ' ∧ c ≠ '"' ∧ c ≠ '(' ∧ c ≠ ')'

instance (c : Char) : Decidable (IsWordChar c) :=
  inferInstanceAs (Decidable (c ≠ ' ' ∧ c ≠ '"' ∧ c ≠ '(' ∧ c ≠ ')'))

/-- Text of such characters. -/
def IsWord (cs : List Char) : Prop := ∀ c ∈ cs, IsWordChar c

instance (cs : List Char) : Decidable (IsWord cs) := List.decidableBAll IsWordChar cs

/-- A field or an operand in the text of a query. -/
inductive IsLexeme : List Char → Prop where
  | word {cs : List Char} : IsWord cs → IsLexeme cs
  | quoted {cs : List Char} : '"' ∉ cs → IsLexeme ('"' :: (cs ++ ['"']))

/-- The text goes on with something that ends a lexeme. -/
inductive Stops : List Char → Prop where
  | nil : Stops []
  | blank (cs : List Char) : Stops (' ' :: cs)
  | close (cs : List Char) : Stops (')' :: cs)

/-! ### Reading a lexeme -/

/-- Two texts of one kind of characters that end with another character or with nothing. -/
lemma eq_of_append_eq_append {P : Char → Prop} {u v r r' : List Char} (hu : ∀ c ∈ u, P c)
    (hv : ∀ c ∈ v, P c) (hr : ∀ c cs, r = c :: cs → ¬ P c) (hr' : ∀ c cs, r' = c :: cs → ¬ P c)
    (h : u ++ r = v ++ r') : u = v ∧ r = r' := by
  induction u generalizing v with
  | nil =>
    cases v with
    | nil => exact ⟨rfl, h⟩
    | cons d v => exact absurd (hv d List.mem_cons_self) (hr d _ h)
  | cons c u ih =>
    cases v with
    | nil => exact absurd (hu c List.mem_cons_self) (hr' c _ h.symm)
    | cons d v =>
      rw [List.cons_append, List.cons_append, List.cons.injEq] at h
      obtain ⟨rfl, hrest⟩ := h
      obtain ⟨rfl, rfl⟩ := ih (fun x hx => hu x (List.mem_cons_of_mem _ hx))
        (fun x hx => hv x (List.mem_cons_of_mem _ hx)) hrest
      exact ⟨rfl, rfl⟩

/-- What ends a lexeme does not go on with a character of words. -/
lemma Stops.not_isWordChar {r cs : List Char} {c : Char} (h : Stops r) (heq : r = c :: cs) :
    ¬ IsWordChar c := by
  cases h with
  | nil => simp at heq
  | blank cs =>
    obtain ⟨rfl, -⟩ := List.cons.inj heq
    decide
  | close cs =>
    obtain ⟨rfl, -⟩ := List.cons.inj heq
    decide

/-- A word and a quoted text do not begin alike. -/
lemma word_append_ne_quoted {u v r : List Char} (hu : IsWord u) (hr : Stops r) :
    u ++ r ≠ '"' :: v := by
  cases u with
  | nil =>
    rintro rfl
    rcases hr
  | cons c u =>
    intro h
    obtain ⟨rfl, -⟩ := List.cons.inj h
    exact (hu '"' List.mem_cons_self).2.1 rfl

/-- Two texts that begin with a lexeme agree in it and in what follows it. -/
lemma IsLexeme.read {u v r r' : List Char} (hu : IsLexeme u) (hv : IsLexeme v) (hr : Stops r)
    (hr' : Stops r') (h : u ++ r = v ++ r') : u = v ∧ r = r' := by
  cases hu with
  | word hu =>
    cases hv with
    | word hv =>
      exact eq_of_append_eq_append hu hv (fun _ _ => hr.not_isWordChar)
        (fun _ _ => hr'.not_isWordChar) h
    | quoted _ => exact absurd h (word_append_ne_quoted hu hr)
  | @quoted u hu =>
    cases hv with
    | word hv => exact absurd h.symm (word_append_ne_quoted hv hr')
    | @quoted v hv =>
      have hrest : u ++ '"' :: r = v ++ '"' :: r' := by simpa using h
      obtain ⟨rfl, hquote⟩ := eq_of_append_eq_append (P := (· ≠ '"'))
        (fun c hc => ne_of_mem_of_not_mem hc hu) (fun c hc => ne_of_mem_of_not_mem hc hv)
        (fun c cs heq => not_not_intro (List.cons.inj heq).1.symm)
        (fun c cs heq => not_not_intro (List.cons.inj heq).1.symm) hrest
      exact ⟨rfl, (List.cons.inj hquote).2⟩

/-! ### Numerals -/

/-- Text of digits, signs and the like.  It is a word, and it is not the word `not`. -/
def IsNumeral (cs : List Char) : Prop := ∀ c ∈ cs, IsWordChar c ∧ c ≠ 't'

instance (cs : List Char) : Decidable (IsNumeral cs) :=
  List.decidableBAll (fun c => IsWordChar c ∧ c ≠ 't') cs

/-- Digits make a numeral. -/
lemma isNumeral_of_isDigit {cs : List Char} (h : ∀ c ∈ cs, c.isDigit = true) : IsNumeral cs := by
  intro c hc
  have hdigit := h c hc
  refine ⟨⟨?_, ?_, ?_, ?_⟩, ?_⟩ <;>
  · rintro rfl
    simp [Char.isDigit] at hdigit

/-- The decimal digits of a number make a numeral. -/
lemma isNumeral_toDigits (n : Nat) : IsNumeral (Nat.toDigits 10 n) :=
  isNumeral_of_isDigit fun _ hc => Nat.isDigit_of_mem_toDigits (by decide) (by decide) hc

/-- A text is a numeral when its first character may stand in one and the rest is a numeral. -/
@[simp] lemma isNumeral_cons {c : Char} {cs : List Char} :
    IsNumeral (c :: cs) ↔ (IsWordChar c ∧ c ≠ 't') ∧ IsNumeral cs := List.forall_mem_cons

/-- Two texts make a numeral together when each of them is one. -/
@[simp] lemma isNumeral_append {cs ds : List Char} :
    IsNumeral (cs ++ ds) ↔ IsNumeral cs ∧ IsNumeral ds := List.forall_mem_append

/-- Zeros make a numeral. -/
lemma isNumeral_replicate_zero (n : Nat) : IsNumeral (List.replicate n '0') := by
  intro c hc
  rw [List.eq_of_mem_replicate hc]
  decide

/-- Characters out of a numeral make a numeral. -/
lemma IsNumeral.subset {cs ds : List Char} (h : IsNumeral ds) (hsub : cs ⊆ ds) : IsNumeral cs :=
  fun c hc => h c (hsub hc)

/-! ### Literals -/

/-- The text of a whole number, with its sign, is a numeral. -/
lemma isNumeral_repr (n : Int) : IsNumeral (toString n).toList := by
  rw [Int.toString_eq_repr, Int.repr_eq_if]
  split
  · rw [Nat.toList_repr]
    exact isNumeral_toDigits _
  · rw [String.toList_append, Nat.toList_repr]
    exact isNumeral_append.mpr ⟨by decide, isNumeral_toDigits _⟩

/-- Digits behind leading zeros make a numeral. -/
lemma isNumeral_paddedDigits (width n : Nat) : IsNumeral (paddedDigits width n).toList := by
  rw [paddedDigits, String.toList_ofList]
  exact isNumeral_append.mpr ⟨isNumeral_replicate_zero _, isNumeral_toDigits n⟩

/-- The text of a date is a numeral. -/
lemma Date.isNumeral_text (d : Date) : IsNumeral d.text.toList := by
  have hyear : IsNumeral (yearText d.year).toList := by
    rw [yearText]
    split
    · exact isNumeral_paddedDigits _ _
    · rw [String.toList_append]
      refine isNumeral_append.mpr ⟨?_, isNumeral_paddedDigits _ _⟩
      split <;> decide
  simp only [text, String.toList_append, isNumeral_append]
  exact ⟨⟨⟨⟨hyear, by decide⟩, isNumeral_paddedDigits _ _⟩, by decide⟩, isNumeral_paddedDigits _ _⟩

namespace FloatFormat

variable (format : FloatFormat)

/-- Digits around a point make a numeral. -/
lemma isNumeral_positionalText {digits : List Char} (h : IsNumeral digits) (leading : Int) :
    IsNumeral (format.positionalText digits leading).toList := by
  rw [positionalText]
  split
  · have hpoint : IsNumeral ['0', '.'] := by decide
    rw [String.toList_ofList]
    exact isNumeral_append.mpr ⟨hpoint, isNumeral_append.mpr ⟨isNumeral_replicate_zero _, h⟩⟩
  · have hwhole := h.subset (List.take_subset (leading.toNat + 1) digits)
    have hfraction := h.subset (List.drop_subset (leading.toNat + 1) digits)
    simp only [String.toList_append, String.toList_ofList, isNumeral_append]
    refine ⟨⟨hwhole, isNumeral_replicate_zero _⟩, ?_⟩
    split
    · split <;> decide
    · rw [String.toList_ofList, isNumeral_cons]
      exact ⟨by decide, hfraction⟩

/-- Digits with an exponent make a numeral. -/
lemma isNumeral_scientificText {digits : List Char} (h : IsNumeral digits) (leading : Int) :
    IsNumeral (scientificText digits leading).toList := by
  simp only [scientificText, String.toList_append, String.toList_ofList, isNumeral_append]
  refine ⟨⟨⟨h.subset (List.take_subset _ _), ?_⟩, ?_⟩, ?_⟩
  · split
    · decide
    · rw [String.toList_ofList, isNumeral_cons]
      exact ⟨by decide, h.subset (List.drop_subset _ _)⟩
  · split <;> decide
  · rw [Nat.toString_eq_repr, Nat.toList_repr]
    exact isNumeral_toDigits _

/-- The magnitude of a floating-point number is written as a numeral in every notation. -/
lemma isNumeral_magnitudeText (d : Dyadic) : IsNumeral (format.magnitudeText d).toList := by
  rw [magnitudeText]
  split
  · exact format.isNumeral_positionalText (by decide) 0
  · have hdigits : IsNumeral ((Nat.toDigits 10 (Decimal.shortest format.tie d).coefficient).reverse
        |>.dropWhile (· == '0')).reverse := by
      refine (isNumeral_toDigits (Decimal.shortest format.tie d).coefficient).subset ?_
      intro c hc
      rw [List.mem_reverse] at hc
      exact List.mem_reverse.mp ((List.dropWhile_sublist _).subset hc)
    dsimp only
    split
    · exact format.isNumeral_positionalText hdigits _
    · exact isNumeral_scientificText hdigits _

/-- The text of a floating-point number is a numeral in every notation. -/
lemma isNumeral_text (x : Float) : IsNumeral (format.text x).toList := by
  rw [text]
  split
  · decide
  · rw [String.toList_append]
    refine isNumeral_append.mpr ⟨?_, ?_⟩
    · split <;> decide
    · split
      · decide
      · exact format.isNumeral_magnitudeText _

end FloatFormat

/-- A numeral is a lexeme. -/
lemma IsNumeral.isLexeme {cs : List Char} (h : IsNumeral cs) : IsLexeme cs :=
  .word fun c hc => (h c hc).1

/-- A numeral is not the word `not`. -/
lemma IsNumeral.ne_not {cs : List Char} (h : IsNumeral cs) : cs ≠ ['n', 'o', 't'] := by
  rintro rfl
  exact absurd h (by decide)

/-- Text that has no double quote stands in quotes as one lexeme. -/
lemma isLexeme_quoted {s : String} (h : '"' ∉ s.toList) : IsLexeme (quoted s).toList := by
  rw [toList_quoted]
  exact .quoted h

/-- Text in quotes is not the word `not`. -/
lemma toList_quoted_ne_not (s : String) : (quoted s).toList ≠ ['n', 'o', 't'] := by
  simp [toList_quoted]

/-- Text in the value, if it holds text, has no double quote. -/
def Value.IsQuoteFree (v : Value) : Prop := ∀ s, v.text? = some s → '"' ∉ s.toList

namespace Value

variable {v : Value}

/-- A literal without a double quote is a lexeme. -/
lemma isLexeme_jql (h : v.IsQuoteFree) : IsLexeme v.jql.toList := by
  cases v with
  | null => exact .word (by decide)
  | bool b => cases b <;> exact .word (by decide)
  | int n => exact (isNumeral_repr _).isLexeme
  | float x => exact (floatFormat.isNumeral_text x).isLexeme
  | text s => exact isLexeme_quoted (h s rfl)
  | comparable s => exact isLexeme_quoted (h s rfl)
  | exact s => exact isLexeme_quoted (h s rfl)
  | literalDate s => exact isLexeme_quoted (h s rfl)
  | dateTime t =>
    exact isLexeme_quoted fun hquote => (t.date.isNumeral_text _ hquote).1.2.1 rfl

variable (v) in
/-- No literal is the word `not`. -/
lemma jql_ne_not : v.jql.toList ≠ ['n', 'o', 't'] := by
  cases v with
  | null => decide
  | bool b => cases b <;> decide
  | int n => exact (isNumeral_repr _).ne_not
  | float x => exact (floatFormat.isNumeral_text x).ne_not
  | text s => exact toList_quoted_ne_not s
  | comparable s => exact toList_quoted_ne_not s
  | exact s => exact toList_quoted_ne_not s
  | literalDate s => exact toList_quoted_ne_not s
  | dateTime t => exact toList_quoted_ne_not _

end Value

/-! ### Operands and fields -/

/-- A text in the operand has no double quote. -/
def Operand.IsReadable : Operand → Prop
  | literal v => v.IsQuoteFree
  | null | empty => True

/-- An operand without a double quote is a lexeme. -/
lemma Operand.isLexeme_text {operand : Operand} (h : operand.IsReadable) :
    IsLexeme operand.text.toList := by
  cases operand with
  | literal v => exact Value.isLexeme_jql h
  | null => exact .word (by decide)
  | empty => exact .word (by decide)

/-- No operand is the word `not`. -/
lemma Operand.text_ne_not (operand : Operand) : operand.text.toList ≠ ['n', 'o', 't'] := by
  cases operand with
  | literal v => exact v.jql_ne_not
  | null => decide
  | empty => decide

/-- A member has a name of word characters, which letters, digits and underscores are, and a name
that is looked up has no double quote. -/
def FieldRef.IsReadable : FieldRef → Prop
  | member name => name ≠ "" ∧ IsWord name.toList
  | dynamic name => '"' ∉ name.toList

namespace FieldRef

variable {field field' : FieldRef}

/-- A field that can be read is a lexeme. -/
lemma isLexeme_text (h : field.IsReadable) : IsLexeme field.text.toList := by
  cases field with
  | member name => exact .word h.2
  | dynamic name => exact isLexeme_quoted h

/-- A field begins neither with a blank nor with a parenthesis. -/
lemma exists_text_eq_cons (h : field.IsReadable) :
    ∃ c cs, field.text.toList = c :: cs ∧ c ≠ ' ' ∧ c ≠ '(' := by
  cases field with
  | member name =>
    cases hname : name.toList with
    | nil => exact absurd (String.toList_eq_nil_iff.mp hname) h.1
    | cons c cs =>
      obtain ⟨hblank, -, hopen, -⟩ := h.2 c (by simp [hname])
      exact ⟨c, cs, hname, hblank, hopen⟩
  | dynamic name =>
    exact ⟨'"', name.toList ++ ['"'], by simp [text, quoted, String.toList_append], by decide,
      by decide⟩

/-- No name of word characters is a quoted text. -/
lemma toList_ne_quoted {name : String} (h : IsWord name.toList) (other : String) :
    name.toList ≠ (quoted other).toList := by
  intro hsame
  have hquote : '"' ∈ name.toList := by simp [hsame, quoted, String.toList_append]
  exact (h _ hquote).2.1 rfl

/-- A field is known from its text. -/
lemma eq_of_text_eq (h : field.IsReadable) (h' : field'.IsReadable)
    (heq : field.text.toList = field'.text.toList) : field = field' := by
  cases field with
  | member name =>
    cases field' with
    | member name' =>
      have hnames : name = name' := String.toList_inj.mp heq
      rw [hnames]
    | dynamic name' => exact absurd heq (toList_ne_quoted h.2 name')
  | dynamic name =>
    cases field' with
    | member name' => exact absurd heq.symm (toList_ne_quoted h'.2 name)
    | dynamic name' =>
      have hnames : name.toList = name'.toList := by
        simpa [text, quoted, String.toList_append] using heq
      rw [String.toList_inj.mp hnames]

end FieldRef

/-! ### Operators -/

/-- Two operators between blanks are the same when what follows does not begin with `not`. -/
lemma Operator.read {op op' : Operator} {r r' : List Char}
    (hr : ∀ cs, r ≠ 'n' :: 'o' :: 't' :: ' ' :: cs)
    (hr' : ∀ cs, r' ≠ 'n' :: 'o' :: 't' :: ' ' :: cs)
    (h : op.text.toList ++ ' ' :: r = op'.text.toList ++ ' ' :: r') : op = op' ∧ r = r' := by
  cases op <;> cases op' <;> simp [text] at h ⊢ <;> grind

end IssueQuery
