import IssueQuery.Predicate
import Mathlib

/-!
# Reading string literals

Whoever receives the text of a query takes it apart again.  A string literal runs from a double
quote to the next double quote that is not escaped by a backslash; outside of string literals every
character stands for itself.  `tokens` is this reading, as a machine that takes one character after
another.

Text is `Contained` when it does not end the literal that it is the content of.  The queries written
here escape nothing, so a quoted text is one literal exactly when it is contained
(`tokens_quoted_eq_iff`), and the same holds in the middle of a query when the text before it does
not end inside of a literal (`tokens_around_iff`).
-/

namespace IssueQuery

/-- A piece of the text of a query. -/
inductive Token where
  /-- A character outside of string literals. -/
  | symbol (c : Char)
  /-- A string literal with what stands between its quotes. -/
  | literal (content : List Char)
  /-- A string literal that the text ends in. -/
  | unclosed (content : List Char)
  deriving DecidableEq

/-- Where a scanner of a query is: outside of string literals, or inside of one after the given part
of its content, and then perhaps right behind a backslash that escapes the next character. -/
inductive Scanner where
  | outside
  | inside (content : List Char)
  | escaped (content : List Char)
  deriving DecidableEq

namespace Scanner

/-- Where a scanner is after one more character. -/
def next : Scanner → Char → Scanner
  | outside, c => if c = '"' then inside [] else outside
  | inside content, c =>
    if c = '"' then outside
    else if c = '\\' then escaped (content ++ [c])
    else inside (content ++ [c])
  | escaped content, c => inside (content ++ [c])

/-- The token that a character completes, if it completes one. -/
def emit : Scanner → Char → List Token
  | outside, c => if c = '"' then [] else [.symbol c]
  | inside content, c => if c = '"' then [.literal content] else []
  | escaped _, _ => []

/-- What is left over at the end of the text. -/
def finish : Scanner → List Token
  | outside => []
  | inside content | escaped content => [.unclosed content]

/-- The tokens of the text to come. -/
def scan (r : Scanner) : List Char → List Token
  | [] => r.finish
  | c :: cs => r.emit c ++ (r.next c).scan cs

/-- Where a scanner is after a text. -/
def after (r : Scanner) : List Char → Scanner
  | [] => r
  | c :: cs => (r.next c).after cs

/-- The tokens that are completed within a text. -/
def emitted (r : Scanner) : List Char → List Token
  | [] => []
  | c :: cs => r.emit c ++ (r.next c).emitted cs

end Scanner

/-- The tokens of the text of a query. -/
def tokens (text : String) : List Token := Scanner.outside.scan text.toList

/-- The text does not end inside of a string literal. -/
def ClosesLiterals (text : String) : Prop := Scanner.outside.after text.toList = .outside

/-- Text that does not end the string literal it is the content of: a backslash takes the next
character along, and no other double quote occurs. -/
inductive Contained : List Char → Prop where
  | nil : Contained []
  | plain {c : Char} {cs : List Char} : c ≠ '"' → c ≠ '\\' → Contained cs → Contained (c :: cs)
  | escaped {c : Char} {cs : List Char} : Contained cs → Contained ('\\' :: c :: cs)

namespace Scanner

/-! ### One text after another -/

/-- A text is scanned first, and what follows it from where the scanner is then. -/
lemma scan_append (r : Scanner) (u v : List Char) :
    r.scan (u ++ v) = r.emitted u ++ (r.after u).scan v := by
  induction u generalizing r with
  | nil => rfl
  | cons c u ih => simp only [List.cons_append, scan, emitted, after, ih, List.append_assoc]

/-- The tokens of a text are those completed within it and the one that its end completes. -/
lemma scan_eq (r : Scanner) (u : List Char) : r.scan u = r.emitted u ++ (r.after u).finish := by
  simpa [scan] using scan_append r u []

/-! ### Inside of a literal -/

/-- Contained text only adds to the content. -/
lemma after_inside_of_contained {cs : List Char} (h : Contained cs) (content : List Char) :
    (inside content).emitted cs = [] ∧
      (inside content).after cs = inside (content ++ cs) := by
  induction h generalizing content with
  | nil => simp [emitted, after]
  | plain hquote hslash _ ih => simp [emitted, after, emit, next, hquote, hslash, ih]
  | escaped _ ih => simp [emitted, after, emit, next, ih]

/-- A literal that is read from inside ends at the first double quote behind contained text. -/
lemma exists_contained_of_scan_inside (cs : List Char) {content whole : List Char}
    {ts : List Token} (h : (inside content).scan cs = .literal whole :: ts) :
    ∃ mid rest, cs = mid ++ '"' :: rest ∧ whole = content ++ mid ∧ Contained mid ∧
      ts = outside.scan rest := by
  match cs with
  | [] => simp [scan, finish] at h
  | [c] =>
    by_cases hquote : c = '"'
    · subst hquote
      simp only [scan, emit, next, if_true, List.singleton_append, List.cons.injEq,
        Token.literal.injEq] at h
      obtain ⟨rfl, rfl⟩ := h
      exact ⟨[], [], rfl, (List.append_nil _).symm, .nil, rfl⟩
    · by_cases hslash : c = '\\' <;> simp [scan, emit, next, hquote, hslash, finish] at h
  | c :: d :: cs =>
    by_cases hquote : c = '"'
    · subst hquote
      simp only [scan, emit, next, if_true, List.singleton_append, List.cons.injEq,
        Token.literal.injEq] at h
      obtain ⟨rfl, rfl⟩ := h
      exact ⟨[], d :: cs, rfl, (List.append_nil _).symm, .nil, rfl⟩
    by_cases hslash : c = '\\'
    · subst hslash
      have hscan : (inside (content ++ ['\\', d])).scan cs = .literal whole :: ts := by
        simpa [scan, emit, next] using h
      obtain ⟨mid, rest, rfl, rfl, hmid, rfl⟩ := exists_contained_of_scan_inside cs hscan
      exact ⟨'\\' :: d :: mid, rest, rfl, by simp, .escaped hmid, rfl⟩
    · have hscan : (inside (content ++ [c])).scan (d :: cs) = .literal whole :: ts := by
        simpa [scan, emit, next, hquote, hslash] using h
      obtain ⟨mid, rest, heq, rfl, hmid, rfl⟩ := exists_contained_of_scan_inside (d :: cs) hscan
      exact ⟨c :: mid, rest, by rw [heq]; rfl, by simp, .plain hquote hslash hmid, rfl⟩

/-- Behind a literal that is not closed there is nothing. -/
lemma eq_nil_of_scan_unclosed {r : Scanner} {cs content : List Char} {ts : List Token}
    (h : r.scan cs = .unclosed content :: ts) : ts = [] := by
  induction cs generalizing r with
  | nil => cases r <;> simp_all [scan, finish]
  | cons c cs ih =>
    have hemit : r.emit c = [] := by
      cases r with
      | outside => by_cases hc : c = '"' <;> simp_all [scan, emit]
      | inside content => by_cases hc : c = '"' <;> simp_all [scan, emit]
      | escaped content => rfl
    rw [scan, hemit, List.nil_append] at h
    exact ih h

/-- Whatever comes inside of a literal, the literal itself gives a token. -/
lemma scan_ne_nil_of_ne_outside {r : Scanner} (hr : r ≠ outside) (cs : List Char) :
    r.scan cs ≠ [] := by
  induction cs generalizing r with
  | nil => cases r <;> simp_all [scan, finish]
  | cons c cs ih =>
    cases r with
    | outside => exact absurd rfl hr
    | inside content =>
      by_cases hquote : c = '"'
      · simp [scan, emit, hquote]
      · by_cases hslash : c = '\\' <;> simp [scan, emit, next, hquote, hslash, ih]
    | escaped content => simp [scan, emit, next, ih]

/-- Every character outside of literals gives a token. -/
lemma eq_nil_of_scan_outside {cs : List Char} (h : outside.scan cs = []) : cs = [] := by
  cases cs with
  | nil => rfl
  | cons c cs =>
    by_cases hc : c = '"'
    · simp [scan, emit, next, hc, scan_ne_nil_of_ne_outside] at h
    · simp [scan, emit, hc] at h

end Scanner

/-! ### Whole texts -/

open Scanner

/-- Contained text in quotes is one literal, whatever comes after it. -/
lemma scan_quoted_append {s : String} (h : Contained s.toList) (back : List Char) :
    outside.scan ((quoted s).toList ++ back) = .literal s.toList :: outside.scan back := by
  obtain ⟨hemitted, hafter⟩ := after_inside_of_contained h []
  rw [toList_quoted, List.cons_append, List.append_assoc]
  simp [scan, scan_append, emit, next, hemitted, hafter]

/-- Reading a quoted text gives a single literal exactly when the text is contained, and then the
text is its content. -/
lemma tokens_quoted_eq_iff {s : String} {content : List Char} :
    tokens (quoted s) = [.literal content] ↔ content = s.toList ∧ Contained s.toList := by
  constructor
  · intro h
    have hscan : (inside []).scan (s.toList ++ ['"']) = [.literal content] := by
      simpa [tokens, toList_quoted, scan, emit, next] using h
    obtain ⟨mid, rest, heq, hcontent, hmid, hrest⟩ := exists_contained_of_scan_inside _ hscan
    obtain rfl : rest = [] := eq_nil_of_scan_outside hrest.symm
    have hsame : s.toList = mid := List.append_cancel_right heq
    rw [hcontent, hsame]
    exact ⟨rfl, hmid⟩
  · rintro ⟨rfl, h⟩
    simpa [tokens, scan, finish] using scan_quoted_append h []

/-- A backslash at the end escapes the quote that should close the literal. -/
example : tokens (quoted "C:\\") = [.unclosed ['C', ':', '\\', '"']] := by decide

/-- In the middle of a text a quoted text is read as one literal, and what is around it as it is
without it, exactly when no literal is open before it and the quoted text is contained. -/
lemma tokens_around_iff {front s back : String} :
    tokens (front ++ quoted s ++ back) = tokens front ++ .literal s.toList :: tokens back ↔
      ClosesLiterals front ∧ Contained s.toList := by
  have hsplit : tokens (front ++ quoted s ++ back) = outside.emitted front.toList ++
      (outside.after front.toList).scan ((quoted s).toList ++ back.toList) := by
    rw [tokens, String.toList_append, String.toList_append, List.append_assoc, scan_append]
  have hfront : tokens front =
      outside.emitted front.toList ++ (outside.after front.toList).finish := scan_eq _ _
  rw [hsplit, hfront, List.append_assoc, List.append_cancel_left_eq]
  constructor
  · intro h
    cases hafter : outside.after front.toList with
    | outside =>
      refine ⟨hafter, ?_⟩
      have hscan : (inside []).scan (s.toList ++ '"' :: back.toList) =
          .literal s.toList :: tokens back := by
        simpa [hafter, toList_quoted, scan, emit, next, finish] using h
      obtain ⟨mid, rest, -, hmid, hcontained, -⟩ := exists_contained_of_scan_inside _ hscan
      rwa [hmid, List.nil_append]
    | inside content =>
      rw [hafter] at h
      exact absurd (eq_nil_of_scan_unclosed h) (by simp)
    | escaped content =>
      rw [hafter] at h
      exact absurd (eq_nil_of_scan_unclosed h) (by simp)
  · rintro ⟨hclosed, hs⟩
    have hafter : outside.after front.toList = outside := hclosed
    rw [hafter, scan_quoted_append hs]
    rfl

end IssueQuery
