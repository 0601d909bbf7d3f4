import IssueQuery.Page
import IssueQuery.Proofs.Outcome

/-!
# Pages out of response bodies

The body of a response tells the place of a page by three counts.  `Json.Tells` says which count a
body tells under a key and `Json.Withholds` why it tells none; a body does exactly one of the two,
and a count is read accordingly (`Json.count_eq_ok_iff`, `Json.count_eq_error_iff`).

`Page.ofJson_tells_or_withholds` puts the three counts together: a page comes out of a body that
tells all of them, and any other body gives the error of the first one that is withheld.
-/

namespace IssueQuery

/-! ### Counts of a body -/

namespace Json

/-- A body has a value under a key: it is an object with such a member, and no later member has the
same key. -/
def Has (body : Json) (key : String) (v : Json) : Prop :=
  ∃ before after, body = .object (before ++ (key, v) :: after) ∧ ∀ m ∈ after, m.1 ≠ key

/-- The count that a body tells under a key.  A whole number of 32 bits tells itself; null, or no
value at all, stands for zero. -/
inductive Tells (body : Json) (key : String) : UInt32 → Prop where
  | missing : (∀ v, ¬ body.Has key v) → Tells body key 0
  | null : body.Has key .null → Tells body key 0
  | whole (n : UInt32) : body.Has key (.int n.toNat) → Tells body key n

/-- Why a body tells no count under a key. -/
inductive Withholds (body : Json) (key : String) : CountError → Prop where
  | wrongType {found : Json} :
    body.Has key found → found ≠ .null → (∀ n, found ≠ .int n) →
      Withholds body key (.wrongType found)
  | outOfRange {n : Int} :
    body.Has key (.int n) → n < 0 ∨ 2 ^ 32 ≤ n → Withholds body key (.outOfRange n)

/-- A body tells a count under each of some keys up to one, and withholds it there. -/
inductive FirstWithheld (body : Json) : List String → CountError → Prop where
  | here {key : String} {keys : List String} {cause : CountError} :
    body.Withholds key cause → FirstWithheld body (key :: keys) cause
  | later {key : String} {keys : List String} {n : UInt32} {cause : CountError} :
    body.Tells key n → FirstWithheld body keys cause → FirstWithheld body (key :: keys) cause

variable {body : Json} {key : String}

/-- The last member with a key. -/
lemma find?_reverse_eq_some_iff {members : List (String × Json)} {m : String × Json} :
    members.reverse.find? (fun m => m.1 == key) = some m ↔
      m.1 = key ∧ ∃ before after, members = before ++ m :: after ∧ ∀ m ∈ after, m.1 ≠ key := by
  rw [List.find?_eq_some_iff_append]
  simp only [beq_iff_eq, Bool.not_eq_true', beq_eq_false_iff_ne]
  refine and_congr_right fun _ => ⟨?_, ?_⟩
  · rintro ⟨after, before, hmembers, hafter⟩
    refine ⟨before.reverse, after.reverse, ?_, by simpa using hafter⟩
    simpa using congrArg List.reverse hmembers
  · rintro ⟨before, after, rfl, hafter⟩
    exact ⟨after.reverse, before.reverse, by simp, by simpa using hafter⟩

/-- A member is found when the body has it. -/
lemma get?_eq_some_iff {v : Json} : body.get? key = some v ↔ body.Has key v := by
  cases body with
  | object members =>
    change (members.reverse.find? fun m => m.1 == key).map Prod.snd = some v ↔ _
    rw [Option.map_eq_some_iff]
    constructor
    · rintro ⟨⟨name, u⟩, hfind, rfl⟩
      obtain ⟨rfl, before, after, rfl, hafter⟩ := find?_reverse_eq_some_iff.mp hfind
      exact ⟨before, after, rfl, hafter⟩
    · rintro ⟨before, after, hbody, hafter⟩
      obtain rfl := Json.object.inj hbody
      exact ⟨(key, v), find?_reverse_eq_some_iff.mpr ⟨rfl, before, after, rfl, hafter⟩, rfl⟩
  | null | bool b | int n | float x | string s | array vs =>
    refine ⟨nofun, ?_⟩
    rintro ⟨before, after, hbody, -⟩
    cases hbody

/-- A key has one value. -/
lemma Has.unique {v v' : Json} (h : body.Has key v) (h' : body.Has key v') : v = v' := by
  rw [← get?_eq_some_iff] at h h'
  exact Option.some.inj (h.symm.trans h')

/-- No member is found when the body has none of this name. -/
lemma get?_eq_none_iff : body.get? key = none ↔ ∀ v, ¬ body.Has key v := by
  simp only [← get?_eq_some_iff, Option.eq_none_iff_forall_ne_some, ne_eq]

/-- A whole number is a count when 32 bits can hold it. -/
lemma toCount_int_eq_ok_iff {n : Int} {count : UInt32} :
    (int n).toCount = .ok count ↔ n = count.toNat := by
  rw [toCount]
  split
  next hfits =>
    rw [Except.ok.injEq, ← UInt32.toNat_inj, UInt32.toNat_ofNatLT]
    omega
  next hnot =>
    have hsize := count.toNat_lt_size
    refine ⟨nofun, ?_⟩
    rintro rfl
    exact absurd ⟨Int.natCast_nonneg _, hsize⟩ hnot

/-- A whole number fails to be a count only when it is out of the range of 32 bits. -/
lemma toCount_int_eq_error_iff {n : Int} {cause : CountError} :
    (int n).toCount = .error cause ↔ cause = .outOfRange n ∧ (n < 0 ∨ 2 ^ 32 ≤ n) := by
  rw [toCount]
  split
  next hfits =>
    refine ⟨nofun, ?_⟩
    rintro ⟨-, hout⟩
    simp only [UInt32.size] at hfits
    omega
  next hnot =>
    have hout : n < 0 ∨ 2 ^ 32 ≤ n := by
      simp only [UInt32.size] at hnot
      omega
    rw [Except.error.injEq]
    exact ⟨fun heq => ⟨heq.symm, hout⟩, fun h => h.1.symm⟩

/-- The count under a key is read exactly when the body tells one. -/
lemma count_eq_ok_iff {n : UInt32} : body.count key = .ok n ↔ body.Tells key n := by
  constructor
  · intro hcount
    rw [count] at hcount
    split at hcount
    next hmissing =>
      obtain rfl := Except.ok.inj hcount
      exact .missing (get?_eq_none_iff.mp hmissing)
    next hnull =>
      obtain rfl := Except.ok.inj hcount
      exact .null (get?_eq_some_iff.mp hnull)
    next found hnotNull hfound =>
      cases found with
      | int m =>
        obtain rfl := toCount_int_eq_ok_iff.mp hcount
        exact .whole n (get?_eq_some_iff.mp hfound)
      | null | bool b | float x | string s | array vs | object ms => cases hcount
  · rintro (hmissing | hnull | ⟨_, hwhole⟩)
    · rw [count, get?_eq_none_iff.mpr hmissing]
    · rw [count, get?_eq_some_iff.mpr hnull]
    · rw [count, get?_eq_some_iff.mpr hwhole]
      exact toCount_int_eq_ok_iff.mpr rfl

/-- Otherwise the error says what stands there instead. -/
lemma count_eq_error_iff {cause : CountError} :
    body.count key = .error cause ↔ body.Withholds key cause := by
  constructor
  · intro hcount
    rw [count] at hcount
    split at hcount
    next hmissing => cases hcount
    next hnull => cases hcount
    next found hnotNull hfound =>
      have hhas : body.Has key found := get?_eq_some_iff.mp hfound
      cases found with
      | int m =>
        obtain ⟨rfl, hout⟩ := toCount_int_eq_error_iff.mp hcount
        exact .outOfRange hhas hout
      | null => exact absurd rfl hnotNull
      | bool b | float x | string s | array vs | object ms =>
        obtain rfl := Except.error.inj hcount
        exact .wrongType hhas nofun nofun
  · rintro (⟨hhas, hnotNull, hnotInt⟩ | ⟨hhas, hout⟩)
    · rename_i found
      rw [count, get?_eq_some_iff.mpr hhas]
      cases found with
      | null => exact absurd rfl hnotNull
      | int m => exact absurd rfl (hnotInt m)
      | bool b | float x | string s | array vs | object ms => rfl
    · rw [count, get?_eq_some_iff.mpr hhas]
      exact toCount_int_eq_error_iff.mpr ⟨rfl, hout⟩

/-- A body tells a count under a key unless it has something else there than null or a whole number
of 32 bits. -/
lemma exists_tells_iff : (∃ n, body.Tells key n) ↔
    ∀ found, body.Has key found → found = .null ∨ ∃ n : ℕ, n < 2 ^ 32 ∧ found = .int n := by
  constructor
  · rintro ⟨m, hmissing | hnull | ⟨_, hwhole⟩⟩ found hfound
    · exact absurd hfound (hmissing found)
    · exact .inl (hfound.unique hnull)
    · exact .inr ⟨m.toNat, m.toNat_lt, hfound.unique hwhole⟩
  · intro hall
    cases hcount : body.count key with
    | ok n => exact ⟨n, count_eq_ok_iff.mp hcount⟩
    | error cause =>
      -- What is withheld contradicts the condition.
      obtain ⟨hhas, hnotNull, hnotInt⟩ | ⟨hhas, hout⟩ := count_eq_error_iff.mp hcount
      · obtain hnull | ⟨n, -, hint⟩ := hall _ hhas
        · exact absurd hnull hnotNull
        · exact absurd hint (hnotInt n)
      · obtain hnull | ⟨n, hlt, hint⟩ := hall _ hhas
        · cases hnull
        · obtain rfl := Json.int.inj hint
          omega

end Json

namespace Page

variable {R : Type}

/-- The keys of the three counts, in the order in which they are read. -/
def countKeys : List String := ["startAt", "maxResults", "total"]

/-- The members of a body that tell the place of a page. -/
def counts (page : Page R) : List (String × Json) :=
  [("startAt", .int page.startAt.toNat), ("maxResults", .int page.itemsPerPage.toNat),
    ("total", .int page.totalItems.toNat)]

/-- A page is read exactly when all three counts are, and it has the given records. -/
lemma ofJson_eq_ok_iff {body : Json} {items : List R} {page : Page R} :
    ofJson body items = .ok page ↔ page.items = items ∧ body.Tells "startAt" page.startAt ∧
      body.Tells "maxResults" page.itemsPerPage ∧ body.Tells "total" page.totalItems := by
  simp only [← Json.count_eq_ok_iff, ofJson, except_bind_eq_ok_iff, except_mapError_eq_ok_iff]
  constructor
  · rintro ⟨startAt, hstartAt, itemsPerPage, hitemsPerPage, totalItems, htotalItems, ⟨⟩⟩
    exact ⟨rfl, hstartAt, hitemsPerPage, htotalItems⟩
  · rintro ⟨rfl, hstartAt, hitemsPerPage, htotalItems⟩
    exact ⟨_, hstartAt, _, hitemsPerPage, _, htotalItems, rfl⟩

/-- Otherwise the error is that of the first count that is withheld. -/
lemma ofJson_eq_error_iff {body : Json} {items : List R} {e : Error} :
    ofJson body items = .error e ↔
      ∃ cause, body.FirstWithheld countKeys cause ∧ e = .page cause := by
  simp only [ofJson, except_bind_eq_error_iff, except_mapError_eq_ok_iff,
    except_mapError_eq_error_iff, Json.count_eq_ok_iff, Json.count_eq_error_iff]
  constructor
  · rintro (⟨cause, hcause, rfl⟩ | ⟨startAt, hstartAt, ⟨cause, hcause, rfl⟩ |
      ⟨itemsPerPage, hitemsPerPage, ⟨cause, hcause, rfl⟩ | ⟨totalItems, htotalItems, ⟨⟩⟩⟩⟩)
    · exact ⟨cause, .here hcause, rfl⟩
    · exact ⟨cause, .later hstartAt (.here hcause), rfl⟩
    · exact ⟨cause, .later hstartAt (.later hitemsPerPage (.here hcause)), rfl⟩
  · rintro ⟨cause, hfirst, rfl⟩
    rcases hfirst with hcause | ⟨hstartAt, hcause | ⟨hitemsPerPage, hcause | ⟨-, ⟨⟩⟩⟩⟩
    · exact .inl ⟨cause, hcause, rfl⟩
    · exact .inr ⟨_, hstartAt, .inl ⟨cause, hcause, rfl⟩⟩
    · exact .inr ⟨_, hstartAt, .inr ⟨_, hitemsPerPage, .inl ⟨cause, hcause, rfl⟩⟩⟩

/-- A page is read out of exactly those bodies that have null, a whole number of 32 bits or nothing
under each of the three keys.  It has the given records and the counts that the body tells; the
error of any other body is that of the first count that is withheld.  What is written is read back,
whatever else the body has. -/
theorem ofJson_tells_or_withholds (body : Json) (items : List R) :
    ((∃ page, ofJson body items = .ok page) ↔ ∀ key ∈ countKeys, ∀ found, body.Has key found →
      found = .null ∨ ∃ n : ℕ, n < 2 ^ 32 ∧ found = .int n) ∧
    (∀ page, ofJson body items = .ok page ↔ page.items = items ∧
      body.Tells "startAt" page.startAt ∧ body.Tells "maxResults" page.itemsPerPage ∧
        body.Tells "total" page.totalItems) ∧
    (∀ e, ofJson body items = .error e ↔
      ∃ cause, body.FirstWithheld countKeys cause ∧ e = .page cause) ∧
    ∀ (others : List (String × Json)) (page : Page R),
      ofJson (.object (others ++ page.counts)) page.items = .ok page := by
  refine ⟨?_, fun page => ofJson_eq_ok_iff, fun e => ofJson_eq_error_iff, fun others page => ?_⟩
  · simp only [← Json.exists_tells_iff, countKeys, List.forall_mem_cons]
    constructor
    · rintro ⟨page, hpage⟩
      obtain ⟨-, hstartAt, hitemsPerPage, htotalItems⟩ := ofJson_eq_ok_iff.mp hpage
      exact ⟨⟨_, hstartAt⟩, ⟨_, hitemsPerPage⟩, ⟨_, htotalItems⟩, List.forall_mem_nil _⟩
    · rintro ⟨⟨startAt, hstartAt⟩, ⟨itemsPerPage, hitemsPerPage⟩, ⟨totalItems, htotalItems⟩, -⟩
      exact ⟨⟨items, startAt, itemsPerPage, totalItems⟩,
        ofJson_eq_ok_iff.mpr ⟨rfl, hstartAt, hitemsPerPage, htotalItems⟩⟩
  · refine ofJson_eq_ok_iff.mpr ⟨rfl, .whole _ ?_, .whole _ ?_, .whole _ ?_⟩
    · exact ⟨others, page.counts.drop 1, rfl, by simp [counts]⟩
    · exact ⟨others ++ page.counts.take 1, page.counts.drop 2, by simp [counts], by simp [counts]⟩
    · exact ⟨others ++ page.counts.take 2, page.counts.drop 3, by simp [counts], by simp [counts]⟩

/-- A body with a limit that is no number and a total that is out of range: the limit is read
first. -/
example : ofJson (.object [("total", .int (2 ^ 32)), ("maxResults", .bool true)]) [1] =
    .error (.page (.wrongType (.bool true))) := rfl

end Page

end IssueQuery
