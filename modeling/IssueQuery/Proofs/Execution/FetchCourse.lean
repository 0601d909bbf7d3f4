import IssueQuery.Proofs.Execution.History

/-!
# The course of a fetch

What a fetch shows to the outside follows its directive.  The custom fields are looked up one after
the other, each from the cache or by a question to the server (`Lookup.Shown`); only when all of
them were found (`LookedUp`) the request is made, and nothing is shown after it.  `Fetch.Course`
says at each phase what a fetch has shown so far.  Every move keeps it (`Fetch.Course.move`), so it
holds in every history of a system, whatever the other tasks do in between.

`System.History.fetch_course` is the result: a fetch is decided by its pipeline and its signal at
its first poll, and after that it keeps its course.

A history interleaves polls.  The poll of a task is one step of the system, and what other tasks and
the outside do falls between two polls.  In the middle of a poll a signal fires only where an
`Activity` fires it, which is a lookup or a request that the poll goes on with.  So the signal can
still fire after the last lookup and before the request of the same poll, as it does in
`System.fetch_course_late`, but not between the look at the signal and the request, where nothing is
awaited.  `IssueQuery.Proofs.Execution.Cancellation` takes the polls of a request apart and lets
signals fire in the middle of them as well.
-/

namespace IssueQuery

variable {σ R α : Type}

/-! ### What lookups show -/

/-- What a lookup that is under way has shown. -/
def Lookup.shown (name : String) : Lookup → List Event
  | asking _ => [.asked name]
  | _ => []

/-- What the lookup of a name has shown from its beginning on. -/
inductive Lookup.Shown (name : String) :
    List Event → Progress (Except Error CustomField) Lookup → Prop where
  | underWay (lookup : Lookup) : Shown name (lookup.shown name) (.pending lookup)
  /-- The field was in the cache. -/
  | found (field : CustomField) :
    Shown name [.lookedUp name (.ok field)] (.ready (.ok field))
  /-- The server knew the field. -/
  | answered (field : CustomField) :
    Shown name [.asked name, .stored name field, .lookedUp name (.ok field)] (.ready (.ok field))
  /-- The server did not know the field, or failed. -/
  | failed (e : Error) :
    Shown name [.asked name, .lookedUp name (.error e)] (.ready (.error e))

/-- A move of a lookup goes on with what the lookup has shown. -/
lemma Lookup.Move.shown {source : FieldSource} {id : TaskId} {name : String}
    {progress progress' : Progress (Except Error CustomField) Lookup} {w w' : World σ}
    {before events : List Event} (h : Move source id name progress w events progress' w')
    (hbefore : Shown name before progress) : Shown name (before ++ events) progress' := by
  cases h with
  | enter hcell =>
    cases hbefore with
    | underWay lookup => exact .underWay .queued
  | @find lookup w field hlookup hcell =>
    cases hbefore with
    | underWay lookup =>
      cases lookup with
      | fresh | queued => exact .found field
      | asking reply => exact absurd rfl (hlookup reply)
  | ask hholder =>
    cases hbefore with
    | underWay lookup => exact .underWay (.asking _)
  | @wait reply rest w w' hpoll =>
    cases hbefore with
    | underWay lookup => exact .underWay (.asking rest)
  | @fill reply field w w₁ w' hpoll hshare =>
    cases hbefore with
    | underWay lookup => exact .answered field
  | unknown hpoll hrelease =>
    cases hbefore with
    | underWay lookup => exact .failed (.fieldNotFound name)
  | @fail reply e w w₁ w' hpoll hrelease =>
    cases hbefore with
    | underWay lookup => exact .failed e

/-- What is shown when some names are looked up one after the other and all are found. -/
inductive LookedUp : List String → List Event → Prop where
  | nil : LookedUp [] []
  | snoc {names : List String} {shown events : List Event} {name : String}
    {field : CustomField} :
    LookedUp names shown → Lookup.Shown name events (.ready (.ok field)) →
      LookedUp (names ++ [name]) (shown ++ events)

/-- No lookup is a request for a page. -/
lemma Lookup.Shown.filterMap_call? {name : String} {events : List Event}
    {progress : Progress (Except Error CustomField) Lookup} (h : Shown name events progress) :
    events.filterMap Event.call? = [] := by
  cases h with
  | underWay lookup => cases lookup <;> rfl
  | found field | answered field | failed e => rfl

/-- While names are looked up, no page is requested. -/
lemma LookedUp.filterMap_call? {names : List String} {shown : List Event}
    (h : LookedUp names shown) : shown.filterMap Event.call? = [] := by
  induction h with
  | nil => rfl
  | snoc _ hlast ih => rw [List.filterMap_append, ih, hlast.filterMap_call?, List.nil_append]

/-! ### The course -/

namespace Fetch

/-- The request for a directive, made before the signal has fired. -/
def callFor (d : Directive) : FetchCall := ⟨d.jql, d.maxResults, d.startAt.getD 0, false⟩

/-- What a fetch has shown when it is at some phase, if its signal had not fired at its beginning:
it has a directive, and some names are to be looked up before the request. -/
inductive Course (p : Pipeline σ R) (signal : Option Signal) (complete : Completion σ R α)
    (d : Directive) (names : List String) : List Event → Phase σ R α → World σ → Prop where
  /-- All names up to some point are looked up, and the next lookup is under way. -/
  | lookingUp {before rest : List String} {shown : List Event} {name : String} {lookup : Lookup}
    {w : World σ} :
    LookedUp before shown → names = before ++ name :: rest →
      Course p signal complete d names (shown ++ lookup.shown name)
        (.fetching p signal complete (.lookingUp d name lookup rest)) w
  /-- A lookup has failed: its error is the result. -/
  | failed {before rest : List String} {shown events : List Event} {name : String} {e : Error}
    {w : World σ} :
    LookedUp before shown → names = before ++ name :: rest →
      Lookup.Shown name events (.ready (.error e)) →
      Course p signal complete d names (shown ++ events) (.slot (.finished (.error e))) w
  /-- A lookup was given up since the signal has fired. -/
  | cancelledLookup {before rest : List String} {shown : List Event} {name : String}
    {lookup : Lookup} {w : World σ} :
    LookedUp before shown → names = before ++ name :: rest → w.isCancelled signal = true →
      Course p signal complete d names
        (shown ++ lookup.shown name ++ (lookup.place name).abandonment)
        (.slot (.finished (.error .cancelled))) w
  /-- The fetch was dropped in the course of its lookups. -/
  | droppedLookup {before rest : List String} {shown : List Event} {name : String}
    {lookup : Lookup} {w : World σ} :
    LookedUp before shown → names = before ++ name :: rest →
      Course p signal complete d names
        (shown ++ lookup.shown name ++ (lookup.place name).abandonment) (.slot .dropped) w
  /-- All names are looked up, and the request is the next to be made. -/
  | cleared {shown : List Event} {w : World σ} :
    LookedUp names shown → Course p signal complete d names shown (.cleared p signal complete d) w
  /-- All names are looked up, but the signal has fired before the request. -/
  | cancelledRequest {shown : List Event} {w : World σ} :
    LookedUp names shown → w.isCancelled signal = true →
      Course p signal complete d names shown (.slot (.finished (.error .cancelled))) w
  /-- The request is made, and the page is awaited. -/
  | requesting {shown : List Event} {reply : Activity (Page R)} {w : World σ} :
    LookedUp names shown →
      Course p signal complete d names (shown ++ [.requested (callFor d)])
        (.fetching p signal complete (.requesting d.jql reply)) w
  /-- The request has come to its end. -/
  | requested {shown : List Event} {result : Except Error α} {w : World σ} :
    LookedUp names shown →
      Course p signal complete d names (shown ++ [.requested (callFor d)])
        (.slot (.finished result)) w
  /-- The fetch was dropped in the course of its request. -/
  | droppedRequest {shown : List Event} {w : World σ} :
    LookedUp names shown →
      Course p signal complete d names (shown ++ [.requested (callFor d)]) (.slot .dropped) w

variable {p : Pipeline σ R} {signal : Option Signal} {complete : Completion σ R α} {d : Directive}
  {names : List String} {shown : List Event} {phase : Phase σ R α} {w w' : World σ}

/-- At the beginning, or after a lookup: the next lookup begins, or none is left. -/
lemma course_toLookUp {before rest : List String} (hbefore : LookedUp before shown)
    (hnames : names = before ++ rest) :
    Course p signal complete d names shown (.toLookUp p signal complete d rest) w := by
  cases rest with
  | nil =>
    have hall : LookedUp names shown := by simpa [hnames] using hbefore
    exact .cleared hall
  | cons name rest =>
    have hcourse : Course p signal complete d names (shown ++ Lookup.fresh.shown name)
        (.fetching p signal complete (.lookingUp d name .fresh rest)) w := .lookingUp hbefore hnames
    rw [show Lookup.fresh.shown name = [] from rfl, List.append_nil] at hcourse
    exact hcourse

/-- However far a lookup has come, it leaves the fetch on its course. -/
lemma course_lookingUp {before rest : List String} {events : List Event} {name : String}
    {progress : Progress (Except Error CustomField) Lookup} (hbefore : LookedUp before shown)
    (hnames : names = before ++ name :: rest) (hevents : Lookup.Shown name events progress) :
    Course p signal complete d names (shown ++ events)
      (.lookingUp p signal complete d name rest progress) w := by
  cases progress with
  | pending lookup =>
    cases hevents
    exact .lookingUp hbefore hnames
  | ready result =>
    cases result with
    | error e => exact .failed hbefore hnames hevents
    | ok field =>
      have hlookedUp : LookedUp (before ++ [name]) (shown ++ events) := .snoc hbefore hevents
      exact course_toLookUp hlookedUp (by simpa using hnames)

/-- A signal that has fired stays fired. -/
lemma isCancelled_of_subset (hfired : w.fired ⊆ w'.fired) (h : w.isCancelled signal = true) :
    w'.isCancelled signal = true := by
  cases signal with
  | none => exact h
  | some signal =>
    have hmem : signal ∈ w.fired := List.contains_iff_mem.mp h
    exact List.contains_iff_mem.mpr (hfired hmem)

/-- The course of a fetch depends on the world only by the signals that have fired. -/
lemma Course.of_subset (h : Course p signal complete d names shown phase w)
    (hfired : w.fired ⊆ w'.fired) : Course p signal complete d names shown phase w' := by
  cases h with
  | lookingUp hbefore hnames => exact .lookingUp hbefore hnames
  | failed hbefore hnames hevents => exact .failed hbefore hnames hevents
  | cancelledLookup hbefore hnames hcancelled =>
    exact .cancelledLookup hbefore hnames (isCancelled_of_subset hfired hcancelled)
  | droppedLookup hbefore hnames => exact .droppedLookup hbefore hnames
  | cleared hall => exact .cleared hall
  | cancelledRequest hall hcancelled =>
    exact .cancelledRequest hall (isCancelled_of_subset hfired hcancelled)
  | requesting hall => exact .requesting hall
  | requested hall => exact .requested hall
  | droppedRequest hall => exact .droppedRequest hall

/-- Every move keeps the course of a fetch. -/
theorem Course.move {provider : Provider R} {id : TaskId}
    {phase' : Phase σ R α} {events : List Event}
    (hcourse : Course p signal complete d names shown phase w)
    (h : Task.Move provider id phase w events phase' w') :
    Course p signal complete d names (shown ++ events) phase' w' := by
  have hfired : w.fired ⊆ w'.fired := h.records.fired
  cases hcourse with
  | failed | cancelledLookup | droppedLookup | cancelledRequest | requested | droppedRequest =>
    cases h
  | @lookingUp before rest shown name lookup w hbefore hnames =>
    cases h with
    | lookUp hmove =>
      have hevents := hmove.shown (.underWay lookup)
      rw [List.append_assoc]
      exact course_lookingUp hbefore hnames hevents
    | watch hblocked hquiet =>
      rw [List.append_nil]
      exact .lookingUp hbefore hnames
    | cancelLookup hblocked hcancelled hquiet habandon =>
      exact .cancelledLookup hbefore hnames (isCancelled_of_subset hfired hcancelled)
    | drop habandon => exact .droppedLookup hbefore hnames
  | cleared hall =>
    cases h with
    | cancelRequest hquiet hcancelled =>
      rw [List.append_nil]
      exact .cancelledRequest hall hcancelled
    | request hquiet hcancelled hcalls => exact .requesting hall
  | @requesting shown reply w hall =>
    cases h with
    | awaitPage hquiet =>
      rw [List.append_nil]
      exact .requesting hall
    | endRequest hquiet =>
      rw [List.append_nil]
      exact .requested hall
    | drop habandon =>
      have hdropped : Course p signal complete d names (shown ++ [.requested (callFor d)])
          (.slot .dropped) w' := .droppedRequest hall
      rwa [← List.append_nil (shown ++ _)] at hdropped

/-- At most one page is requested on the course of a fetch: the one for its directive. -/
lemma Course.filterMap_call? (h : Course p signal complete d names shown phase w) :
    shown.filterMap Event.call? = [] ∨ shown.filterMap Event.call? = [callFor d] := by
  have hlookup : ∀ name (lookup : Lookup), (lookup.shown name).filterMap Event.call? = [] := by
    intro name lookup
    have hunderWay : Lookup.Shown name (lookup.shown name) (.pending lookup) := .underWay lookup
    exact hunderWay.filterMap_call?
  have habandonment : ∀ place : Place, place.abandonment.filterMap Event.call? = [] :=
    fun place => place.filterMap_abandonment.1
  cases h with
  | lookingUp hbefore hnames =>
    left
    rw [List.filterMap_append, hbefore.filterMap_call?, hlookup, List.append_nil]
  | failed hbefore hnames hevents =>
    left
    rw [List.filterMap_append, hbefore.filterMap_call?, hevents.filterMap_call?, List.append_nil]
  | cancelledLookup hbefore hnames _ | droppedLookup hbefore hnames =>
    left
    rw [List.filterMap_append, List.filterMap_append, hbefore.filterMap_call?, hlookup,
      habandonment]
    rfl
  | cleared hall | cancelledRequest hall _ => exact .inl hall.filterMap_call?
  | requesting hall | requested hall | droppedRequest hall =>
    right
    rw [List.filterMap_append, hall.filterMap_call?]
    rfl

end Fetch

/-! ### The first poll -/

namespace System

variable {providers : TaskId → Provider R} {s s' : System σ R α} {id : TaskId}
  {p : Pipeline σ R} {signal : Option Signal} {complete : Completion σ R α}

/-- A task that is over stays as it is and shows nothing. -/
lemma History.over {slot : Slot σ R α} {actions : List (Action σ R α)} {entries : List Entry}
    (h : History providers s actions entries) (hslot : s.slots[id]? = some slot)
    (hover : ∀ task, slot ≠ .running task) :
    (s.after providers actions).slots[id]? = some slot ∧ eventsOf id entries = [] := by
  have hmove : ∀ {shown : List Event} {phase phase' : Phase σ R α} {w w' : World σ}
      {events : List Event}, shown = [] ∧ phase = .slot slot →
      Task.Move (providers id) id phase w events phase' w' →
      shown ++ events = [] ∧ phase' = .slot slot := by
    rintro shown phase phase' w w' events ⟨rfl, rfl⟩ hmove
    exact Task.eq_of_chain_of_over (.single hmove) hover
  have hstart : ([] : List Event) = [] ∧ Phase.slot slot = .slot slot := ⟨rfl, rfl⟩
  obtain ⟨slot', hslot', hnone, hphase⟩ := h.preserves
    (P := fun shown phase _ => shown = [] ∧ phase = .slot slot) hmove (fun hP _ => hP) hslot hstart
  cases hphase
  exact ⟨hslot', hnone⟩

/-- A fetch is refused, is cancelled, or sets out on its course with its first poll. -/
lemma Turn.begin_fetch {provider : Provider R} {events : List Event} {slot : Slot σ R α}
    (h : Turn provider id s events slot s') (hkept : slot ≠ .dropped)
    (hslot : s.slots[id]? = some (.running (.fetch p signal complete .fresh))) :
    match (outcome (p.toDirective provider.fields) s.world.toContext).1 with
    | .error e => events = [] ∧ slot = .finished (.error e)
    | .ok d =>
      if s.world.isCancelled signal then events = [] ∧ slot = .finished (.error .cancelled)
      else
        Fetch.Course p signal complete d (provider.fieldsToLookUp d) events (.slot slot)
          s'.world := by
  obtain ⟨htask, hbefore, hchain, hblocked, hafter, -⟩ := h
  rename_i task w w'
  obtain rfl : Task.fetch p signal complete .fresh = task := by
    simpa using hslot.symm.trans htask
  have hsignal : s.world.isCancelled signal = w.isCancelled signal := by
    cases signal with
    | none => rfl
    | some signal => simp [World.isCancelled, World.hasFired, hbefore.fired]
  rw [← hbefore.context, hsignal]
  cases hchain with
  | refl => exact False.elim (hblocked _ rfl)
  | head hfirst hrest =>
    cases hfirst with
    | refuse hcompile =>
      obtain ⟨rfl, hphase⟩ := Task.eq_of_chain_of_over hrest (fun _ => nofun)
      rw [hcompile]
      exact ⟨rfl, Phase.slot.inj hphase⟩
    | cancelStart hcompile hcancelled =>
      obtain ⟨rfl, hphase⟩ := Task.eq_of_chain_of_over hrest (fun _ => nofun)
      rw [hcompile]
      simp only [hcancelled, if_true]
      exact ⟨rfl, Phase.slot.inj hphase⟩
    | @start p signal complete d w c hcompile hcancelled =>
      rw [hcompile]
      simp only [hcancelled, Bool.false_eq_true, if_false]
      have hstart : Fetch.Course p signal complete d (provider.fieldsToLookUp d) []
          (.toLookUp p signal complete d (provider.fieldsToLookUp d))
          { w with toContext := c } := Fetch.course_toLookUp .nil rfl
      exact (hrest.preserves Fetch.Course.move hstart).of_subset hafter.records.fired
    | drop habandon =>
      obtain ⟨-, hphase⟩ := Task.eq_of_chain_of_over hrest (fun _ => nofun)
      exact absurd (Phase.slot.inj hphase) hkept

/-! ### The whole course -/

/-- A fetch whose pipeline does not compile ends with the error of the compilation, whether its
signal has fired or not; otherwise a fetch whose signal has fired at its first poll ends as
cancelled.  Neither shows anything.  Any other fetch keeps its course, so it makes at most one
request, that for its directive, after all lookups that it has to make and before the signal has
fired.  This holds from the first poll on, whatever the state of the system is then, and whatever
happens later.  A poll is one step here, and the signals that fire within it are those that the
activities of the fetch fire. -/
theorem History.fetch_course {actions : List (Action σ R α)} {entries : List Entry}
    (h : History providers s (.poll id :: actions) entries)
    (hslot : s.slots[id]? = some (.running (.fetch p signal complete .fresh))) :
    let s' := s.after providers (.poll id :: actions)
    let shown := eventsOf id entries
    s.world.Records (entries.map Prod.snd) s'.world ∧
    ∃ slot, s'.slots[id]? = some slot ∧
      match (outcome (p.toDirective (providers id).fields) s.world.toContext).1 with
      | .error e => shown = [] ∧ slot = .finished (.error e)
      | .ok d =>
        if s.world.isCancelled signal then shown = [] ∧ slot = .finished (.error .cancelled)
        else
          Fetch.Course p signal complete d
            (if (providers id).checksFields then d.customFields else []) shown (.slot slot)
            s'.world ∧
          (shown.filterMap Event.call? = [] ∨
            shown.filterMap Event.call? = [⟨d.jql, d.maxResults, d.startAt.getD 0, false⟩]) := by
  refine ⟨h.records, ?_⟩
  cases h with
  | @cons _ _ _ entries later hfirst hlater =>
    cases hfirst with
    | pollOver hover => exact absurd hslot (hover _)
    | @poll _ events progress hturn =>
      have hbegin := hturn.begin_fetch (Slot.ofProgress_ne_dropped progress) hslot
      have hnext := hturn.getElem?_self
      rw [eventsOf_append, eventsOf_map_self]
      -- If the first poll decides the fetch, nothing comes after it.
      have hdecided : ∀ result, events = [] ∧ Slot.ofProgress progress = .finished result →
          ∃ slot, (s.after providers (.poll id :: actions)).slots[id]? = some slot ∧
            events ++ eventsOf id later = [] ∧ slot = .finished result := by
        rintro result ⟨rfl, hfinished⟩
        rw [hfinished] at hnext
        obtain ⟨hstays, hnone⟩ := hlater.over hnext (fun _ => nofun)
        exact ⟨_, hstays, hnone, rfl⟩
      cases hcompile : (outcome (p.toDirective (providers id).fields) s.world.toContext).1 with
      | error e =>
        rw [hcompile] at hbegin
        exact hdecided _ hbegin
      | ok d =>
        rw [hcompile] at hbegin
        cases hcancelled : s.world.isCancelled signal with
        | true =>
          simp only [hcancelled, if_true] at hbegin ⊢
          exact hdecided _ hbegin
        | false =>
          simp only [hcancelled, Bool.false_eq_true, if_false] at hbegin ⊢
          obtain ⟨slot, hstays, hcourse⟩ := hlater.preserves
            (P := Fetch.Course p signal complete d ((providers id).fieldsToLookUp d))
            Fetch.Course.move Fetch.Course.of_subset hnext hbegin
          exact ⟨slot, hstays, hcourse, hcourse.filterMap_call?⟩

/-- A server that is slow to tell about a field, and a signal that fires with its answer. -/
def lateProvider : Provider Nat where
  fetcher _ := .finish (.ok ⟨[1, 2], 0, 2, 2⟩)
  source names := .pause (.fire "stop" (.finish (.ok (some ⟨"f1", names.getLastD "", none⟩))))
  checksFields := true

/-- A query that needs a field to be looked up. -/
def teamQuery : Pipeline Unit Nat :=
  .ofDeclared [.filter (.binary .equal (.customField "Team") (.constant (.text "x")))]

/-- Two tasks want the same field, the first of them for a request. -/
def lateSystem : System Unit Nat (List Nat) :=
  .ofTasks (.initial ()) [
    .fetch teamQuery (some "stop") (fun page => pure page.items) .fresh,
    .lookup "Team" (fun _ => []) .fresh]

/-- The lookups succeed, but the signal fires at the same moment: no request is made. -/
theorem fetch_course_late :
    ∃ entries, History (fun _ => lateProvider) lateSystem [.poll 0, .poll 1, .poll 0] entries ∧
      Fetch.Course teamQuery (some "stop") (fun page => pure page.items)
        ⟨"\"Team\" ~ \"x\"", [], none, none, ["Team"]⟩ ["Team"] (eventsOf 0 entries)
        (.slot (.finished (.error .cancelled)))
        (lateSystem.after (fun _ => lateProvider) [.poll 0, .poll 1, .poll 0]).world ∧
      (entries.map Prod.snd).filterMap Event.call? = [] := by
  obtain ⟨entries, hhistory⟩ := exists_history (fun _ => lateProvider) lateSystem
    [.poll 0, .poll 1, .poll 0]
  obtain ⟨hrecords, slot, hslot, hcourse⟩ := hhistory.fetch_course rfl
  have hcompile : (outcome (teamQuery.toDirective lateProvider.fields)
      lateSystem.world.toContext).1 =
        .ok ⟨"\"Team\" ~ \"x\"", [], none, none, ["Team"]⟩ := by
    cbv
  have hcalls : (lateSystem.after (fun _ => lateProvider)
      [.poll 0, .poll 1, .poll 0]).world.calls = [] := by
    cbv
  cbv at hslot
  obtain rfl := Option.some.inj hslot
  rw [hcompile] at hcourse
  exact ⟨entries, hhistory, hcourse.1, hrecords.calls.symm.trans hcalls⟩

end System

end IssueQuery
