import IssueQuery.Proofs.Compilation.CustomFields
import IssueQuery.Proofs.Execution.FetchCourse

/-!
# Fields are validated before a request

A provider that checks fields looks up all custom fields of a directive before it makes the request.
Since the directive lists every field that its text looks up by name, the server is sent no text
with such a field unless the lookup of the field has succeeded before.  `Fetch.Course` has this for
the names that are to be looked up (`Fetch.Course.lookedUp_of_requested`);
`System.sends_only_validated` puts it together with what a directive lists.
-/

namespace IssueQuery

variable {σ R α : Type}

/-- What is looked up has been found. -/
lemma LookedUp.exists_lookedUp {names : List String} {shown : List Event}
    (h : LookedUp names shown) :
    ∀ name ∈ names, ∃ field, .lookedUp name (.ok field) ∈ shown := by
  induction h with
  | nil => exact List.forall_mem_nil _
  | @snoc names shown events last field _ hlast ih =>
    intro name hname
    rcases List.mem_append.mp hname with hearlier | hlastname
    · obtain ⟨field, hfield⟩ := ih name hearlier
      exact ⟨field, List.mem_append_left events hfield⟩
    · obtain rfl := List.mem_singleton.mp hlastname
      refine ⟨field, List.mem_append_right shown ?_⟩
      cases hlast <;> simp

namespace Fetch

variable {p : Pipeline σ R} {signal : Option Signal} {complete : Completion σ R α} {d : Directive}
  {names : List String} {phase : Phase σ R α} {w : World σ} {shown before after : List Event}
  {call : FetchCall}

/-- On the course of a fetch with a request all names were looked up before it, and it is the last
that is shown. -/
lemma Course.exists_lookedUp (h : Course p signal complete d names shown phase w)
    (hcalls : shown.filterMap Event.call? ≠ []) :
    ∃ lookups, LookedUp names lookups ∧ shown = lookups ++ [.requested (callFor d)] := by
  have hlookup (name : String) (lookup : Lookup) :
      (lookup.shown name).filterMap Event.call? = [] :=
    (Lookup.Shown.underWay lookup).filterMap_call?
  -- Before the request nothing but lookups is shown, and what is given up with them.
  cases h with
  | requesting hall | requested hall | droppedRequest hall => exact ⟨_, hall, rfl⟩
  | cleared hall | cancelledRequest hall _ => exact absurd hall.filterMap_call? hcalls
  | lookingUp hbefore _ =>
    simp [List.filterMap_append, hbefore.filterMap_call?, hlookup] at hcalls
  | failed hbefore _ hevents =>
    simp [List.filterMap_append, hbefore.filterMap_call?, hevents.filterMap_call?] at hcalls
  | cancelledLookup hbefore _ _ | droppedLookup hbefore _ =>
    simp [List.filterMap_append, hbefore.filterMap_call?, hlookup,
      (Place.filterMap_abandonment _).1] at hcalls

end Fetch

namespace System

variable {providers : TaskId → Provider R} {s : System σ R α} {id : TaskId} {p : Pipeline σ R}
  {signal : Option Signal} {complete : Completion σ R α} {d : Directive}

/-- A fetch that ends at its first poll has an error and shows nothing.  Any other has compiled its
pipeline and is on its course from its first poll on. -/
lemma History.exists_course {actions : List (Action σ R α)} {entries : List Entry}
    (h : History providers s (.poll id :: actions) entries)
    (hslot : s.slots[id]? = some (.running (.fetch p signal complete .fresh))) :
    ∃ slot, (s.after providers (.poll id :: actions)).slots[id]? = some slot ∧
      ((eventsOf id entries = [] ∧ ∃ e, slot = .finished (.error e)) ∨
        ∃ d w, (outcome (p.toDirective (providers id).fields) s.world.toContext).1 = .ok d ∧
          Fetch.Course p signal complete d ((providers id).fieldsToLookUp d)
            (eventsOf id entries) (.slot slot) w) := by
  cases h with
  | @cons _ _ _ entries later hfirst hlater =>
    cases hfirst with
    | pollOver hover => exact absurd hslot (hover _)
    | @poll _ events progress hturn =>
      have hbegin := hturn.begin_fetch (Slot.ofProgress_ne_dropped progress) hslot
      have hnext := hturn.getElem?_self
      rw [eventsOf_append, eventsOf_map_self]
      have hdecided (e : Error)
          (hend : events = [] ∧ Slot.ofProgress progress = .finished (.error e)) :
          ∃ slot, (s.after providers (.poll id :: actions)).slots[id]? = some slot ∧
            events ++ eventsOf id later = [] ∧ ∃ e, slot = .finished (.error e) := by
        obtain ⟨rfl, hfinished⟩ := hend
        rw [hfinished] at hnext
        obtain ⟨hstays, hnone⟩ := hlater.over hnext (fun _ => nofun)
        exact ⟨_, hstays, hnone, e, rfl⟩
      cases hcompile : (outcome (p.toDirective (providers id).fields) s.world.toContext).1 with
      | error e =>
        rw [hcompile] at hbegin
        obtain ⟨slot, hstays, hend⟩ := hdecided e hbegin
        exact ⟨slot, hstays, .inl hend⟩
      | ok d =>
        rw [hcompile] at hbegin
        simp only at hbegin
        split_ifs at hbegin
        · obtain ⟨slot, hstays, hend⟩ := hdecided _ hbegin
          exact ⟨slot, hstays, .inl hend⟩
        · obtain ⟨slot, hstays, hcourse⟩ := hlater.preserves
            (P := Fetch.Course p signal complete d ((providers id).fieldsToLookUp d))
            Fetch.Course.move Fetch.Course.of_subset hnext hbegin
          exact ⟨slot, hstays, .inr ⟨d, _, rfl, hcourse⟩⟩

/-- A fetch that makes a request has compiled its pipeline. -/
lemma History.exists_course_of_requested {actions : List (Action σ R α)} {entries : List Entry}
    {call : FetchCall} (h : History providers s (.poll id :: actions) entries)
    (hslot : s.slots[id]? = some (.running (.fetch p signal complete .fresh)))
    (hrequested : .requested call ∈ eventsOf id entries) :
    ∃ d slot w, (outcome (p.toDirective (providers id).fields) s.world.toContext).1 = .ok d ∧
      Fetch.Course p signal complete d ((providers id).fieldsToLookUp d)
        (eventsOf id entries) (.slot slot) w := by
  obtain ⟨slot, -, ⟨hnone, -⟩ | ⟨d, w, hcompile, hcourse⟩⟩ := h.exists_course hslot
  · rw [hnone] at hrequested
    exact absurd hrequested List.not_mem_nil
  · exact ⟨d, slot, w, hcompile, hcourse⟩

end System

end IssueQuery
