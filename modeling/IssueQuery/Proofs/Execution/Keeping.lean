import IssueQuery.Execution.Task
import IssueQuery.Proofs.Outcome

/-!
# What computations keep

Tasks are made of a few operations on the world: signals are fired and looked at, tasks are woken,
cells and records change, and there are entries in the log.  A relation between worlds that all of
them keep (`Keeping`) is kept by everything that a task does short of its request: by going on with
an answer, by the lookups of a field, and by the wait for a page.

Entries of the log that announce a request are left out, so that one can also say that there are
none.
-/

namespace IssueQuery

variable {σ R α β : Type}

/-- The entry announces a request. -/
def LogEvent.isRequest : LogEvent → Bool
  | request _ _ _ _ => true
  | _ => false

/-- The world before a computation and the one after it stand in a relation. -/
def Keeps (P : World σ → World σ → Prop) (x : StateM (World σ) β) : Prop := ∀ w, P w (x.run w).2

/-- A relation between worlds that is kept by all operations of which the lookups of a task and its
wait for a page are made. -/
structure Keeping (id : TaskId) (P : World σ → World σ → Prop) : Prop where
  refl : ∀ w, P w w
  trans : ∀ {w w₁ w'}, P w w₁ → P w₁ w' → P w w'
  fire : ∀ signal, Keeps P (World.fire signal)
  wake : ∀ tasks, Keeps P (World.wake tasks)
  look : ∀ signal, Keeps P (World.pollCancellation id signal)
  cache : ∀ w cache, P w { w with cache }
  lookups : ∀ w lookups, P w { w with lookups }
  note : ∀ event, event.isRequest = false → Keeps P (World.note event)

namespace Keeping

variable {id : TaskId} {P : World σ → World σ → Prop} (h : Keeping id P)

include h

/-- To return a value keeps the relation. -/
lemma pure (a : α) : Keeps P (pure a : StateM (World σ) α) := h.refl

/-- Two parts that keep the relation keep it together, whatever the first one comes to. -/
lemma bind {x : StateM (World σ) α} {f : α → StateM (World σ) β} (hx : Keeps P x)
    (hf : ∀ a, Keeps P (f a)) : Keeps P (x >>= f) :=
  fun w => h.trans (hx w) (hf _ _)

/-- Looking at the world changes nothing. -/
lemma get : Keeps P (MonadState.get : StateM (World σ) (World σ)) := h.refl

/-- What is computed next may depend on the world. -/
lemma get_bind {f : World σ → StateM (World σ) β} (hf : ∀ w, Keeps P (f w)) :
    Keeps P (MonadState.get >>= f) :=
  h.bind h.get hf

/-- A change to the cache keeps the relation. -/
lemma modifyCache (change : World σ → FieldCache) :
    Keeps P (modifyGet fun w => ((), { w with cache := change w }) : StateM (World σ) Unit) :=
  fun w => h.cache w _

/-- A change to the record of the questions keeps the relation. -/
lemma modifyLookups (change : World σ → List String) :
    Keeps P (modifyGet fun w => ((), { w with lookups := change w }) : StateM (World σ) Unit) :=
  fun w => h.lookups w _

/-- What somebody else does for the task in a poll keeps the relation. -/
lemma poll_activity (activity : Activity α) :
    Keeps P (activity.poll id : StateM (World σ) (Progress (Except Error α) (Activity α))) := by
  induction activity with
  | finish result => exact h.pure _
  | fire signal next ih => exact h.bind (h.fire signal) fun _ => ih
  | pause next => exact h.bind (h.wake [id]) fun _ => h.pure _
  | hang => exact h.pure _

/-! ### Lookups -/

/-- To leave the line of a cell keeps the relation. -/
lemma release (name : String) : Keeps P (Lookup.release id name) := by
  refine h.get_bind fun w => h.bind (h.modifyCache _) fun _ => ?_
  split
  · exact h.get_bind fun _ => h.wake _
  · exact h.pure ()

/-- To share an answer with a line keeps the relation. -/
lemma share (name : String) (field : CustomField) : Keeps P (Lookup.share id name field) :=
  h.get_bind fun _ => h.bind (h.modifyCache _) fun _ => h.wake _

/-- To go on with an answer keeps the relation, whatever the answer is. -/
lemma receive (name : String) (reply : Activity (Option CustomField)) :
    Keeps P (Lookup.receive id name reply) := by
  refine h.bind (h.poll_activity reply) fun answer => ?_
  rcases answer with (e | _ | field) | rest
  · exact h.bind (h.release name) fun _ => h.pure _
  · exact h.bind (h.release name) fun _ => h.pure _
  · exact h.bind (h.share name field) fun _ => h.pure _
  · exact h.pure _

/-- To look into a cell, and to ask if it is the task's turn, keeps the relation. -/
lemma tryCell (source : FieldSource) (name : String) : Keeps P (Lookup.tryCell source id name) := by
  refine h.get_bind fun w => ?_
  split
  · exact h.pure _
  · split
    · exact h.bind (h.note _ rfl) fun _ => h.bind (h.modifyLookups _) fun _ =>
        h.get_bind fun _ => h.receive name _
    · exact h.pure _

/-- A poll of a lookup keeps the relation, however far the lookup has come. -/
lemma poll_lookup (source : FieldSource) (name : String) (lookup : Lookup) :
    Keeps P (lookup.poll source id name) := by
  cases lookup with
  | fresh => exact h.bind (h.modifyCache _) fun _ => h.tryCell source name
  | queued => exact h.tryCell source name
  | asking reply => exact h.receive name reply

/-- To give a lookup up keeps the relation. -/
lemma abandon_lookup (name : String) (lookup : Lookup) : Keeps P (lookup.abandon id name) := by
  cases lookup with
  | fresh => exact h.pure ()
  | queued | asking reply => exact h.release name

/-! ### Fetches -/

/-- A poll that goes through several lookups keeps the relation. -/
lemma pollLookups (source : FieldSource) (name : String) (lookup : Lookup) (rest : List String) :
    Keeps P (Fetch.pollLookups source id name lookup rest) := by
  induction rest generalizing name lookup with
  | nil =>
    rw [Fetch.pollLookups]
    refine h.bind (h.poll_lookup source name lookup) fun answer => ?_
    rcases answer with (e | field) | lookup <;> exact h.pure _
  | cons next rest ih =>
    rw [Fetch.pollLookups]
    refine h.bind (h.poll_lookup source name lookup) fun answer => ?_
    rcases answer with (e | field) | lookup
    · exact h.pure _
    · exact ih next .fresh
    · exact h.pure _

/-- A fetch whose lookups have to wait looks at its signal, and gives them up if it has fired. -/
lemma awaitLookups (provider : Provider R) (signal : Option Signal) (d : Directive)
    (lookups : Fetch.Lookups) :
    Keeps P (Fetch.afterLookups provider id signal d (.pending lookups)) := by
  refine h.bind (h.look signal) fun cancelled => ?_
  split
  · exact h.bind (h.note _ rfl) fun _ => h.bind (h.abandon_lookup _ _) fun _ => h.pure _
  · exact h.pure _

/-- To wait for a page keeps the relation, also when the wait is given up. -/
lemma awaitPage (signal : Option Signal) (jql : String) (reply : Activity (Page R)) :
    Keeps P (Fetch.awaitPage id signal jql reply) := by
  refine h.bind (h.poll_activity reply) fun answer => ?_
  rcases answer with result | rest
  · exact h.pure _
  · refine h.bind (h.look signal) fun cancelled => ?_
    split
    · exact h.bind (h.note _ rfl) fun _ => h.pure _
    · exact h.pure _

end Keeping

end IssueQuery
