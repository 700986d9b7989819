import Audd.DemuxQueue
import Audd.LongpollInvariant
import Mathlib.Data.List.Infix

/-!
# Histories of a demultiplexed queue

A mutex-protected section of `push`, `close` or `pull` is one step, so the threads that
share a queue, however many, are interleaved in some list of sections. A pull that finds
an open queue empty is a section as well: it waits and changes nothing.
-/

namespace Audd

/-- A section that one of the threads runs. -/
inductive QueueSection (T : Type)
  | push (v : T)
  | close
  | pull

/-- What comes of a section. -/
inductive QueueEvent (T : Type)
  | accepted (v : T)
  | dropped
  | closed
  | returned (v : T)
  | ended
  | waiting

variable {T : Type}

def QueueSection.isPull : QueueSection T → Bool
  | .pull => true
  | _ => false

@[simp] def QueueEvent.acceptedValue : QueueEvent T → Option T
  | .accepted v => some v
  | _ => none

@[simp] def QueueEvent.returnedValue : QueueEvent T → Option T
  | .returned v => some v
  | _ => none

namespace DemuxQueue

def event (q : DemuxQueue T) : QueueSection T → QueueEvent T
  | .push v => if q.closed then .dropped else .accepted v
  | .close => .closed
  | .pull =>
      match q.pull with
      | some (some v, _) => .returned v
      | some (none, _) => .ended
      | none => .waiting

def next (q : DemuxQueue T) : QueueSection T → DemuxQueue T
  | .push v => q.push v
  | .close => q.close
  | .pull =>
      match q.pull with
      | some (_, q') => q'
      | none => q

/-- The events of the sections, in the order of the steps. -/
def events (q : DemuxQueue T) : List (QueueSection T) → List (QueueEvent T)
  | [] => []
  | s :: rest => q.event s :: (q.next s).events rest

def after (q : DemuxQueue T) (l : List (QueueSection T)) : DemuxQueue T := l.foldl next q

/-- The values that the pushes put into the queue. -/
def accepted (q : DemuxQueue T) (l : List (QueueSection T)) : List T :=
  (q.events l).filterMap QueueEvent.acceptedValue

/-- The values that the completed pulls return. -/
def returned (q : DemuxQueue T) (l : List (QueueSection T)) : List T :=
  (q.events l).filterMap QueueEvent.returnedValue

/-! ## One section -/

theorem event_pull_of_cons {q : DemuxQueue T} {v : T} {rest : List T} (h : q.items = v :: rest) :
    q.event .pull = .returned v ∧ q.next .pull = { q with items := rest } := by
  simp only [event, next, pull, h, and_self]

theorem event_pull_of_nil {q : DemuxQueue T} (h : q.items = []) :
    q.event .pull = (if q.closed then .ended else .waiting) ∧ q.next .pull = q := by
  by_cases hc : q.closed = true <;> simp [event, next, pull, h, hc]

/-- A pull ends exactly on a queue that is empty and closed. -/
theorem event_pull_eq_ended_iff (q : DemuxQueue T) :
    q.event .pull = .ended ↔ q.items = [] ∧ q.closed = true := by
  cases h : q.items with
  | nil =>
      rw [(event_pull_of_nil h).1]
      by_cases hc : q.closed = true <;> simp [hc]
  | cons v rest => simp [(event_pull_of_cons h).1]

/-- What a section adds to the items was accepted and what it takes is returned. -/
theorem items_step (q : DemuxQueue T) (s : QueueSection T) :
    q.items ++ (q.event s).acceptedValue.toList =
      (q.event s).returnedValue.toList ++ (q.next s).items := by
  cases s with
  | push v =>
      by_cases hc : q.closed = true <;> simp [event, next, push, hc]
  | close => simp [event, next]
  | pull =>
      cases h : q.items with
      | nil =>
          rw [(event_pull_of_nil h).1, (event_pull_of_nil h).2, h]
          by_cases hc : q.closed = true <;> simp [hc]
      | cons v rest =>
          rw [(event_pull_of_cons h).1, (event_pull_of_cons h).2]
          simp

theorem next_closed (q : DemuxQueue T) (s : QueueSection T) :
    (q.next s).closed = true ↔ q.closed = true ∨ s = .close := by
  cases s with
  | push v => simp [next]
  | close => simp [next]
  | pull =>
      cases h : q.items with
      | nil => simp [(event_pull_of_nil h).2]
      | cons v rest => simp [(event_pull_of_cons h).2]

theorem close_of_closed {q : DemuxQueue T} (hc : q.closed = true) : q.close = q := by
  rw [close, ← hc]

/-- No section changes a queue that is closed and empty. -/
theorem next_of_drained {q : DemuxQueue T} (hi : q.items = []) (hc : q.closed = true)
    (s : QueueSection T) : q.next s = q := by
  cases s with
  | push v => simp [next, push, hc]
  | close => exact close_of_closed hc
  | pull => exact (event_pull_of_nil hi).2

/-! ## A list of sections -/

theorem after_append (q : DemuxQueue T) (l later : List (QueueSection T)) :
    q.after (l ++ later) = (q.after l).after later := List.foldl_append

theorem events_append (q : DemuxQueue T) (l later : List (QueueSection T)) :
    q.events (l ++ later) = q.events l ++ (q.after l).events later := by
  induction l generalizing q with
  | nil => rfl
  | cons s rest ih =>
      rw [List.cons_append, events, ih, events, List.cons_append]
      rfl

theorem accepted_append (q : DemuxQueue T) (l later : List (QueueSection T)) :
    q.accepted (l ++ later) = q.accepted l ++ (q.after l).accepted later := by
  rw [accepted, events_append, List.filterMap_append, accepted, accepted]

theorem returned_append (q : DemuxQueue T) (l later : List (QueueSection T)) :
    q.returned (l ++ later) = q.returned l ++ (q.after l).returned later := by
  rw [returned, events_append, List.filterMap_append, returned, returned]

theorem accepted_singleton (q : DemuxQueue T) (s : QueueSection T) :
    q.accepted [s] = (q.event s).acceptedValue.toList := by
  cases h : (q.event s).acceptedValue <;>
    simp only [accepted, events, List.filterMap_cons, List.filterMap_nil, h, Option.toList]

theorem returned_singleton (q : DemuxQueue T) (s : QueueSection T) :
    q.returned [s] = (q.event s).returnedValue.toList := by
  cases h : (q.event s).returnedValue <;>
    simp only [returned, events, List.filterMap_cons, List.filterMap_nil, h, Option.toList]

/-- What was queued or accepted is what was returned, in order, and what is still queued. -/
theorem items_append_accepted (q : DemuxQueue T) (l : List (QueueSection T)) :
    q.items ++ q.accepted l = q.returned l ++ (q.after l).items := by
  induction l generalizing q with
  | nil => simp [accepted, returned, events, after]
  | cons s rest ih =>
      have hfront : s :: rest = [s] ++ rest := rfl
      have hnext : q.after [s] = q.next s := rfl
      rw [hfront, accepted_append, returned_append, after_append, accepted_singleton,
        returned_singleton, hnext]
      calc
        _ = (q.items ++ (q.event s).acceptedValue.toList) ++ (q.next s).accepted rest :=
          (List.append_assoc _ _ _).symm
        _ = (q.event s).returnedValue.toList ++ ((q.next s).items ++ (q.next s).accepted rest) := by
          rw [items_step, List.append_assoc]
        _ = _ := by rw [ih, List.append_assoc]

theorem after_closed (q : DemuxQueue T) (l : List (QueueSection T)) :
    (q.after l).closed = true ↔ q.closed = true ∨ .close ∈ l := by
  induction l generalizing q with
  | nil => simp [after]
  | cons s rest ih =>
      have hstep : q.after (s :: rest) = (q.next s).after rest := rfl
      rw [hstep, ih, next_closed, List.mem_cons, or_assoc, eq_comm (a := s)]

theorem after_of_drained {q : DemuxQueue T} (hi : q.items = []) (hc : q.closed = true)
    (l : List (QueueSection T)) : q.after l = q := by
  induction l with
  | nil => rfl
  | cons s rest ih => exact (congrArg (·.after rest) (next_of_drained hi hc s)).trans ih

/-- Each pull takes one of the values that are queued, as long as there are any. -/
theorem pulls_drain (q : DemuxQueue T) (l : List (QueueSection T)) :
    q.items.take (l.countP QueueSection.isPull) <+: q.returned l := by
  induction l generalizing q with
  | nil => simp
  | cons s rest ih =>
      have hreturned : q.returned (s :: rest) =
          (q.event s).returnedValue.toList ++ (q.next s).returned rest := by
        rw [← returned_singleton]
        exact q.returned_append [s] rest
      rw [hreturned]
      cases s with
      | push v =>
          have hitems : q.items <+: (q.push v).items := by
            by_cases hc : q.closed = true <;> simp [push, hc]
          have hnone : (q.event (.push v)).returnedValue = none := by
            by_cases hc : q.closed = true <;> simp [event, hc]
          rw [hnone, List.countP_cons_of_neg Bool.false_ne_true]
          exact (hitems.take _).trans (ih (q.push v))
      | close =>
          rw [List.countP_cons_of_neg Bool.false_ne_true]
          exact ih q.close
      | pull =>
          cases h : q.items with
          | nil => simp
          | cons v items =>
              have hrest := ih { q with items }
              rw [(event_pull_of_cons h).1, (event_pull_of_cons h).2, List.countP_cons_of_pos rfl]
              exact (List.prefix_cons_inj v).mpr hrest

/-! ## The histories of a new queue -/

/-- A queue as it is constructed. -/
def new : DemuxQueue T := {}

theorem accepted_new (l : List (QueueSection T)) :
    new.accepted l = new.returned l ++ (new.after l).items := new.items_append_accepted l

theorem closed_after_new (l : List (QueueSection T)) :
    (new.after l).closed = true ↔ .close ∈ l := by
  rw [after_closed]
  exact or_iff_right Bool.false_ne_true

theorem push_accepted_iff (q : DemuxQueue T) (v : T) :
    q.event (.push v) = .accepted v ↔ q.closed ≠ true := by
  by_cases hc : q.closed = true <;> simp [event, hc]

/-- A pull ends exactly when a close came and everything accepted was returned. -/
theorem pull_ended_iff (l : List (QueueSection T)) :
    (new.after l).event .pull = .ended ↔ .close ∈ l ∧ new.returned l = new.accepted l := by
  rw [event_pull_eq_ended_iff, closed_after_new, accepted_new, List.self_eq_append_right,
    and_comm]

example : (new : DemuxQueue ℕ).events [.pull, .push 1, .close, .push 2, .pull, .pull] =
    [.waiting, .accepted 1, .closed, .dropped, .returned 1, .ended] := rfl

/-- A second close leaves the same history behind. -/
theorem close_again {l : List (QueueSection T)} (hclose : .close ∈ l)
    (later : List (QueueSection T)) :
    new.after (l ++ .close :: later) = new.after (l ++ later) ∧
      new.accepted (l ++ .close :: later) = new.accepted (l ++ later) ∧
      new.returned (l ++ .close :: later) = new.returned (l ++ later) := by
  have hc := (closed_after_new l).mpr hclose
  have hagain : (new.after l).after [.close] = new.after l := close_of_closed hc
  have hsplit : l ++ .close :: later = l ++ ([.close] ++ later) := rfl
  rw [hsplit]
  refine ⟨?_, ?_, ?_⟩
  · rw [after_append, after_append, hagain, after_append]
  · rw [accepted_append, accepted_append, hagain, accepted_append]
    rfl
  · rw [returned_append, returned_append, hagain, returned_append]
    rfl

end DemuxQueue

open DemuxQueue

/-- In every interleaving of pushes, closes and pulls the returned values are the accepted
ones in order, up to those still queued. A push is accepted as long as no close came, and
every later pull returns one more of the accepted values while there are any. A pull ends
exactly when a close came and all of them were returned, every pull after it ends, and a
further close changes nothing. -/
theorem demuxQueue_fifo (l : List (QueueSection T)) :
    (new.accepted l = new.returned l ++ (new.after l).items ∧
        new.returned l <+: new.accepted l) ∧
      (∀ v, (new.after l).event (.push v) = .accepted v ↔ .close ∉ l) ∧
      (∀ later, (new.accepted l).take
        ((new.returned l).length + later.countP QueueSection.isPull) <+:
          new.returned (l ++ later)) ∧
      ((new.after l).event .pull = .ended ↔ .close ∈ l ∧ new.returned l = new.accepted l) ∧
      ((new.after l).event .pull = .ended →
        ∀ later, (new.after (l ++ later)).event .pull = .ended) ∧
      (.close ∈ l → ∀ later, new.after (l ++ .close :: later) = new.after (l ++ later) ∧
        new.accepted (l ++ .close :: later) = new.accepted (l ++ later) ∧
        new.returned (l ++ .close :: later) = new.returned (l ++ later)) := by
  refine ⟨⟨accepted_new l, ?_⟩, ?_, ?_, pull_ended_iff l, ?_, close_again⟩
  · rw [accepted_new]
    exact List.prefix_append _ _
  · intro v
    rw [push_accepted_iff, ne_eq, closed_after_new]
  · intro later
    rw [accepted_new, List.take_length_add_append, returned_append]
    exact (List.prefix_append_right_inj _).mpr ((new.after l).pulls_drain later)
  · intro hended later
    obtain ⟨hi, hc⟩ := (event_pull_eq_ended_iff _).mp hended
    rw [after_append, after_of_drained hi hc, hended]

/-! ## The queues of a poll -/

/-- The queue is a new one after these sections and its trace is their history. -/
structure TracedQueue.Follows (t : TracedQueue T) (l : List (QueueSection T)) : Prop where
  queue : t.queue = new.after l
  accepted : t.accepted = new.accepted l
  returned : t.returned = new.returned l

namespace TracedQueue.Follows

variable {t t' : TracedQueue T} {l : List (QueueSection T)}

theorem snoc (h : t.Follows l) (s : QueueSection T) (hqueue : t'.queue = t.queue.next s)
    (haccepted : t'.accepted = t.accepted ++ (t.queue.event s).acceptedValue.toList)
    (hreturned : t'.returned = t.returned ++ (t.queue.event s).returnedValue.toList) :
    t'.Follows (l ++ [s]) where
  queue := by
    rw [hqueue, h.queue, after_append]
    rfl
  accepted := by rw [haccepted, h.accepted, h.queue, accepted_append, accepted_singleton]
  returned := by rw [hreturned, h.returned, h.queue, returned_append, returned_singleton]

theorem push (h : t.Follows l) (v : T) : (t.push v).Follows (l ++ [.push v]) := by
  apply h.snoc (.push v) rfl <;> by_cases hc : t.queue.closed = true <;>
    simp [push_accepted, event, hc]

theorem close (h : t.Follows l) : t.close.Follows (l ++ [.close]) :=
  h.snoc .close rfl (List.append_nil _).symm (List.append_nil _).symm

theorem pull (h : t.Follows l) {r : Option T} (hpull : t.pull = some (r, t')) :
    t'.Follows (l ++ [.pull]) := by
  have hqueue : t.queue.pull = some (r, t'.queue) := by
    rw [← pull_queue, hpull, Option.map_some]
  obtain ⟨haccepted, -, hreturned, -⟩ := pull_spec hpull
  cases r with
  | none | some v =>
      apply h.snoc .pull <;> simp [event, next, hqueue, haccepted, hreturned]

end TracedQueue.Follows

/-- A change of a lane is at most one section of its queue. -/
theorem Lane.Changes.follows {a b : Lane T} (hl : a.Changes b)
    (h : ∃ l, a.queue.Follows l) : ∃ l, b.queue.Follows l := by
  obtain ⟨l, h⟩ := h
  cases hl with
  | keep => exact ⟨l, h⟩
  | push v => exact ⟨_, h.push v⟩
  | close => exact ⟨_, h.close⟩
  | pump hp =>
      cases hp with
      | take v q hp hq | drain q hp hq => exact ⟨_, h.pull hq⟩
      | callBack v hp => exact ⟨l, h⟩

theorem Moves.errorQueue_follows {P : Platform} {category : String} {timeout : ℤ} {s s' : Poll}
    (hs : Moves P category timeout s s') (h : ∃ l, s.errorQueue.Follows l) :
    ∃ l, s'.errorQueue.Follows l := by
  obtain ⟨l, h⟩ := h
  cases hs with
  | push ev => cases ev <;> exact ⟨l, h⟩
  | pushError e => exact ⟨_, h.push e⟩
  | workerClose stage | callerClose stage | closerClose _ stage =>
      cases stage with
      | closeErrors => exact ⟨_, h.close⟩
      | setFlag | closeMatches | closeNotifications => exact ⟨l, h⟩
  | pullError e q hq | pullNoError q hq => exact ⟨_, h.pull hq⟩
  | _ => exact ⟨l, h⟩

/-- The three queues of a poll have histories of this kind in every state of every run. -/
theorem reachable_follows {P : Platform} {category : String} {opts : LongpollOptions} {s : Poll}
    (h : (startLongpoll P category opts).Reachable s) :
    (∃ l, s.matchLane.queue.Follows l) ∧ (∃ l, s.notificationLane.queue.Follows l) ∧
      ∃ l, s.errorQueue.Follows l := by
  apply h.invariant
  · exact ⟨⟨[], rfl, rfl, rfl⟩, ⟨[], rfl, rfl, rfl⟩, [], rfl, rfl, rfl⟩
  · rintro a t t' ⟨hm, hn, he⟩ hstep
    have hmoves := pollStep_moves hstep
    exact ⟨hmoves.matchLane.follows hm, hmoves.notificationLane.follows hn,
      hmoves.errorQueue_follows he⟩

end Audd
