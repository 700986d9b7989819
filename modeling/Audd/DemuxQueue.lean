import Mathlib.Data.List.Basic

/-!
# The demultiplexed queues

`DemuxQueue` of `longpoll.cpp`, each mutex-protected section being one step.
A queue in use is kept together with the values its pushes accepted and its
pulls returned, so the order of delivery is part of the type.
-/

namespace Audd

/-- A queue that can be closed. -/
structure DemuxQueue (T : Type) where
  items : List T := []
  closed : Bool := false

namespace DemuxQueue

variable {T : Type}

/-- A push after a close is dropped. -/
def push (q : DemuxQueue T) (v : T) : DemuxQueue T :=
  if q.closed then q else { q with items := q.items ++ [v] }

def close (q : DemuxQueue T) : DemuxQueue T := { q with closed := true }

/-- A pull with the value it returns; `none` outside while it waits. -/
def pull (q : DemuxQueue T) : Option (Option T × DemuxQueue T) :=
  match q.items with
  | v :: rest => some (some v, { q with items := rest })
  | [] => if q.closed then some (none, q) else none

@[simp] theorem push_closed (q : DemuxQueue T) (v : T) : (q.push v).closed = q.closed := by
  unfold push
  split <;> rfl

@[simp] theorem close_closed (q : DemuxQueue T) : q.close.closed = true := rfl

@[simp] theorem close_items (q : DemuxQueue T) : q.close.items = q.items := rfl

end DemuxQueue

/-- A queue with its history: what was accepted is what was returned, in order,
followed by what is still queued. -/
structure TracedQueue (T : Type) where
  queue : DemuxQueue T := {}
  accepted : List T := []
  returned : List T := []
  fifo : accepted = returned ++ queue.items := by rfl

namespace TracedQueue

variable {T : Type}

def push (t : TracedQueue T) (v : T) : TracedQueue T where
  queue := t.queue.push v
  accepted := if t.queue.closed then t.accepted else t.accepted ++ [v]
  returned := t.returned
  fifo := by
    have h := t.fifo
    by_cases hc : t.queue.closed <;> simp [DemuxQueue.push, hc, h]

def close (t : TracedQueue T) : TracedQueue T := { t with queue := t.queue.close, fifo := t.fifo }

/-- A pull that finds a value. -/
def pullValue (t : TracedQueue T) (v : T) (rest : List T) (h : t.queue.items = v :: rest) :
    TracedQueue T where
  queue := { t.queue with items := rest }
  accepted := t.accepted
  returned := t.returned ++ [v]
  fifo := by simp [t.fifo, h]

/-- A pull with the value it returns; `none` outside while it waits. -/
def pull (t : TracedQueue T) : Option (Option T × TracedQueue T) :=
  match h : t.queue.items with
  | v :: rest => some (some v, t.pullValue v rest h)
  | [] => if t.queue.closed then some (none, t) else none

/-- Erasing the history gives the operations of the queue itself. -/
theorem pull_queue (t : TracedQueue T) :
    t.pull.map (fun r => (r.1, r.2.queue)) = t.queue.pull := by
  unfold pull DemuxQueue.pull
  split
  · rename_i v rest h
    simp [h, pullValue]
  · rename_i h
    by_cases hc : t.queue.closed <;> simp [h, hc]

@[simp] theorem push_queue (t : TracedQueue T) (v : T) :
    (t.push v).queue = t.queue.push v := rfl

@[simp] theorem close_queue (t : TracedQueue T) : t.close.queue = t.queue.close := rfl

@[simp] theorem close_accepted (t : TracedQueue T) : t.close.accepted = t.accepted := rfl

@[simp] theorem close_returned (t : TracedQueue T) : t.close.returned = t.returned := rfl

@[simp] theorem push_returned (t : TracedQueue T) (v : T) :
    (t.push v).returned = t.returned := rfl

theorem push_accepted (t : TracedQueue T) (v : T) : (t.push v).accepted =
    if t.queue.closed then t.accepted else t.accepted ++ [v] := rfl

/-- A pull accepts nothing and closes nothing. What it returns is recorded, and
it returns no value only from a queue that is closed and empty. -/
theorem pull_spec {t t' : TracedQueue T} {r : Option T} (h : t.pull = some (r, t')) :
    t'.accepted = t.accepted ∧ t'.queue.closed = t.queue.closed ∧
      t'.returned = t.returned ++ r.toList ∧
      (r = none → t' = t ∧ t.queue.items = [] ∧ t.queue.closed = true) := by
  unfold pull at h
  split at h
  · rename_i v rest hi
    obtain ⟨rfl, rfl⟩ : r = some v ∧ t' = t.pullValue v rest hi := by
      simpa [eq_comm] using h
    simp [pullValue]
  · rename_i hi
    by_cases hc : t.queue.closed
    · obtain ⟨rfl, rfl⟩ : r = none ∧ t' = t := by simpa [hc, eq_comm] using h
      simp [hi, hc]
    · simp [hc] at h

/-- An empty queue has returned all that it accepted. -/
theorem returned_eq_of_items (t : TracedQueue T) (h : t.queue.items = []) :
    t.returned = t.accepted := by
  simp [t.fifo, h]

end TracedQueue

end Audd
