import Audd.Lib.Ranking
import Audd.Lib.ThreadList
import Audd.QueueHistory

/-!
# The monitor of a queue

The sections of a demultiplexed queue with the condition variable between them: a pull
that finds nothing goes to sleep, a push wakes one sleeper after it has released the
mutex, and a close wakes all of them. A thread that was woken runs its section again.

## Implementation notes

A step is one mutex-protected section, one notification or one spurious wake-up. Which
sleeper `notify_one` wakes is not specified, so it is a part of the action.
-/

namespace Audd

open DemuxQueue ThreadList

variable {T : Type}

/-- Where a thread is in its call. -/
inductive MonitorPc (T : Type)
  | entering (op : QueueSection T)
  | notifying (v : T)
  | notifyingAll
  | asleep
  | returned (ev : QueueEvent T)

/-- The queue, the threads and the sections that were run. -/
structure Monitor (T : Type) where
  queue : DemuxQueue T := new
  threads : List (MonitorPc T) := []
  sections : List (QueueSection T) := []

inductive MonitorAction (T : Type)
  | call (op : QueueSection T)
  | run (i : ℕ)
  | notify (i : ℕ) (woken : Option ℕ)
  | spurious (i : ℕ)

/-- A sleeper looks at the queue again. -/
def MonitorPc.wake : MonitorPc T → MonitorPc T
  | .asleep => .entering .pull
  | pc => pc

def MonitorPc.isAsleep : MonitorPc T → Bool
  | .asleep => true
  | _ => false

/-- Where a section leaves its thread: an accepted push and a close have to notify, and a
pull that found nothing waits. -/
def MonitorPc.after : QueueEvent T → MonitorPc T
  | .accepted v => .notifying v
  | .closed => .notifyingAll
  | .waiting => .asleep
  | ev => .returned ev

def Monitor.goto (s : Monitor T) (i : ℕ) (pc : MonitorPc T) : Monitor T :=
  { s with threads := s.threads.set i pc }

def monitorStep : MonitorAction T → Monitor T → Option (Monitor T)
  | .call op, s => some { s with threads := s.threads ++ [.entering op] }
  | .run i, s =>
      match s.threads[i]? with
      | some (.entering op) => some { s.goto i (.after (s.queue.event op)) with
          queue := s.queue.next op
          sections := s.sections ++ [op] }
      | some .notifyingAll => some { s with
          threads := (s.threads.map MonitorPc.wake).set i (.returned .closed) }
      | _ => none
  | .notify i woken, s =>
      match s.threads[i]?, woken with
      | some (.notifying v), some j =>
          match s.threads[j]? with
          | some .asleep => some ((s.goto j (.entering .pull)).goto i (.returned (.accepted v)))
          | _ => none
      -- without a sleeper the notification is lost, as nobody waits for it
      | some (.notifying v), none =>
          if s.threads.any MonitorPc.isAsleep then none
          else some (s.goto i (.returned (.accepted v)))
      | _, _ => none
  | .spurious i, s =>
      match s.threads[i]? with
      | some .asleep => some (s.goto i (.entering .pull))
      | _ => none

def queueMonitor (T : Type) : Transition (Monitor T) (MonitorAction T) where
  start := {}
  step := monitorStep

/-- The effect of one step of a monitor. -/
inductive MonitorMoves (s : Monitor T) : MonitorAction T → Monitor T → Prop
  | call (op : QueueSection T) :
      MonitorMoves s (.call op) { s with threads := s.threads ++ [.entering op] }
  | enter (i : ℕ) (op : QueueSection T) (hi : s.threads[i]? = some (.entering op)) :
      MonitorMoves s (.run i) { s.goto i (.after (s.queue.event op)) with
        queue := s.queue.next op
        sections := s.sections ++ [op] }
  | notifyAll (i : ℕ) (hi : s.threads[i]? = some .notifyingAll) :
      MonitorMoves s (.run i) { s with
        threads := (s.threads.map MonitorPc.wake).set i (.returned .closed) }
  | notifyOne (i j : ℕ) (v : T) (hi : s.threads[i]? = some (.notifying v))
      (hj : s.threads[j]? = some .asleep) :
      MonitorMoves s (.notify i (some j))
        ((s.goto j (.entering .pull)).goto i (.returned (.accepted v)))
  | notifyNobody (i : ℕ) (v : T) (hi : s.threads[i]? = some (.notifying v))
      (hawake : ∀ pc ∈ s.threads, pc.isAsleep = false) :
      MonitorMoves s (.notify i none) (s.goto i (.returned (.accepted v)))
  | spurious (i : ℕ) (hi : s.threads[i]? = some .asleep) :
      MonitorMoves s (.spurious i) (s.goto i (.entering .pull))

variable {s s' : Monitor T} {a : MonitorAction T}

theorem monitorStep_moves (h : monitorStep a s = some s') : MonitorMoves s a s' := by
  cases a with
  | call op =>
      cases h
      exact .call op
  | run i =>
      simp only [monitorStep] at h
      split at h
      · cases h
        exact .enter i _ ‹_›
      · cases h
        exact .notifyAll i ‹_›
      · cases h
  | notify i woken =>
      simp only [monitorStep] at h
      split at h
      · split at h
        · cases h
          exact .notifyOne i _ _ ‹_› ‹_›
        · cases h
      · split at h
        · cases h
        · cases h
          refine .notifyNobody i _ ‹_› fun pc hpc => ?_
          by_contra hasleep
          exact ‹¬_› (List.any_eq_true.mpr ⟨pc, hpc, by simpa using hasleep⟩)
      · cases h
  | spurious i =>
      simp only [monitorStep] at h
      split at h
      · cases h
        exact .spurious i ‹_›
      · cases h

/-! ## No wake-up is lost -/

/-- The thread will look at the queue, or will wake one that does. -/
def MonitorPc.helps : MonitorPc T → ℕ
  | .entering .pull => 1
  | .notifying _ => 1
  | _ => 0

def Monitor.helpers (s : Monitor T) : ℕ := (s.threads.map MonitorPc.helps).sum

def Monitor.Sleeps (s : Monitor T) : Prop := ∃ i : ℕ, s.threads[i]? = some .asleep

/-- While a thread sleeps there is a helper for each item, and for the close one that
still has to notify. The queue is that of the sections run so far. -/
structure Monitor.Awake (s : Monitor T) : Prop where
  items : s.Sleeps → s.queue.items.length ≤ s.helpers
  closed : s.Sleeps → s.queue.closed = true → ∃ i : ℕ, s.threads[i]? = some .notifyingAll
  queue : s.queue = new.after s.sections

theorem Monitor.helpers_goto {i : ℕ} {pc : MonitorPc T} (hi : s.threads[i]? = some pc)
    (pc' : MonitorPc T) : (s.goto i pc').helpers + pc.helps = s.helpers + pc'.helps :=
  sum_map_set hi pc'

theorem Monitor.sleeps_of_goto {i : ℕ} {pc pc' : MonitorPc T} (hi : s.threads[i]? = some pc)
    (hawake : pc' ≠ .asleep) (h : (s.goto i pc').Sleeps) : s.Sleeps := by
  obtain ⟨j, hj⟩ := h
  rw [Monitor.goto, getElem?_set hi] at hj
  split at hj
  · exact absurd (Option.some.inj hj) hawake
  · exact ⟨j, hj⟩

/-- Another thread goes on, and the one that has to notify all still has to. -/
theorem notifyingAll_goto {i : ℕ} {pc pc' : MonitorPc T} (hi : s.threads[i]? = some pc)
    (hpc : pc ≠ .notifyingAll) (h : ∃ j : ℕ, s.threads[j]? = some .notifyingAll) :
    ∃ j : ℕ, (s.goto i pc').threads[j]? = some .notifyingAll := by
  obtain ⟨j, hj⟩ := h
  refine ⟨j, ?_⟩
  rw [Monitor.goto, getElem?_set hi, if_neg, hj]
  rintro rfl
  exact hpc (Option.some.inj (hi.symm.trans hj))

/-- What a section takes from the items or adds to them its thread makes up for. -/
theorem items_of_enter (q : DemuxQueue T) (op : QueueSection T) :
    (MonitorPc.after (q.event op) = .asleep ∧ q.items = [] ∧ q.closed = false ∧ op = .pull ∧
        q.next op = q) ∨
      (MonitorPc.after (q.event op) ≠ .asleep ∧
        ((q.next op).items.length + (MonitorPc.entering op).helps ≤
            q.items.length + (MonitorPc.after (q.event op)).helps ∨ (q.next op).items = []) ∧
        ((q.next op).closed = true → q.closed = true ∨
          MonitorPc.after (q.event op) = .notifyingAll)) := by
  cases op with
  | push v =>
      right
      by_cases hc : q.closed = true
      · simp [event, next, DemuxQueue.push, hc, MonitorPc.after, MonitorPc.helps]
      · simp [event, next, DemuxQueue.push, hc, MonitorPc.after, MonitorPc.helps]
  | close =>
      right
      simp [event, next, MonitorPc.after, MonitorPc.helps]
  | pull =>
      cases hitems : q.items with
      | nil =>
          rw [(event_pull_of_nil hitems).1, (event_pull_of_nil hitems).2]
          by_cases hc : q.closed = true
          · right
            simp [hc, MonitorPc.after, hitems]
          · left
            simp [hc, MonitorPc.after]
      | cons v rest =>
          right
          rw [(event_pull_of_cons hitems).1, (event_pull_of_cons hitems).2]
          simp [MonitorPc.after, MonitorPc.helps]

/-- After a notification to all nobody sleeps. -/
theorem not_sleeps_wake {i : ℕ} (hi : s.threads[i]? = some .notifyingAll) :
    ¬({ s with threads := (s.threads.map MonitorPc.wake).set i (.returned .closed) } :
      Monitor T).Sleeps := by
  rintro ⟨j, hj⟩
  have hmap : (s.threads.map MonitorPc.wake)[i]? = some .notifyingAll := by
    rw [List.getElem?_map, hi]
    rfl
  rw [getElem?_set hmap] at hj
  split at hj
  · cases hj
  · rw [List.getElem?_map] at hj
    cases hpc : s.threads[j]? with
    | none => simp [hpc] at hj
    | some pc =>
        rw [hpc] at hj
        cases pc <;> cases hj

theorem Monitor.Awake.enter {i : ℕ} {op : QueueSection T} (hs : s.Awake)
    (hi : s.threads[i]? = some (.entering op)) :
    ({ s.goto i (.after (s.queue.event op)) with
      queue := s.queue.next op
      sections := s.sections ++ [op] } : Monitor T).Awake := by
  have hqueue : s.queue.next op = new.after (s.sections ++ [op]) := by
    rw [after_append, ← hs.queue]
    rfl
  have hhelpers := s.helpers_goto hi (.after (s.queue.event op))
  rcases items_of_enter s.queue op with ⟨hpc, hitems, hopen, -, hnext⟩ | ⟨hpc, hitems, hclosed⟩
  · refine ⟨fun _ => ?_, fun _ hc => ?_, hqueue⟩
    · simp [hnext, hitems]
    · simp [hnext, hopen] at hc
  · refine ⟨fun hsleeps => ?_, fun hsleeps hc => ?_, hqueue⟩
    · have hle := hs.items (s.sleeps_of_goto hi hpc hsleeps)
      change (s.queue.next op).items.length ≤ (s.goto i _).helpers
      rcases hitems with hitems | hitems
      · omega
      · simp [hitems]
    · rcases hclosed hc with hc | hpc'
      · exact notifyingAll_goto hi (by simp) (hs.closed (s.sleeps_of_goto hi hpc hsleeps) hc)
      · exact ⟨i, by simp only [Monitor.goto, getElem?_set hi, if_true, hpc']⟩

/-- A thread that wakes, or that has nothing left to do, helps no less. -/
theorem Monitor.Awake.goto {i : ℕ} {pc pc' : MonitorPc T} (hs : s.Awake)
    (hi : s.threads[i]? = some pc) (hpc : pc ≠ .notifyingAll) (hawake : pc' ≠ .asleep)
    (hhelps : s.Sleeps → pc.helps ≤ pc'.helps) : (s.goto i pc').Awake where
  items := by
    intro hsleeps
    have hhelpers := s.helpers_goto hi pc'
    have hle := hs.items (s.sleeps_of_goto hi hawake hsleeps)
    have := hhelps (s.sleeps_of_goto hi hawake hsleeps)
    change s.queue.items.length ≤ (s.goto i pc').helpers
    omega
  closed := fun hsleeps hc =>
    notifyingAll_goto hi hpc (hs.closed (s.sleeps_of_goto hi hawake hsleeps) hc)
  queue := hs.queue

/-- The thread that notifies is another one than the sleeper, so it is still to go on. -/
theorem notifying_goto {i j : ℕ} {v : T} (hi : s.threads[i]? = some (.notifying v))
    (hj : s.threads[j]? = some .asleep) (pc : MonitorPc T) :
    (s.goto j pc).threads[i]? = some (.notifying v) := by
  rw [Monitor.goto, getElem?_set hj, if_neg, hi]
  rintro rfl
  simp [hi] at hj

theorem MonitorMoves.awake (h : MonitorMoves s a s') (hs : s.Awake) : s'.Awake := by
  cases h with
  | call op =>
      have hsleeps : ({ s with threads := s.threads ++ [.entering op] } : Monitor T).Sleeps →
          s.Sleeps := by
        rintro ⟨j, hj⟩
        rcases getElem?_append_cases hj with hj | ⟨-, hpc⟩
        · exact ⟨j, hj⟩
        · cases hpc
      refine ⟨fun h => ?_, fun h hc => ?_, hs.queue⟩
      · have hle := hs.items (hsleeps h)
        simp only [Monitor.helpers, List.map_append, List.sum_append]
        exact hle.trans (Nat.le_add_right _ _)
      · obtain ⟨j, hj⟩ := hs.closed (hsleeps h) hc
        exact ⟨j, getElem?_append hj _⟩
  | enter i op hi => exact hs.enter hi
  | notifyAll i hi =>
      exact ⟨fun h => absurd h (not_sleeps_wake hi),
        fun h => absurd h (not_sleeps_wake hi), hs.queue⟩
  | notifyOne i j v hi hj =>
      -- the sleeper that wakes takes the place of the helper that woke it
      have hmid := hs.goto hj (by simp) (show MonitorPc.entering .pull ≠ .asleep by simp)
        fun _ => Nat.zero_le _
      have hi' := notifying_goto hi hj (.entering .pull)
      have hwoken := s.helpers_goto hj (.entering .pull)
      have hdone := (s.goto j (.entering .pull)).helpers_goto hi' (.returned (.accepted v))
      refine ⟨fun hsleeps => ?_, fun hsleeps hc => ?_, hs.queue⟩
      · have hmid := Monitor.sleeps_of_goto hi' (by simp) hsleeps
        have hle := hs.items (Monitor.sleeps_of_goto hj (by simp) hmid)
        simp only [MonitorPc.helps] at hwoken hdone
        change s.queue.items.length ≤ _
        omega
      · exact notifyingAll_goto hi' (by simp)
          (hmid.closed (Monitor.sleeps_of_goto hi' (by simp) hsleeps) hc)
  | notifyNobody i v hi hawake =>
      refine hs.goto hi (by simp) (by simp) ?_
      rintro ⟨j, hj⟩
      cases hawake _ (List.mem_of_getElem? hj)
  | spurious i hi => exact hs.goto hi (by simp) (by simp) fun _ => Nat.zero_le _

/-! ## What comes of the calls -/

/-- A pull that waits has come to nothing yet. -/
def QueueEvent.outcome : QueueEvent T → Option (QueueEvent T)
  | .waiting => none
  | ev => some ev

/-- What has come of the call of a thread. A notification only follows it. -/
def MonitorPc.outcome : MonitorPc T → Option (QueueEvent T)
  | .entering _ | .asleep => none
  | .notifying v => some (.accepted v)
  | .notifyingAll => some .closed
  | .returned ev => some ev

/-- What has come of the calls is what came of the sections, each to one call. -/
def Monitor.Delivers (s : Monitor T) : Prop :=
  (s.threads.filterMap MonitorPc.outcome).Perm
    ((new.events s.sections).filterMap QueueEvent.outcome)

theorem Monitor.Delivers.goto {i : ℕ} {pc : MonitorPc T} (hs : s.Delivers)
    (hi : s.threads[i]? = some pc) (pc' : MonitorPc T) (hpc : pc'.outcome = pc.outcome) :
    (s.goto i pc').Delivers := by
  unfold Monitor.Delivers Monitor.goto
  rw [filterMap_set_of_eq hi hpc]
  exact hs

theorem outcome_after (ev : QueueEvent T) : (MonitorPc.after ev).outcome = ev.outcome := by
  cases ev <;> rfl

theorem outcome_wake (pc : MonitorPc T) : pc.wake.outcome = pc.outcome := by
  cases pc <;> rfl

theorem MonitorMoves.delivers (h : MonitorMoves s a s') (hq : s.queue = new.after s.sections)
    (hs : s.Delivers) : s'.Delivers := by
  cases h with
  | call op =>
      have hnew : [MonitorPc.entering op].filterMap MonitorPc.outcome = [] := rfl
      unfold Monitor.Delivers
      rw [List.filterMap_append, hnew, List.append_nil]
      exact hs
  | enter i op hi =>
      have hperm := filterMap_set_perm (f := MonitorPc.outcome) hi rfl
        (.after (s.queue.event op))
      have hev : [s.queue.event op].filterMap QueueEvent.outcome =
          (s.queue.event op).outcome.toList := by
        cases hout : (s.queue.event op).outcome <;> simp [hout]
      rw [outcome_after] at hperm
      unfold Monitor.Delivers
      rw [events_append, List.filterMap_append, ← hq]
      exact hperm.trans (hev ▸ hs.append_right _)
  | notifyAll i hi =>
      have hmap : (s.threads.map MonitorPc.wake)[i]? = some .notifyingAll := by
        rw [List.getElem?_map, hi]
        rfl
      have hsame : MonitorPc.outcome ∘ MonitorPc.wake = MonitorPc.outcome (T := T) :=
        funext outcome_wake
      have hset := filterMap_set_of_eq (f := MonitorPc.outcome) (b := .returned .closed) hmap rfl
      unfold Monitor.Delivers
      rw [hset, List.filterMap_map, hsame]
      exact hs
  | notifyOne i j v hi hj =>
      exact (hs.goto hj (.entering .pull) rfl).goto (notifying_goto hi hj _) _ rfl
  | notifyNobody i v hi hawake => exact hs.goto hi _ rfl
  | spurious i hi => exact hs.goto hi _ rfl

/-- No thread can go on without a new call or a spurious wake-up. -/
def Monitor.Quiet (s : Monitor T) : Prop :=
  ∀ i, monitorStep (.run i) s = none ∧ ∀ woken, monitorStep (.notify i woken) s = none

theorem Monitor.Quiet.threads (h : s.Quiet) {i : ℕ} {pc : MonitorPc T}
    (hi : s.threads[i]? = some pc) : (∃ ev, pc = .returned ev) ∨ pc = .asleep := by
  obtain ⟨hrun, hnotify⟩ := h i
  cases pc with
  | entering op => simp [monitorStep, hi] at hrun
  | notifyingAll => simp [monitorStep, hi] at hrun
  | notifying v =>
      by_cases hsleeps : s.Sleeps
      · obtain ⟨j, hj⟩ := hsleeps
        have hwake := hnotify (some j)
        simp [monitorStep, hi, hj] at hwake
      · have hnobody := hnotify none
        simp only [monitorStep, hi] at hnobody
        split at hnobody
        · obtain ⟨pc, hmem, hpc⟩ := List.any_eq_true.mp ‹_›
          obtain ⟨j, hj⟩ := List.mem_iff_getElem?.mp hmem
          cases pc with
          | asleep => exact absurd ⟨j, hj⟩ hsleeps
          | _ => cases hpc
        · cases hnobody
  | asleep => exact .inr rfl
  | returned ev => exact .inl ⟨ev, rfl⟩

theorem awake_of_reachable (h : (queueMonitor T).Reachable s) : s.Awake ∧ s.Delivers := by
  apply h.invariant
  · refine ⟨⟨?_, ?_, rfl⟩, List.Perm.refl _⟩
    · rintro ⟨i, hi⟩
      simp [queueMonitor] at hi
    · rintro ⟨i, hi⟩
      simp [queueMonitor] at hi
  · intro a s s' hs hstep
    have hmoves := monitorStep_moves hstep
    exact ⟨hmoves.awake hs.1, hmoves.delivers hs.1.queue hs.2⟩

/-- The condition variable implements the waiting of the sections. However producers,
consumers and closers interleave, and whichever sleepers are woken, the queue is that of
the sections run so far, each value or end that came of a section comes of one call and no
other does, and no wake-up is lost: when no thread can go on, those that have not returned
sleep on an empty queue that nobody closed. -/
theorem queueMonitor_loses_no_wakeup (h : (queueMonitor T).Reachable s) :
    s.queue = new.after s.sections ∧
      (s.threads.filterMap MonitorPc.outcome).Perm
        ((new.events s.sections).filterMap QueueEvent.outcome) ∧
      (s.Quiet → ∀ pc ∈ s.threads, (∃ ev, pc = .returned ev) ∨
        pc = .asleep ∧ new.returned s.sections = new.accepted s.sections ∧
          .close ∉ s.sections) := by
  obtain ⟨hs, hdelivers⟩ := awake_of_reachable h
  refine ⟨hs.queue, hdelivers, ?_⟩
  intro hquiet pc hmem
  obtain ⟨i, hi⟩ := List.mem_iff_getElem?.mp hmem
  refine (hquiet.threads hi).imp_right ?_
  rintro rfl
  have hsleeps : s.Sleeps := ⟨i, hi⟩
  have hnone : s.helpers = 0 := by
    apply List.sum_eq_zero
    intro n hn
    obtain ⟨pc, hpc, rfl⟩ := List.mem_map.mp hn
    obtain ⟨j, hj⟩ := List.mem_iff_getElem?.mp hpc
    rcases hquiet.threads hj with ⟨ev, rfl⟩ | rfl <;> rfl
  have hitems : s.queue.items = [] := by
    have hle := hs.items hsleeps
    exact List.eq_nil_of_length_eq_zero (by omega)
  refine ⟨rfl, ?_, ?_⟩
  · rw [accepted_new, ← hs.queue, hitems, List.append_nil]
  · rw [← closed_after_new, ← hs.queue]
    intro hc
    obtain ⟨j, hj⟩ := hs.closed hsleeps hc
    rcases hquiet.threads hj with ⟨ev, hev⟩ | hev
    · cases hev
    · cases hev

/-- Two pulls sleep and one push wakes the second. It returns the value and the first
sleeps on. -/
theorem queueMonitor_loses_no_wakeup_sleeper :
    ∃ s : Monitor ℕ, (queueMonitor ℕ).Reachable s ∧
      s.threads = [.asleep, .returned (.returned 7), .returned (.accepted 7)] ∧
      new.returned s.sections = new.accepted s.sections ∧ .close ∉ s.sections := by
  obtain ⟨s, hrun, hthreads⟩ : ∃ s : Monitor ℕ,
      (queueMonitor ℕ).runFrom [.call .pull, .call .pull, .call (.push 7), .run 0, .run 1,
        .run 2, .notify 2 (some 1), .run 1] (queueMonitor ℕ).start = some s ∧
      s.threads = [.asleep, .returned (.returned 7), .returned (.accepted 7)] := ⟨_, rfl, rfl⟩
  have hreach : (queueMonitor ℕ).Reachable s := Transition.Reachable.start.runFrom _ hrun
  have hquiet : s.Quiet := by
    intro i
    simp only [monitorStep, hthreads]
    match i with
    | 0 | 1 | 2 => exact ⟨rfl, fun _ => rfl⟩
    | n + 3 => exact ⟨rfl, fun _ => rfl⟩
  have hasleep : .asleep ∈ s.threads := by simp [hthreads]
  rcases (queueMonitor_loses_no_wakeup hreach).2.2 hquiet _ hasleep with ⟨ev, hev⟩ | ⟨-, hall⟩
  · cases hev
  · exact ⟨s, hreach, hthreads, hall⟩

/-! ## Every run settles -/

/-- The steps that a thread has left. On an open queue a sleeper may be woken once more for
each notification, on a closed one it only has to return. -/
def MonitorPc.left (closed : Bool) : MonitorPc T → ℕ
  | .entering (.push _) => 3
  | .entering .close => 2
  | .entering .pull => if closed then 1 else 2
  | .notifying _ => 2
  | .notifyingAll => 1
  | .asleep => if closed then 2 else 1
  | .returned _ => 0

/-- The close adds a step for every sleeper. -/
def Monitor.left (s : Monitor T) : ℕ :=
  (s.threads.map (MonitorPc.left s.queue.closed)).sum +
    if s.queue.closed then 0 else s.threads.length

def MonitorAction.cost : MonitorAction T → ℕ
  | .call _ => 5
  | .spurious _ => 2
  | .run _ | .notify .. => 0

/-- Only a close notifies all. -/
def Monitor.Notified (s : Monitor T) : Prop :=
  ∀ i : ℕ, s.threads[i]? = some .notifyingAll → s.queue.closed = true

theorem MonitorMoves.notified (h : MonitorMoves s a s') (hs : s.Notified) : s'.Notified := by
  have hgoto : ∀ {s : Monitor T} {i : ℕ} {pc pc' : MonitorPc T}, s.Notified →
      s.threads[i]? = some pc → pc' ≠ .notifyingAll → (s.goto i pc').Notified := by
    intro s i pc pc' hs hi hpc' j hj
    rw [Monitor.goto, getElem?_set hi] at hj
    split at hj
    · exact absurd (Option.some.inj hj) hpc'
    · exact hs j hj
  cases h with
  | call op =>
      intro j hj
      rcases getElem?_append_cases hj with hj | ⟨-, hpc⟩
      · exact hs j hj
      · cases hpc
  | enter i op hi =>
      intro j hj
      refine (next_closed s.queue op).mpr ?_
      rw [Monitor.goto, getElem?_set hi] at hj
      split at hj
      · right
        cases op with
        | close => rfl
        | push v =>
            by_cases hc : s.queue.closed = true <;> simp [event, hc, MonitorPc.after] at hj
        | pull =>
            cases hitems : s.queue.items with
            | nil =>
                rw [(event_pull_of_nil hitems).1] at hj
                by_cases hc : s.queue.closed = true <;> simp [hc, MonitorPc.after] at hj
            | cons v rest =>
                rw [(event_pull_of_cons hitems).1] at hj
                simp [MonitorPc.after] at hj
      · exact .inl (hs j hj)
  | notifyAll i hi => exact fun _ _ => hs i hi
  | notifyOne i j v hi hj =>
      exact hgoto (hgoto hs hj (by simp)) (notifying_goto hi hj _) (by simp)
  | notifyNobody i v hi => exact hgoto hs hi (by simp)
  | spurious i hi => exact hgoto hs hi (by simp)

theorem Monitor.left_goto {i : ℕ} {pc : MonitorPc T} (hi : s.threads[i]? = some pc)
    (pc' : MonitorPc T) : (s.goto i pc').left + pc.left s.queue.closed =
      s.left + pc'.left s.queue.closed := by
  have hsum := sum_map_set (f := MonitorPc.left s.queue.closed) hi pc'
  simp only [Monitor.left, Monitor.goto, List.length_set]
  omega

/-- Closing a queue makes a sleeper's way to its return one step longer, and no other's. -/
theorem sum_left_close (threads : List (MonitorPc T)) :
    (threads.map (MonitorPc.left true)).sum ≤
      (threads.map (MonitorPc.left false)).sum + threads.length := by
  induction threads with
  | nil => simp
  | cons pc rest ih =>
      have hpc : pc.left true ≤ pc.left false + 1 := by
        cases pc with
        | entering op => cases op <;> simp [MonitorPc.left]
        | _ => simp [MonitorPc.left]
      simp only [List.map_cons, List.sum_cons, List.length_cons]
      omega

theorem sum_left_wake (threads : List (MonitorPc T)) :
    ((threads.map MonitorPc.wake).map (MonitorPc.left true)).sum ≤
      (threads.map (MonitorPc.left true)).sum := by
  induction threads with
  | nil => simp
  | cons pc rest ih =>
      have hpc : pc.wake.left true ≤ pc.left true := by
        cases pc <;> simp [MonitorPc.wake, MonitorPc.left]
      simp only [List.map_cons, List.sum_cons]
      omega

/-- A section that does not close the queue. -/
theorem Monitor.left_enter {i : ℕ} {op : QueueSection T} (hi : s.threads[i]? = some (.entering op))
    (hthreads : s'.threads = s.threads.set i (.after (s.queue.event op)))
    (hclosed : s'.queue.closed = s.queue.closed)
    (hlt : (MonitorPc.after (s.queue.event op)).left s.queue.closed + 1 ≤
      (MonitorPc.entering op).left s.queue.closed) : s'.left + 1 ≤ s.left := by
  have hgoto := s.left_goto hi (.after (s.queue.event op))
  have hsame : s'.left = (s.goto i (.after (s.queue.event op))).left := by
    simp only [Monitor.left, hthreads, hclosed, Monitor.goto]
    rfl
  omega

theorem Monitor.left_step_enter {i : ℕ} {op : QueueSection T}
    (hi : s.threads[i]? = some (.entering op)) :
    ({ s.goto i (.after (s.queue.event op)) with
      queue := s.queue.next op
      sections := s.sections ++ [op] } : Monitor T).left + 1 ≤ s.left := by
  cases op with
  | push v =>
      refine s.left_enter hi rfl (s.queue.push_closed v) ?_
      by_cases hc : s.queue.closed = true <;> simp [event, hc, MonitorPc.after, MonitorPc.left]
  | pull =>
      cases hitems : s.queue.items with
      | nil =>
          obtain ⟨hevent, hnext⟩ := event_pull_of_nil hitems
          refine s.left_enter hi rfl (by rw [hnext]) ?_
          rw [hevent]
          by_cases hc : s.queue.closed = true <;> simp [hc, MonitorPc.after, MonitorPc.left]
      | cons v rest =>
          obtain ⟨hevent, hnext⟩ := event_pull_of_cons hitems
          refine s.left_enter hi rfl (by rw [hnext]) ?_
          rw [hevent]
          by_cases hc : s.queue.closed = true <;> simp [hc, MonitorPc.after, MonitorPc.left]
  | close =>
      by_cases hc : s.queue.closed = true
      · exact s.left_enter hi rfl hc.symm (by simp [event, MonitorPc.after, MonitorPc.left])
      · have hsum := sum_map_set (f := MonitorPc.left true) hi .notifyingAll
        have hclose := sum_left_close s.threads
        change ((s.threads.set i .notifyingAll).map (MonitorPc.left true)).sum + 0 + 1 ≤ _
        simp only [MonitorPc.left] at hsum
        simp only [Monitor.left, hc, Bool.false_eq_true, if_false]
        omega

theorem MonitorMoves.left (h : MonitorMoves s a s') (hs : s.Notified) :
    s'.left + 1 ≤ s.left + a.cost := by
  cases h with
  | call op =>
      have hop : (MonitorPc.entering op).left s.queue.closed ≤ 3 := by
        cases op with
        | push v => exact le_rfl
        | close => exact Nat.le_succ _
        | pull => simp only [MonitorPc.left]; split <;> omega
      simp only [Monitor.left, List.map_append, List.sum_append, List.map_singleton,
        List.sum_singleton, List.length_append, List.length_singleton, MonitorAction.cost]
      split <;> omega
  | enter i op hi => exact (Monitor.left_step_enter hi).trans (Nat.le_add_right _ _)
  | notifyAll i hi =>
      have hc := hs i hi
      have hmap : (s.threads.map MonitorPc.wake)[i]? = some .notifyingAll := by
        rw [List.getElem?_map, hi]
        rfl
      have hsum := sum_map_set (f := MonitorPc.left true) hmap (.returned .closed)
      have hwake := sum_left_wake s.threads
      simp only [MonitorPc.left] at hsum
      simp only [Monitor.left, hc, if_true, MonitorAction.cost]
      omega
  | notifyOne i j v hi hj =>
      have hwoken := s.left_goto hj (.entering .pull)
      have hdone := Monitor.left_goto (notifying_goto hi hj (.entering .pull))
        (.returned (.accepted v))
      simp only [Monitor.goto, MonitorPc.left, MonitorAction.cost] at hwoken hdone ⊢
      split at hwoken <;> omega
  | notifyNobody i v hi =>
      have hdone := s.left_goto hi (.returned (.accepted v))
      simp only [MonitorPc.left] at hdone
      omega
  | spurious i hi =>
      have hwoken := s.left_goto hi (.entering .pull)
      simp only [MonitorPc.left, MonitorAction.cost] at hwoken ⊢
      split at hwoken <;> omega

/-- Every run takes no more steps than its calls and spurious wake-ups bring, five for a
call and two for a wake-up, and every state can be brought to one in which nobody can
go on. -/
theorem queueMonitor_settles {actions : List (MonitorAction T)}
    (h : (queueMonitor T).runFrom actions (queueMonitor T).start = some s) :
    actions.length + s.left ≤ (actions.map MonitorAction.cost).sum ∧
      ∃ rest s', (∀ a ∈ rest, MonitorAction.cost a = 0) ∧
        (queueMonitor T).runFrom rest s = some s' ∧ s'.Quiet := by
  have hnext : ∀ a s s', s.Notified → (queueMonitor T).step a s = some s' → s'.Notified :=
    fun a s s' hs hstep => (monitorStep_moves hstep).notified hs
  have hrank : ∀ a s s', s.Notified → (queueMonitor T).step a s = some s' →
      Monitor.left s' + 1 ≤ s.left + a.cost :=
    fun a s s' hs hstep => (monitorStep_moves hstep).left hs
  have hstart : (queueMonitor T).start.Notified := by
    intro i hi
    simp [queueMonitor] at hi
  refine ⟨?_, ?_⟩
  · have hlen := Transition.length_add_rank_le hnext hrank hstart h
    have hzero : (queueMonitor T).start.left = 0 := rfl
    omega
  · have hs := Transition.runFrom_invariant hnext hstart h
    refine Transition.exists_runFrom_done hnext hrank ?_ hs
    intro s _ hquiet
    by_contra hnone
    apply hquiet
    intro i
    refine ⟨?_, fun woken => ?_⟩
    · cases hstep : monitorStep (.run i) s with
      | none => rfl
      | some s' => exact absurd ⟨.run i, s', rfl, hstep⟩ hnone
    · cases hstep : monitorStep (.notify i woken) s with
      | none => rfl
      | some s' => exact absurd ⟨.notify i woken, s', rfl, hstep⟩ hnone

/-- A pull that was woken for nothing sleeps again, and then the queue is closed. -/
theorem queueMonitor_settles_spurious :
    ∃ s : Monitor ℕ, (queueMonitor ℕ).runFrom [.call .pull, .run 0, .spurious 0, .run 0,
        .call .close, .run 1] (queueMonitor ℕ).start = some s ∧
      s.threads = [.asleep, .notifyingAll] ∧ s.left ≤ 6 ∧
      ∃ rest s', (∀ a ∈ rest, MonitorAction.cost a = 0) ∧
        (queueMonitor ℕ).runFrom rest s = some s' ∧ s'.Quiet := by
  obtain ⟨s, hrun, hthreads⟩ : ∃ s : Monitor ℕ,
      (queueMonitor ℕ).runFrom [.call .pull, .run 0, .spurious 0, .run 0, .call .close, .run 1]
        (queueMonitor ℕ).start = some s ∧
      s.threads = [.asleep, .notifyingAll] := ⟨_, rfl, rfl⟩
  obtain ⟨hlen, hdone⟩ := queueMonitor_settles hrun
  have hleft : 6 + s.left ≤ 12 := hlen
  exact ⟨s, hrun, hthreads, by omega, hdone⟩

end Audd
