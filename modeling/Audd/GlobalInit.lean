import Audd.Lib.Ranking
import Audd.Lib.ThreadList

/-!
# Initialising libcurl once

`global_init` of `http_client.cpp`: a flag that is read without the mutex, read again
under it, and set after `curl_global_init` succeeded. Any number of threads may be in
it at a time.

## Implementation notes

A step is one access of the flag, taking or releasing the mutex, or the call of
`curl_global_init`, whose outcome the surroundings choose. The exception of a failed
call leaves through the lock's destructor.
-/

namespace Audd

open ThreadList

/-- What a thread in `global_init` does next. -/
inductive InitPc
  | checking
  | locking
  | rechecking
  | calling
  | storing
  | leaving (threw : Bool)
  | done (threw : Bool)
deriving DecidableEq

/-- The flag, the holder of the mutex, the threads, and the calls of
`curl_global_init`, each with its thread and whether it succeeded. -/
structure InitState where
  initialized : Bool := false
  holder : Option ℕ := none
  threads : List InitPc := []
  inits : List (ℕ × Bool) := []

inductive InitAction
  | call
  | thread (i : ℕ) (ok : Bool)

def InitState.goto (s : InitState) (i : ℕ) (pc : InitPc) : InitState :=
  { s with threads := s.threads.set i pc }

def initStep : InitAction → InitState → Option InitState
  | .call, s => some { s with threads := s.threads ++ [.checking] }
  | .thread i ok, s =>
      match s.threads[i]? with
      | some .checking => some (s.goto i (if s.initialized then .done false else .locking))
      | some .locking =>
          if s.holder = none then some { s.goto i .rechecking with holder := some i } else none
      | some .rechecking => some (s.goto i (if s.initialized then .leaving false else .calling))
      | some .calling => some { s.goto i (if ok then .storing else .leaving true) with
          inits := s.inits ++ [(i, ok)] }
      | some .storing => some { s.goto i (.leaving false) with initialized := true }
      | some (.leaving threw) => some { s.goto i (.done threw) with holder := none }
      | some (.done _) | none => none

def globalInit : Transition InitState InitAction where
  start := {}
  step := initStep

/-- The effect of one step of `global_init`. -/
inductive InitMoves (s : InitState) : InitAction → InitState → Prop
  | call : InitMoves s .call { s with threads := s.threads ++ [.checking] }
  | seen {ok : Bool} (i : ℕ) (hi : s.threads[i]? = some .checking) (hflag : s.initialized = true) :
      InitMoves s (.thread i ok) (s.goto i (.done false))
  | unseen {ok : Bool} (i : ℕ) (hi : s.threads[i]? = some .checking) :
      InitMoves s (.thread i ok) (s.goto i .locking)
  | lock {ok : Bool} (i : ℕ) (hi : s.threads[i]? = some .locking) (hfree : s.holder = none) :
      InitMoves s (.thread i ok) { s.goto i .rechecking with holder := some i }
  | found {ok : Bool} (i : ℕ) (hi : s.threads[i]? = some .rechecking)
      (hflag : s.initialized = true) : InitMoves s (.thread i ok) (s.goto i (.leaving false))
  | missing {ok : Bool} (i : ℕ) (hi : s.threads[i]? = some .rechecking)
      (hflag : s.initialized = false) : InitMoves s (.thread i ok) (s.goto i .calling)
  | succeed (i : ℕ) (hi : s.threads[i]? = some .calling) :
      InitMoves s (.thread i true) { s.goto i .storing with inits := s.inits ++ [(i, true)] }
  | fail (i : ℕ) (hi : s.threads[i]? = some .calling) :
      InitMoves s (.thread i false)
        { s.goto i (.leaving true) with inits := s.inits ++ [(i, false)] }
  | store {ok : Bool} (i : ℕ) (hi : s.threads[i]? = some .storing) :
      InitMoves s (.thread i ok) { s.goto i (.leaving false) with initialized := true }
  | unlock {ok : Bool} (i : ℕ) (threw : Bool) (hi : s.threads[i]? = some (.leaving threw)) :
      InitMoves s (.thread i ok) { s.goto i (.done threw) with holder := none }

variable {s s' : InitState} {a : InitAction}

theorem initStep_moves (h : initStep a s = some s') : InitMoves s a s' := by
  cases a with
  | call =>
      cases h
      exact .call
  | thread i ok =>
      simp only [initStep] at h
      split at h
      · split at h
        · cases h
          exact .seen i ‹_› ‹_›
        · cases h
          exact .unseen i ‹_›
      · split at h
        · cases h
          exact .lock i ‹_› ‹_›
        · cases h
      · split at h
        · cases h
          exact .found i ‹_› ‹_›
        · cases h
          exact .missing i ‹_› (Bool.eq_false_of_not_eq_true ‹_›)
      · cases ok with
        | true =>
            cases h
            exact .succeed i ‹_›
        | false =>
            cases h
            exact .fail i ‹_›
      · cases h
        exact .store i ‹_›
      · cases h
        exact .unlock i _ ‹_›
      · cases h
      · cases h

/-! ## The mutex -/

/-- The thread holds the mutex. -/
def InitPc.inside : InitPc → Bool
  | .rechecking | .calling | .storing | .leaving _ => true
  | .checking | .locking | .done _ => false

def InitState.Inside (s : InitState) (i : ℕ) : Prop :=
  ∃ pc, s.threads[i]? = some pc ∧ pc.inside = true

/-- The holder of the mutex is the one thread inside. -/
def InitState.Locked (s : InitState) : Prop := ∀ i, s.holder = some i ↔ s.Inside i

/-- After a thread went on, it is inside by its new place and the others as before. -/
theorem inside_goto {i : ℕ} {pc : InitPc} (hi : s.threads[i]? = some pc) {pc' : InitPc}
    (hthreads : s'.threads = s.threads.set i pc') (j : ℕ) :
    s'.Inside j ↔ if j = i then pc'.inside = true else s.Inside j := by
  unfold InitState.Inside
  rw [hthreads, getElem?_set hi]
  by_cases hj : j = i
  · simp [hj]
  · simp [hj]

theorem Locked.of_sameInside {i : ℕ} {pc pc' : InitPc} (hs : s.Locked)
    (hi : s.threads[i]? = some pc) (hthreads : s'.threads = s.threads.set i pc')
    (hholder : s'.holder = s.holder) (hinside : pc'.inside = pc.inside) : s'.Locked := by
  intro j
  rw [hholder, hs j, inside_goto hi hthreads]
  by_cases hj : j = i
  · subst hj
    rw [if_pos rfl, hinside]
    constructor
    · rintro ⟨pc'', hj, h⟩
      rw [hi] at hj
      cases hj
      exact h
    · intro h
      exact ⟨pc, hi, h⟩
  · rw [if_neg hj]

theorem inside_call (j : ℕ) :
    ({ s with threads := s.threads ++ [.checking] } : InitState).Inside j ↔ s.Inside j := by
  constructor
  · rintro ⟨pc, hj, h⟩
    rcases getElem?_append_cases hj with hj | ⟨-, rfl⟩
    · exact ⟨pc, hj, h⟩
    · cases h
  · rintro ⟨pc, hj, h⟩
    have hlt := (List.getElem?_eq_some_iff.mp hj).1
    exact ⟨pc, by rwa [List.getElem?_append_left hlt], h⟩

theorem InitMoves.locked (h : InitMoves s a s') (hs : s.Locked) : s'.Locked := by
  cases h with
  | call => exact fun j => (hs j).trans (inside_call j).symm
  | seen i hi | unseen i hi | found i hi | missing i hi | succeed i hi | fail i hi | store i hi =>
      exact Locked.of_sameInside hs hi rfl rfl rfl
  | lock i hi hfree =>
      intro j
      rw [inside_goto hi rfl]
      by_cases hj : j = i
      · simp [hj, InitPc.inside]
      · rw [if_neg hj, ← hs j, hfree]
        simp [Ne.symm hj]
  | unlock i threw hi =>
      have hholder : s.holder = some i := (hs i).mpr ⟨_, hi, rfl⟩
      intro j
      rw [inside_goto hi rfl]
      by_cases hj : j = i
      · simp [hj, InitPc.inside]
      · rw [if_neg hj, ← hs j, hholder]
        simp [Ne.symm hj]

/-! ## The calls of `curl_global_init` -/

/-- The thread knows that libcurl is initialised. -/
def InitPc.succeeded : InitPc → Bool
  | .storing | .leaving false | .done false => true
  | _ => false

/-- The thread has thrown, or is about to. -/
def InitPc.threw : InitPc → Bool
  | .leaving true | .done true => true
  | _ => false

/-- Before the success nobody has it, while it is stored only its thread, and after it
nobody calls again. -/
inductive InitState.Phase (s : InitState) : Prop
  | before (hflag : s.initialized = false) (hfailed : ∀ e ∈ s.inits, e.2 = false)
      (hpcs : ∀ (i : ℕ) (pc : InitPc), s.threads[i]? = some pc → pc.succeeded = false)
  | storing (i : ℕ) (pre : List (ℕ × Bool)) (hflag : s.initialized = false)
      (hinits : s.inits = pre ++ [(i, true)]) (hfailed : ∀ e ∈ pre, e.2 = false)
      (hi : s.threads[i]? = some .storing)
      (hpcs : ∀ (j : ℕ) (pc : InitPc), j ≠ i → s.threads[j]? = some pc →
        pc.succeeded = false ∧ pc ≠ .calling)
  | after (i : ℕ) (pre : List (ℕ × Bool)) (hflag : s.initialized = true)
      (hinits : s.inits = pre ++ [(i, true)]) (hfailed : ∀ e ∈ pre, e.2 = false)
      (hpcs : ∀ (j : ℕ) (pc : InitPc), s.threads[j]? = some pc → pc ≠ .calling ∧ pc ≠ .storing)

theorem InitState.Locked.unique {i j : ℕ} {pc pc' : InitPc} (hs : s.Locked)
    (hi : s.threads[i]? = some pc) (hpc : pc.inside = true) (hj : s.threads[j]? = some pc')
    (hpc' : pc'.inside = true) : i = j :=
  Option.some.inj (((hs i).mpr ⟨pc, hi, hpc⟩).symm.trans ((hs j).mpr ⟨pc', hj, hpc'⟩))

theorem InitMoves.phase_before (h : InitMoves s a s') (hs : s.Locked)
    (hflag : s.initialized = false) (hfailed : ∀ e ∈ s.inits, e.2 = false)
    (hpcs : ∀ (i : ℕ) (pc : InitPc), s.threads[i]? = some pc → pc.succeeded = false) :
    s'.Phase := by
  have hothers : ∀ i (j : ℕ) (pc : InitPc), j ≠ i → s.threads[j]? = some pc →
      pc.succeeded = false := fun _ j pc _ hj => hpcs j pc hj
  cases h with
  | call => exact .before hflag hfailed (forall_append hpcs rfl)
  | seen i hi hset | found i hi hset => simp [hflag] at hset
  | unseen i hi | lock i hi | missing i hi =>
      exact .before hflag hfailed (forall_set hi (hothers i) rfl)
  | succeed i hi =>
      refine .storing i s.inits hflag rfl hfailed ((getElem?_set hi _ i).trans (if_pos rfl)) ?_
      intro j pc hne hj
      rw [InitState.goto, getElem?_set hi, if_neg hne] at hj
      refine ⟨hpcs j pc hj, ?_⟩
      rintro rfl
      exact hne (hs.unique hj rfl hi rfl)
  | fail i hi =>
      refine .before hflag ?_ (forall_set hi (hothers i) rfl)
      intro e he
      rcases List.mem_append.mp he with he | he
      · exact hfailed e he
      · rw [List.mem_singleton.mp he]
  | store i hi => cases hpcs i _ hi
  | unlock i threw hi =>
      cases threw with
      | true => exact .before hflag hfailed (forall_set hi (hothers i) rfl)
      | false => cases hpcs i _ hi

theorem InitMoves.phase_storing {i : ℕ} {pre : List (ℕ × Bool)} (h : InitMoves s a s')
    (hs : s.Locked) (hflag : s.initialized = false) (hinits : s.inits = pre ++ [(i, true)])
    (hfailed : ∀ e ∈ pre, e.2 = false) (hi : s.threads[i]? = some .storing)
    (hpcs : ∀ (j : ℕ) (pc : InitPc), j ≠ i → s.threads[j]? = some pc →
      pc.succeeded = false ∧ pc ≠ .calling) : s'.Phase := by
  -- only the thread that stores holds the mutex
  have houtside : ∀ (j : ℕ) (pc : InitPc), s.threads[j]? = some pc → pc.inside = true →
      pc = .storing := by
    intro j pc hj hpc
    obtain rfl := hs.unique hj hpc hi rfl
    rw [hi] at hj
    cases hj
    rfl
  cases h with
  | call =>
      refine .storing i pre hflag hinits hfailed ?_ ?_
      · rwa [List.getElem?_append_left (List.getElem?_eq_some_iff.mp hi).1]
      · intro j pc hne hj
        exact forall_append (Q := fun j pc => j ≠ i → pc.succeeded = false ∧ pc ≠ .calling)
          (fun j pc hj hne => hpcs j pc hne hj) (fun _ => ⟨rfl, by simp⟩) j pc hj hne
  | seen j hj hset | found j hj hset => simp [hflag] at hset
  | unseen j hj =>
      have hne : j ≠ i := by
        rintro rfl
        simp [hi] at hj
      refine .storing i pre hflag hinits hfailed ?_ ?_
      · exact ((getElem?_set hj _ i).trans (if_neg hne.symm)).trans hi
      · intro k pc hk hkpc
        exact forall_set (Q := fun k pc => k ≠ i → pc.succeeded = false ∧ pc ≠ .calling) hj
          (fun k pc _ hkpc hk => hpcs k pc hk hkpc) (fun _ => ⟨rfl, by simp⟩) k pc hkpc hk
  | lock j hj hfree =>
      have hholder : s.holder = some i := (hs i).mpr ⟨_, hi, rfl⟩
      simp [hholder] at hfree
  | missing j hj | succeed j hj | fail j hj => cases houtside j _ hj rfl
  | store j hj =>
      obtain rfl := hs.unique hj rfl hi rfl
      refine .after j pre rfl hinits hfailed (forall_set hj ?_ (by simp))
      intro k pc hne hk
      refine ⟨(hpcs k pc hne hk).2, ?_⟩
      rintro rfl
      exact hne (hs.unique hk rfl hj rfl)
  | unlock j threw hj => cases houtside j _ hj rfl

theorem InitMoves.phase_after {i : ℕ} {pre : List (ℕ × Bool)} (h : InitMoves s a s')
    (hflag : s.initialized = true) (hinits : s.inits = pre ++ [(i, true)])
    (hfailed : ∀ e ∈ pre, e.2 = false)
    (hpcs : ∀ (j : ℕ) (pc : InitPc), s.threads[j]? = some pc → pc ≠ .calling ∧ pc ≠ .storing) :
    s'.Phase := by
  have hothers : ∀ i (j : ℕ) (pc : InitPc), j ≠ i → s.threads[j]? = some pc →
      pc ≠ .calling ∧ pc ≠ .storing := fun _ j pc _ hj => hpcs j pc hj
  cases h with
  | call => exact .after i pre hflag hinits hfailed (forall_append hpcs (by simp))
  | seen j hj | unseen j hj | lock j hj | found j hj | unlock j threw hj =>
      exact .after i pre hflag hinits hfailed (forall_set hj (hothers j) (by simp))
  | missing j hj hunset => simp [hflag] at hunset
  | succeed j hj | fail j hj => exact absurd rfl (hpcs j _ hj).1
  | store j hj => exact absurd rfl (hpcs j _ hj).2

theorem InitMoves.phase (h : InitMoves s a s') (hs : s.Locked) (hphase : s.Phase) : s'.Phase := by
  cases hphase with
  | before hflag hfailed hpcs => exact h.phase_before hs hflag hfailed hpcs
  | storing i pre hflag hinits hfailed hi hpcs =>
      exact h.phase_storing hs hflag hinits hfailed hi hpcs
  | after i pre hflag hinits hfailed hpcs => exact h.phase_after hflag hinits hfailed hpcs

/-- The thread has not called `curl_global_init` yet. -/
def InitPc.early : InitPc → Bool
  | .checking | .locking | .rechecking | .calling => true
  | _ => false

/-- Every thread calls at most once, and it throws when its own call failed. -/
structure InitState.Owned (s : InitState) : Prop where
  threw : ∀ (i : ℕ) (pc : InitPc), s.threads[i]? = some pc →
    (pc.threw = true ↔ (i, false) ∈ s.inits)
  fresh : ∀ (i : ℕ) (pc : InitPc), s.threads[i]? = some pc → pc.early = true →
    ∀ ok, (i, ok) ∉ s.inits
  known : ∀ e ∈ s.inits, e.1 < s.threads.length
  once : (s.inits.map Prod.fst).Nodup

theorem Owned.of_sameInits {i : ℕ} {pc pc' : InitPc} (hs : s.Owned)
    (hi : s.threads[i]? = some pc) (hthreads : s'.threads = s.threads.set i pc')
    (hinits : s'.inits = s.inits) (hthrew : pc'.threw = pc.threw)
    (hearly : pc'.early = true → pc.early = true) : s'.Owned where
  threw := by
    rw [hthreads, hinits]
    exact forall_set hi (fun j pc _ hj => hs.threw j pc hj) (hthrew ▸ hs.threw i pc hi)
  fresh := by
    rw [hthreads, hinits]
    exact forall_set hi (fun j pc _ hj => hs.fresh j pc hj) fun h => hs.fresh i pc hi (hearly h)
  known := by
    rw [hthreads, hinits, List.length_set]
    exact hs.known
  once := by
    rw [hinits]
    exact hs.once

/-- A call of `curl_global_init` is the first of its thread. -/
theorem Owned.of_call {i : ℕ} {pc' : InitPc} {ok : Bool} (hs : s.Owned)
    (hi : s.threads[i]? = some .calling) (hthreads : s'.threads = s.threads.set i pc')
    (hinits : s'.inits = s.inits ++ [(i, ok)]) (hthrew : pc'.threw = !ok)
    (hearly : pc'.early = false) : s'.Owned where
  threw := by
    rw [hthreads, hinits]
    refine forall_set hi ?_ ?_
    · intro j pc hne hj
      rw [hs.threw j pc hj]
      simp [hne]
    · have hfresh := hs.fresh i _ hi rfl false
      rw [hthrew]
      cases ok <;> simp [hfresh]
  fresh := by
    rw [hthreads, hinits]
    refine forall_set hi ?_ (by simp [hearly])
    intro j pc hne hj hpc ok'
    simp [hs.fresh j pc hj hpc, hne]
  known := by
    rw [hthreads, hinits, List.length_set]
    intro e he
    rcases List.mem_append.mp he with he | he
    · exact hs.known e he
    · rw [List.mem_singleton.mp he]
      exact (List.getElem?_eq_some_iff.mp hi).1
  once := by
    rw [hinits, List.map_append, List.map_singleton, List.nodup_append]
    refine ⟨hs.once, by simp, ?_⟩
    rintro j hj _ hmem rfl
    obtain ⟨⟨j, ok'⟩, he, rfl⟩ := List.mem_map.mp hj
    obtain rfl : j = i := by simpa using hmem
    exact hs.fresh j _ hi rfl ok' he

theorem InitMoves.owned (h : InitMoves s a s') (hs : s.Owned) : s'.Owned := by
  cases h with
  | call =>
      have hnew : ∀ ok, (s.threads.length, ok) ∉ s.inits := fun ok he => by
        simpa using hs.known _ he
      refine ⟨forall_append hs.threw ?_, forall_append hs.fresh fun _ => hnew, ?_, hs.once⟩
      · simp [InitPc.threw, hnew]
      · intro e he
        exact (hs.known e he).trans (by simp)
  | seen i hi | unseen i hi | lock i hi | found i hi | missing i hi | store i hi =>
      exact Owned.of_sameInits hs hi rfl rfl rfl (by simp [InitPc.early])
  | unlock i threw hi =>
      exact Owned.of_sameInits hs hi rfl rfl (by cases threw <;> rfl) (by simp [InitPc.early])
  | succeed i hi | fail i hi => exact Owned.of_call hs hi rfl rfl rfl rfl

/-- What holds in every state of `global_init`. -/
structure InitState.Invariant (s : InitState) : Prop where
  locked : s.Locked
  phase : s.Phase
  owned : s.Owned

theorem InitState.Invariant.step (hs : s.Invariant) (h : InitMoves s a s') : s'.Invariant where
  locked := h.locked hs.locked
  phase := h.phase hs.locked hs.phase
  owned := h.owned hs.owned

theorem init_invariant_of_reachable (h : globalInit.Reachable s) : s.Invariant := by
  apply h.invariant
  · refine ⟨?_, .before rfl ?_ ?_, ?_⟩
    · intro i
      simp [globalInit, InitState.Inside]
    · simp [globalInit]
    · simp [globalInit]
    · constructor <;> simp [globalInit]
  · intro a s s' hs hstep
    exact hs.step (initStep_moves hstep)

/-- However its threads interleave, `global_init` has one of them under the mutex at a time,
calls `curl_global_init` at most once in each and never after a success, returns
only when libcurl is initialised, and throws exactly in the threads whose own call
failed. -/
theorem globalInit_once (h : globalInit.Reachable s) :
    (∀ i j, s.Inside i → s.Inside j → i = j) ∧
      (s.inits.map Prod.fst).Nodup ∧ (∀ e ∈ s.inits.dropLast, e.2 = false) ∧
      (s.initialized = true → ∃ i, (i, true) ∈ s.inits) ∧
      (∀ i : ℕ, s.threads[i]? = some (.done false) → s.initialized = true) ∧
      ∀ i, (i, false) ∈ s.inits ↔
        s.threads[i]? = some (.leaving true) ∨ s.threads[i]? = some (.done true) := by
  have hs := init_invariant_of_reachable h
  refine ⟨?_, hs.owned.once, ?_, ?_, ?_, ?_⟩
  · rintro i j ⟨pc, hi, hpc⟩ ⟨pc', hj, hpc'⟩
    exact hs.locked.unique hi hpc hj hpc'
  · cases hs.phase with
    | before hflag hfailed => exact fun e he => hfailed e (List.dropLast_subset _ he)
    | storing i pre hflag hinits hfailed | after i pre hflag hinits hfailed =>
        rw [hinits, List.dropLast_concat]
        exact hfailed
  · intro hset
    cases hs.phase with
    | before hflag | storing _ _ hflag => simp [hset] at hflag
    | after i pre hflag hinits =>
        exact ⟨i, by rw [hinits]; exact List.mem_append_right _ (List.mem_singleton_self _)⟩
  · intro i hi
    cases hs.phase with
    | before hflag hfailed hpcs => cases hpcs i _ hi
    | storing j pre hflag hinits hfailed hj hpcs =>
        by_cases hij : i = j
        · subst hij
          simp [hj] at hi
        · cases (hpcs i _ hij hi).1
    | after i pre hflag => exact hflag
  · intro i
    constructor
    · intro he
      have hlt := hs.owned.known _ he
      have hi : s.threads[i]? = some s.threads[i] := List.getElem?_eq_getElem hlt
      have hthrew := (hs.owned.threw i _ hi).mpr he
      rw [hi]
      cases hpc : s.threads[i] with
      | leaving threw | done threw => cases threw <;> simp_all [InitPc.threw]
      | _ => simp_all [InitPc.threw]
    · rintro (hi | hi)
      · exact (hs.owned.threw i _ hi).mp rfl
      · exact (hs.owned.threw i _ hi).mp rfl

/-- Two threads, of which the first fails and throws while the second one waits. -/
theorem globalInit_once_retry :
    ∃ s : InitState, globalInit.Reachable s ∧ s.inits = [(0, false), (1, true)] ∧
      s.threads = [InitPc.done true, InitPc.done false] ∧
      (∀ i j, s.Inside i → s.Inside j → i = j) ∧
      (s.inits.map Prod.fst).Nodup ∧ (∀ e ∈ s.inits.dropLast, e.2 = false) ∧
      (s.initialized = true → ∃ i, (i, true) ∈ s.inits) ∧
      (∀ i : ℕ, s.threads[i]? = some (.done false) → s.initialized = true) ∧
      ∀ i, (i, false) ∈ s.inits ↔
        s.threads[i]? = some (.leaving true) ∨ s.threads[i]? = some (.done true) := by
  obtain ⟨s, hrun, hinits, hthreads⟩ : ∃ s,
      globalInit.runFrom [.call, .call, .thread 0 true, .thread 1 true, .thread 0 true,
        .thread 0 true, .thread 0 false, .thread 0 true, .thread 1 true, .thread 1 true,
        .thread 1 true, .thread 1 true, .thread 1 true] globalInit.start = some s ∧
      s.inits = [(0, false), (1, true)] ∧ s.threads = [InitPc.done true, InitPc.done false] :=
    ⟨_, rfl, rfl, rfl⟩
  have hs := Transition.Reachable.start.runFrom _ hrun
  exact ⟨s, hs, hinits, hthreads, globalInit_once hs⟩

/-! ## No thread waits forever -/

/-- The steps that a thread has left. -/
def InitPc.left : InitPc → ℕ
  | .checking => 6
  | .locking => 5
  | .rechecking => 4
  | .calling => 3
  | .storing => 2
  | .leaving _ => 1
  | .done _ => 0

def InitState.left (s : InitState) : ℕ := (s.threads.map InitPc.left).sum

def InitAction.isCall : InitAction → Bool
  | .call => true
  | .thread .. => false

def InitAction.cost (a : InitAction) : ℕ := if a.isCall then 7 else 0

/-- Every thread has returned or thrown. -/
def InitState.Finished (s : InitState) : Prop := ∀ pc ∈ s.threads, ∃ threw, pc = .done threw

theorem initStep_left (h : initStep a s = some s') :
    s'.left + 1 ≤ s.left + a.cost := by
  have hgoto : ∀ {i pc pc'}, s.threads[i]? = some pc → InitPc.left pc' + 1 ≤ pc.left →
      ((s.threads.set i pc').map InitPc.left).sum + 1 ≤ s.left := by
    intro i pc pc' hi hlt
    have hsum := sum_map_set (f := InitPc.left) hi pc'
    unfold InitState.left
    omega
  cases a with
  | call =>
      cases h
      simp [InitState.left, InitAction.cost, InitAction.isCall, InitPc.left]
  | thread i ok =>
      refine le_trans ?_ (Nat.le_add_right _ _)
      cases initStep_moves h with
      | seen i hi | unseen i hi | lock i hi | found i hi | missing i hi | succeed i hi
      | fail i hi | store i hi | unlock i threw hi => exact hgoto hi (by simp [InitPc.left])

theorem InitState.Invariant.next (a : InitAction) (s s' : InitState) (hs : s.Invariant)
    (h : globalInit.step a s = some s') : s'.Invariant :=
  hs.step (initStep_moves h)

/-- While a thread is not done, the holder of the mutex or, if it is free, that thread
can go on. -/
theorem exists_initStep (hs : s.Invariant) (h : ¬s.Finished) :
    ∃ a s', InitAction.cost a = 0 ∧ globalInit.step a s = some s' := by
  have hthread : ∀ (i : ℕ) (pc : InitPc), s.threads[i]? = some pc → (∀ threw, pc ≠ .done threw) →
      (pc = .locking → s.holder = none) →
      ∃ a s', InitAction.cost a = 0 ∧ globalInit.step a s = some s' := by
    intro i pc hi hdone hfree
    refine ⟨.thread i true, ?_⟩
    cases pc with
    | locking => exact ⟨_, rfl, by simp only [globalInit, initStep, hi, hfree rfl]; rfl⟩
    | done threw => exact absurd rfl (hdone threw)
    | checking | rechecking | calling | storing | leaving threw =>
        exact ⟨_, rfl, by simp only [globalInit, initStep, hi]; rfl⟩
  cases hholder : s.holder with
  | some i =>
      obtain ⟨pc, hi, hpc⟩ := (hs.locked i).mp hholder
      refine hthread i pc hi ?_ ?_
      · rintro threw rfl
        cases hpc
      · rintro rfl
        cases hpc
  | none =>
      unfold InitState.Finished at h
      push Not at h
      obtain ⟨pc, hmem, hdone⟩ := h
      obtain ⟨i, hi⟩ := List.mem_iff_getElem?.mp hmem
      exact hthread i pc hi hdone fun _ => hholder

/-- Every run is at most seven steps for each call of `global_init`, a state in which no
thread can go on is one in which all have returned or thrown, and every state can
be brought there. -/
theorem globalInit_finishes {actions : List InitAction}
    (h : globalInit.runFrom actions globalInit.start = some s) :
    actions.length + s.left ≤ 7 * actions.countP InitAction.isCall ∧
      ((∀ i ok, globalInit.step (.thread i ok) s = none) ↔ s.Finished) ∧
      ∃ rest s', (∀ a ∈ rest, a.isCall = false) ∧ globalInit.runFrom rest s = some s' ∧
        s'.Finished := by
  have hrank : ∀ a s s', s.Invariant → globalInit.step a s = some s' →
      InitState.left s' + 1 ≤ s.left + a.cost := fun a s s' _ hstep => initStep_left hstep
  have hstart := init_invariant_of_reachable Transition.Reachable.start
  have hs := Transition.runFrom_invariant InitState.Invariant.next hstart h
  refine ⟨?_, ⟨?_, ?_⟩, ?_⟩
  · have hlen := Transition.length_add_rank_le InitState.Invariant.next hrank hstart h
    have hcost : (actions.map InitAction.cost).sum = 7 * actions.countP InitAction.isCall :=
      Transition.sum_map_cost _ _ _
    rw [hcost] at hlen
    exact hlen.trans (by simp [globalInit, InitState.left])
  · intro hnone
    by_contra hfin
    obtain ⟨a, s', hcost, hstep⟩ := exists_initStep hs hfin
    cases a with
    | call => cases hcost
    | thread i ok =>
        rw [hnone i ok] at hstep
        cases hstep
  · intro hfin i ok
    cases hi : s.threads[i]? with
    | none => simp [globalInit, initStep, hi]
    | some pc =>
        obtain ⟨threw, rfl⟩ := hfin pc (List.mem_of_getElem? hi)
        simp [globalInit, initStep, hi]
  · obtain ⟨rest, s', hfree, hrun, hfin⟩ := Transition.exists_runFrom_done
      InitState.Invariant.next hrank (fun s hs hfin => exists_initStep hs hfin) hs
    refine ⟨rest, s', fun a ha => ?_, hrun, hfin⟩
    have hcost := hfree a ha
    cases a with
    | call => cases hcost
    | thread i ok => rfl

/-- A thread that waits for the mutex of another one. -/
theorem globalInit_finishes_waiting :
    ∃ s, globalInit.runFrom [.call, .call, .thread 0 true, .thread 1 true, .thread 0 true]
        globalInit.start = some s ∧
      globalInit.step (.thread 1 true) s = none ∧ s.left ≤ 9 ∧
      ∃ rest s', (∀ a ∈ rest, a.isCall = false) ∧ globalInit.runFrom rest s = some s' ∧
        s'.Finished := by
  obtain ⟨s, hrun, hwaits⟩ : ∃ s,
      globalInit.runFrom [.call, .call, .thread 0 true, .thread 1 true, .thread 0 true]
        globalInit.start = some s ∧ globalInit.step (.thread 1 true) s = none := ⟨_, rfl, rfl⟩
  obtain ⟨hlen, -, hdone⟩ := globalInit_finishes hrun
  have hleft : 5 + s.left ≤ 14 := hlen
  exact ⟨s, hrun, hwaits, by omega, hdone⟩

end Audd
