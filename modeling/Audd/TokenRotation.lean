import Audd.Lib.Transition
import Mathlib.Data.List.Basic

/-!
# Rotating the token

`AudD::set_api_token` holds one mutex while it updates three copies of the token:
the client's own, the standard client's and the enterprise client's. A request
reads only the copy of its client, under that client's mutex.

## Implementation notes

The calls that wait for the mutex are left out: whichever takes it next begins a
rotation. A request that brings its own `api_token` reads none of the copies and
is no action here.
-/

namespace Audd

/-- What the holder of `token_mutex` does next. -/
inductive RotationStage
  | apiToken
  | standard
  | enterprise
  | unlock
deriving DecidableEq

/-- Who read a token. -/
inductive TokenReader
  | apiTokenCall
  | standardRequest
  | enterpriseRequest
deriving DecidableEq

structure TokenUse where
  reader : TokenReader
  token : String

/-- The copies of the token, the rotation in progress and the history: the tokens
of the constructor and of the rotations begun, and the reads. -/
structure TokenState where
  apiToken : String
  standard : String
  enterprise : String
  rotating : Option (String × RotationStage) := none
  tokens : List String
  uses : List TokenUse := []

inductive TokenAction
  | setApiToken (newToken : String)
  | rotate
  | read (reader : TokenReader)

/-- The copy that a reader reads. An `api_token()` call waits for `token_mutex`. -/
def TokenState.seenBy (s : TokenState) : TokenReader → Option String
  | .apiTokenCall => if s.rotating = none then some s.apiToken else none
  | .standardRequest => some s.standard
  | .enterpriseRequest => some s.enterprise

/-- The rotation's next update. -/
def TokenState.rotate (s : TokenState) : Option TokenState :=
  match s.rotating with
  | none => none
  | some (t, .apiToken) => some { s with apiToken := t, rotating := some (t, .standard) }
  | some (t, .standard) => some { s with standard := t, rotating := some (t, .enterprise) }
  | some (t, .enterprise) => some { s with enterprise := t, rotating := some (t, .unlock) }
  | some (_, .unlock) => some { s with rotating := none }

def tokenStep : TokenAction → TokenState → Option TokenState
  | .setApiToken newToken, s =>
      -- an empty token is rejected before the mutex is taken
      if newToken = "" then some s
      else if s.rotating = none then
        some { s with rotating := some (newToken, .apiToken), tokens := s.tokens ++ [newToken] }
      else none
  | .rotate, s => s.rotate
  | .read reader, s => (s.seenBy reader).map fun token =>
      { s with uses := s.uses ++ [⟨reader, token⟩] }

/-- The client after its construction. -/
def tokenRotation (token : String) : Transition TokenState TokenAction where
  start := { apiToken := token, standard := token, enterprise := token, tokens := [token] }
  step := tokenStep

/-- A rotation to the second token replaced the first one. -/
def Replaced (tokens : List String) (old new : String) : Prop :=
  ∃ i, tokens[i]? = some old ∧ tokens[i + 1]? = some new

/-- The three copies are the token of the last rotation. -/
def TokenState.InSync (s : TokenState) : Prop :=
  s.tokens.getLast? = some s.apiToken ∧ s.standard = s.apiToken ∧ s.enterprise = s.apiToken

/-- Once a token was used, no later request uses the token that it replaced. -/
def TokenState.NoStaleUse (s : TokenState) : Prop :=
  s.uses.Pairwise fun earlier later => later.reader ≠ .apiTokenCall →
    ¬Replaced s.tokens later.token earlier.token

/-- No enterprise request starts between the update of the standard client and that
of the enterprise client if the new token was already used. -/
def TokenAction.Safe (s : TokenState) : TokenAction → Prop
  | .read .enterpriseRequest => ∀ t, s.rotating = some (t, .enterprise) →
      ∀ u ∈ s.uses, u.token ≠ t
  | _ => True

/-! ## The order of the tokens -/

/-- The last token has not been replaced. -/
theorem not_replaced_last {pre : List String} {last new : String}
    (hd : (pre ++ [last]).Nodup) : ¬Replaced (pre ++ [last]) last new := by
  rintro ⟨i, hold, hnew⟩
  have hlt : i < (pre ++ [last]).length := (List.getElem?_eq_some_iff.mp hold).1
  have hi : i = pre.length := (List.getElem?_inj hlt hd).mp (by simp [hold])
  subst hi
  simp at hnew

/-- A new token at the end replaces the one before it and changes nothing else. -/
theorem replaced_concat_iff {pre : List String} {last t old new : String} :
    Replaced (pre ++ [last] ++ [t]) old new ↔
      Replaced (pre ++ [last]) old new ∨ old = last ∧ new = t := by
  constructor
  · rintro ⟨i, hold, hnew⟩
    by_cases hi : i < pre.length
    · left
      refine ⟨i, ?_, ?_⟩
      · rwa [List.getElem?_append_left (by simp; omega)] at hold
      · rwa [List.getElem?_append_left (by simp; omega)] at hnew
    · right
      have hlt := (List.getElem?_eq_some_iff.mp hnew).1
      obtain rfl : i = pre.length := by
        simp only [List.length_append, List.length_singleton] at hlt
        omega
      simp at hold hnew
      exact ⟨hold.symm, hnew.symm⟩
  · rintro (⟨i, hold, hnew⟩ | ⟨rfl, rfl⟩)
    · refine ⟨i, ?_, ?_⟩
      · rw [List.getElem?_append_left (List.getElem?_eq_some_iff.mp hold).1, hold]
      · rw [List.getElem?_append_left (List.getElem?_eq_some_iff.mp hnew).1, hnew]
    · exact ⟨pre.length, by simp, by simp⟩

/-! ## What a rotation leaves behind -/

/-- How far a rotation has come, by the copies that it has updated. -/
inductive TokenState.Phase (s : TokenState) : Prop
  | quiet (pre : List String) (hrotating : s.rotating = none)
      (htokens : s.tokens = pre ++ [s.apiToken]) (hstandard : s.standard = s.apiToken)
      (henterprise : s.enterprise = s.apiToken) (hused : ∀ u ∈ s.uses, u.token ∈ s.tokens)
  | begun (pre : List String) (t : String) (hrotating : s.rotating = some (t, .apiToken))
      (htokens : s.tokens = pre ++ [s.standard] ++ [t]) (hold : s.enterprise = s.standard)
      (hused : ∀ u ∈ s.uses, u.token ∈ pre ++ [s.standard])
  | named (pre : List String) (t : String) (hrotating : s.rotating = some (t, .standard))
      (htokens : s.tokens = pre ++ [s.standard] ++ [t]) (hapi : s.apiToken = t)
      (hold : s.enterprise = s.standard) (hused : ∀ u ∈ s.uses, u.token ∈ pre ++ [s.standard])
  | halfway (pre : List String) (t : String) (hrotating : s.rotating = some (t, .enterprise))
      (htokens : s.tokens = pre ++ [s.enterprise] ++ [t]) (hapi : s.apiToken = t)
      (hstandard : s.standard = t) (hused : ∀ u ∈ s.uses, u.token ∈ s.tokens)
  | updated (pre : List String) (t : String) (hrotating : s.rotating = some (t, .unlock))
      (htokens : s.tokens = pre ++ [t]) (hapi : s.apiToken = t) (hstandard : s.standard = t)
      (henterprise : s.enterprise = t) (hused : ∀ u ∈ s.uses, u.token ∈ s.tokens)

variable {s s' : TokenState}

theorem rotate_history (h : s.rotate = some s') : s'.tokens = s.tokens ∧ s'.uses = s.uses := by
  unfold TokenState.rotate at h
  split at h <;> cases h <;> exact ⟨rfl, rfl⟩

theorem TokenState.Phase.rotate (hs : s.Phase) (h : s.rotate = some s') : s'.Phase := by
  unfold TokenState.rotate at h
  cases hs with
  | quiet pre hrotating => simp [hrotating] at h
  | begun pre t hrotating htokens hold hused =>
      simp only [hrotating] at h
      cases h
      exact .named pre t rfl htokens rfl hold hused
  | named pre t hrotating htokens hapi hold hused =>
      simp only [hrotating] at h
      cases h
      refine .halfway pre t rfl ?_ hapi rfl ?_
      · rw [htokens, hold]
      · intro u hu
        rw [htokens]
        exact List.mem_append_left _ (hused u hu)
  | halfway pre t hrotating htokens hapi hstandard hused =>
      simp only [hrotating] at h
      cases h
      exact .updated _ t rfl htokens hapi hstandard rfl hused
  | updated pre t hrotating htokens hapi hstandard henterprise hused =>
      simp only [hrotating] at h
      cases h
      refine .quiet pre rfl ?_ ?_ ?_ hused
      · rw [htokens, hapi]
      · rw [hstandard, hapi]
      · rw [henterprise, hapi]

/-- Without a rotation the three copies are the last token. -/
theorem TokenState.Phase.of_free (hs : s.Phase) (hfree : s.rotating = none) :
    (∃ pre, s.tokens = pre ++ [s.apiToken]) ∧ s.standard = s.apiToken ∧
      s.enterprise = s.apiToken ∧ ∀ u ∈ s.uses, u.token ∈ s.tokens := by
  cases hs with
  | quiet pre _ htokens hstandard henterprise hused =>
      exact ⟨⟨pre, htokens⟩, hstandard, henterprise, hused⟩
  | begun _ _ hrotating | named _ _ hrotating | halfway _ _ hrotating | updated _ _ hrotating =>
      rw [hrotating] at hfree
      cases hfree

theorem TokenState.Phase.begin (hs : s.Phase) (hfree : s.rotating = none) (t : String) :
    TokenState.Phase { s with rotating := some (t, .apiToken), tokens := s.tokens ++ [t] } := by
  obtain ⟨⟨pre, htokens⟩, hstandard, henterprise, hused⟩ := hs.of_free hfree
  refine .begun pre t rfl ?_ ?_ ?_
  · rw [htokens, hstandard]
  · rw [henterprise, hstandard]
  · intro u hu
    rw [hstandard, ← htokens]
    exact hused u hu

/-- Every reader sees the token of the two clients, if they agree. -/
theorem TokenState.eq_of_seenBy {reader : TokenReader} {token t : String}
    (h : s.seenBy reader = some token) (hapi : s.rotating = none → s.apiToken = t)
    (hstandard : s.standard = t) (henterprise : s.enterprise = t) : t = token := by
  cases reader with
  | apiTokenCall =>
      simp only [TokenState.seenBy] at h
      split at h
      · exact (hapi ‹_›).symm.trans (Option.some.inj h)
      · cases h
  | standardRequest => exact hstandard.symm.trans (Option.some.inj h)
  | enterpriseRequest => exact henterprise.symm.trans (Option.some.inj h)

theorem TokenState.rotating_ne_none {r : String × RotationStage} {p : Prop}
    (hrotating : s.rotating = some r) (hfree : s.rotating = none) : p := by
  rw [hrotating] at hfree
  cases hfree

theorem TokenState.Phase.read (hs : s.Phase) {reader : TokenReader} {token : String}
    (h : s.seenBy reader = some token) :
    TokenState.Phase { s with uses := s.uses ++ [⟨reader, token⟩] } := by
  have happend : ∀ {tokens : List String}, (∀ u ∈ s.uses, u.token ∈ tokens) → token ∈ tokens →
      ∀ u ∈ s.uses ++ [⟨reader, token⟩], u.token ∈ tokens := by
    intro tokens hused htoken u hu
    rcases List.mem_append.mp hu with hu | hu
    · exact hused u hu
    · obtain rfl := List.mem_singleton.mp hu
      exact htoken
  cases hs with
  | quiet pre hrotating htokens hstandard henterprise hused =>
      refine .quiet pre hrotating htokens hstandard henterprise (happend hused ?_)
      rw [htokens, eq_of_seenBy h (fun _ => rfl) hstandard henterprise]
      exact List.mem_append_right _ (List.mem_singleton_self _)
  | begun pre t hrotating htokens hold hused =>
      refine .begun pre t hrotating htokens hold (happend hused ?_)
      rw [eq_of_seenBy h (rotating_ne_none hrotating) rfl hold]
      exact List.mem_append_right _ (List.mem_singleton_self _)
  | named pre t hrotating htokens hapi hold hused =>
      refine .named pre t hrotating htokens hapi hold (happend hused ?_)
      rw [eq_of_seenBy h (rotating_ne_none hrotating) rfl hold]
      exact List.mem_append_right _ (List.mem_singleton_self _)
  | halfway pre t hrotating htokens hapi hstandard hused =>
      refine .halfway pre t hrotating htokens hapi hstandard (happend hused ?_)
      rw [htokens]
      cases reader with
      | apiTokenCall =>
          rw [TokenState.seenBy, hrotating] at h
          cases h
      | standardRequest =>
          rw [← hstandard.symm.trans (Option.some.inj h)]
          exact List.mem_append_right _ (List.mem_singleton_self _)
      | enterpriseRequest =>
          rw [← Option.some.inj h]
          exact List.mem_append_left _ (List.mem_append_right _ (List.mem_singleton_self _))
  | updated pre t hrotating htokens hapi hstandard henterprise hused =>
      refine .updated pre t hrotating htokens hapi hstandard henterprise (happend hused ?_)
      rw [htokens, eq_of_seenBy h (fun _ => hapi) hstandard henterprise]
      exact List.mem_append_right _ (List.mem_singleton_self _)

/-- Setting a token leaves the state alone or begins a rotation. -/
theorem setApiToken_cases {t : String} (h : tokenStep (.setApiToken t) s = some s') :
    s' = s ∨ s.rotating = none ∧
      s' = { s with rotating := some (t, .apiToken), tokens := s.tokens ++ [t] } := by
  simp only [tokenStep] at h
  split at h
  · cases h
    exact .inl rfl
  · split at h
    · cases h
      exact .inr ⟨‹_›, rfl⟩
    · cases h

theorem TokenState.Phase.step (hs : s.Phase) {a : TokenAction} (h : tokenStep a s = some s') :
    s'.Phase := by
  cases a with
  | setApiToken t =>
      rcases setApiToken_cases h with rfl | ⟨hfree, rfl⟩
      · exact hs
      · exact hs.begin hfree t
  | rotate => exact hs.rotate h
  | read reader =>
      obtain ⟨token, htoken, rfl⟩ := Option.map_eq_some_iff.mp h
      exact hs.read htoken

theorem TokenState.Phase.inSync (hs : s.Phase) (hfree : s.rotating = none) : s.InSync := by
  obtain ⟨⟨pre, htokens⟩, hstandard, henterprise, -⟩ := hs.of_free hfree
  exact ⟨by rw [htokens, List.getLast?_concat], hstandard, henterprise⟩

theorem TokenState.Phase.exists_concat (hs : s.Phase) :
    ∃ pre last, s.tokens = pre ++ [last] := by
  cases hs with
  | quiet _ _ htokens | begun _ _ _ htokens | named _ _ _ htokens | halfway _ _ _ htokens
  | updated _ _ _ htokens => exact ⟨_, _, htokens⟩

/-! ## Which reads are stale -/

/-- The token before the last was replaced by the last one only. -/
theorem replaced_iff_of_nodup {pre : List String} {last t new : String}
    (hd : (pre ++ [last] ++ [t]).Nodup) : Replaced (pre ++ [last] ++ [t]) last new ↔ new = t := by
  rw [replaced_concat_iff]
  constructor
  · rintro (hreplaced | ⟨-, hnew⟩)
    · exact absurd hreplaced (not_replaced_last (List.nodup_append.mp hd).1)
    · exact hnew
  · intro hnew
    exact .inr ⟨rfl, hnew⟩

theorem ne_of_mem_of_nodup {tokens : List String} {t u : String} (hd : (tokens ++ [t]).Nodup)
    (hu : u ∈ tokens) : u ≠ t :=
  (List.nodup_append.mp hd).2.2 u hu t (List.mem_singleton_self t)

/-- A request reads no replaced token, unless it is an enterprise request that
reads the old token after the new one was used. -/
theorem TokenState.Phase.fresh_iff (hs : s.Phase) (hd : s.tokens.Nodup) {reader : TokenReader}
    {token : String} (h : s.seenBy reader = some token) (hrequest : reader ≠ .apiTokenCall) :
    (∀ u ∈ s.uses, ¬Replaced s.tokens token u.token) ↔ (TokenAction.read reader).Safe s := by
  -- outside the window every request reads a token that no used one has replaced
  have hsafe : (∀ t, s.rotating ≠ some (t, .enterprise)) →
      (TokenAction.read reader).Safe s := by
    intro hstage
    cases reader with
    | enterpriseRequest => exact fun t ht => absurd ht (hstage t)
    | apiTokenCall | standardRequest => trivial
  cases hs with
  | quiet pre hrotating htokens hstandard henterprise hused =>
      obtain rfl : s.apiToken = token := eq_of_seenBy h (fun _ => rfl) hstandard henterprise
      refine iff_of_true ?_ (hsafe (by simp [hrotating]))
      intro u _
      rw [htokens] at hd ⊢
      exact not_replaced_last hd
  | begun pre t hrotating htokens hold hused | named pre t hrotating htokens _ hold hused =>
      obtain rfl : s.standard = token := eq_of_seenBy h (rotating_ne_none hrotating) rfl hold
      refine iff_of_true ?_ (hsafe (by simp [hrotating]))
      intro u hu
      rw [htokens] at hd ⊢
      rw [replaced_iff_of_nodup hd]
      exact ne_of_mem_of_nodup hd (hused u hu)
  | halfway pre t hrotating htokens hapi hstandard hused =>
      rw [htokens] at hd ⊢
      cases reader with
      | apiTokenCall => exact absurd rfl hrequest
      | standardRequest =>
          obtain rfl : t = token := hstandard.symm.trans (Option.some.inj h)
          refine iff_of_true ?_ trivial
          intro u _
          exact not_replaced_last hd
      | enterpriseRequest =>
          obtain rfl : s.enterprise = token := Option.some.inj h
          simp only [replaced_iff_of_nodup hd]
          constructor
          · intro hunused t' ht'
            rw [hrotating] at ht'
            cases ht'
            exact hunused
          · intro hunused
            exact hunused t hrotating
  | updated pre t hrotating htokens hapi hstandard henterprise hused =>
      obtain rfl : t = token := eq_of_seenBy h (fun _ => hapi) hstandard henterprise
      refine iff_of_true ?_ (hsafe (by simp [hrotating]))
      intro u _
      rw [htokens] at hd ⊢
      exact not_replaced_last hd

theorem TokenState.Phase.used (hs : s.Phase) : ∀ u ∈ s.uses, u.token ∈ s.tokens := by
  cases hs with
  | quiet _ _ _ _ _ hused | halfway _ _ _ _ _ _ hused | updated _ _ _ _ _ _ _ hused =>
      exact hused
  | begun pre t _ htokens _ hused | named pre t _ htokens _ _ hused =>
      intro u hu
      rw [htokens]
      exact List.mem_append_left _ (hused u hu)

/-- A step makes a stale use exactly when it is not safe. -/
theorem TokenState.Phase.noStaleUse_iff (hs : s.Phase) {a : TokenAction}
    (hd : s'.tokens.Nodup) (h : tokenStep a s = some s') :
    s'.NoStaleUse ↔ s.NoStaleUse ∧ a.Safe s := by
  cases a with
  | setApiToken t =>
      refine Iff.trans ?_ (and_iff_left trivial).symm
      rcases setApiToken_cases h with rfl | ⟨-, rfl⟩
      · exact Iff.rfl
      · obtain ⟨pre, last, htokens⟩ := hs.exists_concat
        apply List.Pairwise.iff_of_mem
        intro earlier later hearlier _
        have hne : earlier.token ≠ t := ne_of_mem_of_nodup hd (hs.used earlier hearlier)
        rw [htokens, replaced_concat_iff]
        simp only [hne, and_false, or_false]
  | rotate =>
      obtain ⟨htokens, huses⟩ := rotate_history h
      refine Iff.trans ?_ (and_iff_left trivial).symm
      rw [TokenState.NoStaleUse, htokens, huses]
      rfl
  | read reader =>
      obtain ⟨token, htoken, rfl⟩ := Option.map_eq_some_iff.mp h
      simp only [TokenState.NoStaleUse, List.pairwise_append, List.pairwise_singleton,
        List.mem_singleton, forall_eq, true_and]
      apply and_congr_right
      intro _
      by_cases hrequest : reader = .apiTokenCall
      · subst hrequest
        simp [TokenAction.Safe]
      · simp only [ne_eq, hrequest, not_false_eq_true, true_imp_iff]
        exact hs.fresh_iff hd htoken hrequest

/-! ## Runs -/

theorem tokenStep_tokens {a : TokenAction} (h : tokenStep a s = some s') :
    s.tokens <+: s'.tokens := by
  cases a with
  | setApiToken t =>
      rcases setApiToken_cases h with rfl | ⟨-, rfl⟩
      · exact List.prefix_rfl
      · exact List.prefix_append _ _
  | rotate =>
      exact (rotate_history h).1 ▸ List.prefix_rfl
  | read reader =>
      obtain ⟨token, htoken, rfl⟩ := Option.map_eq_some_iff.mp h
      exact List.prefix_rfl

/-- In every run with pairwise different tokens the copies agree outside rotations,
and no replaced token is used after its successor exactly when every step is safe. -/
theorem tokenRotation_atomic_iff (token : String) (actions : List TokenAction) (s : TokenState)
    (hrun : (tokenRotation token).runFrom actions (tokenRotation token).start = some s)
    (hdistinct : s.tokens.Nodup) :
    ((s.rotating = none → s.InSync) ∧ s.NoStaleUse) ↔
      (tokenRotation token).EveryStep (fun a s _ => a.Safe s) actions
        (tokenRotation token).start := by
  have hstart : (tokenRotation token).start.Phase := by
    refine .quiet [] rfl rfl rfl rfl ?_
    intro u hu
    cases hu
  have hphase : s.Phase := by
    apply (Transition.Reachable.start.runFrom actions hrun).invariant hstart
    intro a s s' hs hstep
    exact hs.step hstep
  have hstale := Transition.runFrom_iff_everyStep (G := TokenState.NoStaleUse)
    (fun a s s' hs hstep => TokenState.Phase.step hs hstep)
    (fun a s s' hstep hd => hd.sublist (tokenStep_tokens hstep).sublist)
    (fun a s s' hs hd hstep => hs.noStaleUse_iff hd hstep) hstart hdistinct actions hrun
  rw [and_iff_right hphase.inSync, hstale.2]
  exact and_iff_right List.Pairwise.nil

theorem tokenRotation_atomic_iff_completed :
    let actions : List TokenAction := [.read .enterpriseRequest, .setApiToken "new", .rotate,
      .rotate, .rotate, .rotate, .read .apiTokenCall, .read .enterpriseRequest]
    ∃ s, (tokenRotation "old").runFrom actions (tokenRotation "old").start = some s ∧
      (((s.rotating = none → s.InSync) ∧ s.NoStaleUse) ↔
        (tokenRotation "old").EveryStep (fun a s _ => a.Safe s) actions
          (tokenRotation "old").start) := by
  intro actions
  exact ⟨_, rfl, tokenRotation_atomic_iff "old" actions _ rfl (by decide)⟩

/-- The standard client has the new token, and after its request an enterprise
request still goes out with the old one. -/
theorem enterprise_request_stale :
    let s : TokenState := {
      apiToken := "new"
      standard := "new"
      enterprise := "old"
      rotating := some ("new", .enterprise)
      tokens := ["old", "new"]
      uses := [⟨.standardRequest, "new"⟩, ⟨.enterpriseRequest, "old"⟩] }
    (tokenRotation "old").runFrom [.setApiToken "new", .rotate, .rotate,
        .read .standardRequest, .read .enterpriseRequest] (tokenRotation "old").start = some s ∧
      s.tokens.Nodup ∧ ¬s.NoStaleUse := by
  intro s
  refine ⟨rfl, by decide, ?_⟩
  intro hfresh
  have hpair := (List.pairwise_cons.mp hfresh).1 ⟨.enterpriseRequest, "old"⟩
    (List.mem_singleton_self _)
  exact hpair (by decide) ⟨0, rfl, rfl⟩

end Audd
