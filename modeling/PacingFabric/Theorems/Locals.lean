import PacingFabric.Theorems.Frames

/-!
# What a call in progress carries

The locals of a call are fixed where the source binds them and carried unchanged from there
on.

## Main results

* `Call.step_carries`: an apply carries what phase A resolved, from its reservation on the
  attempt it installs, and from its readback on the evidence; `verify_attempt` and
  `revalidate` carry what their first section found.
-/

namespace Pacing

namespace Call

/-- The locals of an apply that has not reserved its attempt yet. -/
def applying : Call → Option Applying
  | .fetch (.applyBefore p) _ _ | .reserve p => some p
  | _ => none

/-- The locals of an apply that has reserved its attempt. -/
def installing : Call → Option Installing
  | .install i | .acknowledge i _ _ | .describeReadback i | .readback i
  | .fetch (.applyUnverified i) _ _ | .fetch (.applyAfter i _ _) _ _
  | .commitUnverified i _ | .commitVerified i _ _ _ => some i
  | _ => none

/-- The evidence an apply has read back and not finalized yet. -/
def answered : Call → Option (Status × ReadbackEvidence)
  | .fetch (.applyAfter _ status evidence) _ _ | .commitVerified _ status evidence _ =>
    some (status, evidence)
  | _ => none

/-- The locals of `verify_attempt` and `revalidate` after their first section. -/
def checking : Call → Option Check
  | .fetch (.check c) _ _ | .staleCheck c _ | .readbackCheck c _ _ | .noEvidence c
  | .finalizeCheck c _ _ _ | .report c => some c
  | _ => none

variable {f : Fabric} {a : Answers} {k k' : Call}

/-- Where the locals of the next point come from: they are those of this point, or the step
binds them. -/
structure Carries (f : Fabric) (a : Answers) (k k' : Call) : Prop where
  applying : ∀ p, k'.applying = some p → k.applying = some p ∨
    k = .locked (.applyEnvelope p.ref p.backendId p.requested) p.now ∧
      f.resolveApply p.now p.ref p.backendId = .ok (p.envelope, p.backend)
  installing : ∀ i, k'.installing = some i → k.installing = some i ∨
    ∃ p, k = .reserve p ∧ k' = .install i ∧
      i.now = p.now ∧ i.envelope = p.envelope ∧ i.backend = p.backend
  answered : ∀ x, k'.answered = some x → k.answered = some x ∨
    ∃ i, k = .readback i ∧ x = (a.status, a.evidence)
  checking : ∀ c, k'.checking = some c → k.checking = some c ∨
    (k = .locked (.verifyAttempt c.id) c.now ∧ c.kind = .verify ∧
      ∃ b, f.openVerify c.id = .ok (c.record, c.envelope, b) ∧ c.backend = some b) ∨
    (k = .locked (.revalidate c.id) c.now ∧ c.kind = .revalidate ∧
      f.openRevalidate c.id = .ok (c.record, c.envelope, c.backend))
  looked : ∀ c b current, k' = .readbackCheck c b current → c.backend = some b ∧
    c.record.authority = current.vector ∧ current.vector.coordinatorBoot = f.boot
  finalizes : ∀ c status evidence current, k' = .finalizeCheck c status evidence current →
    ∃ b, k = .readbackCheck c b current ∧ status = a.status ∧ evidence = a.evidence ∧
      (c.kind = .revalidate → evidence.trusted status = true)

/-- A point that carries nothing. -/
def idle (k : Call) : Prop :=
  k.applying = none ∧ k.installing = none ∧ k.answered = none ∧ k.checking = none

theorem Carries.of_idle (h : k'.idle) : Carries f a k k' := by
  obtain ⟨happlying, hinstalling, hanswered, hchecking⟩ := h
  refine ⟨?_, ?_, ?_, ?_, ?_, ?_⟩
  · intro p hp
    rw [happlying] at hp
    cases hp
  · intro i hi
    rw [hinstalling] at hi
    cases hi
  · intro x hx
    rw [hanswered] at hx
    cases hx
  · intro c hc
    rw [hchecking] at hc
    cases hc
  · rintro c b current rfl
    cases hchecking
  · rintro c status evidence current rfl
    cases hchecking

theorem idle_withdrawing (todo : List Withdrawal) (reason : Bytes) (reply : Reply) :
    (withdrawing todo reason reply).idle := by
  unfold withdrawing
  split <;> exact ⟨rfl, rfl, rfl, rfl⟩

theorem idle_rebinding (todo : List BackendPtr) (epoch : Epoch) (reply : Reply) :
    (rebinding todo epoch reply).idle := by
  unfold rebinding
  split <;> exact ⟨rfl, rfl, rfl, rfl⟩

theorem idle_begin (request : Request) : (begin request).idle := by
  cases request <;> exact ⟨rfl, rfl, rfl, rfl⟩

theorem idle_leave (reply : Reply) : (leave reply).idle := ⟨rfl, rfl, rfl, rfl⟩

/-- A point with the locals of the one before it, neither of the two that read evidence. -/
theorem Carries.of_same (happlying : k'.applying = k.applying)
    (hinstalling : k'.installing = k.installing) (hanswered : k'.answered = k.answered)
    (hchecking : k'.checking = k.checking) (hread : ∀ c b current, k' ≠ .readbackCheck c b current)
    (hfinal : ∀ c status evidence current, k' ≠ .finalizeCheck c status evidence current) :
    Carries f a k k' where
  applying _ h := .inl (happlying ▸ h)
  installing _ h := .inl (hinstalling ▸ h)
  answered _ h := .inl (hanswered ▸ h)
  checking _ h := .inl (hchecking ▸ h)
  looked c b current h := absurd h (hread c b current)
  finalizes c status evidence current h := absurd h (hfinal c status evidence current)

/-- The return of `fetch_authority` passes the locals of its caller on. -/
theorem carries_resume {current : StatusOr AuthorityInputs}
    (hboot : ∀ inputs, current = .ok inputs → inputs.vector.coordinatorBoot = f.boot)
    (caller : Caller) (flow : FlowId) (phase : Fetch) :
    Carries f a (.fetch caller flow phase) (resume current caller) := by
  cases caller with
  | derive now => cases current <;> exact .of_idle ⟨rfl, rfl, rfl, rfl⟩
  | applyBefore p =>
    cases current with
    | error status => exact .of_idle (idle_leave _)
    | ok inputs =>
      simp only [resume]
      split
      · exact .of_idle (idle_leave _)
      · exact .of_same rfl rfl rfl rfl (fun _ _ _ h => by cases h) fun _ _ _ _ h => by cases h
  | applyUnverified i =>
    exact .of_same rfl rfl rfl rfl (fun _ _ _ h => by cases h) fun _ _ _ _ h => by cases h
  | applyAfter i status evidence =>
    exact .of_same rfl rfl rfl rfl (fun _ _ _ h => by cases h) fun _ _ _ _ h => by cases h
  | check c =>
    cases current with
    | error status => exact .of_idle (idle_leave _)
    | ok inputs =>
      simp only [resume]
      split
      · exact .of_same rfl rfl rfl rfl (fun _ _ _ h => by cases h) fun _ _ _ _ h => by cases h
      · rename_i hdrift
        cases hb : c.backend with
        | none => exact .of_idle (idle_leave _)
        | some backend =>
          refine ⟨fun _ h => .inl h, fun _ h => .inl h, fun _ h => .inl h, fun _ h => .inl h, ?_,
            fun _ _ _ _ h => (by cases h)⟩
          rintro c' b' current' h
          obtain ⟨rfl, rfl, rfl⟩ := readbackCheck.inj h
          exact ⟨hb, (compareAuthority_eq_none_iff.1 (not_not.1 hdrift)).2, hboot inputs rfl⟩

/-- The stamp carries the boot of this incarnation. -/
theorem stampAuthority_boot {flow : FlowId} {binding : FlowBinding} {policy : PacingPolicy}
    {grant : RateGrant} {inputs : AuthorityInputs}
    (h : f.stampAuthority flow binding policy grant = .ok inputs) :
    inputs.vector.coordinatorBoot = f.boot := by
  unfold Fabric.stampAuthority at h
  dsimp only at h
  split at h
  · cases h
  · obtain rfl := Except.ok.inj h
    rfl

theorem carries_fetch (caller : Caller) (flow : FlowId) (phase : Fetch) :
    Carries f a (.fetch caller flow phase) (fetchStep f a caller flow phase).2 := by
  have hgoes : ∀ next, Carries f a (.fetch caller flow phase) (.fetch caller flow next) :=
    fun next => by
      cases caller
      all_goals
        exact .of_same rfl rfl rfl rfl (fun _ _ _ h => by cases h) fun _ _ _ _ h => by cases h
  have hrefuses : ∀ status,
      Carries f a (.fetch caller flow phase) (resume (.error status) caller) := fun status =>
    carries_resume (fun _ h => by cases h) caller flow phase
  cases phase with
  | trust =>
    simp only [fetchStep]
    split
    · exact hgoes _
    · exact hrefuses _
  | lookup =>
    simp only [fetchStep]
    split
    · exact hrefuses _
    · exact hgoes _
  | grant binding policy =>
    simp only [fetchStep]
    split
    · exact hrefuses _
    · exact hgoes _
  | sample binding policy grant =>
    simp only [fetchStep]
    split
    · exact hrefuses _
    · exact hgoes _
  | stamp binding policy grant =>
    exact carries_resume (fun _ h => stampAuthority_boot h) caller flow _

/-- The first section binds the locals of an apply and of a check. -/
theorem carries_locked (request : Request) (now : Instant)
    (hk' : (lockedStep f a now request).2 = some k') :
    Carries f a (.locked request now) k' := by
  cases request with
  | applyEnvelope ref backendId requested =>
    simp only [lockedStep] at hk'
    split at hk'
    · exact Option.some.inj hk' ▸ .of_idle (idle_leave _)
    · split at hk'
      · exact Option.some.inj hk' ▸ .of_idle (idle_leave _)
      · split at hk'
        · exact Option.some.inj hk' ▸ .of_idle (idle_leave _)
        · rename_i envelope backend hresolve
          obtain rfl := Option.some.inj hk'
          refine ⟨?_, fun _ h => .inl h, fun _ h => .inl h, fun _ h => .inl h,
            fun _ _ _ h => (by cases h), fun _ _ _ _ h => (by cases h)⟩
          intro p hp
          obtain rfl := Option.some.inj hp
          exact .inr ⟨rfl, hresolve⟩
  -- the two checks open an attempt, each with its own tests
  | verifyAttempt id =>
    simp only [lockedStep] at hk'
    split at hk'
    · exact Option.some.inj hk' ▸ .of_idle (idle_leave _)
    · rename_i record envelope backend hopen
      obtain rfl := Option.some.inj hk'
      refine ⟨fun _ h => .inl h, fun _ h => .inl h, fun _ h => .inl h, ?_,
        fun _ _ _ h => (by cases h), fun _ _ _ _ h => (by cases h)⟩
      intro c hc
      obtain rfl := Option.some.inj hc
      exact .inr (.inl ⟨rfl, rfl, backend, hopen, rfl⟩)
  | revalidate id =>
    simp only [lockedStep] at hk'
    split at hk'
    · exact Option.some.inj hk' ▸ .of_idle (idle_leave _)
    · rename_i record envelope backend hopen
      obtain rfl := Option.some.inj hk'
      refine ⟨fun _ h => .inl h, fun _ h => .inl h, fun _ h => .inl h, ?_,
        fun _ _ _ h => (by cases h), fun _ _ _ _ h => (by cases h)⟩
      intro c hc
      obtain rfl := Option.some.inj hc
      exact .inr (.inr ⟨rfl, rfl, hopen⟩)
  | _ =>
    simp only [lockedStep] at hk'
    repeat' split at hk'
    all_goals first
      | exact Option.some.inj hk' ▸ .of_idle (idle_withdrawing ..)
      | exact Option.some.inj hk' ▸ .of_idle (idle_rebinding ..)
      | exact Option.some.inj hk' ▸ .of_idle ⟨rfl, rfl, rfl, rfl⟩
      | cases hk'

/-- Every step carries the locals of its call on, or binds them. -/
theorem step_carries (k : Call) (hk' : (step f a k).2 = some k') : Carries f a k k' := by
  cases k with
  | fetch caller flow phase => exact Option.some.inj hk' ▸ carries_fetch caller flow phase
  | locked request now => exact carries_locked request now hk'
  | enter request =>
    cases request <;> exact Option.some.inj hk' ▸ .of_idle ⟨rfl, rfl, rfl, rfl⟩
  | reserve p =>
    simp only [step] at hk'
    split at hk'
    · exact Option.some.inj hk' ▸ .of_idle (idle_leave _)
    · exact Option.some.inj hk' ▸ .of_idle (idle_leave _)
    · obtain rfl := Option.some.inj hk'
      refine ⟨fun _ h => (by cases h), ?_, fun _ h => .inl h, fun _ h => (by cases h),
        fun _ _ _ h => (by cases h), fun _ _ _ _ h => (by cases h)⟩
      intro i hi
      obtain rfl := Option.some.inj hi
      exact .inr ⟨p, rfl, rfl, rfl, rfl, rfl⟩
  | readback i =>
    obtain rfl := Option.some.inj hk'
    refine ⟨fun _ h => (by cases h), fun _ h => .inl h, ?_, fun _ h => (by cases h),
      fun _ _ _ h => (by cases h), fun _ _ _ _ h => (by cases h)⟩
    intro x hx
    exact .inr ⟨i, rfl, (Option.some.inj hx).symm⟩
  | readbackCheck c backend current =>
    simp only [step] at hk'
    split at hk'
    · obtain rfl := Option.some.inj hk'
      exact .of_same rfl rfl rfl rfl (fun _ _ _ h => by cases h) fun _ _ _ _ h => by cases h
    · rename_i htrusted
      obtain rfl := Option.some.inj hk'
      refine ⟨fun _ h => (by cases h), fun _ h => (by cases h), fun _ h => (by cases h),
        fun _ h => .inl h, fun _ _ _ h => (by cases h), ?_⟩
      intro c' status evidence current' h
      obtain ⟨rfl, rfl, rfl, rfl⟩ := finalizeCheck.inj h
      refine ⟨backend, rfl, rfl, rfl, fun hkind => ?_⟩
      -- a revalidation gets past this point with trusted evidence only
      by_contra hne
      exact htrusted ⟨hkind, by simpa using hne⟩
  | withdraw todo reason reply => exact Option.some.inj hk' ▸ .of_idle (idle_withdrawing ..)
  | rebind todo epoch reply => exact Option.some.inj hk' ▸ .of_idle (idle_rebinding ..)
  | _ =>
    simp only [step] at hk'
    repeat' split at hk'
    all_goals first
      | (obtain rfl := Option.some.inj hk'
         exact .of_idle ⟨rfl, rfl, rfl, rfl⟩)
      | (obtain rfl := Option.some.inj hk'
         exact .of_same rfl rfl rfl rfl (fun _ _ _ h => by cases h) fun _ _ _ _ h => by cases h)
      | cases hk'

end Call

/-! ### What a check has looked up -/

section
variable {f : Fabric}

/-- `verify_attempt` goes on with the record of its attempt, which is not stale. -/
theorem Fabric.openVerify_ok {id : AttemptId} {r : ApplicationRecord} {envelope : PacingEnvelope}
    {b : BackendPtr} (h : f.openVerify id = .ok (r, envelope, b)) :
    f.attempts.record id = some r ∧ r.state ≠ .stale := by
  unfold openVerify at h
  split at h
  · cases h
  cases hfind : f.attempts.find id with
  | none =>
    rw [hfind] at h
    cases h
  | some slot =>
    obtain ⟨i, e⟩ := slot
    rw [hfind] at h
    dsimp only at h
    have hrecord : f.attempts.record id = some e.record := by
      rw [AttemptLedger.record, hfind]
      rfl
    split at h
    · cases h
    · cases h
    · cases h
    · cases h
    · rename_i hstale
      split at h
      · cases h
      · split at h
        · cases h
        · obtain ⟨rfl, -⟩ := Prod.mk.inj (Except.ok.inj h)
          exact ⟨hrecord, hstale⟩

/-- `revalidate` goes on with the record of its attempt, which has not failed. -/
theorem Fabric.openRevalidate_ok {id : AttemptId} {r : ApplicationRecord}
    {envelope : PacingEnvelope} {b : Option BackendPtr}
    (h : f.openRevalidate id = .ok (r, envelope, b)) :
    f.attempts.record id = some r ∧ r.state ≠ .failed := by
  unfold openRevalidate at h
  split at h
  · cases h
  cases hfind : f.attempts.find id with
  | none =>
    rw [hfind] at h
    cases h
  | some slot =>
    obtain ⟨i, e⟩ := slot
    rw [hfind] at h
    dsimp only at h
    have hrecord : f.attempts.record id = some e.record := by
      rw [AttemptLedger.record, hfind]
      rfl
    split at h
    · cases h
    · cases h
    · cases h
    · cases h
    · rename_i hfailed
      split at h
      · cases h
      · obtain ⟨rfl, -⟩ := Prod.mk.inj (Except.ok.inj h)
        exact ⟨hrecord, hfailed⟩

end

end Pacing
