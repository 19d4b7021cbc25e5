import PacingFabric.Theorems.Closed
import PacingFabric.Theorems.Restart

/-!
# One attempt for an envelope on a backend

Phase C of `apply_envelope` looks for an attempt of the same envelope on the same backend
before it reserves a new one. The search goes through the index by envelope, which only a
reservation extends, so it finds every attempt reserved since the start. Replay leaves two
gaps: it can restore two attempts of one envelope on one backend, and an attempt whose records
name two envelopes stays listed under the first.

## Main definitions

* `Misfiled`: a replayed attempt that its envelope does not list.
* `Deduplicated`: an attempt reserved since the start is the only one of its backend in the
  list of its envelope.
* `Unshared`: no two attempts have the same envelope and backend.

## Main results

* `applies_deduplicated`: one attempt for each pair, one call of the backend for each
  attempt, and a duplicate apply that changes nothing.
* `recovered_twice`: a failed append leaves its attempt in the file, and a start recovers two
  attempts of one pair.
-/

namespace Pacing

open Interleaving

/-! ### The index by envelope -/

section
variable {f : Fabric} {a : Answers}

namespace Fabric

theorem fenceAttempts_byEnvelope (now : Instant) (epoch : Epoch) (detail : Bytes) :
    (f.fenceAttempts a now epoch detail).attempts.byEnvelope = f.attempts.byEnvelope := by
  obtain ⟨_, h⟩ := (turns_fenceAttempt (a := a) now epoch detail).foldl f
  rw [fenceAttempts, h]
  rfl

theorem revokeAttempts_byEnvelope (now : Instant) (envelope : EnvelopeId) (cadence : Cadence)
    (reason : Bytes) :
    (f.revokeAttempts a now envelope cadence reason).2.attempts.byEnvelope =
      f.attempts.byEnvelope := by
  unfold revokeAttempts
  refine List.foldlRecOn (f.attempts.byEnvelope envelope.value)
    (revokeAttempt a now cadence reason)
    (motive := fun acc : List Withdrawal × Fabric =>
      acc.2.attempts.byEnvelope = f.attempts.byEnvelope) rfl ?_
  rintro ⟨todo, g⟩ hg id -
  unfold revokeAttempt
  dsimp only
  repeat' split
  all_goals exact hg

end Fabric

/-- Only a reservation writes the index by envelope. -/
theorem Call.step_byEnvelope (k : Call) (hk : ∀ p, k ≠ .reserve p) :
    (Call.step f a k).1.attempts.byEnvelope = f.attempts.byEnvelope := by
  by_cases hw : k.writesAttempts = false
  · rw [(Call.step_frame f a k).attempts hw]
  -- the other sections that write the ledger write records, not the lists
  cases k with
  | reserve p => exact absurd rfl (hk p)
  | derive inputs now =>
    obtain ⟨_, _, _, _, _, hd, hatt⟩ := f.deriveEnvelope_frame a now inputs
    rw [show (Call.step f a (.derive inputs now)).1 = (f.deriveEnvelope a inputs now).2
      from rfl, hd]
    rcases hatt with rfl | rfl
    · rfl
    · unfold Fabric.compactTables
      dsimp only
      split <;> rfl
  | acknowledge i status ack =>
    rw [Call.step_acknowledge_fst]
    unfold Fabric.acknowledgeAttempt
    repeat' split
    all_goals rfl
  | commitUnverified i current =>
    simp only [Call.step, Fabric.commitUnverified]
    repeat' split
    all_goals rfl
  | commitVerified i status evidence current =>
    simp only [Call.step, Fabric.commitVerified]
    repeat' split
    all_goals rfl
  | staleCheck c drift =>
    simp only [Call.step, Fabric.staleVerify, Fabric.staleRevalidate]
    repeat' split
    all_goals rfl
  | noEvidence c =>
    simp only [Call.step, Fabric.noEvidence]
    repeat' split
    all_goals rfl
  | finalizeCheck c status evidence current =>
    simp only [Call.step, Fabric.finalizeVerify, Fabric.finalizeRevalidate]
    cases c.kind <;> dsimp only <;> cases f.attempts.find c.id <;> rfl
  | locked request now =>
    rw [show (Call.step f a (.locked request now)).1 = Call.lockedState f a now request from
      Call.lockedStep_fst f a now request]
    cases request with
    | advanceEpoch =>
      simp only [Call.lockedState, Fabric.advanceEpoch, Fabric.advanceEpochLocked]
      repeat' split
      all_goals first
        | rfl
        | exact Fabric.fenceAttempts_byEnvelope ..
    | cancelAttempt id reason =>
      simp only [Call.lockedState, Fabric.cancelAttempt]
      repeat' split
      all_goals rfl
    | revokeEnvelope ref reason =>
      simp only [Call.lockedState, Fabric.revokeEnvelope]
      repeat' split
      all_goals first
        | rfl
        | exact Fabric.revokeAttempts_byEnvelope ..
    | fenceBelow epoch =>
      simp only [Call.lockedState, Fabric.fenceBelow]
      repeat' split
      all_goals first
        | rfl
        | exact Fabric.fenceAttempts_byEnvelope ..
    | _ => exact absurd rfl hw
  | _ => exact absurd rfl hw

/-! ### Calls of the backend -/

theorem Call.withdrawing_ne_install (todo : List Withdrawal) (reason : Bytes) (reply : Reply)
    (x : Installing) : Call.withdrawing todo reason reply ≠ .install x := by
  unfold Call.withdrawing
  split <;> simp

theorem Call.rebinding_ne_install (todo : List BackendPtr) (epoch : Epoch) (reply : Reply)
    (x : Installing) : Call.rebinding todo epoch reply ≠ .install x := by
  unfold Call.rebinding
  split <;> simp

theorem Call.resume_ne_install (current : StatusOr AuthorityInputs) (caller : Caller)
    (x : Installing) : Call.resume current caller ≠ .install x := by
  cases caller <;> cases current <;> simp only [Call.resume]
  all_goals repeat' split
  all_goals simp

/-- A call gets to install an attempt from its reservation only. -/
theorem Call.step_install {k : Call} {x : Installing}
    (h : (Call.step f a k).2 = some (.install x)) : ∃ p, k = .reserve p := by
  cases k with
  | reserve p => exact ⟨p, rfl⟩
  | locked request now =>
    exfalso
    cases request <;> simp only [Call.step, Call.lockedStep] at h
    all_goals repeat' split at h
    all_goals simp [withdrawing_ne_install, rebinding_ne_install] at h
  | fetch caller flow phase =>
    exfalso
    cases phase <;> simp only [Call.step, Call.fetchStep] at h
    all_goals repeat' split at h
    all_goals simp [resume_ne_install] at h
  | enter request =>
    exfalso
    cases request <;> simp [Call.step, Request.needsTrust] at h
  | _ =>
    exfalso
    simp only [Call.step] at h
    repeat' split at h
    all_goals simp [withdrawing_ne_install, rebinding_ne_install] at h

/-- The backend is asked to apply an attempt by the step that installs it. -/
theorem Call.external_apply {k : Call} {b : BackendPtr} {request : ApplyRequest}
    (h : k.external = some (.apply b request)) :
    ∃ x, k = .install x ∧ x.request = request := by
  cases k with
  | install x =>
    simp only [Call.external, Option.some.injEq, External.apply.injEq] at h
    exact ⟨x, rfl, h.2⟩
  | fetch caller flow phase => cases phase <;> simp [Call.external] at h
  | withdraw todo reason reply => cases todo <;> simp [Call.external] at h
  | rebind todo epoch reply => cases todo <;> simp [Call.external] at h
  | _ => simp [Call.external] at h

/-! ### Phase C and the search for an existing attempt -/

/-- Phase C gets as far as the search: the coordinator runs, and the envelope is live and
not revoked. -/
def Fabric.accepts (f : Fabric) (ref : EnvelopeRef) : Prop :=
  f.running = true ∧ ∃ i entry, f.envelopes.find ref.id = some (i, entry) ∧
    entry.revoked = false

/-- A reservation is made only where the search finds nothing. -/
theorem reserveAttempt_findExisting {now : Instant} {ref : EnvelopeRef} {backendId : BackendId}
    {requested : AttemptId} {envelope : PacingEnvelope} {backend : BackendPtr}
    {request : ApplyRequest}
    (h : (f.reserveAttempt a now ref backendId requested envelope backend).1 =
      .reserved request) : f.attempts.findExisting ref backendId = none := by
  cases hfind : f.attempts.findExisting ref backendId with
  | none => rfl
  | some r =>
    have hdup : f.findDuplicate ref backendId requested = some (.duplicate r.attempt) := by
      simp only [Fabric.findDuplicate, hfind]
    exfalso
    unfold Fabric.reserveAttempt at h
    simp only [hdup] at h
    repeat' split at h
    all_goals simp at h

/-- An apply that finds an attempt answers with it and changes nothing. -/
theorem reserve_existing {p : Applying} {r : ApplicationRecord}
    (h : f.attempts.findExisting p.ref p.backendId = some r) :
    Call.step f a (.reserve p) = (f, some (.leave (.attempt (.ok r.attempt)))) ∨
      ¬ f.accepts p.ref ∧
        ∃ status, Call.step f a (.reserve p) = (f, some (.leave (.attempt (.error status)))) := by
  have hdup : f.findDuplicate p.ref p.backendId p.requested = some (.duplicate r.attempt) := by
    simp only [Fabric.findDuplicate, h]
  simp only [Call.step, Fabric.reserveAttempt]
  cases hrun : f.running with
  | false => exact .inr ⟨by simp [Fabric.accepts, hrun], _, rfl⟩
  | true =>
    simp only [Bool.not_true, Bool.false_eq_true, if_false]
    cases hfind : f.envelopes.find p.ref.id with
    | none => exact .inr ⟨by simp [Fabric.accepts, hfind], _, rfl⟩
    | some slot =>
      obtain ⟨i, entry⟩ := slot
      cases hrev : entry.revoked with
      | true =>
        simp only [hrev, if_true]
        refine .inr ⟨?_, _, rfl⟩
        rintro ⟨-, j, e, he, hlive⟩
        rw [hfind] at he
        obtain ⟨-, rfl⟩ := Prod.mk.inj (Option.some.inj he)
        simp [hrev] at hlive
      | false =>
        simp only [hrev, Bool.false_eq_true, if_false, hdup]
        exact .inl trivial

end

/-! ### The invariant -/

namespace AttemptLedger

variable {l l' l₀ : AttemptLedger}

/-- Every identity that an envelope lists has a record. -/
def Named (l : AttemptLedger) : Prop :=
  ∀ v, ∀ id ∈ l.byEnvelope v, ∃ r, l.record id = some r

/-- The envelope its record names does not list the attempt. -/
def Misfiled (l : AttemptLedger) (id : AttemptId) : Prop :=
  ∃ r, l.record id = some r ∧ id ∉ l.byEnvelope r.envelope.id.value

/-- An attempt that `l₀` does not hold is the only one of its backend that its envelope
lists in `l`. -/
structure Deduplicated (l₀ l : AttemptLedger) : Prop where
  wellFormed : l.WellFormed
  named : l.Named
  listed : ∀ id r, l.record id = some r → ¬ l₀.Misfiled id →
    id ∈ l.byEnvelope r.envelope.id.value
  alone : ∀ id r, l₀.record id = none → l.record id = some r →
    ∀ id' ∈ l.byEnvelope r.envelope.id.value, ∀ r', l.record id' = some r' →
      r'.backend.id = r.backend.id → id' = id

theorem exists_update {m : AttemptId → Option ApplicationRecord} {id x : AttemptId}
    {r r' : ApplicationRecord} (h : m id = some r') :
    ∃ r'', Function.update m x (some r) id = some r'' := by
  by_cases hid : id = x
  · subst hid
    exact ⟨r, Function.update_self ..⟩
  · exact ⟨r', by rw [Function.update_of_ne hid, h]⟩

theorem mem_byEnvelope_insert {r : ApplicationRecord} {v : UInt64} {id : AttemptId} :
    id ∈ (l.insert r).byEnvelope v ↔
      id ∈ l.byEnvelope v ∨ id = r.attempt ∧ v = r.envelope.id.value := by
  by_cases hv : v = r.envelope.id.value
  · subst hv
    simp [insert]
  · simp [insert, hv]

/-! A start leaves every listed attempt with a record. -/

theorem WellFormed.replayed (h : l.WellFormed) (r : ApplicationRecord) :
    (l.replayed r).WellFormed := by
  unfold AttemptLedger.replayed
  cases hf : l.find r.attempt with
  | some slot =>
    obtain ⟨he, hid⟩ := h.find_eq_some_iff.1 hf
    exact h.overwrite he hid.symm
  | none => exact h.insert (by simp [record, hf])

theorem Named.replayed (hwf : l.WellFormed) (h : l.Named) (r : ApplicationRecord) :
    (l.replayed r).Named := by
  unfold AttemptLedger.replayed
  cases hf : l.find r.attempt with
  | some slot =>
    obtain ⟨he, hid⟩ := hwf.find_eq_some_iff.1 hf
    intro v id hmem
    obtain ⟨r', hr'⟩ := h v id hmem
    have hrecord := record_overwrite hwf he hid.symm
    dsimp only
    rw [hrecord]
    exact exists_update hr'
  | none =>
    have hfresh : l.record r.attempt = none := by simp [record, hf]
    intro v id hmem
    dsimp only
    rw [record_insert hwf hfresh]
    rcases mem_byEnvelope_insert.1 hmem with hold | ⟨rfl, -⟩
    · obtain ⟨r', hr'⟩ := h v id hold
      exact exists_update hr'
    · exact ⟨r, Function.update_self ..⟩

theorem foldl_replayed_named (records : List ApplicationRecord) :
    (records.foldl AttemptLedger.replayed {}).WellFormed ∧
      (records.foldl AttemptLedger.replayed {}).Named := by
  refine List.foldlRecOn records AttemptLedger.replayed
    (motive := fun l => l.WellFormed ∧ l.Named)
    ⟨wellFormed_empty, fun _ _ hmem => by simp at hmem⟩ ?_
  rintro l ⟨hwf, hnamed⟩ r -
  exact ⟨hwf.replayed r, hnamed.replayed hwf r⟩

theorem Named.mapEntries (hwf : l.WellFormed) (h : l.Named) {g : AttemptEntry → AttemptEntry}
    (hlive : ∀ e, (g e).live = e.live)
    (hid : ∀ e, (g e).record.attempt = e.record.attempt) : (l.mapEntries g).Named := by
  intro v id hmem
  obtain ⟨r, hr⟩ := h v id hmem
  rw [record_mapEntries hwf hlive hid]
  obtain ⟨slot, hf, -⟩ := Option.map_eq_some_iff.1 hr
  exact ⟨_, by rw [hf]; rfl⟩

/-! Steps keep the invariant. -/

theorem Deduplicated.refl (hwf : l.WellFormed) (h : l.Named) : Deduplicated l l where
  wellFormed := hwf
  named := h
  listed id r hr hfiled := by
    by_contra hmem
    exact hfiled ⟨r, hr, hmem⟩
  alone id r hnew hr := by simp [hnew] at hr

/-- A step that neither lists nor rebinds an attempt. -/
theorem Deduplicated.of_sameWork (h : Deduplicated l₀ l) (hwf : l'.WellFormed)
    (hindex : l'.byEnvelope = l.byEnvelope)
    (hkept : ∀ id r, l.record id = some r → ∃ r', l'.record id = some r')
    (horigin : ∀ id r', l'.record id = some r' →
      ∃ r, l.record id = some r ∧ r.SameWork r') : Deduplicated l₀ l' where
  wellFormed := hwf
  named v id hmem := by
    obtain ⟨r, hr⟩ := h.named v id (hindex ▸ hmem)
    exact hkept id r hr
  listed id r' hr' hfiled := by
    obtain ⟨r, hr, hsame⟩ := horigin id r' hr'
    rw [hindex, hsame.envelope]
    exact h.listed id r hr hfiled
  alone id r' hnew hr' id' hmem x' hx' hback := by
    obtain ⟨r, hr, hsame⟩ := horigin id r' hr'
    obtain ⟨x, hx, hsame'⟩ := horigin id' x' hx'
    rw [hindex, hsame.envelope] at hmem
    rw [hsame'.backend, hsame.backend] at hback
    exact h.alone id r hnew hr id' hmem x hx hback

/-- Reserving an attempt of a backend that the envelope lists none of. -/
theorem Deduplicated.insert (h : Deduplicated l₀ l) {r : ApplicationRecord}
    (hfresh : l.record r.attempt = none)
    (hnone : ∀ id ∈ l.byEnvelope r.envelope.id.value, ∀ r', l.record id = some r' →
      r'.backend.id ≠ r.backend.id) : Deduplicated l₀ (l.insert r) := by
  have hrecord := record_insert h.wellFormed hfresh
  have hother : ∀ id x, (l.insert r).record id = some x → id ≠ r.attempt →
      l.record id = some x := by
    intro id x hx hne
    rwa [hrecord, Function.update_of_ne hne] at hx
  have hself : ∀ x, (l.insert r).record r.attempt = some x → x = r := by
    intro x hx
    rw [hrecord, Function.update_self] at hx
    exact (Option.some.inj hx).symm
  refine ⟨h.wellFormed.insert hfresh, fun v id hmem => ?_, fun id x hx hfiled => ?_,
    fun id x hnew hx id' hmem x' hx' hback => ?_⟩
  · rw [hrecord]
    rcases mem_byEnvelope_insert.1 hmem with hold | ⟨rfl, -⟩
    · obtain ⟨r', hr'⟩ := h.named v id hold
      exact exists_update hr'
    · exact ⟨r, Function.update_self ..⟩
  · rw [mem_byEnvelope_insert]
    by_cases hid : id = r.attempt
    · subst hid
      exact .inr ⟨rfl, by rw [hself x hx]⟩
    · exact .inl (h.listed id x (hother id x hx hid) hfiled)
  · by_cases hid : id = r.attempt
    · subst hid
      obtain rfl := hself x hx
      by_contra hne
      refine hnone id' ?_ x' (hother id' x' hx' hne) hback
      exact (mem_byEnvelope_insert.1 hmem).resolve_right fun hnew' => hne hnew'.1
    · have hx₀ := hother id x hx hid
      rcases mem_byEnvelope_insert.1 hmem with hold | ⟨rfl, hv⟩
      · -- a listed attempt has a record already, so it is not the one reserved now
        have hne : id' ≠ r.attempt := by
          rintro rfl
          obtain ⟨y, hy⟩ := h.named _ _ hold
          simp [hfresh] at hy
        exact h.alone id x hnew hx₀ id' hold x' (hother id' x' hx' hne) hback
      · obtain rfl := hself x' hx'
        by_cases hfiled : l₀.Misfiled id
        · obtain ⟨y, hy, -⟩ := hfiled
          simp [hnew] at hy
        · exact absurd hback.symm (hnone id (hv ▸ h.listed id x hx₀ hfiled) x hx₀)

/-- The search finds the attempt that was reserved for the pair. -/
theorem Deduplicated.findExisting (h : Deduplicated l₀ l) {id : AttemptId}
    {r : ApplicationRecord} (hnew : l₀.record id = none) (hr : l.record id = some r)
    {ref : EnvelopeRef} (href : r.envelope.id = ref.id) :
    l.findExisting ref r.backend.id = some r := by
  have hfiled : ¬ l₀.Misfiled id := by
    rintro ⟨y, hy, -⟩
    simp [hnew] at hy
  have hmem := h.listed id r hr hfiled
  rw [href] at hmem
  obtain ⟨slot, hslot, hval⟩ := Option.map_eq_some_iff.1 hr
  have hmatch : ∃ x, l.findExisting ref r.backend.id = some x := by
    rw [← Option.isSome_iff_exists, AttemptLedger.findExisting, List.findSome?_isSome_iff]
    exact ⟨id, hmem, by simp [hslot, hval]⟩
  obtain ⟨x, hx⟩ := hmatch
  rw [hx]
  obtain ⟨id', hmem', hfound⟩ := List.exists_of_findSome?_eq_some hx
  split at hfound
  · rename_i i entry hentry
    split at hfound
    · rename_i hback
      obtain rfl := Option.some.inj hfound
      have hr' : l.record id' = some entry.record := by simp [record, hentry]
      obtain rfl := h.alone id r hnew hr id' (href ▸ hmem') entry.record hr' hback
      exact hr'.symm.trans hr
    · cases hfound
  · cases hfound

end AttemptLedger

/-! ### Runs -/

section
variable {f : Fabric} {a : Answers} {l₀ : AttemptLedger}

/-- The descriptor phase C reads has the identity the backend was registered under. -/
def describesRegistered (_ : World) : Event Call Request Answers → Prop
  | .move _ (.reserve p) a => (a.describe p.backend).ref.id = p.backendId
  | .restart => False
  | _ => True

/-- Only a reservation makes a record; every other step keeps what a record is bound to. -/
theorem RecordStep.origin {k : Call} {k' : Option Call} {o : Option ApplicationRecord}
    {r' : ApplicationRecord} (h : RecordStep f a k k' o (some r')) (hk : ∀ p, k ≠ .reserve p) :
    ∃ r, o = some r ∧ r.SameWork r' := by
  cases o with
  | some r => exact ⟨r, rfl, h.sameWork⟩
  | none =>
    cases h with
    | @reserved p attempt => exact absurd rfl (hk p)

/-- A call that is about to install has just reserved its attempt. -/
theorem reserve_installs {p : Applying} {x : Installing} (h : f.attempts.WellFormed)
    (hx : (Call.step f a (.reserve p)).2 = some (.install x)) :
    f.attempts.record x.request.attempt = none ∧
      (Call.step f a (.reserve p)).1.attempts = reservedLedger f a p.now x.request.attempt p.ref
        p.envelope p.backend ∧
      f.attempts.findExisting p.ref p.backendId = none := by
  have hresult := reserveAttempt_result (a := a) h p.now p.ref p.backendId p.requested
    p.envelope p.backend
  have hsearch := @reserveAttempt_findExisting f a p.now p.ref p.backendId p.requested
    p.envelope p.backend
  simp only [Call.step] at hx ⊢
  revert hresult hsearch
  generalize f.reserveAttempt a p.now p.ref p.backendId p.requested p.envelope p.backend =
    result at hx ⊢
  intro hresult hsearch
  cases hresult with
  | @declined out f' hout _ _ =>
    cases out with
    | reserved request => exact absurd rfl (hout request)
    | refused status => simp at hx
    | duplicate attempt => simp at hx
  | reserved _ _ fresh _ hatt =>
    obtain rfl : _ = x := by simpa using hx
    exact ⟨fresh, hatt, hsearch rfl⟩

/-- A reservation that does not lead to an installation leaves the ledger alone. -/
theorem reserve_declines {p : Applying} (h : f.attempts.WellFormed)
    (hx : ∀ x, (Call.step f a (.reserve p)).2 ≠ some (.install x)) :
    (Call.step f a (.reserve p)).1.attempts = f.attempts := by
  have hresult := reserveAttempt_result (a := a) h p.now p.ref p.backendId p.requested
    p.envelope p.backend
  simp only [Call.step] at hx ⊢
  revert hresult
  generalize f.reserveAttempt a p.now p.ref p.backendId p.requested p.envelope p.backend =
    result at hx ⊢
  intro hresult
  cases hresult with
  | @declined out f' hout _ hatt =>
    cases out with
    | reserved request => exact absurd rfl (hout request)
    | refused status => exact hatt
    | duplicate attempt => exact hatt
  | reserved => exact absurd rfl (hx _)

theorem AttemptLedger.Deduplicated.step (h : AttemptLedger.Deduplicated l₀ f.attempts) (k : Call)
    (hdesc : ∀ p, k = .reserve p → (a.describe p.backend).ref.id = p.backendId) :
    AttemptLedger.Deduplicated l₀ (Call.step f a k).1.attempts := by
  obtain ⟨hwf, hmoves⟩ := Call.step_moves h.wellFormed a k
  by_cases hk : ∀ p, k ≠ .reserve p
  · refine h.of_sameWork hwf (Call.step_byEnvelope k hk) (fun id r hr => ?_)
      fun id r' hr' => ?_
    · have hmove := hmoves id
      rw [hr] at hmove
      exact hmove.isSome
    · have hmove := hmoves id
      rw [hr'] at hmove
      exact hmove.origin hk
  obtain ⟨p, rfl⟩ : ∃ p, k = .reserve p := by simpa using hk
  by_cases hx : ∃ x, (Call.step f a (.reserve p)).2 = some (.install x)
  · obtain ⟨x, hx⟩ := hx
    obtain ⟨hfresh, hatt, hnone⟩ := reserve_installs h.wellFormed hx
    rw [hatt]
    have hins := h.insert (r := f.submittedRecord p.now x.request.attempt p.ref p.envelope
      (a.describe p.backend)) hfresh fun id hmem r' hr' hback => ?_
    · exact ⟨⟨hins.wellFormed.live, hins.wellFormed.dead, hins.wellFormed.indexed,
        hins.wellFormed.sound⟩, hins.named, hins.listed, hins.alone⟩
    · -- the search would have found this attempt
      rw [AttemptLedger.findExisting, List.findSome?_eq_none_iff] at hnone
      have hskip := hnone id hmem
      obtain ⟨slot, hslot, rfl⟩ := Option.map_eq_some_iff.1 hr'
      have hid : slot.2.record.backend.id = p.backendId := hback.trans (hdesc p rfl)
      simp [hslot, hid] at hskip
  · rw [reserve_declines h.wellFormed (by simpa using hx)]
    exact h

/-- No two attempts have the same envelope and backend. -/
def AttemptLedger.Unshared (l : AttemptLedger) : Prop :=
  ∀ id r id' r', l.record id = some r → l.record id' = some r' →
    r'.envelope.id = r.envelope.id → r'.backend.id = r.backend.id → id' = id

/-- The envelope lists every attempt that is bound to it and the backend. -/
def AttemptLedger.ListsPair (l : AttemptLedger) (envelope : EnvelopeId) (backend : BackendId) :
    Prop :=
  ∀ e ∈ l.entries, e.live = true → e.record.envelope.id = envelope →
    e.record.backend.id = backend → e.record.attempt ∈ l.byEnvelope envelope.value

/-- Registered descriptors, and an apply comes to its reservation only where the attempts of
its envelope and backend are listed. -/
def appliesListed (w : World) (e : Event Call Request Answers) : Prop :=
  describesRegistered w e ∧ ∀ i p a, e = .move i (.reserve p) a →
    w.shared.attempts.ListsPair p.ref.id p.backendId

/-- Where every attempt of a pair is listed, the search that finds none leaves none. -/
theorem AttemptLedger.ListsPair.none_of_findExisting {l : AttemptLedger} {ref : EnvelopeRef}
    {backendId : BackendId} (h : l.ListsPair ref.id backendId) (hwf : l.WellFormed)
    (hnone : l.findExisting ref backendId = none) {id : AttemptId} {r : ApplicationRecord}
    (hr : l.record id = some r) (henvelope : r.envelope.id = ref.id)
    (hbackend : r.backend.id = backendId) : False := by
  obtain ⟨slot, hslot, rfl⟩ := Option.map_eq_some_iff.1 hr
  obtain ⟨hentry, hid⟩ := hwf.find_eq_some_iff.1 hslot
  have hin := List.mem_of_getElem? hentry
  have hmem := h _ hin (hwf.live _ hin) henvelope hbackend
  rw [hid] at hmem
  rw [findExisting, List.findSome?_eq_none_iff] at hnone
  have hskip := hnone id hmem
  simp [hslot, hbackend] at hskip

/-- A reservation is for a pair without an attempt; every other step keeps what the records are
bound to. -/
theorem AttemptLedger.Unshared.step (h : f.attempts.Unshared) (hwf : f.attempts.WellFormed)
    (k : Call) (hdesc : ∀ p, k = .reserve p → (a.describe p.backend).ref.id = p.backendId)
    (hfiled : ∀ p, k = .reserve p → f.attempts.ListsPair p.ref.id p.backendId) :
    (Call.step f a k).1.attempts.Unshared := by
  intro id r id' r' hr hr' henvelope hbackend
  by_cases hk : ∀ p, k ≠ .reserve p
  · obtain ⟨-, hmoves⟩ := Call.step_moves hwf a k
    obtain ⟨x, hx, hsame⟩ := (hr ▸ hmoves id).origin hk
    obtain ⟨x', hx', hsame'⟩ := (hr' ▸ hmoves id').origin hk
    rw [hsame.envelope, hsame'.envelope] at henvelope
    rw [hsame.backend, hsame'.backend] at hbackend
    exact h id x id' x' hx hx' henvelope hbackend
  obtain ⟨p, rfl⟩ : ∃ p, k = .reserve p := by simpa using hk
  by_cases hx : ∃ x, (Call.step f a (.reserve p)).2 = some (.install x)
  · obtain ⟨x, hx⟩ := hx
    obtain ⟨hfresh, hatt, hnone⟩ := reserve_installs hwf hx
    rw [hatt, reservedLedger_record hwf hfresh] at hr hr'
    -- the new record has the pair of the reservation, and no old record has
    have hold : ∀ y s, f.attempts.record y = some s → s.envelope.id = p.ref.id →
        s.backend.id = (a.describe p.backend).ref.id → False := by
      intro y s hs hsenvelope hsbackend
      rw [hdesc p rfl] at hsbackend
      exact (hfiled p rfl).none_of_findExisting hwf hnone hs hsenvelope hsbackend
    by_cases hid : id = x.request.attempt <;> by_cases hid' : id' = x.request.attempt
    · rw [hid, hid']
    · subst hid
      rw [Function.update_self] at hr
      rw [Function.update_of_ne hid'] at hr'
      obtain rfl := Option.some.inj hr
      exact (hold id' r' hr' henvelope hbackend).elim
    · subst hid'
      rw [Function.update_self] at hr'
      rw [Function.update_of_ne hid] at hr
      obtain rfl := Option.some.inj hr'
      exact (hold id r hr henvelope.symm hbackend.symm).elim
    · rw [Function.update_of_ne hid] at hr
      rw [Function.update_of_ne hid'] at hr'
      exact h id r id' r' hr hr' henvelope hbackend
  · rw [reserve_declines hwf (by simpa using hx)] at hr hr'
    exact h id r id' r' hr hr' henvelope hbackend

/-- What the attempts of one incarnation have in common. -/
structure AppliedOnce (l₀ : AttemptLedger) (w : World) : Prop where
  /-- No two attempts have the same envelope and backend. -/
  alone : w.shared.attempts.Unshared
  /-- The search for its envelope and backend finds it. -/
  found : ∀ id r ref, l₀.record id = none → w.shared.attempts.record id = some r →
    r.envelope.id = ref.id → w.shared.attempts.findExisting ref r.backend.id = some r
  /-- Once a backend is asked to apply an attempt, none is asked again. -/
  once : ∀ i k b request, w.calls i = some k → k.external = some (.apply b request) →
    ∀ a m w', Run coordinator describesRegistered ⟨(Call.step w.shared a k).1,
      Function.update w.calls i (Call.step w.shared a k).2⟩ m w' →
    ∀ j k' b' request', w'.calls j = some k' → k'.external = some (.apply b' request') →
    request'.attempt ≠ request.attempt
  /-- An apply that finds an attempt answers with it and changes nothing; it is refused
  instead when it does not get as far as the search. -/
  duplicate : ∀ i p r, w.calls i = some (.reserve p) →
    w.shared.attempts.findExisting p.ref p.backendId = some r → ∀ a,
    Call.step w.shared a (.reserve p) = (w.shared, some (.leave (.attempt (.ok r.attempt)))) ∨
      ¬ w.shared.accepts p.ref ∧ ∃ status, Call.step w.shared a (.reserve p) =
        (w.shared, some (.leave (.attempt (.error status))))

/-- The ledger, and the attempts that calls are about to install. -/
def installing (l₀ : AttemptLedger) : Outline Fabric Call where
  shared f := AttemptLedger.Deduplicated l₀ f.attempts
  assertion f k := ∀ x, k = .install x → ∃ r, f.attempts.record x.request.attempt = some r
  apart k l := ∀ x y, k = .install x → l = .install y → x.request.attempt ≠ y.request.attempt

/-- The attempt `id` is in the ledger and no call is about to install it. -/
def installed (l₀ : AttemptLedger) (id : AttemptId) : Outline Fabric Call where
  shared f := AttemptLedger.Deduplicated l₀ f.attempts ∧ ∃ r, f.attempts.record id = some r
  assertion _ k := ∀ x, k = .install x → x.request.attempt ≠ id
  apart _ _ := True

theorem begin_ne_install (request : Request) (x : Installing) :
    Call.begin request ≠ .install x := by
  cases request <;> simp [Call.begin]

private theorem describes_of_ok {w : World} {i : ℕ} {k : Call}
    (h : describesRegistered w (.move i k a)) :
    ∀ p, k = .reserve p → (a.describe p.backend).ref.id = p.backendId := by
  rintro p rfl
  exact h

theorem installing_stable : (installing l₀).Stable coordinator describesRegistered where
  begins c i r _ _ _ :=
    ⟨fun x hx => absurd hx (begin_ne_install r x), fun j l _ =>
      ⟨fun x y hx => absurd hx (begin_ne_install r x),
        fun x y _ hy => absurd hy (begin_ne_install r y)⟩⟩
  locally c i k a hc hok _ := by
    refine ⟨hc.shared.step k (describes_of_ok hok), fun k' hk' x hx => ?_⟩
    subst hx
    obtain ⟨p, rfl⟩ := Call.step_install hk'
    obtain ⟨hfresh, hatt, -⟩ := reserve_installs hc.shared.wellFormed hk'
    change ∃ r, (Call.step c.shared a (.reserve p)).1.attempts.record _ = some r
    rw [hatt, reservedLedger_record hc.shared.wellFormed hfresh]
    exact ⟨_, Function.update_self ..⟩
  interference c i k a j l hc hok here hji hl := by
    refine ⟨fun x hx => ?_, fun k' hk' => ?_⟩
    · obtain ⟨r, hr⟩ := hc.assertion j l hl x hx
      obtain ⟨r', hr', -⟩ := Call.record_kept hc.shared.wellFormed a k hr
      exact ⟨r', hr'⟩
    · have hne : ∀ x y, k' = .install x → l = .install y →
          x.request.attempt ≠ y.request.attempt := by
        rintro x y rfl rfl heq
        obtain ⟨p, rfl⟩ := Call.step_install hk'
        obtain ⟨hfresh, -, -⟩ := reserve_installs hc.shared.wellFormed hk'
        obtain ⟨r, hr⟩ := hc.assertion j _ hl y rfl
        rw [heq, hr] at hfresh
        cases hfresh
      exact ⟨hne, fun y x hy hx => (hne x y hx hy).symm⟩
  restarts _ _ _ hok _ := hok.elim

theorem installed_stable (id : AttemptId) :
    (installed l₀ id).Stable coordinator describesRegistered where
  begins c i r _ _ _ :=
    ⟨fun x hx => absurd hx (begin_ne_install r x), fun _ _ _ => ⟨trivial, trivial⟩⟩
  locally c i k a hc hok _ := by
    obtain ⟨hdedup, r, hr⟩ := hc.shared
    refine ⟨⟨hdedup.step k (describes_of_ok hok), ?_⟩, fun k' hk' x hx heq => ?_⟩
    · obtain ⟨r', hr', -⟩ := Call.record_kept hdedup.wellFormed a k hr
      exact ⟨r', hr'⟩
    · subst hx
      obtain ⟨p, rfl⟩ := Call.step_install hk'
      obtain ⟨hfresh, -, -⟩ := reserve_installs hdedup.wellFormed hk'
      rw [heq, hr] at hfresh
      cases hfresh
  interference c i k a j l hc _ _ _ hl := ⟨hc.assertion j l hl, fun _ _ => ⟨trivial, trivial⟩⟩
  restarts _ _ _ hok _ := hok.elim

theorem Fabric.initializeFabric_deduplicated {config : FabricConfig} {disk : Disk}
    (hok : ((Fabric.construct config disk).initializeFabric a).1.isOk = true) :
    AttemptLedger.Deduplicated ((Fabric.construct config disk).initializeFabric a).2.attempts
      ((Fabric.construct config disk).initializeFabric a).2.attempts := by
  have hwf := (Fabric.initializeFabric_started a config disk hok).wellFormed
  obtain ⟨records, pending, hledger⟩ := Fabric.initializeFabric_ledger a hok
  refine .refl hwf ?_
  rw [hledger]
  obtain ⟨hwf', hnamed⟩ := AttemptLedger.foldl_replayed_named records
  refine hnamed.mapEntries hwf' (fun e => ?_) fun e => ?_
  · unfold Fabric.recoveredEntry
    split <;> rfl
  · unfold Fabric.recoveredEntry
    split <;> simp

/-- Within one incarnation and under any interleaving, an envelope has one attempt on a
backend, the backend applies it at most once, and every further apply is answered with it:
provided that the start recovers no two attempts of one pair, and that an apply comes to its
reservation only where the attempts of its pair are listed. -/
theorem applies_deduplicated {config : FabricConfig} {disk : Disk}
    (hstart : ((Fabric.construct config disk).initializeFabric a).1.isOk = true)
    (hunshared : ((Fabric.construct config disk).initializeFabric a).2.attempts.Unshared)
    {w : World} {n : ℕ} (hrun : Run coordinator appliesListed
      (.idle ((Fabric.construct config disk).initializeFabric a).2) n w) :
    AppliedOnce ((Fabric.construct config disk).initializeFabric a).2.attempts w := by
  have hdedup := Fabric.initializeFabric_deduplicated hstart
  generalize ((Fabric.construct config disk).initializeFabric a).2 = f₀ at hrun hdedup hunshared ⊢
  have hholds : (installing f₀.attempts).Holds w :=
    installing_stable.holds (Outline.holds_idle hdedup) (hrun.mono fun _ _ h => h.1)
  have hshared : AttemptLedger.Deduplicated f₀.attempts w.shared.attempts := hholds.shared
  refine ⟨?_, ?_, ?_, fun i p r _ hfound b => reserve_existing hfound⟩
  · refine (hrun.invariant (I := fun w => w.shared.attempts.WellFormed ∧
      w.shared.attempts.Unshared) ⟨hdedup.wellFormed, hunshared⟩ ?_).2
    rintro w e w' ⟨hwf, hw⟩ ⟨hdesc, hfiled⟩ hs
    cases hs with
    | start free => exact ⟨hwf, hw⟩
    | @move i k a here =>
      refine ⟨(Call.step_moves hwf a k).wellFormed, hw.step hwf k (describes_of_ok hdesc) ?_⟩
      rintro p rfl
      exact hfiled i p a rfl
    | restart _ => exact hdesc.elim
  · intro id r ref hnew hr href
    exact hshared.findExisting hnew hr href
  · intro i k b request hk hext c m w' hrun' j k' b' request' hk' hext'
    obtain ⟨x, rfl, rfl⟩ := Call.external_apply hext
    obtain ⟨y, rfl, rfl⟩ := Call.external_apply hext'
    obtain ⟨r, hr⟩ := hholds.assertion i _ hk x rfl
    refine ((@installed_stable f₀.attempts x.request.attempt).holds ?_
      hrun').assertion j _ hk' y rfl
    refine ⟨⟨hshared.step _ (fun p hp => by cases hp), ⟨r, hr⟩⟩, ?_,
      fun _ _ _ _ _ _ _ => trivial⟩
    rintro l z hl z' rfl
    by_cases hli : l = i
    · subst hli
      simp [Call.step] at hl
    · have hl' : w.calls l = some (.install z') := (Function.update_of_ne hli ..).symm.trans hl
      exact hholds.apart l i _ _ hli hl' hk z' x rfl rfl

end

namespace Scenario

/-- The flush of the next record fails, and the record is in the file nevertheless. -/
def losing : Answers := { answers with files := { append := fun _ => .flushFailed .record } }

/-- After a cancellation another thread applies the envelope, as far as its reservation. -/
def applyAgain : List (Action Request Answers) :=
  cancelWhileApplying ++ calls 2 (.applyEnvelope ⟨⟨1⟩, ⟨1⟩⟩ ⟨1⟩ ⟨7⟩) 9

/-- Every descriptor read in phase C is the registered one. -/
def describes (_ : World) : Event Call Request Answers → Bool
  | .move _ (.reserve p) a => decide ((a.describe p.backend).ref.id = p.backendId)
  | .restart => false
  | _ => true

/-- `describes`, and every attempt is listed when an apply comes to its reservation. -/
def describesListed (w : World) (e : Event Call Request Answers) : Bool :=
  describes w e &&
    match e with
    | .move _ (.reserve _) _ => w.shared.attempts.entries.all fun e =>
        (w.shared.attempts.byEnvelope e.record.envelope.id.value).contains e.record.attempt
    | _ => true

theorem describesRegistered_of_describes (w : World) (e : Event Call Request Answers)
    (h : describes w e = true) : describesRegistered w e := by
  cases e with
  | start _ _ => trivial
  | move _ k _ => cases k <;> first
    | exact trivial
    | simpa [describes, describesRegistered] using h
  | restart => simp [describes] at h

end Scenario

theorem AttemptLedger.unshared_of_entries {l : AttemptLedger} (h : l.entries = []) :
    l.Unshared := by
  intro id r _ _ hr
  obtain ⟨slot, hslot, -⟩ := Option.map_eq_some_iff.1 hr
  simp only [AttemptLedger.find, h, List.getElem?_nil] at hslot
  split at hslot <;> cases hslot

namespace Scenario

theorem appliesListed_of_describesListed (w : World) (e : Event Call Request Answers)
    (h : describesListed w e = true) : appliesListed w e := by
  unfold describesListed at h
  rw [Bool.and_eq_true] at h
  refine ⟨describesRegistered_of_describes w e h.1, ?_⟩
  rintro i p a rfl x hx - henvelope -
  rw [← henvelope]
  simpa using List.all_eq_true.1 h.2 x hx

/-- The append of an attempt fails, and the next apply of the envelope reserves another. -/
def doubling : List (Action Request Answers) :=
  setup ++ calls 1 (.applyEnvelope ⟨⟨1⟩, ⟨1⟩⟩ ⟨1⟩ {}) 9 ++ [.move 1 losing] ++
    calls 2 (.applyEnvelope ⟨⟨1⟩, ⟨1⟩⟩ ⟨1⟩ {}) 10

/-- Two attempts have the same envelope and backend. -/
def shares (l : AttemptLedger) (id id' : AttemptId) : Bool :=
  (l.record id).any fun r => (l.record id').any fun r' =>
    r'.envelope.id == r.envelope.id && r'.backend.id == r.backend.id

theorem of_shares {l : AttemptLedger} {id id' : AttemptId} (h : shares l id id' = true) :
    ∃ r r', l.record id = some r ∧ l.record id' = some r' ∧ r'.envelope.id = r.envelope.id ∧
      r'.backend.id = r.backend.id := by
  unfold shares at h
  simp only [Option.any_eq_true, Bool.and_eq_true, beq_iff_eq] at h
  obtain ⟨r, hr, r', hr', hsame⟩ := h
  exact ⟨r, r', hr, hr', hsame⟩

end Scenario

/-- A second apply, under an identity of its own, is answered with the cancelled attempt. -/
theorem applies_deduplicated_cancelled :
    AppliedOnce Scenario.started.shared.attempts
        (coordinator.exec Scenario.started Scenario.applyAgain) ∧
      ((coordinator.exec Scenario.started Scenario.applyAgain).shared.attempts.findExisting
        ⟨⟨1⟩, ⟨1⟩⟩ ⟨1⟩).map (fun r => (r.attempt, r.state)) = some (⟨1⟩, .cancelled) := by
  obtain ⟨n, hn⟩ := Program.run_of_allows (P := coordinator)
    Scenario.appliesListed_of_describesListed Scenario.applyAgain
    (c := Scenario.started) (by decide +kernel)
  exact ⟨@applies_deduplicated Scenario.answers Scenario.config {} (by decide +kernel)
    (AttemptLedger.unshared_of_entries (by decide +kernel)) _ n hn, by decide +kernel⟩

/-- An append that fails leaves its attempt in the file, the next apply reserves another one for
the same envelope and backend, and the next start recovers both. -/
theorem recovered_twice :
    ∃ (n : ℕ) (w : World) (config : FabricConfig) (a : Answers),
      Run coordinator (fun w e => e = .restart ∨ describesRegistered w e) World.initial n w ∧
      ((Fabric.construct config w.shared.storage.disk).initializeFabric a).1.isOk = true ∧
      ∃ id id' r r', id ≠ id' ∧
        ((Fabric.construct config w.shared.storage.disk).initializeFabric a).2.attempts.record id =
          some r ∧
        ((Fabric.construct config w.shared.storage.disk).initializeFabric a).2.attempts.record id' =
          some r' ∧
        r'.envelope.id = r.envelope.id ∧ r'.backend.id = r.backend.id := by
  obtain ⟨n, hn⟩ := Program.run_of_allows (P := coordinator)
    Scenario.describesRegistered_of_describes Scenario.doubling
    (c := Scenario.journalingStarted) (by decide +kernel)
  have hfirst : Step coordinator World.initial .restart Scenario.journalingStarted :=
    .restart ⟨Scenario.journaling, { Scenario.answers with
      recoverNow := Scenario.answers.now }, rfl⟩
  have hrun : Run coordinator (fun w e => e = .restart ∨ describesRegistered w e) World.initial
      (1 + n) (coordinator.exec Scenario.journalingStarted Scenario.doubling) :=
    (Run.succ .zero (.inl rfl) hfirst).trans (hn.mono fun _ _ => .inr)
  -- the start over the files succeeds, and recovers both attempts
  have hstart : (Scenario.shares (Scenario.journalingAgain (coordinator.exec
      Scenario.journalingStarted Scenario.doubling).shared).attempts ⟨1⟩ ⟨2⟩ &&
      ((Fabric.construct Scenario.journaling (coordinator.exec Scenario.journalingStarted
        Scenario.doubling).shared.storage.disk).initializeFabric { Scenario.answers with
          recoverNow := Scenario.answers.now }).1.isOk) = true := by
    decide +kernel
  obtain ⟨hshares, hok⟩ := Bool.and_eq_true_iff.1 hstart
  generalize coordinator.exec Scenario.journalingStarted Scenario.doubling = w at hrun hshares hok
  obtain ⟨r, r', hr, hr', hsame⟩ := Scenario.of_shares hshares
  exact ⟨_, w, Scenario.journaling, _, hrun, hok, ⟨1⟩, ⟨2⟩, r, r', by decide, hr, hr', hsame⟩

end Pacing
