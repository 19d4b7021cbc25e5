import PacingFabric.Storage.LastIndex
import PacingFabric.Storage.SlotTable
import PacingFabric.Theorems.EnvelopeIds
import PacingFabric.Theorems.Eviction

/-!
# What a step does to the envelope table

A section of a call leaves the slots as they are up to the marks of revocation, or evicts,
or evicts and appends what a derivation has just issued.

## Main definitions

* `EnvelopeTable.Restamped`: the tables differ in the marks of revocation alone.
* `Fabric.reachesEviction`: the call gets as far as the section that evicts.
* `SlotStep`: what a step may do to the table.
* `EnvelopeTable.Replayed`: what a record may do to it when it is replayed.

## Main results

* `Call.step_slots`: every step of a call is a `SlotStep`.
* `Replay.record_replayed`: every turn of the replay loop is a `Replayed`.
-/

namespace Pacing

open LastIndex

namespace EnvelopeTable

/-- The identities of the live slots. -/
abbrev slotIds (t : EnvelopeTable) : List (Option UInt64) :=
  marks (·.live) (·.envelope.ref.id.value) t.entries

/-- The flows of the live slots. -/
abbrev slotFlows (t : EnvelopeTable) : List (Option UInt64) :=
  marks (·.live) (·.envelope.flow.value) t.entries

/-- What a slot holds apart from the mark of revocation. -/
def slot (e : EnvelopeEntry) : Bool × PacingEnvelope := (e.live, e.envelope)

/-- At most the marks of revocation differ. -/
structure Restamped (t t' : EnvelopeTable) : Prop where
  index : t'.index = t.index
  latest : t'.latestByFlow = t.latestByFlow
  dead : t'.dead = t.dead
  slots : t'.entries.map slot = t.entries.map slot

namespace Restamped

variable {t t' t'' : EnvelopeTable} {i : ℕ}

theorem refl (t : EnvelopeTable) : Restamped t t := ⟨rfl, rfl, rfl, rfl⟩

theorem of_eq (h : t' = t) : Restamped t t' := h ▸ refl t

theorem trans (h : Restamped t t') (h' : Restamped t' t'') : Restamped t t'' :=
  ⟨h'.index.trans h.index, h'.latest.trans h.latest, h'.dead.trans h.dead,
    h'.slots.trans h.slots⟩

/-- One slot is written. -/
theorem set {e x : EnvelopeEntry} (he : t.entries[i]? = some e) (hx : slot x = slot e) :
    Restamped t { t with entries := t.entries.set i x } :=
  ⟨rfl, rfl, rfl, SlotTable.map_key_set he hx.symm⟩

/-- Every slot is written. -/
theorem map {g : EnvelopeEntry → EnvelopeEntry} (hg : ∀ e, slot (g e) = slot e) :
    Restamped t { t with entries := t.entries.map g } := by
  refine ⟨rfl, rfl, rfl, ?_⟩
  rw [List.map_map]
  exact List.map_congr_left fun e _ => hg e

theorem getElem? (h : Restamped t t') {e : EnvelopeEntry} (he : t.entries[i]? = some e) :
    ∃ e', t'.entries[i]? = some e' ∧ slot e' = slot e := by
  have hslot : (t'.entries.map slot)[i]? = some (slot e) := by
    rw [h.slots, List.getElem?_map, he, Option.map_some]
  rwa [List.getElem?_map, Option.map_eq_some_iff] at hslot

theorem envelopes_eq (h : Restamped t t') :
    t'.entries.map (·.envelope) = t.entries.map (·.envelope) := by
  have hslots := congrArg (List.map Prod.snd) h.slots
  rwa [List.map_map, List.map_map] at hslots

/-- The keys of the live slots are those of the slots. -/
theorem marks_eq (h : Restamped t t') (key : PacingEnvelope → UInt64) :
    marks (·.live) (fun e => key e.envelope) t'.entries =
      marks (·.live) (fun e => key e.envelope) t.entries := by
  have hmap : ∀ xs : List EnvelopeEntry, marks (·.live) (fun e => key e.envelope) xs =
      (xs.map slot).map fun s => if s.1 then some (key s.2) else none := fun xs => by
    rw [List.map_map]
    rfl
  rw [hmap, hmap, h.slots]

end Restamped

end EnvelopeTable

variable {f g : Fabric} {a : Answers}

open EnvelopeTable (Restamped)

/-! ### Sections that mark -/

namespace Fabric

theorem revokeAttempts_envelopes (now : Instant) (envelope : EnvelopeId) (cadence : Cadence)
    (reason : Bytes) :
    (f.revokeAttempts a now envelope cadence reason).2.envelopes = f.envelopes := by
  obtain ⟨attempts, storage, h⟩ := f.revokeAttempts_frame a now envelope cadence reason
  rw [h]

theorem revokeEnvelope_slots (now : Instant) (ref : EnvelopeRef) (reason : Bytes) :
    Restamped f.envelopes (f.revokeEnvelope a now ref reason).2.2.envelopes := by
  unfold revokeEnvelope
  split
  · exact .refl _
  · cases hfind : f.envelopes.find ref.id with
    | none => exact .refl _
    | some slot =>
      obtain ⟨i, entry⟩ := slot
      obtain ⟨hi, -⟩ := EnvelopeTable.getElem?_of_find hfind
      have hset : ∀ revoked reason, Restamped f.envelopes
          (f.setRevoked i entry revoked reason).envelopes := fun _ _ => .set hi rfl
      dsimp only
      split
      · exact .refl _
      · split
        · exact .of_eq (revokeAttempts_envelopes ..)
        · cases (encodeRevocation ⟨512, [], none⟩ ref reason).finish with
          | error status => exact hset true reason
          | ok payload =>
            dsimp only
            split
            · -- the mark is taken back
              obtain ⟨hlt, -⟩ := List.getElem?_eq_some_iff.1 hi
              exact (hset true reason).trans (.set (e := { entry with
                revoked := true, revokeReason := reason }) (List.getElem?_set_self hlt) rfl)
            · rw [revokeAttempts_envelopes]
              exact hset true reason

theorem fenceEnvelopes_slots (epoch : Epoch) (reason : Bytes) :
    Restamped f.envelopes (f.fenceEnvelopes epoch reason).envelopes := by
  refine .map fun e => ?_
  split <;> rfl

theorem fenceBelow_slots (now : Instant) (epoch : Epoch) :
    Restamped f.envelopes (f.fenceBelow a now epoch).2.2.envelopes := by
  unfold fenceBelow
  split
  · exact .refl _
  · dsimp only
    obtain ⟨attempts, storage, h⟩ := fenceAttempts_frame
      (f.fenceEnvelopes epoch "fenced by coordinator epoch") a now epoch
      "fenced by coordinator epoch"
    rw [h]
    exact fenceEnvelopes_slots ..

theorem advanceEpoch_slots (now : Instant) :
    Restamped f.envelopes (f.advanceEpoch a now).2.envelopes := by
  unfold advanceEpoch
  split
  · exact .refl _
  · unfold advanceEpochLocked
    dsimp only
    split
    · exact .refl _
    · obtain ⟨attempts, storage, h⟩ := fenceAttempts_frame
        (fenceEnvelopes { f with epoch := f.epoch.advanced.1 } f.epoch.advanced.1
          "coordinator epoch advanced") a now f.epoch.advanced.1
        "coordinator epoch advanced past this attempt"
      rw [h]
      have hslots := fenceEnvelopes_slots (f := { f with epoch := f.epoch.advanced.1 })
        f.epoch.advanced.1 "coordinator epoch advanced"
      split <;> exact hslots

/-! ### Sections that evict -/

/-- The scan reads only the tables and the limits. -/
theorem evictAndCompact_congr (hconfig : g.config = f.config)
    (henvelopes : g.envelopes = f.envelopes) (hattempts : g.attempts = f.attempts) :
    g.evictAndCompact.envelopes = f.evictAndCompact.envelopes := by
  have hcompact : g.compactTables.envelopes = f.compactTables.envelopes ∧
      g.compactTables.attempts = f.compactTables.attempts := by
    unfold compactTables
    rw [henvelopes, hattempts]
    exact ⟨rfl, rfl⟩
  have hlimits : g.compactTables.config = f.compactTables.config := hconfig
  unfold evictAndCompact
  generalize g.compactTables = g at *
  generalize f.compactTables = f at *
  obtain ⟨henvelopes, hattempts⟩ := hcompact
  have hscan : ∀ n i, g.scanFrom n i = f.scanFrom n i := by
    intro n
    induction n with
    | zero => exact fun _ => rfl
    | succ n ih =>
      intro i
      unfold scanFrom evictable
      rw [henvelopes, hattempts]
      simp only [ih]
  have hone : g.evictOne.envelopes = f.evictOne.envelopes := by
    unfold evictOne evictionVictim
    rw [hscan, henvelopes]
    dsimp only
    split <;> rfl
  dsimp only
  rw [henvelopes, hlimits]
  split
  · exact henvelopes
  · exact hone

/-- The call gets as far as the section that evicts. -/
def reachesEviction (f : Fabric) (a : Answers) : Call → Prop
  | .derive inputs now => f.reachesTable a inputs now
  | .reserve p => f.running = true ∧
      (∃ i entry, f.envelopes.find p.ref.id = some (i, entry) ∧ entry.revoked = false) ∧
      f.findDuplicate p.ref p.backendId p.requested = none ∧
      f.attempts.pending < f.config.maxPendingAttempts
  | _ => False

end Fabric

/-- What a step may do to the table: stamp slots, evict, and after it append the envelope
that a derivation returns. -/
inductive SlotStep (f : Fabric) (a : Answers) (k : Call) : EnvelopeTable → Prop
  | restamped {t} (same : Restamped f.envelopes t) : SlotStep f a k t
  | evicted (reaches : f.reachesEviction a k) : SlotStep f a k f.evictAndCompact.envelopes
  | inserted (inputs : AuthorityInputs) (now : Instant) (envelope : PacingEnvelope)
      (call : k = .derive inputs now) (reaches : f.reachesTable a inputs now)
      (room : ¬ f.tableFull) (answer : (f.deriveEnvelope a inputs now).1 = .ok envelope) :
      SlotStep f a k (f.evictAndCompact.envelopes.insert envelope)

/-! ### Sections that append -/

section
variable {k : Call}

theorem SlotStep.of_eq {t : EnvelopeTable} (h : t = f.envelopes) : SlotStep f a k t :=
  .restamped (.of_eq h)

namespace Fabric

/-- The end of a derivation, from the journal on. -/
theorem issueEnvelope_cases (now : Instant) (envelope : PacingEnvelope) :
    (g.issueEnvelope a now envelope).2.envelopes = g.envelopes ∨
      ∃ payload, encodeEnvelopePayload envelope = .ok payload ∧
        (g.journal a .envelope payload now.ns).1.isOk = true ∧
        ((g.issueEnvelope a now envelope).2.envelopes = g.evictAndCompact.envelopes ∨
          ¬ g.tableFull ∧ (g.issueEnvelope a now envelope).1 = .ok envelope ∧
            (g.issueEnvelope a now envelope).2.envelopes =
              g.evictAndCompact.envelopes.insert envelope) := by
  unfold issueEnvelope
  cases hp : encodeEnvelopePayload envelope with
  | error status => exact .inl rfl
  | ok payload =>
    dsimp only
    rw [journalRecord_fst, journalRecord_snd]
    cases hj : (g.journal a .envelope payload now.ns).1.isOk with
    | false => exact .inl rfl
    | true =>
      refine .inr ⟨payload, rfl, hj, ?_⟩
      rw [Bool.not_true, if_neg Bool.false_ne_true]
      -- the journal leaves the table and the ledger alone
      have hevict := evictAndCompact_congr (f := g) (g := { g with
        storage := (g.journal a .envelope payload now.ns).2 }) rfl rfl rfl
      have hfull := admitEnvelope_refused_iff { g with
        storage := (g.journal a .envelope payload now.ns).2 } envelope
      unfold admitEnvelope at hfull ⊢
      dsimp only at hfull ⊢
      split at hfull
      · rename_i hlen
        rw [if_pos hlen]
        exact .inl hevict
      · rename_i hlen
        rw [if_neg hlen]
        refine .inr ⟨fun hmem => ?_, rfl, congrArg (·.insert envelope) hevict⟩
        exact nomatch hfull.2 hmem

theorem deriveEnvelope_slots (inputs : AuthorityInputs) (now : Instant) :
    SlotStep f a (.derive inputs now) (f.deriveEnvelope a inputs now).2.envelopes := by
  cases hrun : f.running with
  | false =>
    unfold deriveEnvelope
    rw [hrun]
    exact .of_eq rfl
  | true =>
    have hderive : f.deriveEnvelope a inputs now = f.deriveEnvelopeInternal a inputs now := by
      unfold deriveEnvelope
      rw [hrun]
      rfl
    cases hd : deriveCadence (derivationInput inputs) f.config.limits with
    | error status =>
      rw [hderive]
      unfold deriveEnvelopeInternal
      rw [hd]
      exact .of_eq rfl
    | ok outcome =>
      cases he : expiryNs f.config inputs.grant now with
      | error status =>
        rw [hderive]
        unfold deriveEnvelopeInternal
        rw [hd, he]
        exact .of_eq rfl
      | ok expiry =>
        have hissue : f.deriveEnvelope a inputs now = issueEnvelope { f with
            envelopeIds := f.envelopeIds.next.2, provenanceIds := f.provenanceIds.next.2 } a now
            (f.nextEnvelope a inputs now outcome expiry) := by
          rw [hderive]
          unfold deriveEnvelopeInternal
          rw [hd, he]
          rfl
        have hevict := evictAndCompact_congr (f := f) (g := { f with
          envelopeIds := f.envelopeIds.next.2, provenanceIds := f.provenanceIds.next.2 })
          rfl rfl rfl
        rcases issueEnvelope_cases (a := a) (g := { f with
            envelopeIds := f.envelopeIds.next.2, provenanceIds := f.provenanceIds.next.2 }) now
            (f.nextEnvelope a inputs now outcome expiry) with
          hsame | ⟨payload, hp, hj, hrest⟩
        · rw [hissue, hsame]
          exact .of_eq rfl
        · -- the record is written, so the section goes on to the eviction
          have hreach : f.reachesTable a inputs now :=
            ⟨hrun, outcome, expiry, payload, hd, he, hp, hj⟩
          rcases hrest with hsame | ⟨hroom, hanswer, hsame⟩
          · rw [hissue, hsame, hevict]
            exact .evicted hreach
          · rw [← hissue] at hanswer hsame
            rw [hsame, hevict]
            exact .inserted inputs now _ rfl hreach hroom hanswer

theorem reserve_slots (p : Applying) :
    SlotStep f a (.reserve p) (f.reserveAttempt a p.now p.ref p.backendId p.requested p.envelope
      p.backend).2.envelopes := by
  unfold reserveAttempt
  cases hrun : f.running with
  | false => exact .of_eq rfl
  | true =>
    rw [Bool.not_true, if_neg Bool.false_ne_true]
    cases hfind : f.envelopes.find p.ref.id with
    | none => exact .of_eq rfl
    | some slot =>
      obtain ⟨i, entry⟩ := slot
      dsimp only
      cases hrev : entry.revoked with
      | true => exact .of_eq rfl
      | false =>
        rw [if_neg Bool.false_ne_true]
        cases hdup : f.findDuplicate p.ref p.backendId p.requested with
        | some reservation => exact .of_eq rfl
        | none =>
          dsimp only
          split
          · exact .of_eq rfl
          · rename_i hpending
            have hreach : f.reachesEviction a (.reserve p) :=
              ⟨hrun, ⟨i, entry, hfind, hrev⟩, hdup, by simpa using hpending⟩
            split
            · exact .evicted hreach
            · obtain ⟨_, _, _, hfresh⟩ := f.evictAndCompact.reserveFresh_frame a p.now p.ref
                p.requested p.envelope p.backend
              rw [hfresh]
              exact .evicted hreach

end Fabric

theorem Call.step_slots (k : Call) : SlotStep f a k (Call.step f a k).1.envelopes := by
  cases hwrites : k.writesEnvelopes with
  | false => exact .of_eq ((Call.step_frame f a k).envelopes hwrites)
  | true =>
    cases k with
    | derive inputs now => exact Fabric.deriveEnvelope_slots inputs now
    | reserve p =>
      rw [Call.step_reserve_fst]
      exact Fabric.reserve_slots p
    | locked request now =>
      rw [show (Call.step f a (.locked request now)).1 = Call.lockedState f a now request from
        Call.lockedStep_fst f a now request]
      cases request with
      | advanceEpoch => exact .restamped (Fabric.advanceEpoch_slots now)
      | revokeEnvelope ref reason =>
        simp only [Call.lockedState]
        repeat' split
        all_goals first | exact .of_eq rfl | exact .restamped (Fabric.revokeEnvelope_slots ..)
      | fenceBelow epoch =>
        simp only [Call.lockedState]
        split
        · exact .of_eq rfl
        · exact .restamped (Fabric.fenceBelow_slots ..)
      | _ => cases hwrites
    | _ => cases hwrites

end

/-! ### Replay -/

/-- What one record does to the table when it is replayed. -/
inductive EnvelopeTable.Replayed (t : EnvelopeTable) : EnvelopeTable → Prop
  | same : Replayed t t
  | inserted (envelope : PacingEnvelope) (new : t.find envelope.ref.id = none) :
      Replayed t (t.insert envelope)
  | rewritten {i : ℕ} {e : EnvelopeEntry} (envelope : PacingEnvelope)
      (found : t.find envelope.ref.id = some (i, e)) :
      Replayed t { t with entries := t.entries.set i { e with envelope := envelope } }
  | revoked {i : ℕ} {e : EnvelopeEntry} (id : EnvelopeId) (reason : Bytes)
      (found : t.find id = some (i, e)) :
      Replayed t
        { t with entries := t.entries.set i { e with revoked := true, revokeReason := reason } }

theorem Replay.record_replayed (nonce : UInt64) (s : Replay) (record : DurableRecord) :
    EnvelopeTable.Replayed s.fabric.envelopes
      (Replay.record nonce s record).fabric.envelopes := by
  unfold Replay.record
  cases record.type with
  | envelope =>
    dsimp only
    split
    · exact .same
    · rename_i envelope _
      unfold Replay.envelope
      dsimp only
      cases hfind : s.fabric.envelopes.find envelope.ref.id with
      | none => exact .inserted envelope hfind
      | some slot => exact .rewritten envelope hfind
  | envelopeRevocation =>
    dsimp only
    split
    · exact .same
    · rename_i ref reason _
      unfold Replay.revocation
      dsimp only
      cases hfind : s.fabric.envelopes.find ref.id with
      | none => exact .same
      | some slot => exact .revoked ref.id reason hfind
  | attempt =>
    dsimp only
    split
    · exact .same
    · unfold Replay.attempt
      dsimp only
      split <;> exact .same
  | metaRecord | unlisted => exact .same
  | _ =>
    dsimp only
    split <;> exact .same

end Pacing
