import PacingFabric.Model.Operations

/-!
# Why a derivation is refused

A refusal for lack of a resource names the resource: the journal, the compaction batch or
the envelope table. Everything before the table fails for other reasons.

## Main results

* `ByteWriter.Roomy.finish`: a writer is poisoned only by running out of room.
* `Fabric.journal_status`: what journaling answers when it runs out of a resource.
* `deriveCadence_notExhausted`: the derivation proper needs no resource.
-/

namespace Pacing

/-- A writer that is poisoned, if at all, for lack of room. -/
def ByteWriter.Roomy (w : ByteWriter) : Prop := ∀ s, w.poison = some s → s.code = .oversized

namespace ByteWriter.Roomy

variable {w : ByteWriter}

theorem fresh (capacity : ℕ) : Roomy ⟨capacity, [], none⟩ := by simp [Roomy]

theorem raw (h : w.Roomy) (data : Bytes) : (w.raw data).Roomy := by
  unfold ByteWriter.raw
  split
  · exact h
  · split
    · rintro s ⟨⟩
      rfl
    · exact h

theorem u8v (h : w.Roomy) (v : UInt8) : (w.u8v v).Roomy := h.raw _

theorem u16v (h : w.Roomy) (v : UInt16) : (w.u16v v).Roomy := h.raw _

theorem u32v (h : w.Roomy) (v : UInt32) : (w.u32v v).Roomy := h.raw _

theorem u64v (h : w.Roomy) (v : UInt64) : (w.u64v v).Roomy := h.raw _

theorem boolean (h : w.Roomy) (v : Bool) : (w.boolean v).Roomy := h.u8v _

theorem str (h : w.Roomy) (s : Bytes) : (w.str s).Roomy := by
  unfold ByteWriter.str
  split
  · exact h
  · split
    · rintro s ⟨⟩
      rfl
    · exact (h.u32v _).raw _

theorem id {tag : Tag} (h : w.Roomy) (v : Id tag) : (w.id v).Roomy := h.u64v _

theorem generation (h : w.Roomy) (v : Generation) : (w.generation v).Roomy := h.u64v _

theorem genRef {tag : Tag} (h : w.Roomy) (v : GenRef tag) : (w.genRef v).Roomy :=
  (h.id _).generation _

theorem cadence (h : w.Roomy) (c : Cadence) : (encodeCadence w c).Roomy :=
  h.u64v _ |>.u64v _ |>.u64v _ |>.u64v _ |>.u64v _ |>.u64v _ |>.u64v _ |>.u64v _ |>.u8v _

theorem authority (h : w.Roomy) (v : AuthorityVector) : (encodeAuthority w v).Roomy :=
  h.genRef _ |>.genRef _ |>.genRef _ |>.genRef _ |>.genRef _ |>.u64v _ |>.u64v _ |>.u64v _

theorem binding (h : w.Roomy) (b : FlowBinding) : (encodeBinding w b).Roomy :=
  h.id _ |>.generation _ |>.genRef _ |>.genRef _ |>.id _ |>.id _ |>.u64v _ |>.u64v _
    |>.boolean _ |>.id _

theorem exception (h : w.Roomy) (ex : ServiceClassException) : (encodeException w ex).Roomy :=
  h.id _ |>.u64v _ |>.u64v _ |>.u64v _ |>.u64v _ |>.u32v _

theorem policy (h : w.Roomy) (p : PacingPolicy) : (encodePolicy w p).Roomy :=
  List.foldlRecOn p.exceptions encodeException (motive := Roomy)
    (h.genRef _ |>.u8v _ |>.id _ |>.id _ |>.u64v _ |>.u64v _ |>.u64v _ |>.u64v _ |>.u64v _
      |>.u64v _ |>.u64v _ |>.u8v _ |>.u64v _ |>.genRef _ |>.id _ |>.id _ |>.id _ |>.u64v _
      |>.u32v _)
    fun _ hw ex _ => hw.exception ex

theorem envelope (h : w.Roomy) (e : PacingEnvelope) : (encodeEnvelope w e).Roomy :=
  h.genRef _ |>.id _ |>.id _ |>.authority _ |>.cadence _ |>.u64v _ |>.u64v _ |>.u64v _
    |>.boolean _ |>.boolean _ |>.id _ |>.id _ |>.u64v _ |>.u64v _ |>.u64v _ |>.u64v _
    |>.u64v _ |>.u64v _ |>.u64v _ |>.boolean _ |>.u64v _ |>.boolean _ |>.boolean _

theorem attempt (h : w.Roomy) (r : ApplicationRecord) : (encodeAttempt w r).Roomy :=
  h.id _ |>.genRef _ |>.id _ |>.id _ |>.authority _ |>.cadence _ |>.u8v _ |>.u8v _ |>.u8v _
    |>.u8v _ |>.u64v _ |>.u64v _ |>.u64v _ |>.u64v _ |>.u64v _ |>.u64v _ |>.boolean _
    |>.genRef _ |>.u64v _ |>.u64v _ |>.boolean _ |>.u16v _ |>.u8v _ |>.str _ |>.u64v _
    |>.u64v _ |>.u64v _ |>.boolean _

theorem revocation (h : w.Roomy) (ref : EnvelopeRef) (reason : Bytes) :
    (encodeRevocation w ref reason).Roomy := h.genRef _ |>.str _

theorem epoch (h : w.Roomy) (e : Epoch) (b : BootId) : (encodeEpoch w e b).Roomy :=
  h.u64v _ |>.u64v _ |>.u64v _

theorem backendDescriptor (h : w.Roomy) (d : BackendDescriptor) :
    (encodeBackendDescriptor w d).Roomy :=
  h.genRef _ |>.str _ |>.u8v _ |>.boolean _ |>.u64v _ |>.u64v _ |>.u64v _

/-- The status of a failed encoding. -/
theorem finish (h : w.Roomy) {s : Status} (hs : w.finish = .error s) : s.code = .oversized := by
  unfold ByteWriter.finish at hs
  split at hs
  · rename_i status hp
    cases hs
    exact h _ hp
  · cases hs

end ByteWriter.Roomy

/-! ### Statuses of journaling -/

/-- What journaling may answer: when it runs out of a resource, it names one of the two
bounds of the store. -/
def JournalStatus (s : Status) : Prop :=
  s.code ≠ .resourceExhausted ∨
    s.detail = Bytes.ofString "journal is at its configured bound; checkpoint required" ∨
    s.detail = Bytes.ofString "compaction batch above configured bound"

theorem JournalStatus.of_roomy {s : Status} (h : s.code = .oversized) : JournalStatus s :=
  .inl (by simp [h])

namespace DurableStore

theorem append_status (limits : Limits) (store : DurableStore) (disk : Disk)
    (record : DurableRecord) (outcome : AppendOutcome) :
    JournalStatus (store.append limits disk record outcome).1 := by
  unfold append
  split
  · exact .inl (by simp [Status.of])
  · split
    · exact .inl (by simp [Status.of])
    · split
      · exact .inl (by simp [Status.of])
      · dsimp only
        split
        · exact .inr (.inl rfl)
        · cases outcome <;> exact .inl (by simp [Status.of, Status.success])

theorem checkCompacted_status (limits : Limits) (count : ℕ) (records : List DurableRecord) :
    JournalStatus (checkCompacted limits count records) := by
  induction records generalizing count with
  | nil => exact .inl (by simp [checkCompacted, Status.success])
  | cons r rest ih =>
    unfold checkCompacted
    split_ifs
    · exact .inl (by simp [Status.of])
    · exact .inl (by simp [Status.of])
    · exact .inr (.inr rfl)
    · exact ih _

theorem checkpoint_status (limits : Limits) (store : DurableStore) (disk : Disk)
    (compacted : List DurableRecord) (outcome : CheckpointOutcome) :
    JournalStatus (store.checkpoint limits disk compacted outcome).1 := by
  unfold checkpoint
  dsimp only
  split
  · exact checkCompacted_status limits 0 compacted
  · split
    · exact .inl (by simp [Status.of])
    · cases outcome <;> exact .inl (by simp [Status.of, Status.success])

end DurableStore

namespace Fabric

theorem bind_error {α β : Type} {x : StatusOr α} {g : α → StatusOr β} {s : Status}
    (h : x >>= g = .error s) : x = .error s ∨ ∃ y, x = .ok y ∧ g y = .error s := by
  cases x with
  | error s' => exact .inl (by simpa [bind, Except.bind] using h)
  | ok y => exact .inr ⟨y, rfl, h⟩

/-- When a traversal fails, one of its elements did. -/
theorem mapM_error {α β : Type} {g : α → StatusOr β} {l : List α} {s : Status}
    (h : l.mapM g = .error s) : ∃ x ∈ l, g x = .error s := by
  induction l with
  | nil => simp [pure, Except.pure] at h
  | cons x l ih =>
    rw [List.mapM_cons] at h
    rcases bind_error h with hx | ⟨y, _, h⟩
    · exact ⟨x, List.mem_cons_self, hx⟩
    · rcases bind_error h with hl | ⟨ys, _, h⟩
      · obtain ⟨z, hz, hgz⟩ := ih hl
        exact ⟨z, List.mem_cons_of_mem _ hz, hgz⟩
      · cases h

theorem compactedAs_error {type : DurableRecordType} {encode : ByteWriter → ByteWriter}
    (h : ∀ w : ByteWriter, w.Roomy → (encode w).Roomy) {s : Status}
    (hs : compactedAs type encode = .error s) : s.code = .oversized := by
  rcases bind_error hs with hs | ⟨_, _, hs⟩
  · exact (h _ (.fresh _)).finish hs
  · cases hs

theorem compactEnvelope_error {entry : EnvelopeEntry} {s : Status}
    (hs : compactEnvelope entry = .error s) : s.code = .oversized := by
  rcases bind_error hs with hs | ⟨_, _, hs⟩
  · exact compactedAs_error (fun _ hw => hw.envelope _) hs
  · split at hs
    · rcases bind_error hs with hs | ⟨_, _, hs⟩
      · exact compactedAs_error (fun _ hw => hw.revocation _ _) hs
      · cases hs
    · cases hs

theorem compacted_error {f : Fabric} {describe : BackendPtr → BackendDescriptor} {s : Status}
    (hs : f.compacted describe = .error s) : s.code = .oversized := by
  unfold compacted at hs
  rcases bind_error hs with hs | ⟨_, _, hs⟩
  · obtain ⟨_, _, hs⟩ := mapM_error hs
    exact compactedAs_error (fun _ hw => hw.binding _) hs
  · rcases bind_error hs with hs | ⟨_, _, hs⟩
    · obtain ⟨_, _, hs⟩ := mapM_error hs
      exact compactedAs_error (fun _ hw => hw.policy _) hs
    · rcases bind_error hs with hs | ⟨_, _, hs⟩
      · obtain ⟨_, _, hs⟩ := mapM_error hs
        exact compactEnvelope_error hs
      · rcases bind_error hs with hs | ⟨_, _, hs⟩
        · obtain ⟨_, _, hs⟩ := mapM_error hs
          exact compactedAs_error (fun _ hw => hw.attempt _) hs
        · rcases bind_error hs with hs | ⟨_, _, hs⟩
          · obtain ⟨_, _, hs⟩ := mapM_error hs
            exact compactedAs_error (fun _ hw => hw.backendDescriptor _) hs
          · rcases bind_error hs with hs | ⟨_, _, hs⟩
            · exact (ByteWriter.Roomy.epoch (.fresh _) _ _).finish hs
            · cases hs

theorem journal_status (f : Fabric) (a : Answers) (type : DurableRecordType) (payload : Bytes)
    (timestampNs : UInt64) : JournalStatus (f.journal a type payload timestampNs).1 := by
  have hready : JournalStatus (f.maybeCheckpoint a).1 := by
    unfold maybeCheckpoint
    split
    · exact .inl (by simp [Status.success])
    · split
      · exact .inl (by simp [Status.success])
      · split
        · rename_i hs
          exact .of_roomy (compacted_error hs)
        · exact DurableStore.checkpoint_status ..
  unfold journal
  dsimp only
  split
  · exact hready
  · split
    · exact .inl (by simp [Status.success])
    · exact DurableStore.append_status ..

end Fabric

/-! ### Refusals of the derivation proper -/

/-- The result is not a refusal for lack of a resource. -/
def NotExhausted {α : Type} (x : StatusOr α) : Prop :=
  ∀ s, x = .error s → s.code ≠ .resourceExhausted

namespace NotExhausted

variable {α β : Type} {x y : StatusOr α}

theorem ok (v : α) : NotExhausted (.ok v : StatusOr α) := by
  rintro s ⟨⟩

theorem error {s : Status} (h : s.code ≠ .resourceExhausted) :
    NotExhausted (.error s : StatusOr α) := by
  rintro s ⟨⟩
  exact h

theorem of {code : ErrorCode} (h : code ≠ .resourceExhausted) (detail : Bytes) :
    NotExhausted (.error (.of code detail) : StatusOr α) := error h

theorem ite {c : Prop} [Decidable c] (hx : NotExhausted x) (hy : NotExhausted y) :
    NotExhausted (if c then x else y) := by
  split
  · exact hx
  · exact hy

theorem bind {g : α → StatusOr β} (hx : NotExhausted x) (hg : ∀ v, NotExhausted (g v)) :
    NotExhausted (x >>= g) := by
  cases x with
  | error s => exact error (hx s rfl)
  | ok v => exact hg v

end NotExhausted

theorem Status.code_ite {c : Prop} [Decidable c] {s t : Status} {code : ErrorCode}
    (hs : s.code ≠ code) (ht : t.code ≠ code) : (if c then s else t).code ≠ code := by
  split
  · exact hs
  · exact ht

namespace DerivationInput

variable (input : DerivationInput) (limits : Limits)

theorem check_code : (input.check limits).code ≠ .resourceExhausted := by
  unfold check
  repeat' apply Status.code_ite
  all_goals simp [Status.of, Status.success]

theorem interval_notExhausted (target : UInt64) : NotExhausted (input.interval target limits) := by
  unfold interval
  generalize deriveIntervalNs input.quantumBytes target = derived
  generalize Checked.mulDivCeil input.windowNs 1 input.grantsPerWindowHint = hinted
  cases derived with
  | none => exact .of (by simp) _
  | some intervalNs =>
    have htail : ∀ i : UInt64, NotExhausted (if i == 0 then
        .error (.of .internal "derived interval collapsed to zero")
      else if i > limits.maxIntervalNs then
        .error (.of .outOfRange "derived interval above configured limit")
      else pure i : StatusOr UInt64) := fun i =>
      .ite (.of (by simp) _) (.ite (.of (by simp) _) (.ok i))
    refine .ite ?_ (.bind (.ok _) htail)
    cases hinted with
    | none => exact .bind (.of (by simp) _) htail
    | some hinted => exact .bind (.ok _) htail

theorem burst_notExhausted (target : UInt64) : NotExhausted (input.burst target limits) := by
  unfold burst
  generalize burstCapacityBytes target limits.maxBurstHorizonNs = capacity
  refine .ite (.of (by simp) _) (.ite (.of (by simp) _) (.ite (.of (by simp) _)
    (.ite ?_ (.ok _))))
  cases capacity with
  | none => exact .of (by simp) _
  | some capacity => exact .ite (.of (by simp) _) (.ok _)

theorem recheck_code (c : Cadence) : (input.recheck c limits).code ≠ .resourceExhausted := by
  have hvalid : (validateCadence c limits.maxRateBps limits.maxBurstBytes
      limits.maxBurstPackets).code ≠ .resourceExhausted := by
    unfold validateCadence
    generalize Checked.mul c.grantsPerWindow c.quantumBytes = bytes
    generalize c.effectiveRateBps = effective
    cases bytes with
    | none =>
      repeat' apply Status.code_ite
      all_goals simp [Status.of]
    | some bytes =>
      cases effective with
      | none =>
        repeat' apply Status.code_ite
        all_goals simp [Status.of]
      | some effective =>
        repeat' apply Status.code_ite
        all_goals simp [Status.of, Status.success]
  unfold recheck
  generalize c.effectiveRateBps = effective
  refine Status.code_ite hvalid ?_
  cases effective with
  | none => simp [Status.of]
  | some effective => exact Status.code_ite (by simp [Status.of]) (by simp [Status.success])

end DerivationInput

theorem deriveCadence_notExhausted (input : DerivationInput) (limits : Limits) :
    NotExhausted (deriveCadence input limits) := by
  unfold deriveCadence
  refine .ite (.error (input.check_code limits)) ?_
  generalize input.target = target
  cases target with
  | none => exact .of (by simp) _
  | some requested =>
    dsimp only
    generalize input.clampedTarget requested = clamped
    refine .ite (.of (by simp) _) (.ite (.of (by simp) _)
      (.bind (input.interval_notExhausted limits _) fun i => ?_))
    generalize Checked.mul (input.windowNs / i) input.quantumBytes = bytes
    cases bytes with
    | none => exact .of (by simp) _
    | some bytes =>
      refine .bind (input.burst_notExhausted limits _) fun b => ?_
      exact .ite (.error (input.recheck_code limits _)) (.ok _)

theorem expiryWithin_notExhausted (grant : RateGrant) (now : Instant) (latest : Option UInt64) :
    NotExhausted (Fabric.expiryWithin grant now latest) := by
  cases latest with
  | none => exact .of (by simp) _
  | some expiry =>
    unfold Fabric.expiryWithin
    exact .ite (.of (by simp) _) (.ok _)

theorem expiryNs_notExhausted (config : FabricConfig) (grant : RateGrant) (now : Instant) :
    NotExhausted (Fabric.expiryNs config grant now) :=
  expiryWithin_notExhausted grant now _

end Pacing
