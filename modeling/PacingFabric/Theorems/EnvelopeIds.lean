import PacingFabric.Theorems.Currency
import PacingFabric.Theorems.Journaling

/-!
# Identities of envelopes

Within one incarnation the minter counts upwards. A restart sets it to the highest identity
among the envelope records it loads, so identities stay apart as long as one of these is as
high as every identity returned before; eviction and a checkpoint can drop it.

## Main definitions

* `minting`: incarnations with the identities their derivations returned.
* `keepsHighest`: a restart that loads an envelope record of the highest identity.

## Main results

* `envelopes_distinct`: no two returned envelopes share an identity.
* `envelope_reused`: two do, when the record was dropped.
-/

namespace Pacing

open Interleaving

variable {f : Fabric} {a : Answers}

/-! ### Minting -/

/-- What a derivation does to the minter, and the identity of what it returns. -/
theorem Fabric.deriveEnvelope_mints (inputs : AuthorityInputs) (now : Instant) :
    ((f.deriveEnvelope a inputs now).2.envelopeIds = f.envelopeIds ∨
      (f.deriveEnvelope a inputs now).2.envelopeIds = f.envelopeIds.next.2) ∧
    ∀ envelope, (f.deriveEnvelope a inputs now).1 = .ok envelope →
      f.running = true ∧ envelope.ref.id.value = f.envelopeIds.next.1 ∧
        (f.deriveEnvelope a inputs now).2.envelopeIds = f.envelopeIds.next.2 := by
  unfold deriveEnvelope
  split
  · exact ⟨.inl rfl, fun _ h => by cases h⟩
  · rename_i hrun
    have hrun : f.running = true := by simpa using hrun
    unfold deriveEnvelopeInternal
    -- the derivation itself is kept abstract: only its outcome matters here
    generalize deriveCadence (derivationInput inputs) f.config.limits = derived
    generalize expiryNs f.config inputs.grant now = expiry
    cases derived with
    | error status => exact ⟨.inl rfl, fun _ h => by cases h⟩
    | ok outcome =>
      cases expiry with
      | error status => exact ⟨.inl rfl, fun _ h => by cases h⟩
      | ok expiry =>
        dsimp only
        generalize hout : assembleEnvelope f.config inputs outcome now expiry a.synthetic
          f.envelopeIds.next.1 f.provenanceIds.next.1 = assembled
        have hid : assembled.ref.id.value = f.envelopeIds.next.1 := by rw [← hout]; rfl
        obtain ⟨_, _, _, hissue, -⟩ := issueEnvelope_frame
          { f with envelopeIds := f.envelopeIds.next.2, provenanceIds := f.provenanceIds.next.2 }
          a now assembled
        rw [hissue]
        refine ⟨.inr rfl, fun envelope henvelope => ⟨hrun, ?_, rfl⟩⟩
        rw [issueEnvelope_ok henvelope, hid]

/-- The identity a derivation returns with this step. -/
def Call.returned : Call → Option Call → List UInt64
  | .derive .., some (.leave (.envelope (.ok envelope))) => [envelope.ref.id.value]
  | _, _ => []

/-- The coordinator runs under a counter no returned identity exceeds. -/
def Fabric.Above (f : Fabric) (ids : List UInt64) : Prop :=
  f.running = true → ∀ id ∈ ids, id ≤ f.envelopeIds.counter

theorem IdMinter.lt_next {m : IdMinter} (h : m.counter ≠ Checked.u64Max) :
    m.counter < m.next.1 ∧ m.next.2.counter = m.next.1 :=
  ⟨UInt64.lt_add_one h, rfl⟩

/-- A step returns an identity above every one before. -/
theorem Call.step_distinct {k : Call} {ids : List UInt64} (habove : f.Above ids)
    (hdistinct : ids.Nodup)
    (hroom : k.mintsEnvelope = true → f.envelopeIds.counter ≠ Checked.u64Max) :
    (Call.step f a k).1.Above (ids ++ k.returned (Call.step f a k).2) ∧
      (ids ++ k.returned (Call.step f a k).2).Nodup := by
  have hrunning := (Call.step_frame f a k).running
  -- only the locked section of a derivation mints
  cases hmints : k.mintsEnvelope with
  | false =>
    have hnone : k.returned (Call.step f a k).2 = [] := by
      unfold Call.returned
      split
      · cases hmints
      · rfl
    rw [hnone, List.append_nil]
    refine ⟨fun hrun => ?_, hdistinct⟩
    rw [(Call.step_frame f a k).envelopeIds hmints]
    exact habove (hrunning hrun)
  | true =>
    obtain ⟨inputs, now, rfl⟩ : ∃ inputs now, k = .derive inputs now := by
      cases k <;> first | exact ⟨_, _, rfl⟩ | cases hmints
    obtain ⟨hlt, hnext⟩ := IdMinter.lt_next (hroom rfl)
    obtain ⟨hids, hissued⟩ := f.deriveEnvelope_mints (a := a) inputs now
    -- whatever the outcome, the counter has not moved down
    have hkept : ∀ id ∈ ids, f.running = true →
        id ≤ (f.deriveEnvelope a inputs now).2.envelopeIds.counter := by
      intro id hid hrun
      rcases hids with hsame | hmoved
      · rw [hsame]
        exact habove hrun id hid
      · rw [hmoved, hnext]
        exact UInt64.le_trans (habove hrun id hid) (UInt64.le_of_lt hlt)
    change Fabric.Above (f.deriveEnvelope a inputs now).2 (ids ++ Call.returned (.derive inputs now)
      (some (.leave (.envelope (f.deriveEnvelope a inputs now).1)))) ∧
      (ids ++ Call.returned (.derive inputs now)
        (some (.leave (.envelope (f.deriveEnvelope a inputs now).1)))).Nodup
    cases hout : (f.deriveEnvelope a inputs now).1 with
    | error status =>
      rw [show Call.returned _ _ = [] from rfl, List.append_nil]
      exact ⟨fun hrun id hid => hkept id hid (hrunning hrun), hdistinct⟩
    | ok envelope =>
      obtain ⟨hrun, hid, hmoved⟩ := hissued envelope hout
      rw [show Call.returned _ _ = [envelope.ref.id.value] from rfl]
      refine ⟨fun _ id hmem => ?_, ?_⟩
      · rcases List.mem_append.1 hmem with hmem | hmem
        · exact hkept id hmem hrun
        · rw [List.mem_singleton.1 hmem, hid, hmoved, hnext]
          exact UInt64.le_refl _
      -- the new identity is above the counter, and no earlier one is
      · refine List.nodup_append.2 ⟨hdistinct, List.nodup_singleton _, fun id hmem id' hmem' => ?_⟩
        rintro rfl
        rw [List.mem_singleton.1 hmem', hid] at hmem
        exact absurd (habove hrun _ hmem) (UInt64.not_le.2 hlt)

/-! ### Recovery -/

/-- The envelope a record holds. -/
def Replay.envelopeOf (record : DurableRecord) : Option PacingEnvelope :=
  if record.type = .envelope then decodePayload decodeEnvelope record.payload else none

/-- The table knows no identity above the highest the replay has met. -/
def Replay.Bounds (s : Replay) : Prop :=
  ∀ v i, s.fabric.envelopes.index v = some i → v ≤ s.maxEnvelopeId

theorem le_max (v w : UInt64) : v ≤ max v w ∧ w ≤ max v w := by
  change v ≤ (if v ≤ w then w else v) ∧ w ≤ (if v ≤ w then w else v)
  split
  · exact ⟨by assumption, UInt64.le_refl _⟩
  · exact ⟨UInt64.le_refl _, UInt64.le_of_lt (UInt64.not_le.1 (by assumption))⟩

theorem EnvelopeTable.index_of_find {t : EnvelopeTable} {id : EnvelopeId} {slot : ℕ × EnvelopeEntry}
    (h : t.find id = some slot) : ∃ i, t.index id.value = some i := by
  unfold find at h
  cases hi : t.index id.value with
  | none => simp [hi] at h
  | some i => exact ⟨i, rfl⟩

/-- Replaying an envelope remembers its identity. -/
theorem Replay.envelope_bounds {s : Replay} (h : s.Bounds) (e : PacingEnvelope) :
    (s.envelope e).Bounds ∧ s.maxEnvelopeId ≤ (s.envelope e).maxEnvelopeId ∧
      e.ref.id.value ≤ (s.envelope e).maxEnvelopeId := by
  unfold Replay.envelope
  dsimp only
  cases hfind : s.fabric.envelopes.find e.ref.id with
  | some slot =>
    obtain ⟨i, hi⟩ := EnvelopeTable.index_of_find hfind
    exact ⟨h, UInt64.le_refl _, h _ i hi⟩
  | none =>
    obtain ⟨hold, hnew⟩ := le_max s.maxEnvelopeId e.ref.id.value
    refine ⟨fun v i hv => ?_, hold, hnew⟩
    dsimp only [EnvelopeTable.insert] at hv
    by_cases hid : v = e.ref.id.value
    · rw [hid]
      exact hnew
    · rw [Function.update_of_ne hid] at hv
      exact UInt64.le_trans (h v i hv) hold

/-- No other record moves the index or the highest identity. -/
theorem Replay.record_index {s : Replay} (nonce : UInt64) (record : DurableRecord)
    (htype : record.type ≠ .envelope) :
    (Replay.record nonce s record).fabric.envelopes.index = s.fabric.envelopes.index ∧
      (Replay.record nonce s record).maxEnvelopeId = s.maxEnvelopeId := by
  unfold Replay.record
  cases hrecord : record.type with
  | envelope => exact absurd hrecord htype
  | envelopeRevocation =>
    simp only [Replay.revocation]
    repeat' split
    all_goals exact ⟨rfl, rfl⟩
  | attempt =>
    simp only [Replay.attempt]
    repeat' split
    all_goals exact ⟨rfl, rfl⟩
  | _ =>
    dsimp only
    repeat' split
    all_goals exact ⟨rfl, rfl⟩

/-- One record. -/
theorem Replay.record_bounds {s : Replay} (h : s.Bounds) (nonce : UInt64)
    (record : DurableRecord) :
    (Replay.record nonce s record).Bounds ∧
      s.maxEnvelopeId ≤ (Replay.record nonce s record).maxEnvelopeId ∧
      ∀ e, Replay.envelopeOf record = some e →
        e.ref.id.value ≤ (Replay.record nonce s record).maxEnvelopeId := by
  -- records of the other types leave the table and its maximum alone
  by_cases htype : record.type = .envelope
  · have hdecoded : Replay.envelopeOf record = decodePayload decodeEnvelope record.payload :=
      if_pos htype
    rw [hdecoded]
    unfold Replay.record
    rw [htype]
    dsimp only
    generalize decodePayload decodeEnvelope record.payload = decoded
    cases decoded with
    | none => exact ⟨h, UInt64.le_refl _, fun _ h => by cases h⟩
    | some e =>
      obtain ⟨hbounds, hle, hid⟩ := Replay.envelope_bounds (s := { s with fabric := { s.fabric with
        storage := { s.fabric.storage with
          sequence := max s.fabric.storage.sequence record.sequence } } }) h e
      refine ⟨hbounds, hle, fun e' he' => ?_⟩
      obtain rfl := Option.some.inj he'
      exact hid
  · obtain ⟨hindex, hmax⟩ := Replay.record_index (s := s) nonce record htype
    refine ⟨?_, hmax ▸ UInt64.le_refl _, fun e he => ?_⟩
    · unfold Replay.Bounds
      rw [hindex, hmax]
      exact h
    · rw [Replay.envelopeOf, if_neg htype] at he
      cases he

/-- A replay remembers the highest identity of all its records. -/
theorem Replay.foldl_bounds (nonce : UInt64) (records : List DurableRecord) {s : Replay}
    (h : s.Bounds) :
    s.maxEnvelopeId ≤ (records.foldl (Replay.record nonce) s).maxEnvelopeId ∧
      ∀ record ∈ records, ∀ e, Replay.envelopeOf record = some e →
        e.ref.id.value ≤ (records.foldl (Replay.record nonce) s).maxEnvelopeId := by
  induction records generalizing s with
  | nil => exact ⟨UInt64.le_refl _, nofun⟩
  | cons record rest ih =>
    obtain ⟨hbounds, hle, hid⟩ := Replay.record_bounds h nonce record
    obtain ⟨hrest, hmem⟩ := ih hbounds
    refine ⟨UInt64.le_trans hle hrest, fun r hr e he => ?_⟩
    rcases List.mem_cons.1 hr with rfl | hr
    · exact UInt64.le_trans (hid e he) hrest
    · exact hmem r hr e he

namespace Fabric

/-- A recovery that succeeds mints above every envelope record. -/
theorem recover_above (henv : f.envelopes = {}) (records : List DurableRecord)
    (hok : (f.recover a records).1.isOk = true) :
    ∀ record ∈ records, ∀ e, Replay.envelopeOf record = some e →
      e.ref.id.value ≤ (f.recover a records).2.envelopeIds.counter := by
  obtain ⟨-, hids⟩ := Replay.foldl_bounds (nonZeroNonce (a.nonce 1)) records
    (s := { fabric := f.beginRecovery a records }) (by
      intro v i hv
      rw [show (f.beginRecovery a records).envelopes = {} from henv] at hv
      cases hv)
  intro record hmem e he
  refine UInt64.le_trans (hids record hmem e he) ?_
  obtain ⟨_, _, _, -, -, heq⟩ := (recover_recovers a f records).isOk a hok
  rw [heq]
  exact IdMinter.floor_le _ _

/-- A start over files that hold the highest identity runs above it. -/
theorem initializeFabric_above {config : FabricConfig} {disk : Disk} {ids : List UInt64}
    (hhighest : ∀ store disk', DurableStore.openStore config.limits disk a.files.opening =
      (.ok store, disk') → ∀ id ∈ ids, ∃ record ∈ store.recovered, ∃ e,
        Replay.envelopeOf record = some e ∧ id ≤ e.ref.id.value)
    (huses : usesDirectory config = true) :
    ((construct config disk).initializeFabric a).2.Above ids := by
  intro hrun id hid
  rcases initializeFabric_cases a config disk with ⟨_, _, _, _, _, _, _, heq, hstopped⟩ |
    ⟨store, disk', _, _, running, hopen, hok, heq⟩
  · rw [heq] at hrun
    rw [hstopped huses] at hrun
    cases hrun
  · rw [heq] at hrun ⊢
    -- the counter is set to the highest identity the replay has met
    obtain ⟨record, hmem, e, he, hle⟩ := hhighest store disk' hopen id hid
    exact UInt64.le_trans hle (recover_above (f := opened a config disk' store) rfl
      store.recovered (hok hrun) record hmem e he)

end Fabric

/-! ### Incarnations -/

/-- Incarnations over one durable directory, with the identities their derivations returned;
`keeps` restricts the restarts. -/
def minting (keeps : FabricConfig → Answers → Fabric × List UInt64 → Prop) :
    Program (Fabric × List UInt64) Call Request Answers where
  begin := Call.begin
  step s a k :=
    (((Call.step s.1 a k).1, s.2 ++ k.returned (Call.step s.1 a k).2), (Call.step s.1 a k).2)
  restarts s s' := ∃ config a, Fabric.usesDirectory config = true ∧ keeps config a s ∧
    s' = (((Fabric.construct config s.1.storage.disk).initializeFabric a).2, s.2)

/-- The records the start loads hold an envelope at or above every identity returned. -/
def keepsHighest (config : FabricConfig) (a : Answers) (s : Fabric × List UInt64) : Prop :=
  ∀ store disk', DurableStore.openStore config.limits s.1.storage.disk a.files.opening =
    (.ok store, disk') → ∀ id ∈ s.2, ∃ record ∈ store.recovered, ∃ e,
      Replay.envelopeOf record = some e ∧ id ≤ e.ref.id.value

/-- A derivation finds the counter below the top of its range. -/
def mintsEnvelopes (c : Config (Fabric × List UInt64) Call) : Event Call Request Answers → Prop
  | .move _ k _ => k.mintsEnvelope = true → c.shared.1.envelopeIds.counter ≠ Checked.u64Max
  | _ => True

/-- The same, and no file operation fails. -/
def mintsDurably (c : Config (Fabric × List UInt64) Call) (e : Event Call Request Answers) :
    Prop :=
  mintsEnvelopes c e ∧ ∀ i k a, e = .move i k a → a.files.Succeeds

theorem mintsDurably_restart (c : Config (Fabric × List UInt64) Call) :
    mintsDurably c .restart :=
  ⟨trivial, fun _ _ _ h => by cases h⟩

/-- Every file operation of the start succeeds. -/
def startsDurably (_ : FabricConfig) (a : Answers) (_ : Fabric × List UInt64) : Prop :=
  a.files.Succeeds

/-- No two envelopes returned over any number of restarts share an identity, if each restart
still finds the highest. -/
theorem envelopes_distinct {w : Config (Fabric × List UInt64) Call} {n : ℕ}
    (h : Run (minting keepsHighest) mintsEnvelopes (.idle (Fabric.construct {} {}, [])) n w) :
    w.shared.2.Nodup := by
  suffices hinv : w.shared.1.Above w.shared.2 ∧ w.shared.2.Nodup from hinv.2
  refine h.invariant (I := fun w => w.shared.1.Above w.shared.2 ∧ w.shared.2.Nodup)
    ⟨fun _ => nofun, List.nodup_nil⟩ ?_
  rintro c e c' ⟨habove, hdistinct⟩ hok hs
  cases hs with
  | start free => exact ⟨habove, hdistinct⟩
  | move here => exact Call.step_distinct habove hdistinct hok
  | restart hr =>
    -- the counter is rebuilt from the records that this start loads
    obtain ⟨config, a, huses, hkeeps, rfl⟩ := hr
    exact ⟨Fabric.initializeFabric_above hkeeps huses, hdistinct⟩

/-! ### A restart that forgets -/

namespace Scenario

/-- Room for one envelope, and a checkpoint every three records. -/
def narrow : FabricConfig where
  durableDirectory := [100]
  limits := { maxEnvelopes := 1, maxJournalRecords := 3 }

/-- Answers to a start, whose recovery reads the clock no earlier than before. -/
def starting : Answers := { answers with recoverNow := answers.now }

/-- The next incarnation over the files of `s`. -/
def restarted (config : FabricConfig) (s : Fabric × List UInt64) : Fabric × List UInt64 :=
  (((Fabric.construct config s.1.storage.disk).initializeFabric starting).2, s.2)

def bindAnother (flow : UInt64) : List (Action Request Answers) :=
  calls 0 (.bindFlow { binding with flow := ⟨flow⟩ }) 4

/-- One envelope is returned, and the refusal of a second evicts it. -/
def evicting : List (Action Request Answers) :=
  calls 0 (.publishPolicy policy) 4 ++ calls 0 (.bindFlow binding) 4 ++
    calls 0 (.deriveEnvelope ⟨1⟩) 11 ++ calls 0 (.deriveEnvelope ⟨1⟩) 11

/-- The first incarnation: after the eviction, the next checkpoint drops the envelope. -/
def forgetful : Config (Fabric × List UInt64) Call :=
  (minting startsDurably).exec (.idle (restarted narrow (Fabric.construct {} {}, [])))
    (evicting ++ bindAnother 2 ++ bindAnother 3)

/-- The second incarnation derives once. -/
def forgotten : Config (Fabric × List UInt64) Call :=
  (minting startsDurably).exec (.idle (restarted narrow forgetful.shared))
    (calls 0 (.deriveEnvelope ⟨1⟩) 11)

def mintsShort (c : Config (Fabric × List UInt64) Call) : Event Call Request Answers → Bool
  | .move _ k _ => !k.mintsEnvelope || c.shared.1.envelopeIds.counter != Checked.u64Max
  | _ => true

theorem mintsEnvelopes_of_mintsShort (c : Config (Fabric × List UInt64) Call)
    (e : Event Call Request Answers) (h : mintsShort c e = true) : mintsEnvelopes c e := by
  cases e with
  | move i k a =>
    intro hmints
    simpa [mintsShort, hmints] using h
  | _ => trivial

theorem answers_calls {i thread n : ℕ} {a : Answers} {request : Request}
    (h : .move i a ∈ calls thread request n) : a = answers := by
  rcases List.mem_cons.1 h with h | h
  · cases h
  · exact (Action.move.inj (List.eq_of_mem_replicate h)).2

theorem succeeds_answers : answers.files.Succeeds := ⟨rfl, fun _ => rfl, fun _ => rfl⟩

/-- A run of calls whose file operations succeed. -/
theorem run_durably {keeps : FabricConfig → Answers → Fabric × List UInt64 → Prop}
    {s : Fabric × List UInt64} {schedule : List (Action Request Answers)}
    (hanswers : ∀ i a, .move i a ∈ schedule → a = answers)
    (h : (minting keeps).allows mintsShort (.idle s) schedule = true) :
    ∃ n, Run (minting keeps) mintsDurably (.idle s) n ((minting keeps).exec (.idle s) schedule) :=
  @Program.run_of_tested _ _ _ _ _ _ (fun a : Answers => a.files.Succeeds) _
    (fun c e hok hgood => ⟨mintsEnvelopes_of_mintsShort c e hok, hgood⟩) schedule
    (fun i a hmem => hanswers i a hmem ▸ succeeds_answers) _ h

theorem restart_restarted {keeps : FabricConfig → Answers → Fabric × List UInt64 → Prop}
    {c : Config (Fabric × List UInt64) Call} {config : FabricConfig}
    (huses : Fabric.usesDirectory config = true) (hkeeps : keeps config starting c.shared) :
    Step (minting keeps) c .restart (.idle (restarted config c.shared)) :=
  .restart ⟨config, starting, huses, hkeeps, rfl⟩

/-- What the start loads holds the highest identity, as a test. -/
def findsHighest (config : FabricConfig) (s : Fabric × List UInt64) : Bool :=
  match (DurableStore.openStore config.limits s.1.storage.disk starting.files.opening).1 with
  | .error _ => true
  | .ok store => s.2.all fun id => store.recovered.any fun record =>
      (Replay.envelopeOf record).any fun e => decide (id ≤ e.ref.id.value)

theorem keepsHighest_of_findsHighest {config : FabricConfig} {s : Fabric × List UInt64}
    (h : findsHighest config s = true) : keepsHighest config starting s := by
  intro store disk' hopen id hid
  unfold findsHighest at h
  rw [hopen] at h
  obtain ⟨record, hmem, hrecord⟩ := List.any_eq_true.1 (List.all_eq_true.1 h id hid)
  cases he : Replay.envelopeOf record with
  | none => simp [he] at hrecord
  | some e => exact ⟨record, hmem, e, he, by simpa [he] using hrecord⟩

/-- An incarnation that derives once, and the next over its files. -/
def remembered : Config (Fabric × List UInt64) Call :=
  (minting keepsHighest).exec (.idle (restarted journaling (Fabric.construct {} {}, [])))
    (calls 0 (.publishPolicy policy) 4 ++ calls 0 (.bindFlow binding) 4 ++
      calls 0 (.deriveEnvelope ⟨1⟩) 11)

def rememberedAgain : Config (Fabric × List UInt64) Call :=
  (minting keepsHighest).exec (.idle (restarted journaling remembered.shared))
    (calls 0 (.deriveEnvelope ⟨1⟩) 11)

end Scenario

/-- Two incarnations whose files keep their envelopes. -/
theorem envelopes_distinct_twoIncarnations :
    Scenario.rememberedAgain.shared.2.length = 2 ∧ Scenario.rememberedAgain.shared.2.Nodup := by
  obtain ⟨n, hn⟩ := @Scenario.run_durably keepsHighest
    (Scenario.restarted Scenario.journaling (Fabric.construct {} {}, []))
    (Scenario.calls 0 (.publishPolicy Scenario.policy) 4 ++
      Scenario.calls 0 (.bindFlow Scenario.binding) 4 ++
      Scenario.calls 0 (.deriveEnvelope ⟨1⟩) 11)
    (fun i a hmem => by
      simp only [List.mem_append] at hmem
      rcases hmem with (hmem | hmem) | hmem <;> exact Scenario.answers_calls hmem)
    (by decide +kernel)
  obtain ⟨m, hm⟩ := @Scenario.run_durably keepsHighest
    (Scenario.restarted Scenario.journaling Scenario.remembered.shared)
    (Scenario.calls 0 (.deriveEnvelope ⟨1⟩) 11)
    (fun i a hmem => Scenario.answers_calls hmem) (by decide +kernel)
  have hfirst : Step (minting keepsHighest) (.idle (Fabric.construct {} {}, [])) .restart _ :=
    @Scenario.restart_restarted _ _ Scenario.journaling (by decide) (fun _ _ _ => nofun)
  have hsecond : Step (minting keepsHighest) Scenario.remembered .restart _ :=
    @Scenario.restart_restarted _ _ Scenario.journaling (by decide)
      (Scenario.keepsHighest_of_findsHighest (by decide +kernel))
  have hrun := ((Run.zero.succ trivial hfirst).trans (hn.mono fun _ _ h => h.1)).succ trivial
    hsecond
  exact ⟨by decide +kernel, envelopes_distinct (hrun.trans (hm.mono fun _ _ h => h.1))⟩

/-- With every file operation successful, the second incarnation returns the identity of the
first again. -/
theorem envelope_reused :
    ∃ n w, Run (minting startsDurably) mintsDurably (.idle (Fabric.construct {} {}, [])) n w ∧
      ¬ w.shared.2.Nodup := by
  obtain ⟨n, hn⟩ := @Scenario.run_durably startsDurably
    (Scenario.restarted Scenario.narrow (Fabric.construct {} {}, []))
    (Scenario.evicting ++ Scenario.bindAnother 2 ++ Scenario.bindAnother 3)
    (fun i a hmem => by
      simp only [Scenario.evicting, Scenario.bindAnother, List.mem_append] at hmem
      rcases hmem with ((((hmem | hmem) | hmem) | hmem) | hmem) | hmem <;>
        exact Scenario.answers_calls hmem)
    (by decide +kernel)
  obtain ⟨m, hm⟩ := @Scenario.run_durably startsDurably
    (Scenario.restarted Scenario.narrow Scenario.forgetful.shared)
    (Scenario.calls 0 (.deriveEnvelope ⟨1⟩) 11)
    (fun i a hmem => Scenario.answers_calls hmem) (by decide +kernel)
  have hfirst : Step (minting startsDurably) (.idle (Fabric.construct {} {}, [])) .restart _ :=
    @Scenario.restart_restarted _ _ Scenario.narrow (by decide) Scenario.succeeds_answers
  have hsecond : Step (minting startsDurably) Scenario.forgetful .restart _ :=
    @Scenario.restart_restarted _ _ Scenario.narrow (by decide) Scenario.succeeds_answers
  refine ⟨_, Scenario.forgotten,
    (((Run.zero.succ (mintsDurably_restart _) hfirst).trans hn).succ (mintsDurably_restart _)
      hsecond).trans hm, ?_⟩
  rw [show Scenario.forgotten.shared.2 = [1, 1] by decide +kernel]
  decide

end Pacing
