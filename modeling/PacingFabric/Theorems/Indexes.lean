import PacingFabric.Theorems.InFlight
import PacingFabric.Theorems.Pending

/-!
# The indexes of the tables

The table of envelopes and the ledger of attempts are vectors whose positions the indexes
share. Every step of a run keeps the indexes exact, as long as no derivation mints the
identity of a live envelope and no restart loads records of one attempt that name different
envelopes: replay overwrites the record of the attempt and leaves it where it was filed.

## Main definitions

* `EnvelopeTable.Indexed`: the index is the inverse of the table, and dead slots are counted.
* `AttemptLedger.Filed`: each attempt is listed once, by the envelope of its record.
* `FiledAlike`: the first and the last record of an attempt name one envelope.

## Main results

* `tables_indexed`: the indexes are exact in every state of such a run.
* `attempt_misfiled`: an attempt that the envelope of its record does not list.
-/

namespace Pacing

open Interleaving LastIndex

/-! ### The table of envelopes -/

namespace EnvelopeTable

variable {t t' : EnvelopeTable} {i : ℕ}

/-- The rebuilt index of a table without dead slots. -/
theorem indexes_reindex (key : EnvelopeEntry → UInt64) {xs : List EnvelopeEntry}
    (hlive : ∀ e ∈ xs, e.live = true) : Indexes (marks (·.live) key xs) (reindex key xs) := by
  induction xs using List.reverseRecOn with
  | nil => exact Indexes.nil
  | append_singleton xs x ih =>
    have hx : x.live = true := hlive x (List.mem_append_right _ (List.mem_singleton_self x))
    have hxs := ih fun e he => hlive e (List.mem_append_left _ he)
    rw [reindex_concat, marks_concat, hx, if_pos rfl, ← length_marks (·.live) key xs]
    exact hxs.concat _

theorem indexes_compact (key : EnvelopeEntry → UInt64) (t : EnvelopeTable) :
    Indexes (marks (·.live) key t.compact.entries) (reindex key t.compact.entries) :=
  indexes_reindex key fun _ he => (List.mem_filter.1 he).2

theorem marks_insert (key : EnvelopeEntry → UInt64) (t : EnvelopeTable)
    (envelope : PacingEnvelope) : marks (·.live) key (t.insert envelope).entries =
      marks (·.live) key t.entries ++ [some (key { envelope := envelope })] :=
  marks_concat _

theorem marks_evict (key : EnvelopeEntry → UInt64) (t : EnvelopeTable) (i : ℕ)
    (candidate : EnvelopeEntry) : marks (·.live) key (t.evict i candidate).entries =
      (marks (·.live) key t.entries).set i none :=
  marks_set_dead rfl

/-- The index is the inverse of the table, and the dead slots are counted. -/
def Indexed (t : EnvelopeTable) : Prop := Exact t.slotIds t.index t.dead

theorem indexed_empty : ({} : EnvelopeTable).Indexed := Exact.nil

theorem Restamped.indexed (h : Restamped t t') (ht : t.Indexed) : t'.Indexed := by
  unfold Indexed slotIds
  rw [h.index, h.dead, h.marks_eq (·.ref.id.value)]
  exact ht

/-- A slot is written under its own identity. -/
theorem Indexed.set (h : t.Indexed) {e x : EnvelopeEntry} (he : t.entries[i]? = some e)
    (hlive : x.live = e.live) (hid : x.envelope.ref.id = e.envelope.ref.id) :
    Indexed { t with entries := t.entries.set i x } := by
  have hmarks : marks (·.live) (·.envelope.ref.id.value) (t.entries.set i x) = t.slotIds := by
    unfold slotIds marks
    refine SlotTable.map_key_set he ?_
    simp only [hlive, hid]
  unfold Indexed slotIds
  rw [hmarks]
  exact h

theorem Indexed.map (h : t.Indexed) {g : EnvelopeEntry → EnvelopeEntry}
    (hg : ∀ e, slot (g e) = slot e) : Indexed { t with entries := t.entries.map g } :=
  (Restamped.map hg).indexed h

theorem Indexed.insert (h : t.Indexed) {envelope : PacingEnvelope}
    (hfresh : ∀ e ∈ t.entries, e.live = true →
      e.envelope.ref.id.value ≠ envelope.ref.id.value) : (t.insert envelope).Indexed := by
  unfold Indexed slotIds
  rw [marks_insert]
  dsimp only [EnvelopeTable.insert]
  rw [← length_marks (·.live) (·.envelope.ref.id.value) t.entries]
  refine Exact.concat h fun j hj => ?_
  obtain ⟨e, he, hlive, hid⟩ := getElem?_marks.1 hj
  exact hfresh e (List.mem_of_getElem? he) hlive hid

theorem Indexed.evict (h : t.Indexed) {candidate : EnvelopeEntry}
    (hi : t.entries[i]? = some candidate) (hlive : candidate.live = true) :
    (t.evict i candidate).Indexed := by
  unfold Indexed slotIds
  rw [marks_evict]
  exact Exact.clear h (getElem?_marks.2 ⟨candidate, hi, hlive, rfl⟩)

theorem Indexed.compact (h : t.Indexed) : t.compact.Indexed :=
  Exact.filter h (indexes_compact _ t)

/-- What a look-up does not find has no live slot. -/
theorem Indexed.fresh (h : t.Indexed) {id : EnvelopeId} (hnone : t.find id = none) :
    ∀ e ∈ t.entries, e.live = true → e.envelope.ref.id.value ≠ id.value := by
  intro e he hlive hid
  obtain ⟨j, hj⟩ := List.getElem?_of_mem he
  have hindex : t.index id.value = some j :=
    (Exact.eq_some_iff h).2 (getElem?_marks.2 ⟨e, hj, hlive, hid⟩)
  unfold find at hnone
  simp [hindex, hj, hlive] at hnone

/-- What a look-up finds is live and has the identity. -/
theorem Indexed.of_find (h : t.Indexed) {id : EnvelopeId} {e : EnvelopeEntry}
    (hfind : t.find id = some (i, e)) : t.entries[i]? = some e ∧ e.envelope.ref.id = id := by
  obtain ⟨hi, -⟩ := getElem?_of_find hfind
  have hindex : t.index id.value = some i := by
    obtain ⟨j, hj⟩ := index_of_find hfind
    unfold find at hfind
    rw [hj] at hfind
    dsimp only at hfind
    split at hfind
    · cases hfind
    · split at hfind
      · rw [hj, (Prod.mk.inj (Option.some.inj hfind)).1]
      · cases hfind
  obtain ⟨x, hx, -, hid⟩ := getElem?_marks.1 ((Exact.eq_some_iff h).1 hindex)
  obtain rfl := Option.some.inj (hi.symm.trans hx)
  exact ⟨hi, Id.ext hid⟩

end EnvelopeTable

namespace Fabric

variable {f : Fabric}

theorem evictAndCompact_indexed (h : f.envelopes.Indexed) :
    f.evictAndCompact.envelopes.Indexed := by
  have hcompact : f.compactTables.envelopes.Indexed := by
    unfold compactTables
    dsimp only
    split
    · exact h.compact
    · exact h
  rcases f.evictAndCompact_envelopes with ⟨i, e, hvictim, heq⟩ | ⟨-, hsame⟩
  · obtain ⟨hi, hevictable⟩ := victim_some hvictim
    rw [heq]
    exact hcompact.evict hi (Bool.and_eq_true_iff.1 hevictable).1
  · exact hsame.indexed hcompact

/-- Eviction and compaction add no live envelope. -/
theorem live_of_evictAndCompact {e : EnvelopeEntry}
    (he : e ∈ f.evictAndCompact.envelopes.entries) (hlive : e.live = true) :
    ∃ x ∈ f.envelopes.entries, x.live = true ∧ x.envelope = e.envelope := by
  have hcompact : ∀ x ∈ f.compactTables.envelopes.entries, x ∈ f.envelopes.entries := by
    unfold compactTables
    dsimp only
    split
    · exact fun x hx => List.mem_of_mem_filter hx
    · exact fun x hx => hx
  rcases f.evictAndCompact_envelopes with ⟨i, c, hvictim, heq⟩ | ⟨-, hsame⟩
  · rw [heq] at he
    rcases List.mem_or_eq_of_mem_set he with he | rfl
    · exact ⟨e, hcompact e he, hlive, rfl⟩
    · cases hlive
  · have hmem := List.mem_map_of_mem (f := EnvelopeTable.slot) he
    rw [hsame.slots] at hmem
    obtain ⟨x, hx, hslot⟩ := List.mem_map.1 hmem
    obtain ⟨hxlive, hxenvelope⟩ := Prod.mk.inj hslot
    exact ⟨x, hcompact x hx, hxlive.trans hlive, hxenvelope⟩

end Fabric

/-- A derivation that finds room mints an identity that no live envelope has. -/
def mintsFresh (f : Fabric) (a : Answers) : Call → Prop
  | .derive inputs now => f.reachesTable a inputs now → ¬ f.tableFull →
      ∀ e ∈ f.envelopes.entries, e.live = true →
        e.envelope.ref.id.value ≠ f.envelopeIds.counter + 1
  | _ => True

theorem SlotStep.indexed {f : Fabric} {a : Answers} {k : Call} {t : EnvelopeTable}
    (h : SlotStep f a k t) (hf : f.envelopes.Indexed) (hfresh : mintsFresh f a k) :
    t.Indexed := by
  cases h with
  | restamped same => exact same.indexed hf
  | evicted => exact Fabric.evictAndCompact_indexed hf
  | inserted inputs now envelope call reaches room answer =>
    subst call
    refine (Fabric.evictAndCompact_indexed hf).insert fun e he hlive => ?_
    obtain ⟨x, hx, hxlive, henvelope⟩ := Fabric.live_of_evictAndCompact he hlive
    obtain ⟨-, hid, -⟩ := (Fabric.deriveEnvelope_mints (f := f) (a := a) inputs now).2 envelope
      answer
    rw [← henvelope, hid]
    exact hfresh reaches room x hx hxlive

/-! ### The ledger of attempts -/

namespace AttemptLedger

variable {l l' : AttemptLedger}

/-- The envelope that the record of an attempt names. -/
def envelopeOf (l : AttemptLedger) (id : AttemptId) : Option UInt64 :=
  (l.record id).map (·.envelope.id.value)

/-- Each attempt is listed once, by the envelope its record names. -/
def Filed (l : AttemptLedger) : Prop :=
  ∀ v id, (l.byEnvelope v).count id = if l.envelopeOf id = some v then 1 else 0

theorem filed_empty : ({} : AttemptLedger).Filed := fun _ _ => rfl

theorem Filed.of_eq (h : l.Filed) (hindex : l'.byEnvelope = l.byEnvelope)
    (henvelope : ∀ id, l'.envelopeOf id = l.envelopeOf id) : l'.Filed := by
  intro v id
  rw [hindex, henvelope]
  exact h v id

theorem count_byEnvelope_insert (r : ApplicationRecord) (v : UInt64) (id : AttemptId) :
    ((l.insert r).byEnvelope v).count id = (l.byEnvelope v).count id +
      if r.attempt = id ∧ r.envelope.id.value = v then 1 else 0 := by
  dsimp only [AttemptLedger.insert]
  by_cases hv : v = r.envelope.id.value
  · subst hv
    rw [Function.update_self, List.count_append, List.count_singleton]
    simp
  · rw [Function.update_of_ne hv, if_neg fun h => hv h.2.symm]
    rfl

theorem envelopeOf_insert (hwf : l.WellFormed) {r : ApplicationRecord}
    (hfresh : l.record r.attempt = none) (id : AttemptId) : (l.insert r).envelopeOf id =
      if r.attempt = id then some r.envelope.id.value else l.envelopeOf id := by
  unfold envelopeOf
  rw [record_insert hwf hfresh]
  by_cases hid : id = r.attempt
  · rw [hid, Function.update_self, if_pos rfl]
    rfl
  · rw [Function.update_of_ne hid, if_neg (Ne.symm hid)]

theorem Filed.insert (h : l.Filed) (hwf : l.WellFormed) {r : ApplicationRecord}
    (hfresh : l.record r.attempt = none) : (l.insert r).Filed := by
  intro v id
  rw [count_byEnvelope_insert, envelopeOf_insert hwf hfresh, h v id]
  by_cases hid : r.attempt = id
  · subst hid
    have hnone : l.envelopeOf r.attempt = none := by
      unfold envelopeOf
      rw [hfresh]
      rfl
    rw [hnone, if_neg nofun, if_pos rfl, Nat.zero_add]
    simp
  · have hother : ¬(r.attempt = id ∧ r.envelope.id.value = v) := fun h => hid h.1
    rw [if_neg hid, if_neg hother, Nat.add_zero]

/-- A live attempt is listed once, and by the envelope of its record. -/
theorem Filed.count_eq (h : l.Filed) (hwf : l.WellFormed) {e : AttemptEntry}
    (he : e ∈ l.entries) (v : UInt64) : (l.byEnvelope v).count e.record.attempt =
      if v = e.record.envelope.id.value then 1 else 0 := by
  obtain ⟨i, hi⟩ := List.getElem?_of_mem he
  have hof : l.envelopeOf e.record.attempt = some e.record.envelope.id.value := by
    unfold envelopeOf
    rw [hwf.record_of_getElem? hi]
    rfl
  rw [h v, hof]
  simp [eq_comm]

end AttemptLedger

/-- Every step of a call files attempts as their records say. -/
theorem AttemptLedger.Filed.step {f : Fabric} {a : Answers} (h : f.attempts.Filed)
    (hwf : f.attempts.WellFormed) (k : Call) : (Call.step f a k).1.attempts.Filed := by
  obtain ⟨hwf', hmoves⟩ := Call.step_moves hwf a k
  by_cases hk : ∀ p, k ≠ .reserve p
  · refine h.of_eq (Call.step_byEnvelope k hk) fun id => ?_
    unfold AttemptLedger.envelopeOf
    have hmove := hmoves id
    cases hr' : (Call.step f a k).1.attempts.record id with
    | some r' =>
      rw [hr'] at hmove
      obtain ⟨r, hr, hsame⟩ := hmove.origin hk
      rw [hr, Option.map_some, Option.map_some, hsame.envelope]
    | none =>
      cases hr : f.attempts.record id with
      | none => rfl
      | some r =>
        rw [hr', hr] at hmove
        obtain ⟨r', hsome⟩ := hmove.isSome
        cases hsome
  · obtain ⟨p, rfl⟩ : ∃ p, k = .reserve p := by simpa using hk
    by_cases hx : ∃ x, (Call.step f a (.reserve p)).2 = some (.install x)
    · obtain ⟨x, hx⟩ := hx
      obtain ⟨hfresh, hatt, -⟩ := reserve_installs hwf hx
      rw [hatt]
      exact h.insert hwf hfresh
    · rw [reserve_declines hwf (by simpa using hx)]
      exact h

/-! ### Starts -/

/-- Of each attempt the first and the last record name one envelope. -/
def FiledAlike (records : List ApplicationRecord) : Prop :=
  ∀ id, (records.find? (·.attempt == id)).map (·.envelope.id.value) =
    (records.reverse.find? (·.attempt == id)).map (·.envelope.id.value)

namespace AttemptLedger

/-- Replay lists an attempt where its first record says, and keeps its last record. -/
theorem foldl_replayed_files (records : List ApplicationRecord) :
    (∀ id, (records.foldl replayed {}).envelopeOf id =
        (records.reverse.find? (·.attempt == id)).map (·.envelope.id.value)) ∧
      ∀ v id, ((records.foldl replayed {}).byEnvelope v).count id =
        if (records.find? (·.attempt == id)).map (·.envelope.id.value) = some v then 1 else 0 := by
  induction records using List.reverseRecOn with
  | nil => exact ⟨fun _ => rfl, fun _ _ => rfl⟩
  | append_singleton records r ih =>
    obtain ⟨hof, hcount⟩ := ih
    obtain ⟨hwf, -⟩ := foldl_replayed_named records
    rw [List.foldl_append, List.foldl_cons, List.foldl_nil]
    generalize records.foldl replayed {} = l at hof hcount hwf ⊢
    -- the ledger has a record of the attempt exactly when an earlier one was replayed
    have hknown : l.record r.attempt = none ↔ records.find? (·.attempt == r.attempt) = none := by
      have hmap := congrArg Option.isSome (hof r.attempt)
      unfold envelopeOf at hmap
      rw [Option.isSome_map, Option.isSome_map, Bool.eq_iff_iff, List.find?_isSome] at hmap
      rw [← Option.not_isSome_iff_eq_none, ← Option.not_isSome_iff_eq_none, hmap,
        List.find?_isSome]
      simp only [List.mem_reverse]
    have hlast : ∀ id, (records ++ [r]).reverse.find? (·.attempt == id) =
        if r.attempt = id then some r else records.reverse.find? (·.attempt == id) := fun id => by
      rw [List.reverse_append, List.reverse_singleton, List.singleton_append, List.find?_cons]
      by_cases hid : r.attempt = id
      · rw [if_pos hid, beq_iff_eq.2 hid]
      · rw [if_neg hid, beq_eq_false_iff_ne.2 hid]
    have hfirst : ∀ id, (records ++ [r]).find? (·.attempt == id) =
        (records.find? (·.attempt == id)).or (if r.attempt = id then some r else none) :=
      fun id => by
        rw [List.find?_append, List.find?_singleton]
        by_cases hid : r.attempt = id <;> simp [hid]
    simp only [hlast, hfirst]
    unfold replayed
    cases hfind : l.find r.attempt with
    | none =>
      have hfresh : l.record r.attempt = none := by
        unfold record
        rw [hfind]
        rfl
      refine ⟨fun id => ?_, fun v id => ?_⟩
      · rw [envelopeOf_insert hwf hfresh, hof]
        split <;> rfl
      · rw [count_byEnvelope_insert, hcount]
        by_cases hid : r.attempt = id
        · subst hid
          simp [hknown.1 hfresh]
        · simp [hid]
    | some slot =>
      obtain ⟨he, hslot⟩ := hwf.find_eq_some_iff.1 hfind
      refine ⟨fun id => ?_, fun v id => ?_⟩
      · have hrecord := record_overwrite hwf he hslot.symm
        unfold envelopeOf at hof ⊢
        rw [hrecord, hslot]
        by_cases hid : r.attempt = id
        · rw [← hid, Function.update_self, if_pos rfl]
        · rw [Function.update_of_ne (Ne.symm hid), if_neg hid, hof]
      · have hold : (records.find? (·.attempt == r.attempt)).isSome := by
          rw [Option.isSome_iff_ne_none, ne_eq, ← hknown]
          unfold record
          rw [hfind]
          exact nofun
        refine (hcount v id).trans ?_
        by_cases hid : r.attempt = id
        · subst hid
          rw [Option.or_of_isSome hold]
        · rw [if_neg hid, Option.or_none]

theorem foldl_replayed_filed {records : List ApplicationRecord} (h : FiledAlike records) :
    (records.foldl replayed {}).Filed := by
  obtain ⟨hof, hcount⟩ := foldl_replayed_files records
  intro v id
  rw [hcount, hof, h id]

end AttemptLedger

theorem ApplicationRecord.recovered_envelope (r : ApplicationRecord) :
    r.recovered.envelope = r.envelope := by
  unfold recovered
  split_ifs <;> rfl

/-- Replay keeps the index of the table exact. -/
theorem EnvelopeTable.Replayed.indexed {t t' : EnvelopeTable} (h : Replayed t t')
    (ht : t.Indexed) : t'.Indexed := by
  cases h with
  | same => exact ht
  | inserted envelope new => exact ht.insert (ht.fresh new)
  | rewritten envelope found =>
    obtain ⟨hi, hid⟩ := ht.of_find found
    exact ht.set hi rfl hid.symm
  | revoked id reason found => exact ht.set (ht.of_find found).1 rfl rfl

namespace Fabric

variable {f : Fabric} {a : Answers}

theorem replay_indexed (h : f.envelopes.Indexed) (records : List DurableRecord) :
    (f.replay a records).fabric.envelopes.Indexed :=
  List.foldlRecOn records (Replay.record (nonZeroNonce (a.nonce 1)))
    (motive := fun s : Replay => s.fabric.envelopes.Indexed) h
    fun _ hs record _ => (Replay.record_replayed _ _ record).indexed hs

/-- Both indexes are exact, and attempts are filed as their records say. -/
structure TablesIndexed (f : Fabric) : Prop where
  envelopes : f.envelopes.Indexed
  ledger : f.attempts.WellFormed
  filed : f.attempts.Filed

theorem TablesIndexed.empty (henvelopes : f.envelopes = {}) (hattempts : f.attempts = {}) :
    f.TablesIndexed where
  envelopes := henvelopes ▸ EnvelopeTable.indexed_empty
  ledger := hattempts ▸ AttemptLedger.wellFormed_empty
  filed := hattempts ▸ AttemptLedger.filed_empty

/-- Settling leaves the attempts under the envelopes they were replayed under. -/
theorem settle_indexed (h : f.TablesIndexed) (replay : Replay) :
    (f.settle a replay).TablesIndexed := by
  obtain ⟨hwf, hrecord, -⟩ := settle_ledger a h.ledger replay
  refine ⟨?_, hwf, h.filed.of_eq ?_ fun id => ?_⟩
  · obtain ⟨_, _, _, _, _, _, hsettle⟩ := settle_frame (f := f) a replay
    rw [hsettle]
    refine h.envelopes.map fun e => ?_
    split <;> rfl
  · obtain ⟨_, hturns⟩ := (turns_recoverAttempt a).foldl f.invalidateEnvelopes
    change (f.invalidateEnvelopes.recoverAttempts a).attempts.byEnvelope = _
    rw [recoverAttempts, hturns]
    rfl
  · unfold AttemptLedger.envelopeOf
    rw [hrecord, Option.map_map]
    congr 1
    funext r
    rw [Function.comp_apply, r.recovered_envelope]

/-- Recovery from records that file each attempt under one envelope. -/
theorem recover_indexed (henvelopes : f.envelopes = {}) (hattempts : f.attempts = {})
    {records : List DurableRecord}
    (hfiled : FiledAlike (records.filterMap (Replay.attemptOf f.config.limits))) :
    (f.recover a records).2.TablesIndexed := by
  have hbegun : (f.beginRecovery a records).attempts = {} := hattempts
  have hreplay : ((f.beginRecovery a records).replay a records).fabric.TablesIndexed := by
    refine ⟨replay_indexed ?_ records, (replay_keeps a ?_ records).1, ?_⟩
    · change f.envelopes.Indexed
      rw [henvelopes]
      exact EnvelopeTable.indexed_empty
    · rw [hbegun]
      exact AttemptLedger.wellFormed_empty
    · rw [replay_ledger a hbegun]
      exact AttemptLedger.foldl_replayed_filed hfiled
  have hrecovers := recover_recovers a f records
  generalize f.recover a records = result at hrecovers ⊢
  generalize (f.beginRecovery a records).replay a records = replay at hreplay hrecovers
  cases hrecovers with
  | exhausted => exact ⟨hreplay.envelopes, hreplay.ledger, hreplay.filed⟩
  | @settled _ epoch boot storage =>
    have hsettled := settle_indexed (a := a) (f := { replay.fabric.countRestored with
      epoch := epoch
      boot := boot
      recovery := { replay.fabric.countRestored.recovery with
        epochAfter := epoch, bootAfter := boot } })
      ⟨hreplay.envelopes, hreplay.ledger, hreplay.filed⟩ replay
    exact ⟨hsettled.envelopes, hsettled.ledger, hsettled.filed⟩

/-- A start over the directory recovers records that file each attempt under one envelope. -/
def recoversFiled (config : FabricConfig) (a : Answers) (disk : Disk) : Prop :=
  usesDirectory config = true → ∀ store disk',
    DurableStore.openStore config.limits disk a.files.opening = (.ok store, disk') →
    FiledAlike (store.recovered.filterMap (Replay.attemptOf config.limits))

theorem initializeFabric_indexed {config : FabricConfig} {disk : Disk}
    (hfiled : recoversFiled config a disk) :
    ((construct config disk).initializeFabric a).2.TablesIndexed := by
  by_cases hused : usesDirectory config = true
  · rcases initializeFabric_cases a config disk with ⟨_, _, _, _, _, _, _, heq, -⟩ |
      ⟨store, disk', _, _, _, hopen, -, heq⟩
    · rw [heq]
      exact .empty rfl rfl
    · have hrecovered := recover_indexed (f := opened a config disk' store) (a := a) rfl rfl
        (hfiled hused store disk' hopen)
      rw [heq]
      exact ⟨hrecovered.envelopes, hrecovered.ledger, hrecovered.filed⟩
  · have hunused : (begun a config disk).openDurable a = (.success, begun a config disk) :=
      if_neg hused
    rcases initializeFabric_snd a config disk with heq | heq
    · rw [heq]
      exact .empty rfl rfl
    · rw [heq, hunused]
      exact .empty rfl rfl

end Fabric

/-! ### Runs -/

/-- The coordinator over directories whose records file each attempt under one envelope. -/
def filing : Program Fabric Call Request Answers :=
  { coordinator with
    restarts := fun f f' => ∃ config a, Fabric.recoversFiled config a f.storage.disk ∧
      f' = ((Fabric.construct config f.storage.disk).initializeFabric a).2 }

/-- No derivation that finds room mints the identity of a live envelope. -/
def keepsIndexed (w : World) : Event Call Request Answers → Prop
  | .move _ k a => mintsFresh w.shared a k
  | _ => True

/-- In every run whose derivations mint fresh identities and whose restarts load records that
file each attempt under one envelope: both indexes are the inverses of their tables, the dead
envelopes are counted, and each attempt is listed once, by the envelope of its record. -/
theorem tables_indexed {w : World} {n : ℕ} (h : Run filing keepsIndexed World.initial n w) :
    (∀ id i, w.shared.envelopes.index id = some i ↔ ∃ e, w.shared.envelopes.entries[i]? = some e ∧
        e.live = true ∧ e.envelope.ref.id.value = id) ∧
      (∀ id i, w.shared.attempts.index id = some i ↔ ∃ e, w.shared.attempts.entries[i]? = some e ∧
        e.live = true ∧ e.record.attempt.value = id) ∧
      w.shared.envelopes.dead = w.shared.envelopes.entries.countP (fun e => !e.live) ∧
      ∀ e ∈ w.shared.attempts.entries, e.live = true → ∀ v,
        (w.shared.attempts.byEnvelope v).count e.record.attempt =
          if v = e.record.envelope.id.value then 1 else 0 := by
  have hinv : w.shared.TablesIndexed := by
    refine h.invariant (I := fun w : World => w.shared.TablesIndexed) (.empty rfl rfl) ?_
    intro c ev c' hc hok hs
    cases hs with
    | start free => exact hc
    | @move i k a here =>
      exact ⟨(Call.step_slots k).indexed hc.envelopes hok,
        (Call.step_moves hc.ledger a k).wellFormed, hc.filed.step hc.ledger k⟩
    | restart hr =>
      obtain ⟨config, a, hfiled, rfl⟩ := hr
      exact Fabric.initializeFabric_indexed hfiled
  refine ⟨fun id i => ?_, fun id i => ⟨fun hi => ?_, ?_⟩, ?_, fun e he _ v =>
    hinv.filed.count_eq hinv.ledger he v⟩
  · rw [hinv.envelopes.eq_some_iff, getElem?_marks]
  · obtain ⟨e, he, hid⟩ := hinv.ledger.sound id i hi
    exact ⟨e, he, hinv.ledger.live e (List.mem_of_getElem? he), hid⟩
  · rintro ⟨e, he, -, rfl⟩
    exact hinv.ledger.indexed i e he
  · rw [hinv.envelopes.dead, countP_marks]

/-- Records that all name one envelope. -/
theorem filedAlike_of_all {records : List ApplicationRecord} {envelope : UInt64}
    (h : ∀ r ∈ records, r.envelope.id.value = envelope) : FiledAlike records := by
  intro id
  cases hfirst : records.find? (·.attempt == id) with
  | none =>
    have hlast : records.reverse.find? (·.attempt == id) = none := by
      rw [List.find?_eq_none] at hfirst ⊢
      exact fun r hr => hfirst r (List.mem_reverse.1 hr)
    rw [hlast]
  | some r =>
    have hr := List.mem_of_find?_eq_some hfirst
    have hmatch := List.find?_some hfirst
    obtain ⟨r', hlast⟩ : ∃ r', records.reverse.find? (·.attempt == id) = some r' := by
      rw [← Option.isSome_iff_exists, List.find?_isSome]
      exact ⟨r, List.mem_reverse.2 hr, hmatch⟩
    have hr' := List.mem_reverse.1 (List.mem_of_find?_eq_some hlast)
    rw [hlast, Option.map_some, Option.map_some, h r hr, h r' hr']

namespace Scenario

/-- No derivation mints the identity of a live envelope. -/
def mintingFresh (w : World) : Event Call Request Answers → Bool
  | .move _ (.derive ..) _ => w.shared.envelopes.entries.all fun e =>
      e.envelope.ref.id.value != w.shared.envelopeIds.counter + 1
  | _ => true

theorem keepsIndexed_of_mintingFresh (w : World) (ev : Event Call Request Answers)
    (h : mintingFresh w ev = true) : keepsIndexed w ev := by
  cases ev with
  | start | restart => trivial
  | move i k a =>
    cases k with
    | derive inputs now =>
      intro _ _ e he _
      exact bne_iff_ne.1 (List.all_eq_true.1 h e he)
    | _ => trivial

/-- The attempt records such a start loads all name the first envelope. -/
def recoversFirst (f : Fabric) : Bool :=
  match (DurableStore.openStore journaling.limits f.storage.disk .ok).1 with
  | .ok store => (store.recovered.filterMap (Replay.attemptOf journaling.limits)).all
      fun r => r.envelope.id.value == 1
  | .error _ => true

theorem filing_restarts {f : Fabric} (h : recoversFirst f = true) :
    filing.restarts f (journalingAgain f) := by
  refine ⟨journaling, { answers with recoverNow := answers.now }, fun _ store disk' hopen => ?_,
    rfl⟩
  have hstore : (DurableStore.openStore journaling.limits f.storage.disk .ok).1 = .ok store :=
    congrArg Prod.fst hopen
  unfold recoversFirst at h
  rw [hstore] at h
  exact filedAlike_of_all fun r hr => eq_of_beq (List.all_eq_true.1 h r hr)

/-- An envelope is derived and applied as far as its reservation. -/
def appliedDurably : World :=
  filing.exec (.idle (journalingAgain World.initial.shared)) (setup ++ reserved 1 1 {})

/-- The next incarnation has recovered the attempt. -/
def recoveredDurably : World := .idle (journalingAgain appliedDurably.shared)

end Scenario

/-- An attempt in flight is recovered. -/
theorem tables_indexed_recovered :
    let w := Scenario.recoveredDurably
    (∀ id i, w.shared.envelopes.index id = some i ↔ ∃ e, w.shared.envelopes.entries[i]? = some e ∧
        e.live = true ∧ e.envelope.ref.id.value = id) ∧
      (∀ id i, w.shared.attempts.index id = some i ↔ ∃ e, w.shared.attempts.entries[i]? = some e ∧
        e.live = true ∧ e.record.attempt.value = id) ∧
      w.shared.envelopes.dead = w.shared.envelopes.entries.countP (fun e => !e.live) ∧
      ∀ e ∈ w.shared.attempts.entries, e.live = true → ∀ v,
        (w.shared.attempts.byEnvelope v).count e.record.attempt =
          if v = e.record.envelope.id.value then 1 else 0 := by
  have htest : (filing.allows Scenario.mintingFresh
      (.idle (Scenario.journalingAgain World.initial.shared))
      (Scenario.setup ++ Scenario.reserved 1 1 {}) &&
      Scenario.recoversFirst World.initial.shared &&
      Scenario.recoversFirst Scenario.appliedDurably.shared) = true := by decide +kernel
  rw [Bool.and_eq_true, Bool.and_eq_true] at htest
  obtain ⟨⟨hallows, hfirst⟩, hsecond⟩ := htest
  obtain ⟨n, hn⟩ : ∃ n, Run filing keepsIndexed
      (.idle (Scenario.journalingAgain World.initial.shared)) n Scenario.appliedDurably :=
    Program.run_of_allows Scenario.keepsIndexed_of_mintingFresh _ hallows
  have hrestarts : ∀ w : World, keepsIndexed w .restart := fun _ => trivial
  have hstart : Run filing keepsIndexed World.initial 1
      (.idle (Scenario.journalingAgain World.initial.shared)) :=
    .succ .zero (hrestarts _) (.restart (Scenario.filing_restarts hfirst))
  have hend : Step filing Scenario.appliedDurably .restart Scenario.recoveredDurably :=
    .restart (Scenario.filing_restarts hsecond)
  exact tables_indexed (.succ (hstart.trans hn) (hrestarts _) hend)

namespace Scenario

/-- The first envelope is applied under an identity, but the append of its attempt fails; the
second envelope is then applied under the same identity. -/
def reusing : World :=
  coordinator.exec (.idle (journalingAgain World.initial.shared))
    (setup ++ calls 0 (.deriveEnvelope ⟨1⟩) 11 ++ reserving 1 1 ⟨7⟩ ++ [.move 1 losing] ++
      reserved 2 2 ⟨7⟩)

/-- The next incarnation has replayed both records. -/
def misfiled : World := .idle (journalingAgain reusing.shared)

/-- Some live attempt is not listed by the envelope of its record. -/
def misfiles (l : AttemptLedger) : Bool :=
  l.entries.any fun e => e.live &&
    !(l.byEnvelope e.record.envelope.id.value).contains e.record.attempt

end Scenario

/-- After a restart, an attempt is live and the envelope of its record does not list it. -/
theorem attempt_misfiled :
    ∃ n w, Run coordinator anyStep World.initial n w ∧ w.shared.config.limits.coherent = true ∧
      ∃ e ∈ w.shared.attempts.entries, e.live = true ∧
        (w.shared.attempts.byEnvelope e.record.envelope.id.value).count e.record.attempt = 0 := by
  have hrestart : ∀ w : World, Step coordinator w .restart
      (.idle (Scenario.journalingAgain w.shared)) := fun _ =>
    .restart ⟨Scenario.journaling, { Scenario.answers with
      recoverNow := Scenario.answers.now }, rfl⟩
  obtain ⟨n, hn⟩ : ∃ n, Run coordinator withinIncarnation
      (.idle (Scenario.journalingAgain World.initial.shared)) n Scenario.reusing :=
    coordinator.run_exec _ _
  have hrun : Run coordinator anyStep World.initial (1 + n + 1) Scenario.misfiled :=
    .succ ((Run.succ .zero trivial (hrestart _)).trans (hn.mono fun _ _ _ => trivial)) trivial
      (hrestart _)
  have hmisfiles : (Scenario.misfiles Scenario.misfiled.shared.attempts &&
      Scenario.misfiled.shared.config.limits.coherent) = true := by decide +kernel
  rw [Bool.and_eq_true] at hmisfiles
  obtain ⟨hmisfiles, hcoherent⟩ := hmisfiles
  obtain ⟨e, he, hlive⟩ := List.any_eq_true.1 hmisfiles
  rw [Bool.and_eq_true, Bool.not_eq_true', List.contains_eq_mem, decide_eq_false_iff_not] at hlive
  exact ⟨_, _, hrun, hcoherent, e, he, hlive.1, List.count_eq_zero.2 hlive.2⟩

end Pacing
