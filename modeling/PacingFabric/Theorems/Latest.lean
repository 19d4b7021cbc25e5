import PacingFabric.Model.Explain
import PacingFabric.Theorems.Indexes

/-!
# The latest envelope of a flow

The index of flows names the newest live envelope of each flow that has one, and a
compaction changes nothing that it leads to. An eviction that takes the newest envelope of a
flow and leaves an older one is the exception: the index then forgets the flow.

## Main definitions

* `Fabric.Orphans`: the next eviction leaves a flow with an older envelope alone.
* `derivations`: incarnations with the envelopes their derivations returned.

## Main results

* `latest_newest`: in a run without such an eviction the index is exact.
* `latest_orphaned`: after one, a flow with a live envelope is not in the index.
-/

namespace Pacing

open Interleaving LastIndex

/-! ### The index of flows -/

namespace EnvelopeTable

variable {t t' : EnvelopeTable} {i : ℕ} {flow : FlowId}

/-- Slot `i` holds a live envelope of the flow. -/
def HoldsLive (t : EnvelopeTable) (flow : FlowId) (i : ℕ) : Prop :=
  ∃ e, t.entries[i]? = some e ∧ e.live = true ∧ e.envelope.flow = flow

theorem holdsLive_iff : t.HoldsLive flow i ↔ t.slotFlows[i]? = some (some flow.value) := by
  rw [getElem?_marks]
  refine exists_congr fun e => and_congr_right fun _ => and_congr_right fun _ => ?_
  exact ⟨congrArg Id.value, Id.ext⟩

/-- The index of flows names the last live slot of each flow. -/
def Latest (t : EnvelopeTable) : Prop := Indexes t.slotFlows t.latestByFlow

theorem Latest.eq_some_iff (h : t.Latest) : t.latestByFlow flow.value = some i ↔
    t.HoldsLive flow i ∧ ∀ j, t.HoldsLive flow j → j ≤ i := by
  simp only [holdsLive_iff]
  exact h flow.value i

theorem latest_empty : ({} : EnvelopeTable).Latest := Indexes.nil

theorem Restamped.keepsLatest (h : Restamped t t') (hl : t.Latest) : t'.Latest := by
  unfold Latest slotFlows
  rw [h.latest, h.marks_eq (·.flow.value)]
  exact hl

theorem Latest.insert (h : t.Latest) (envelope : PacingEnvelope) : (t.insert envelope).Latest := by
  unfold Latest slotFlows
  rw [marks_insert]
  dsimp only [EnvelopeTable.insert]
  rw [← length_marks (·.live) (·.envelope.flow.value) t.entries]
  exact Indexes.concat h _

theorem latest_compact (t : EnvelopeTable) : t.compact.Latest := indexes_compact _ t

/-- An eviction keeps the index, unless it takes the newest slot of a flow and leaves an
older one. -/
theorem Latest.evict (h : t.Latest) {candidate : EnvelopeEntry}
    (hi : t.entries[i]? = some candidate) (hlive : candidate.live = true)
    (hnewest : (∃ j < i, t.HoldsLive candidate.envelope.flow j) →
      ∃ j > i, t.HoldsLive candidate.envelope.flow j) : (t.evict i candidate).Latest := by
  unfold Latest slotFlows
  rw [marks_evict]
  have hslot : t.slotFlows[i]? = some (some candidate.envelope.flow.value) :=
    holdsLive_iff.1 ⟨candidate, hi, hlive, rfl⟩
  dsimp only [EnvelopeTable.evict]
  split
  · rename_i hlatest
    have hmax := (h.eq_some_iff.1 hlatest).2
    refine Indexes.clear h (fun j hj => ?_) hslot
    by_contra hne
    -- an older slot of the flow would have a newer one beside the one taken
    have hold := holdsLive_iff.2 hj
    obtain ⟨l, hl, hnew⟩ := hnewest ⟨j, lt_of_le_of_ne (hmax j hold) hne, hold⟩
    exact absurd (hmax l hnew) (not_le.2 hl)
  · rename_i hlatest
    exact h.clear_older hslot hlatest

end EnvelopeTable

/-! ### Steps -/

namespace Fabric

variable {f : Fabric} {a : Answers}

/-- The next eviction takes the newest live envelope of a flow that has an older one. -/
def Orphans (f : Fabric) : Prop :=
  ∃ i e, f.victim = some (i, e) ∧
    (∃ j < i, f.compactTables.envelopes.HoldsLive e.envelope.flow j) ∧
    ∀ j > i, ¬ f.compactTables.envelopes.HoldsLive e.envelope.flow j

theorem compactTables_latest (h : f.envelopes.Latest) : f.compactTables.envelopes.Latest := by
  unfold compactTables
  dsimp only
  split
  · exact EnvelopeTable.latest_compact _
  · exact h

theorem evictAndCompact_latest (h : f.envelopes.Latest) (horphans : ¬ f.Orphans) :
    f.evictAndCompact.envelopes.Latest := by
  have hcompact := compactTables_latest h
  rcases f.evictAndCompact_envelopes with ⟨i, e, hvictim, heq⟩ | ⟨-, hsame⟩
  · obtain ⟨hi, hevictable⟩ := victim_some hvictim
    rw [heq]
    refine hcompact.evict hi (Bool.and_eq_true_iff.1 hevictable).1 fun hold => ?_
    by_contra hnew
    exact horphans ⟨i, e, hvictim, hold, fun j hj hlive => hnew ⟨j, hj, hlive⟩⟩
  · exact hsame.keepsLatest hcompact

/-- Neither eviction nor compaction moves an envelope past another. -/
theorem evictAndCompact_sublist (f : Fabric) :
    (f.evictAndCompact.envelopes.entries.map (·.envelope)).Sublist
      (f.envelopes.entries.map (·.envelope)) := by
  have hcompact : (f.compactTables.envelopes.entries.map (·.envelope)).Sublist
      (f.envelopes.entries.map (·.envelope)) := by
    unfold compactTables
    dsimp only
    split
    · exact List.filter_sublist.map _
    · exact List.Sublist.refl _
  have hsame : f.evictAndCompact.envelopes.entries.map (·.envelope) =
      f.compactTables.envelopes.entries.map (·.envelope) := by
    rcases f.evictAndCompact_envelopes with ⟨i, e, hvictim, heq⟩ | ⟨-, hsame⟩
    · rw [heq]
      exact SlotTable.map_key_set (victim_some hvictim).1 rfl
    · exact hsame.envelopes_eq
  rw [hsame]
  exact hcompact

/-- A compaction does not change what is reported of a flow. -/
theorem explainState_compact (h : f.envelopes.Latest) (flow : FlowId) :
    explainState { f with envelopes := f.envelopes.compact } flow = f.explainState flow := by
  have hlookup := Indexes.bind_filter h (EnvelopeTable.latest_compact f.envelopes) flow.value
  unfold explainState
  dsimp only [EnvelopeTable.compact] at hlookup ⊢
  rw [hlookup]
  rfl

end Fabric

/-! ### Runs -/

/-- The envelopes that were returned so far, in order. -/
def recordDerived (returned : List PacingEnvelope) (f : Fabric) (a : Answers) :
    Call → List PacingEnvelope
  | .derive inputs now =>
    match (f.deriveEnvelope a inputs now).1 with
    | .ok envelope => returned ++ [envelope]
    | .error _ => returned
  | _ => returned

/-- The coordinator with the envelopes its derivations returned. -/
def derivations : Program (Fabric × List PacingEnvelope) Call Request Answers :=
  coordinator.instrument [] recordDerived

/-- The index of flows is exact, and slots are in the order of derivation. -/
structure LatestKept (f : Fabric) (returned : List PacingEnvelope) : Prop where
  latest : f.envelopes.Latest
  order : (f.envelopes.entries.map (·.envelope)).Sublist returned

/-- No eviction that is reached takes the newest live envelope of a flow that has an older
one. -/
def keepsNewest (c : Config (Fabric × List PacingEnvelope) Call) :
    Event Call Request Answers → Prop
  | .move _ k a => c.shared.1.reachesEviction a k → ¬ c.shared.1.Orphans
  | .restart => False
  | .start .. => True

section
variable {f : Fabric} {a : Answers} {returned : List PacingEnvelope}

theorem sublist_recordDerived (returned : List PacingEnvelope) (f : Fabric) (a : Answers)
    (k : Call) : returned.Sublist (recordDerived returned f a k) := by
  unfold recordDerived
  split
  · split
    · exact List.sublist_append_left ..
    · exact List.Sublist.refl _
  · exact List.Sublist.refl _

theorem LatestKept.empty (h : f.envelopes = {}) : LatestKept f [] := by
  refine ⟨?_, ?_⟩
  · rw [h]
    exact EnvelopeTable.latest_empty
  · rw [h]
    exact List.Sublist.refl _

/-- Every step of a call that does not reach such an eviction. -/
theorem LatestKept.step (h : LatestKept f returned) (k : Call)
    (hkeeps : f.reachesEviction a k → ¬ f.Orphans) :
    LatestKept (Call.step f a k).1 (recordDerived returned f a k) := by
  have hrecord := sublist_recordDerived returned f a k
  have hslots := Call.step_slots (f := f) (a := a) k
  have hevicted := f.evictAndCompact_sublist.trans h.order
  suffices hgoal : ∀ t, SlotStep f a k t → t.Latest ∧
      (t.entries.map (·.envelope)).Sublist (recordDerived returned f a k) from
    ⟨(hgoal _ hslots).1, (hgoal _ hslots).2⟩
  rintro t (same | reaches | ⟨inputs, now, envelope, rfl, reaches, -, answer⟩)
  · exact ⟨same.keepsLatest h.latest, (same.envelopes_eq ▸ h.order).trans hrecord⟩
  · exact ⟨Fabric.evictAndCompact_latest h.latest (hkeeps reaches), hevicted.trans hrecord⟩
  · refine ⟨(Fabric.evictAndCompact_latest h.latest (hkeeps reaches)).insert envelope, ?_⟩
    have happend : recordDerived returned f a (.derive inputs now) = returned ++ [envelope] := by
      unfold recordDerived
      dsimp only
      rw [answer]
    dsimp only [EnvelopeTable.insert]
    rw [happend, List.map_append]
    exact hevicted.append_right _

end

/-- In a run in which no eviction takes the newest envelope of a flow and leaves an older
one, the index of flows names the most recently derived live envelope of each flow that has
one, and a compaction changes nothing that `explain` reports of the table. -/
theorem latest_newest {config : FabricConfig} {disk : Disk} {a : Answers}
    (hnone : ((Fabric.construct config disk).initializeFabric a).2.envelopes = {})
    {c : Config (Fabric × List PacingEnvelope) Call} {n : ℕ}
    (hrun : Run derivations keepsNewest
      (.idle (((Fabric.construct config disk).initializeFabric a).2, [])) n c) :
    (c.shared.1.envelopes.entries.map (·.envelope)).Sublist c.shared.2 ∧
      (∀ flow i, c.shared.1.envelopes.latestByFlow flow.value = some i ↔
        c.shared.1.envelopes.HoldsLive flow i ∧
          ∀ j, c.shared.1.envelopes.HoldsLive flow j → j ≤ i) ∧
      ∀ flow, Fabric.explainState
          { c.shared.1 with envelopes := c.shared.1.envelopes.compact } flow =
        c.shared.1.explainState flow := by
  have hkept : LatestKept c.shared.1 c.shared.2 := by
    refine hrun.invariant (I := fun c : Config (Fabric × List PacingEnvelope) Call =>
      LatestKept c.shared.1 c.shared.2) (.empty hnone) ?_
    intro c e c' hc hok hs
    cases hs with
    | start free => exact hc
    | @move i k b here => exact hc.step k hok
    | restart _ => exact hok.elim
  exact ⟨hkept.order, fun _ _ => hkept.latest.eq_some_iff, fun flow =>
    Fabric.explainState_compact hkept.latest flow⟩

namespace Scenario

/-- No eviction is due. -/
def evictsNothing (c : Config (Fabric × List PacingEnvelope) Call) :
    Event Call Request Answers → Bool
  | .restart => false
  | _ => c.shared.1.victim.isNone

theorem keepsNewest_of_evictsNothing (c : Config (Fabric × List PacingEnvelope) Call)
    (e : Event Call Request Answers) (h : evictsNothing c e = true) : keepsNewest c e := by
  cases e with
  | start i r => trivial
  | restart => cases h
  | move i k a =>
    rintro - ⟨j, e, hvictim, -⟩
    have hnone : c.shared.1.victim.isNone = true := h
    rw [hvictim] at hnone
    cases hnone

/-- Two envelopes of one flow are derived in a roomy table. -/
def derivedTwice : List (Action Request Answers) := setup ++ calls 0 (.deriveEnvelope ⟨1⟩) 11

/-- What the roomy coordinator has derived by then. -/
def derivedTwiceOver : Config (Fabric × List PacingEnvelope) Call :=
  derivations.exec (.idle (((Fabric.construct config {}).initializeFabric answers).2, []))
    derivedTwice

end Scenario

/-- Two envelopes of one flow, derived in a roomy table. -/
theorem latest_newest_derivedTwice :
    let c := Scenario.derivedTwiceOver
    (c.shared.1.envelopes.entries.map (·.envelope)).Sublist c.shared.2 ∧
      (∀ flow i, c.shared.1.envelopes.latestByFlow flow.value = some i ↔
        c.shared.1.envelopes.HoldsLive flow i ∧
          ∀ j, c.shared.1.envelopes.HoldsLive flow j → j ≤ i) ∧
      ∀ flow, Fabric.explainState
          { c.shared.1 with envelopes := c.shared.1.envelopes.compact } flow =
        c.shared.1.explainState flow := by
  obtain ⟨n, hn⟩ := Program.run_of_allows (P := derivations)
    Scenario.keepsNewest_of_evictsNothing Scenario.derivedTwice
    (c := .idle (((Fabric.construct Scenario.config {}).initializeFabric Scenario.answers).2, []))
    (by decide +kernel)
  exact @latest_newest Scenario.config {} Scenario.answers rfl _ _ hn

namespace Scenario

/-- A coordinator with room for two envelopes. -/
def twoSlots : FabricConfig := { enableDurability := false, limits := { maxEnvelopes := 2 } }

def startedTwoSlots : World := .idle ((Fabric.construct twoSlots {}).initializeFabric answers).2

/-- The first envelope of a flow is applied as far as its reservation, the flow gets a second
one, and a third derivation finds the table full. -/
def orphaned : World :=
  coordinator.exec startedTwoSlots (setup ++ reserved 1 1 {} ++
    calls 0 (.deriveEnvelope ⟨1⟩) 11 ++ calls 0 (.deriveEnvelope ⟨1⟩) 11)

/-- The first slot holds a live envelope of the flow, which the index does not know and of
which an envelope would be reported after a compaction only. -/
def forgetsFlow (f : Fabric) (flow : FlowId) : Bool :=
  (f.envelopes.entries[0]?.any fun e => e.live && e.envelope.flow == flow) &&
    (f.envelopes.latestByFlow flow.value).isNone && (f.explainState flow).envelope.isNone &&
    (Fabric.explainState { f with envelopes := f.envelopes.compact } flow).envelope.isSome

theorem of_forgetsFlow {f : Fabric} {flow : FlowId} (h : forgetsFlow f flow = true) :
    f.envelopes.HoldsLive flow 0 ∧ f.envelopes.latestByFlow flow.value = none ∧
      (f.explainState flow).envelope = none ∧
      (Fabric.explainState { f with envelopes := f.envelopes.compact } flow).envelope ≠ none := by
  simp only [forgetsFlow, Bool.and_eq_true, Option.any_eq_true, beq_iff_eq,
    Option.isNone_iff_eq_none] at h
  obtain ⟨⟨⟨⟨e, he, hlive, hflow⟩, hlatest⟩, hreport⟩, hcompact⟩ := h
  exact ⟨⟨e, he, hlive, hflow⟩, hlatest, hreport, Option.isSome_iff_ne_none.1 hcompact⟩

end Scenario

/-- An eviction takes the second envelope of a flow while the first has an attempt in flight:
the flow has a live envelope, but the index does not know it, `explain` reports none, and a
compaction would change that. -/
theorem latest_orphaned :
    ∃ (config : FabricConfig) (a : Answers) (n : ℕ) (w : World) (flow : FlowId) (i : ℕ),
      config.limits.coherent = true ∧
      ((Fabric.construct config {}).initializeFabric a).2.envelopes = {} ∧
      Run coordinator withinIncarnation
        (.idle ((Fabric.construct config {}).initializeFabric a).2) n w ∧
      w.shared.envelopes.HoldsLive flow i ∧
      w.shared.envelopes.latestByFlow flow.value = none ∧
      (w.shared.explainState flow).envelope = none ∧
      (Fabric.explainState { w.shared with envelopes := w.shared.envelopes.compact }
        flow).envelope ≠ none := by
  obtain ⟨n, hn⟩ : ∃ n, Run coordinator withinIncarnation Scenario.startedTwoSlots n
      Scenario.orphaned := coordinator.run_exec _ _
  have hforgets : Scenario.forgetsFlow Scenario.orphaned.shared ⟨1⟩ = true := by decide +kernel
  exact ⟨Scenario.twoSlots, Scenario.answers, n, Scenario.orphaned, ⟨1⟩, 0, rfl, rfl, hn,
    Scenario.of_forgetsFlow hforgets⟩

end Pacing
