import PacingFabric.Theorems.Slots

/-!
# Envelopes of attempts in flight

Eviction spares an envelope as long as an attempt of it is in flight. An apply evicts after
it has found its envelope and before its attempt exists, when the envelope still looks
unused; apart from this section, the table holds the envelope of every attempt in flight.

## Main definitions

* `EnvelopeTable.Sound`: the index names live slots by the identity of their envelope.
* `Fabric.victim`: the slot that eviction takes.
* `Fabric.Supported`: every attempt in flight is listed by an envelope the table finds.

## Main results

* `Call.step_table`: what a step does to the table.
* `inFlight_held`: an attempt in flight keeps its envelope, unless its own reservation
  evicted it.
* `reserved_evicted`: a reservation that evicts its own envelope.
-/

namespace Pacing

open Interleaving

/-! ### The index of the envelope table -/

namespace EnvelopeTable

/-- The index names live slots by the identity of their envelope. -/
def Sound (t : EnvelopeTable) : Prop :=
  ∀ v i, t.index v = some i →
    ∃ e, t.entries[i]? = some e ∧ e.live = true ∧ e.envelope.ref.id.value = v

/-- The table finds an envelope of this identity. -/
def Has (t : EnvelopeTable) (id : EnvelopeId) : Prop := ∃ slot, t.find id = some slot

variable {t t' : EnvelopeTable} {id : EnvelopeId} {i : ℕ}

theorem sound_empty : ({} : EnvelopeTable).Sound := fun _ _ h => nomatch h

theorem Sound.has_iff (h : t.Sound) : t.Has id ↔ ∃ i, t.index id.value = some i := by
  refine ⟨fun ⟨_, hfind⟩ => index_of_find hfind, fun ⟨i, hi⟩ => ?_⟩
  obtain ⟨e, he, hlive, -⟩ := h _ i hi
  exact ⟨(i, e), by simp [find, hi, he, hlive]⟩

/-- An envelope that is found is live, under the identity it was looked for. -/
theorem Sound.of_find (h : t.Sound) {e : EnvelopeEntry} (hfind : t.find id = some (i, e)) :
    e ∈ t.entries ∧ e.live = true ∧ e.envelope.ref.id = id := by
  obtain ⟨he, hlive⟩ := getElem?_of_find hfind
  obtain ⟨j, hj⟩ := index_of_find hfind
  obtain ⟨e', he', -, hid⟩ := h _ j hj
  have hslot : j = i ∧ e' = e := by
    unfold find at hfind
    simp only [hj, he'] at hfind
    split at hfind
    · simpa using hfind
    · cases hfind
  obtain ⟨rfl, rfl⟩ := hslot
  exact ⟨List.mem_of_getElem? he, hlive, Id.ext hid⟩

/-- At most the marks of revocation differ. -/
structure Marked (t t' : EnvelopeTable) : Prop where
  index : t'.index = t.index
  entries : ∀ (i : ℕ) (e : EnvelopeEntry), t.entries[i]? = some e →
    ∃ e', t'.entries[i]? = some e' ∧ e'.live = e.live ∧ e'.envelope.ref.id = e.envelope.ref.id

namespace Marked

/-- One slot is written under the same identity. -/
theorem set {e x : EnvelopeEntry} (he : t.entries[i]? = some e) (hlive : x.live = e.live)
    (hid : x.envelope.ref.id = e.envelope.ref.id) :
    Marked t { t with entries := t.entries.set i x } := by
  refine ⟨rfl, fun j y hy => ?_⟩
  by_cases hj : i = j
  · subst hj
    obtain rfl := Option.some.inj (he.symm.trans hy)
    obtain ⟨hlt, -⟩ := List.getElem?_eq_some_iff.1 he
    exact ⟨x, by simp [hlt], hlive, hid⟩
  · exact ⟨y, by rw [List.getElem?_set_ne hj, hy], rfl, rfl⟩

/-- Every slot is written under its own identity. -/
theorem map {g : EnvelopeEntry → EnvelopeEntry} (hlive : ∀ e, (g e).live = e.live)
    (hid : ∀ e, (g e).envelope.ref.id = e.envelope.ref.id) :
    Marked t { t with entries := t.entries.map g } :=
  ⟨rfl, fun i e he => ⟨g e, by rw [List.getElem?_map, he]; rfl, hlive e, hid e⟩⟩

theorem sound (h : Marked t t') (hs : t.Sound) : t'.Sound := by
  intro v i hv
  rw [h.index] at hv
  obtain ⟨e, he, hlive, hid⟩ := hs v i hv
  obtain ⟨e', he', hlive', hid'⟩ := h.entries i e he
  exact ⟨e', he', hlive'.trans hlive, by rw [hid', hid]⟩

theorem has (h : Marked t t') (hs : t.Sound) (hid : t.Has id) : t'.Has id := by
  rw [(h.sound hs).has_iff, h.index]
  exact hs.has_iff.1 hid

end Marked

theorem Restamped.marked (h : Restamped t t') : Marked t t' := by
  refine ⟨h.index, fun i e he => ?_⟩
  obtain ⟨e', he', hslot⟩ := h.getElem? he
  obtain ⟨hlive, henvelope⟩ := Prod.mk.inj hslot
  exact ⟨e', he', hlive, by rw [henvelope]⟩

/-! What adds, evicts and compacts. -/

theorem Sound.insert (h : t.Sound) (envelope : PacingEnvelope) : (t.insert envelope).Sound := by
  intro v i hv
  dsimp only [EnvelopeTable.insert] at hv ⊢
  by_cases hid : v = envelope.ref.id.value
  · subst hid
    rw [Function.update_self] at hv
    obtain rfl := Option.some.inj hv
    exact ⟨{ envelope := envelope }, by simp, rfl, rfl⟩
  · rw [Function.update_of_ne hid] at hv
    obtain ⟨e, he, hlive, hval⟩ := h v i hv
    obtain ⟨hlt, -⟩ := List.getElem?_eq_some_iff.1 he
    exact ⟨e, by rw [List.getElem?_append_left hlt, he], hlive, hval⟩

theorem Sound.has_insert (h : t.Sound) (envelope : PacingEnvelope)
    (hid : t.Has id ∨ envelope.ref.id = id) : (t.insert envelope).Has id := by
  rw [(h.insert envelope).has_iff]
  dsimp only [EnvelopeTable.insert]
  by_cases hv : id.value = envelope.ref.id.value
  · exact ⟨_, by rw [hv, Function.update_self]⟩
  · rw [Function.update_of_ne hv]
    rcases hid with hid | rfl
    · exact h.has_iff.1 hid
    · exact absurd rfl hv

theorem Sound.evict (h : t.Sound) {candidate : EnvelopeEntry}
    (hi : t.entries[i]? = some candidate) : (t.evict i candidate).Sound := by
  intro v j hv
  dsimp only [EnvelopeTable.evict] at hv ⊢
  by_cases hid : v = candidate.envelope.ref.id.value
  · rw [hid, Function.update_self] at hv
    cases hv
  · rw [Function.update_of_ne hid] at hv
    obtain ⟨e, he, hlive, hval⟩ := h v j hv
    have hne : i ≠ j := by
      rintro rfl
      obtain rfl := Option.some.inj (hi.symm.trans he)
      exact hid hval.symm
    exact ⟨e, by rw [List.getElem?_set_ne hne, he], hlive, hval⟩

theorem Sound.has_evict (h : t.Sound) {candidate : EnvelopeEntry}
    (hi : t.entries[i]? = some candidate) (hid : t.Has id)
    (hne : candidate.envelope.ref.id ≠ id) : (t.evict i candidate).Has id := by
  rw [(h.evict hi).has_iff]
  dsimp only [EnvelopeTable.evict]
  have hv : id.value ≠ candidate.envelope.ref.id.value := fun hv => hne (Id.ext hv.symm)
  rw [Function.update_of_ne hv]
  exact h.has_iff.1 hid

theorem reindex_concat (key : EnvelopeEntry → UInt64) (xs : List EnvelopeEntry)
    (e : EnvelopeEntry) :
    reindex key (xs ++ [e]) = Function.update (reindex key xs) (key e) (some xs.length) := by
  simp [reindex, List.zipIdx_append]

/-- The rebuilt index names slots by their keys, and every key. -/
theorem reindex_spec (key : EnvelopeEntry → UInt64) (xs : List EnvelopeEntry) :
    (∀ v i, reindex key xs v = some i → ∃ e, xs[i]? = some e ∧ key e = v) ∧
      ∀ e ∈ xs, ∃ i, reindex key xs (key e) = some i := by
  induction xs using List.reverseRecOn with
  | nil => exact ⟨fun _ _ h => by simp [reindex] at h, nofun⟩
  | append_singleton xs x ih =>
    obtain ⟨hsound, hall⟩ := ih
    rw [reindex_concat]
    refine ⟨fun v i hv => ?_, fun e he => ?_⟩
    · by_cases hkey : v = key x
      · subst hkey
        rw [Function.update_self] at hv
        obtain rfl := Option.some.inj hv
        exact ⟨x, by simp, rfl⟩
      · rw [Function.update_of_ne hkey] at hv
        obtain ⟨e, he, hval⟩ := hsound v i hv
        obtain ⟨hlt, -⟩ := List.getElem?_eq_some_iff.1 he
        exact ⟨e, by rw [List.getElem?_append_left hlt, he], hval⟩
    · by_cases hkey : key e = key x
      · exact ⟨_, by rw [hkey, Function.update_self]⟩
      · rw [Function.update_of_ne hkey]
        rcases List.mem_append.1 he with he | he
        · exact hall e he
        · exact absurd (by rw [List.mem_singleton.1 he]) hkey

theorem sound_compact (t : EnvelopeTable) : t.compact.Sound := by
  intro v i hv
  obtain ⟨e, he, hval⟩ := (reindex_spec (·.envelope.ref.id.value) _).1 v i hv
  exact ⟨e, he, (List.mem_filter.1 (List.mem_of_getElem? he)).2, hval⟩

theorem Sound.has_compact (h : t.Sound) (hid : t.Has id) : t.compact.Has id := by
  obtain ⟨⟨i, e⟩, hfind⟩ := hid
  obtain ⟨hmem, hlive, rfl⟩ := h.of_find hfind
  rw [(sound_compact t).has_iff]
  exact (reindex_spec (·.envelope.ref.id.value) _).2 e (List.mem_filter.2 ⟨hmem, hlive⟩)

end EnvelopeTable

/-! ### Eviction -/

namespace Fabric
variable {f g : Fabric} {a : Answers} {id : EnvelopeId}

/-- The slot that `evict_and_compact_locked` takes, if it takes one. -/
def victim (f : Fabric) : Option (ℕ × EnvelopeEntry) :=
  if f.compactTables.envelopes.entries.length < f.config.limits.maxEnvelopes.toNat then none
  else f.compactTables.evictionVictim

theorem scanFrom_some {n i j : ℕ} {e : EnvelopeEntry} (h : f.scanFrom n i = some (j, e)) :
    f.envelopes.entries[j]? = some e ∧ f.evictable e = true := by
  induction n generalizing i with
  | zero => cases h
  | succ n ih =>
    unfold scanFrom at h
    cases he : f.envelopes.entries[i]? with
    | none => simp [he] at h
    | some entry =>
      simp only [he] at h
      split at h
      · rename_i hevictable
        obtain ⟨rfl, rfl⟩ := Prod.mk.inj (Option.some.inj h)
        exact ⟨he, hevictable⟩
      · exact ih h

theorem victim_some {i : ℕ} {e : EnvelopeEntry} (h : f.victim = some (i, e)) :
    f.compactTables.envelopes.entries[i]? = some e ∧ f.compactTables.evictable e = true := by
  unfold victim at h
  split at h
  · cases h
  · exact scanFrom_some h

theorem compactTables_sound (h : f.envelopes.Sound) : f.compactTables.envelopes.Sound := by
  unfold compactTables
  dsimp only
  split
  · exact EnvelopeTable.sound_compact _
  · exact h

theorem has_compactTables (h : f.envelopes.Sound) (hid : f.envelopes.Has id) :
    f.compactTables.envelopes.Has id := by
  unfold compactTables
  dsimp only
  split
  · exact h.has_compact hid
  · exact hid

/-- What the section does to the table. -/
theorem evictAndCompact_envelopes (f : Fabric) :
    (∃ i e, f.victim = some (i, e) ∧
      f.evictAndCompact.envelopes = f.compactTables.envelopes.evict i e) ∨
    f.victim = none ∧
      EnvelopeTable.Restamped f.compactTables.envelopes f.evictAndCompact.envelopes := by
  unfold victim evictAndCompact
  have hconfig : f.compactTables.config = f.config := rfl
  dsimp only
  rw [hconfig]
  split
  · exact .inr ⟨rfl, .refl _⟩
  · unfold evictOne
    dsimp only
    cases f.compactTables.evictionVictim with
    | none => exact .inr ⟨rfl, rfl, rfl, rfl, rfl⟩
    | some slot => exact .inl ⟨slot.1, slot.2, rfl, rfl⟩

theorem evictAndCompact_sound (h : f.envelopes.Sound) : f.evictAndCompact.envelopes.Sound := by
  have hcompact := compactTables_sound h
  rcases f.evictAndCompact_envelopes with ⟨i, e, hvictim, heq⟩ | ⟨-, hsame⟩
  · rw [heq]
    exact hcompact.evict (victim_some hvictim).1
  · exact hsame.marked.sound hcompact

/-- Only the envelope of the slot taken is lost. -/
theorem has_evictAndCompact (h : f.envelopes.Sound) (hid : f.envelopes.Has id)
    (hspared : ∀ i e, f.victim = some (i, e) → e.envelope.ref.id ≠ id) :
    f.evictAndCompact.envelopes.Has id := by
  have hcompact := compactTables_sound h
  have hkept := has_compactTables h hid
  rcases f.evictAndCompact_envelopes with ⟨i, e, hvictim, heq⟩ | ⟨-, hsame⟩
  · rw [heq]
    exact hcompact.has_evict (victim_some hvictim).1 hkept (hspared i e hvictim)
  · exact hsame.marked.has hcompact hkept

end Fabric

/-! ### What a step does to the table -/

section
variable {f g : Fabric} {a : Answers}

/-- A section marks envelopes, or evicts, and a derivation then inserts. -/
inductive TableStep (f : Fabric) : EnvelopeTable → Prop
  | marked {t} (marked : EnvelopeTable.Marked f.envelopes t) : TableStep f t
  | evicted : TableStep f f.evictAndCompact.envelopes
  | inserted (envelope : PacingEnvelope) :
      TableStep f (f.evictAndCompact.envelopes.insert envelope)

theorem TableStep.sound {t : EnvelopeTable} (h : TableStep f t) (hs : f.envelopes.Sound) :
    t.Sound := by
  cases h with
  | marked hmarked => exact hmarked.sound hs
  | evicted => exact Fabric.evictAndCompact_sound hs
  | inserted envelope => exact (Fabric.evictAndCompact_sound hs).insert envelope

theorem Call.step_table (k : Call) : TableStep f (Call.step f a k).1.envelopes := by
  have hstep := Call.step_slots (f := f) (a := a) k
  generalize (Call.step f a k).1.envelopes = t at hstep ⊢
  cases hstep with
  | restamped same => exact .marked same.marked
  | evicted => exact .evicted
  | inserted _ _ envelope => exact .inserted envelope

end

/-! ### Attempts in flight -/

section
variable {f : Fabric} {a : Answers} {id : AttemptId} {r : ApplicationRecord}

/-- Every attempt in flight is listed by its envelope, and the table finds the envelope. -/
structure Fabric.Supported (f : Fabric) : Prop where
  ledger : f.attempts.WellFormed
  table : f.envelopes.Sound
  inFlight : ∀ id r, f.attempts.record id = some r → r.state.isTerminal = false →
    id ∈ f.attempts.byEnvelope r.envelope.id.value ∧ f.envelopes.Has r.envelope.id

/-- An apply that is about to reserve keeps its envelope through the eviction of its own
section, and a start that replays finds an epoch and a boot counter it can advance. -/
def keepsApplied (w : World) : Event Call Request Answers → Prop
  | .move _ (.reserve p) _ => ∀ i e, w.shared.victim = some (i, e) → e.envelope.ref.id ≠ p.ref.id
  | .restart => ∀ config a store disk', DurableStore.openStore config.limits
      w.shared.storage.disk a.files.opening = (.ok store, disk') →
      ((((Fabric.opened a config disk' store).beginRecovery a store.recovered).replay a
        store.recovered).fabric.countRestored.advanceIncarnation a).1.isOk = true
  | _ => True

/-- A call that is about to install has found its envelope. -/
theorem reserve_found {p : Applying} {x : Installing} (h : f.attempts.WellFormed)
    (hx : (Call.step f a (.reserve p)).2 = some (.install x)) : f.envelopes.Has p.ref.id := by
  have hresult := reserveAttempt_result (a := a) h p.now p.ref p.backendId p.requested
    p.envelope p.backend
  simp only [Call.step] at hx
  generalize f.reserveAttempt a p.now p.ref p.backendId p.requested p.envelope p.backend =
    result at hx hresult
  cases hresult with
  | @declined out f' hout _ _ =>
    cases out with
    | reserved request => exact absurd rfl (hout request)
    | refused status => simp at hx
    | duplicate attempt => simp at hx
  | reserved found => exact ⟨_, found⟩

namespace Fabric.Supported

/-- Eviction takes no envelope with an attempt in flight. -/
theorem spared (h : f.Supported) (hr : f.attempts.record id = some r)
    (hflight : r.state.isTerminal = false) {i : ℕ} {e : EnvelopeEntry}
    (hvictim : f.victim = some (i, e)) : e.envelope.ref.id ≠ r.envelope.id := by
  intro hid
  obtain ⟨-, hevictable⟩ := victim_some hvictim
  obtain ⟨hlisted, -⟩ := h.inFlight id r hr hflight
  unfold evictable at hevictable
  rw [compactTables_attempts h.ledger, Bool.and_eq_true, hid] at hevictable
  have hall := List.all_eq_true.1 hevictable.2 id hlisted
  obtain ⟨slot, hslot, rfl⟩ := Option.map_eq_some_iff.1 hr
  rw [hslot] at hall
  exact absurd (hflight.symm.trans hall) (by decide)

/-- What a step does not evict stays in the table. -/
theorem has_step (h : f.Supported) {k : Call} {envelope : EnvelopeId}
    (hid : f.envelopes.Has envelope)
    (hspared : ∀ i e, f.victim = some (i, e) → e.envelope.ref.id ≠ envelope) :
    (Call.step f a k).1.envelopes.Has envelope := by
  have hkept := has_evictAndCompact h.table hid hspared
  have hstep := Call.step_table (f := f) (a := a) k
  generalize (Call.step f a k).1.envelopes = t at hstep ⊢
  cases hstep with
  | marked hmarked => exact hmarked.has h.table hid
  | evicted => exact hkept
  | inserted e => exact (evictAndCompact_sound h.table).has_insert e (.inl hkept)

theorem table_step (h : f.Supported) (k : Call) : (Call.step f a k).1.envelopes.Sound :=
  (Call.step_table k).sound h.table

/-- An attempt that was in flight before the step keeps what it needs. -/
theorem kept (h : f.Supported) {k : Call} (hlisted : ∀ v,
      id ∈ f.attempts.byEnvelope v → id ∈ (Call.step f a k).1.attempts.byEnvelope v)
    {r' : ApplicationRecord} (hr : f.attempts.record id = some r)
    (hmove : RecordStep f a k (Call.step f a k).2 (some r) (some r'))
    (hflight : r'.state.isTerminal = false) :
    id ∈ (Call.step f a k).1.attempts.byEnvelope r'.envelope.id.value ∧
      (Call.step f a k).1.envelopes.Has r'.envelope.id := by
  have hbefore : r.state.isTerminal = false := by
    by_contra hterm
    rw [hmove.terminal (by simpa using hterm)] at hflight
    cases hflight
  obtain ⟨hmem, hhas⟩ := h.inFlight id r hr hbefore
  rw [hmove.sameWork.envelope]
  exact ⟨hlisted _ hmem, h.has_step hhas fun _ _ => h.spared hr hbefore⟩

/-- A reservation. -/
theorem reserve (h : f.Supported) (p : Applying)
    (hspared : ∀ i e, f.victim = some (i, e) → e.envelope.ref.id ≠ p.ref.id) :
    (Call.step f a (.reserve p)).1.Supported := by
  obtain ⟨hwf, hmoves⟩ := Call.step_moves h.ledger a (.reserve p)
  refine ⟨hwf, h.table_step _, fun id r' hr' hflight => ?_⟩
  have hmove := hmoves id
  rw [hr'] at hmove
  by_cases hx : ∃ x, (Call.step f a (.reserve p)).2 = some (.install x)
  · obtain ⟨x, hx⟩ := hx
    obtain ⟨hfresh, hatt, -⟩ := reserve_installs h.ledger hx
    cases hr : f.attempts.record id with
    | some r =>
      rw [hr] at hmove
      refine h.kept (fun v hmem => ?_) hr hmove hflight
      rw [hatt]
      exact AttemptLedger.mem_byEnvelope_insert.2 (.inl hmem)
    | none =>
      -- the record reserved now is that of the envelope that was found
      have hnew := hr'
      rw [hatt, reservedLedger_record h.ledger hfresh] at hnew
      by_cases hid : id = x.request.attempt
      · subst hid
        rw [Function.update_self] at hnew
        obtain rfl := Option.some.inj hnew
        refine ⟨?_, h.has_step (reserve_found h.ledger hx) hspared⟩
        rw [hatt]
        exact AttemptLedger.mem_byEnvelope_insert.2 (.inr ⟨rfl, rfl⟩)
      · rw [Function.update_of_ne hid, hr] at hnew
        cases hnew
  · have hatt := reserve_declines h.ledger (by simpa using hx)
    rw [hatt] at hr'
    rw [hr'] at hmove
    exact h.kept (fun v hmem => by rwa [hatt]) hr' hmove hflight

/-- Every step. -/
theorem step (h : f.Supported) (k : Call) (hspared : ∀ p, k = .reserve p →
    ∀ i e, f.victim = some (i, e) → e.envelope.ref.id ≠ p.ref.id) :
    (Call.step f a k).1.Supported := by
  by_cases hk : ∀ p, k ≠ .reserve p
  · obtain ⟨hwf, hmoves⟩ := Call.step_moves h.ledger a k
    refine ⟨hwf, h.table_step k, fun id r' hr' hflight => ?_⟩
    have hmove := hmoves id
    rw [hr'] at hmove
    obtain ⟨r, hr, -⟩ := hmove.origin hk
    rw [hr] at hmove
    exact h.kept (fun v hmem => by rwa [Call.step_byEnvelope k hk]) hr hmove hflight
  · obtain ⟨p, rfl⟩ : ∃ p, k = .reserve p := by simpa using hk
    exact h.reserve p (hspared p rfl)

theorem of_terminal (hledger : f.attempts.WellFormed) (htable : f.envelopes.Sound)
    (hterm : ∀ id r, f.attempts.record id = some r → r.state.isTerminal = true) :
    f.Supported := by
  refine ⟨hledger, htable, fun id r hr hflight => ?_⟩
  rw [hterm id r hr] at hflight
  cases hflight

theorem empty (hattempts : f.attempts = {}) (henvelopes : f.envelopes = {}) : f.Supported := by
  refine of_terminal (hattempts ▸ AttemptLedger.wellFormed_empty)
    (henvelopes ▸ EnvelopeTable.sound_empty) fun id r hr => ?_
  rw [hattempts] at hr
  cases hr

end Fabric.Supported

/-! ### Starts -/

/-- Replay keeps the index of the table sound. -/
theorem EnvelopeTable.Replayed.sound {t t' : EnvelopeTable} (h : Replayed t t')
    (ht : t.Sound) : t'.Sound := by
  cases h with
  | same => exact ht
  | inserted envelope new => exact ht.insert envelope
  | rewritten envelope found =>
    obtain ⟨hi, -⟩ := getElem?_of_find found
    obtain ⟨-, -, hid⟩ := ht.of_find found
    exact Marked.sound (.set hi rfl hid.symm) ht
  | revoked id reason found =>
    obtain ⟨hi, -⟩ := getElem?_of_find found
    exact Marked.sound (.set hi rfl rfl) ht

theorem Fabric.replay_sound (h : f.envelopes.Sound) (records : List DurableRecord) :
    (f.replay a records).fabric.envelopes.Sound :=
  List.foldlRecOn records (Replay.record (nonZeroNonce (a.nonce 1)))
    (motive := fun s : Replay => s.fabric.envelopes.Sound) h
    fun _ hs record _ => (Replay.record_replayed _ _ record).sound hs

/-- A start leaves the index of the envelope table sound, whether it succeeds or not. -/
theorem Fabric.initializeFabric_sound (config : FabricConfig) (disk : Disk) :
    ((construct config disk).initializeFabric a).2.envelopes.Sound := by
  rcases initializeFabric_cases a config disk with ⟨_, _, _, _, _, _, _, heq, -⟩ |
    ⟨store, disk', _, _, _, -, -, heq⟩
  · rw [heq]
    exact EnvelopeTable.sound_empty
  · rw [heq]
    have hsound := replay_sound (f := (opened a config disk' store).beginRecovery a
      store.recovered) (a := a) EnvelopeTable.sound_empty store.recovered
    change ((opened a config disk' store).recover a store.recovered).2.envelopes.Sound
    have hrecovers := recover_recovers a (opened a config disk' store) store.recovered
    generalize (opened a config disk' store).recover a store.recovered = result at hrecovers ⊢
    generalize ((opened a config disk' store).beginRecovery a store.recovered).replay a
      store.recovered = replay at hsound hrecovers
    cases hrecovers with
    | exhausted => exact hsound
    | settled =>
      obtain ⟨_, _, _, _, _, _, hsettle⟩ := settle_frame (f := { replay.fabric.countRestored with
        epoch := _, boot := _, recovery := _ }) a replay
      rw [hsettle]
      refine EnvelopeTable.Marked.sound (.map (fun e => ?_) fun e => ?_) hsound
      all_goals split <;> rfl

/-- A start that advances leaves no attempt in flight. -/
theorem Fabric.initializeFabric_supported (config : FabricConfig) {disk : Disk}
    (h : AdvancesOver disk) : ((construct config disk).initializeFabric a).2.Supported := by
  obtain ⟨hwf, hrecovered, -⟩ := initializeFabric_ledgerRecovered a config h
  refine .of_terminal hwf (initializeFabric_sound config disk) fun id r hr => ?_
  obtain ⟨r₀, rfl⟩ := hrecovered id r hr
  exact r₀.recovered_isTerminal

/-- An attempt in flight keeps its envelope in the table, unless the eviction of the section
that reserved it took the envelope. -/
theorem inFlight_held {w : World} {n : ℕ} (h : Run coordinator keepsApplied World.initial n w) :
    ∀ e ∈ w.shared.attempts.entries, e.live = true → e.record.state.isTerminal = false →
      ∃ i entry, w.shared.envelopes.find e.record.envelope.id = some (i, entry) ∧
        entry ∈ w.shared.envelopes.entries ∧ entry.live = true ∧
        entry.envelope.ref.id = e.record.envelope.id := by
  have hinv : w.shared.Supported := by
    refine h.invariant (I := fun w => w.shared.Supported) (.empty rfl rfl) ?_
    rintro c ev c' hc hok hs
    cases hs with
    | start free => exact hc
    | @move i k a here =>
      refine hc.step k ?_
      rintro p rfl
      exact hok
    | restart hr =>
      obtain ⟨config, a, rfl⟩ := hr
      exact Fabric.initializeFabric_supported config hok
  intro e he _ hflight
  obtain ⟨j, hj⟩ := List.getElem?_of_mem he
  obtain ⟨-, ⟨i, entry⟩, hfind⟩ :=
    hinv.inFlight _ _ (hinv.ledger.record_of_getElem? hj) hflight
  exact ⟨i, entry, hfind, hinv.table.of_find hfind⟩

end

/-- A start over an empty directory advances. -/
theorem keepsApplied_initial : keepsApplied World.initial .restart := Fabric.advancesOver_empty

namespace Scenario

/-- No reservation meets an eviction of its envelope. -/
def sparesApplied (w : World) : Event Call Request Answers → Bool
  | .move _ (.reserve p) _ => w.shared.victim.all fun slot => slot.2.envelope.ref.id != p.ref.id
  | .restart => false
  | _ => true

theorem keepsApplied_of_sparesApplied (w : World) (e : Event Call Request Answers)
    (h : sparesApplied w e = true) : keepsApplied w e := by
  cases e with
  | start i r => trivial
  | restart => cases h
  | move i k a =>
    cases k with
    | reserve p =>
      intro j entry hvictim
      have hall : w.shared.victim.all (fun slot => slot.2.envelope.ref.id != p.ref.id) = true := h
      rw [hvictim] at hall
      exact bne_iff_ne.1 hall
    | _ => trivial

end Scenario

/-- The one envelope of a roomy table is applied. -/
theorem inFlight_held_applied :
    let w := coordinator.exec Scenario.started (Scenario.setup ++ Scenario.reserved 1 1 {})
    ∀ e ∈ w.shared.attempts.entries, e.live = true → e.record.state.isTerminal = false →
      ∃ i entry, w.shared.envelopes.find e.record.envelope.id = some (i, entry) ∧
        entry ∈ w.shared.envelopes.entries ∧ entry.live = true ∧
        entry.envelope.ref.id = e.record.envelope.id := by
  obtain ⟨n, hn⟩ := Program.run_of_allows (P := coordinator)
    Scenario.keepsApplied_of_sparesApplied (Scenario.setup ++ Scenario.reserved 1 1 {})
    (c := Scenario.started) (by decide +kernel)
  obtain ⟨m, hm⟩ := @Scenario.run_started keepsApplied keepsApplied_initial _ _ hn
  exact inFlight_held hm

namespace Scenario

def startedOneSlot : World := .idle ((Fabric.construct oneSlot {}).initializeFabric answers).2

/-- The only envelope of a table with one slot is applied as far as its reservation. -/
def appliedInOneSlot : World := coordinator.exec startedOneSlot (setup ++ reserved 1 1 {})

end Scenario

/-- In a full table, the reservation of an attempt evicts the envelope it is made for. -/
theorem reserved_evicted :
    ∃ n w, Run coordinator anyStep World.initial n w ∧ w.shared.config.limits.coherent = true ∧
      ∃ e ∈ w.shared.attempts.entries, e.live = true ∧ e.record.state.isTerminal = false ∧
        ∀ entry ∈ w.shared.envelopes.entries, entry.live = false := by
  have hfirst : Step coordinator World.initial .restart Scenario.startedOneSlot :=
    .restart ⟨Scenario.oneSlot, Scenario.answers, rfl⟩
  obtain ⟨n, hn⟩ := coordinator.run_exec Scenario.startedOneSlot
    (Scenario.setup ++ Scenario.reserved 1 1 {})
  obtain ⟨hflight, hdead, hcoherent⟩ : Scenario.appliedInOneSlot.shared.attempts.entries.any
      (fun e => e.live && !e.record.state.isTerminal) = true ∧
      Scenario.appliedInOneSlot.shared.envelopes.entries.all (fun e => !e.live) = true ∧
      Scenario.appliedInOneSlot.shared.config.limits.coherent = true := by decide +kernel
  obtain ⟨e, he, hlive⟩ := List.any_eq_true.1 hflight
  rw [Bool.and_eq_true, Bool.not_eq_true'] at hlive
  refine ⟨_, Scenario.appliedInOneSlot, (Run.succ .zero trivial hfirst).trans
    (hn.mono fun _ _ _ => trivial), hcoherent, e, he, hlive.1, hlive.2, ?_⟩
  intro entry hentry
  simpa using List.all_eq_true.1 hdead entry hentry

end Pacing
