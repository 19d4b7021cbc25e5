import PacingFabric.Model.DurableFile
import PacingFabric.Theorems.Delimited

/-!
# What decoders accept

A decoder that answers with a value has checked most of the rules that the rest of the
coordinator enforces. What it has not checked can be read off the input: the fields of a record
stand at fixed positions, and so do the numbers a decoder takes as they are.

## Main definitions

* `Wide`: a read of a known width.
* `Says`: what the acceptance of some bytes says of the value.
* `Named`: the bytes of a reference that names something.

## Main results

* `says_binding`, `says_policy`, `says_attempt`: accepted values against the bytes they came from.
* `decoded_valid_iff`: the values that meet their own rules, by decoder.
-/

namespace Pacing

open DurableFile (field field_lt)

variable {α β : Type}

/-! ### Reads of a known width -/

/-- Over a sound reader the read fails or consumes `n` bytes. -/
structure Wide (d : Decode α) (n : ℕ) : Prop where
  sticky : ∀ r : ByteReader, r.ok = false → (d r).2.ok = false
  width : ∀ l, (d ⟨l, none⟩).2.ok = false ∨ (d ⟨l, none⟩).2 = ⟨l.drop n, none⟩

namespace Wide

theorem pure (v : α) : Wide (Pure.pure v : Decode α) 0 where
  sticky := fun _ h => h
  width := fun _ => .inr rfl

theorem failure : Wide Decode.failure 0 where
  sticky := fun _ h => h
  width := fun _ => .inr rfl

theorem bind {d : Decode α} {k : α → Decode β} {n m : ℕ} (h : Wide d n)
    (hk : ∀ v, Wide (k v) m) : Wide (d >>= k) (n + m) where
  sticky := fun r hr => (hk _).sticky _ (h.sticky r hr)
  width := by
    intro l
    change (k _ (d ⟨l, none⟩).2).2.ok = false ∨ (k _ (d ⟨l, none⟩).2).2 = _
    rcases h.width l with hfail | hread
    · exact .inl ((hk _).sticky _ hfail)
    · rw [hread, ← List.drop_drop]
      exact (hk _).width _

theorem number (width : ℕ) (f : ℕ → α) :
    Wide (fun r => (f (r.number width).1, (r.number width).2) : Decode α) width where
  sticky := (Field.number width f).sticky
  width := by
    intro l
    rcases Nat.lt_or_ge l.length width with hshort | henough
    · exact .inl (Field.number_short hshort)
    · exact .inr (congrArg Prod.snd (Field.number_enough henough))

theorem u8v : Wide Decode.u8v 1 := number 1 UInt8.ofNat

theorem u64v : Wide Decode.u64v 8 := number 8 UInt64.ofNat

theorem boolean : Wide Decode.boolean 1 := u8v.bind fun v => pure (v != 0)

theorem id {tag : Tag} : Wide (Decode.id : Decode (Id tag)) 8 := u64v.bind fun _ => pure _

theorem generation : Wide Decode.generation 8 := u64v.bind fun _ => pure _

theorem genRef {tag : Tag} : Wide (Decode.genRef : Decode (GenRef tag)) 16 :=
  id.bind fun _ => generation.bind fun _ => pure _

end Wide

/-- Five references, the epoch and the boot identity. -/
theorem wide_authority : Wide decodeAuthority 104 := by
  unfold decodeAuthority
  refine Wide.bind (m := 88) .genRef fun _ => Wide.bind (m := 72) .genRef fun _ =>
    Wide.bind (m := 56) .genRef fun _ => Wide.bind (m := 40) .genRef fun _ =>
    Wide.bind (m := 24) .genRef fun _ => Wide.bind (m := 16) .u64v fun _ =>
    Wide.bind (m := 8) .u64v fun _ => Wide.bind (m := 0) .u64v fun _ =>
    Wide.bind (m := 0) .failure fun failed => ?_
  cases failed with
  | some status => exact .pure _
  | none =>
    dsimp only
    split
    · exact .pure _
    · exact .pure _

/-- Eight numbers and the shape. -/
theorem wide_cadence : Wide decodeCadence 65 := by
  unfold decodeCadence
  refine Wide.bind (m := 57) .u64v fun _ => Wide.bind (m := 49) .u64v fun _ =>
    Wide.bind (m := 41) .u64v fun _ => Wide.bind (m := 33) .u64v fun _ =>
    Wide.bind (m := 25) .u64v fun _ => Wide.bind (m := 17) .u64v fun _ =>
    Wide.bind (m := 9) .u64v fun _ => Wide.bind (m := 1) .u64v fun _ =>
    Wide.bind (m := 0) .u8v fun shape => Wide.bind (m := 0) .failure fun failed => ?_
  cases failed with
  | some status => exact .pure _
  | none =>
    dsimp only
    split
    · exact .pure _
    · exact .pure _

/-! ### From acceptance to the bytes -/

/-- The decoder refuses a failed reader, and what it accepts of `l` satisfies `Q`. -/
structure Says (l : Bytes) (d : Decode (StatusOr α)) (Q : α → Prop) : Prop where
  failed : ∀ r : ByteReader, r.ok = false → ∃ status, (d r).1 = .error status
  accepted : ∀ v, (d ⟨l, none⟩).1 = .ok v → Q v

namespace Says

variable {l : Bytes} {Q : β → Prop}

/-- A field whose value does not matter. -/
theorem skip {d : Decode α} {k : α → Decode (StatusOr β)} {n : ℕ} (h : Wide d n)
    (hk : ∀ v, Says (l.drop n) (k v) Q) : Says l (d >>= k) Q where
  failed := fun r hr => (hk _).failed _ (h.sticky r hr)
  accepted := by
    intro v hv
    change (k _ (d ⟨l, none⟩).2).1 = _ at hv
    rcases h.width l with hfail | hread
    · obtain ⟨status, hstatus⟩ := (hk _).failed _ hfail
      rw [hstatus] at hv
      cases hv
    · rw [hread] at hv
      exact (hk _).accepted v hv

/-- A field after which positions are no longer known. -/
theorem field {d : Decode α} {k : α → Decode (StatusOr β)} (h : Field d)
    (hk : ∀ v l', Says l' (k v) Q) : Says l (d >>= k) Q where
  failed := fun r hr => (hk _ []).failed _ (h.sticky r hr)
  accepted := by
    intro v hv
    change (k _ (d ⟨l, none⟩).2).1 = _ at hv
    rcases h.grows l with hfail | ⟨u, l', hread⟩
    · obtain ⟨status, hstatus⟩ := (hk _ []).failed _ hfail
      rw [hstatus] at hv
      cases hv
    · have hnil := hread []
      rw [List.append_nil, List.append_nil] at hnil
      rw [hnil] at hv
      exact (hk _ l').accepted v hv

/-- A byte that is kept. -/
theorem byte {k : UInt8 → Decode (StatusOr β)}
    (hk : ∀ b, Says (l.drop 1) (k b) fun v => l[0]? = some b → Q v) :
    Says l (Decode.u8v >>= k) Q where
  failed := fun r hr => (hk _).failed _ (Wide.u8v.sticky r hr)
  accepted := by
    intro v hv
    change (k (Decode.u8v ⟨l, none⟩).1 (Decode.u8v ⟨l, none⟩).2).1 = _ at hv
    cases l with
    | nil =>
      -- no byte is left: the reader fails, and with it the decoder
      obtain ⟨status, hstatus⟩ := (hk _).failed (Decode.u8v ⟨[], none⟩).2 rfl
      rw [hstatus] at hv
      cases hv
    | cons b l =>
      have hread : Decode.u8v ⟨b :: l, none⟩ = (b, ⟨l, none⟩) := Reads.u8v b l
      rw [hread] at hv
      exact (hk b).accepted v hv rfl

/-- A number that is kept. -/
theorem number {width : ℕ} {f : ℕ → α} {k : α → Decode (StatusOr β)}
    (hk : ∀ v, Says (l.drop width) (k v) fun w => v = f (DurableFile.field l 0 width) → Q w) :
    Says l ((fun r => (f (r.number width).1, (r.number width).2) : Decode α) >>= k) Q where
  failed := fun r hr => (hk _).failed _ ((Wide.number width f).sticky r hr)
  accepted := by
    intro v hv
    change (k (f ((ByteReader.mk l none).number width).1)
      ((ByteReader.mk l none).number width).2).1 = _ at hv
    rcases Nat.lt_or_ge l.length width with hshort | henough
    · -- too few bytes are left: the reader fails, and with it the decoder
      obtain ⟨status, hstatus⟩ := (hk (f ((ByteReader.mk l none).number width).1)).failed
        ((ByteReader.mk l none).number width).2 (Field.number_short hshort)
      rw [hstatus] at hv
      cases hv
    · rw [Field.number_enough henough] at hv
      exact (hk _).accepted v hv rfl

theorem u64v {k : UInt64 → Decode (StatusOr β)}
    (hk : ∀ v, Says (l.drop 8) (k v) fun w => v = UInt64.ofNat (DurableFile.field l 0 8) → Q w) :
    Says l (Decode.u64v >>= k) Q := number hk

/-- A reference that is kept, as far as its two halves name something. -/
theorem genRef {tag : Tag} {k : GenRef tag → Decode (StatusOr β)}
    (hk : ∀ ref, Says (l.drop 16) (k ref) fun w =>
      (ref.id.valid = true ↔ DurableFile.field l 0 8 ≠ 0) →
        (ref.generation.known = true ↔ DurableFile.field l 8 8 ≠ 0) → Q w) :
    Says l (Decode.genRef >>= k) Q := by
  have hnonzero : ∀ n, n < 256 ^ 8 → ((UInt64.ofNat n != 0) = true ↔ n ≠ 0) := by
    intro n hn
    rw [bne_iff_ne, ne_eq, ← UInt64.toNat_inj, UInt64.toNat_ofNat',
      Nat.mod_eq_of_lt (by simpa using hn)]
    rfl
  refine u64v (k := fun id => Decode.u64v >>= fun g => k ⟨⟨id⟩, ⟨g⟩⟩) fun id =>
    u64v fun g => ?_
  refine ⟨(hk _).failed, fun w hw hgeneration hid => ?_⟩
  rw [List.drop_drop] at hw
  have hsecond : DurableFile.field (l.drop 8) 0 8 = DurableFile.field l 8 8 := by
    simp only [DurableFile.field, List.drop_zero]
  rw [hsecond] at hgeneration
  refine (hk _).accepted w hw ?_ ?_
  · rw [hid]
    exact hnonzero _ (field_lt l 0 8)
  · rw [hgeneration]
    exact hnonzero _ (field_lt l 8 8)

/-- A decoder inside another one, and what its own acceptance says. -/
theorem nested {d : Decode (StatusOr α)} {k : StatusOr α → Decode (StatusOr β)} {R : α → Prop}
    {n : ℕ} (hw : Wide d n) (hd : Says l d R)
    (herror : ∀ status r, ∃ status', (k (.error status) r).1 = .error status')
    (hk : ∀ v, Says (l.drop n) (k (.ok v)) fun w => R v → Q w) : Says l (d >>= k) Q where
  failed := by
    intro r hr
    obtain ⟨status, hd⟩ := hd.failed r hr
    change ∃ status', (k (d r).1 (d r).2).1 = _
    rw [hd]
    exact herror status _
  accepted := by
    intro w hw'
    change (k (d ⟨l, none⟩).1 (d ⟨l, none⟩).2).1 = _ at hw'
    cases hout : (d ⟨l, none⟩).1 with
    | error status =>
      obtain ⟨status', hk'⟩ := herror status (d ⟨l, none⟩).2
      rw [hout, hk'] at hw'
      cases hw'
    | ok v =>
      rw [hout] at hw'
      rcases hw.width l with hfail | hread
      · obtain ⟨status, hstatus⟩ := (hk v).failed _ hfail
        rw [hstatus] at hw'
        cases hw'
      · rw [hread] at hw'
        exact (hk v).accepted w hw' (hd.accepted v hout)

/-- The question every decoder asks after its last field. -/
theorem checked {k : Option Status → Decode (StatusOr β)}
    (hsome : ∀ status r, ∃ status', (k (some status) r).1 = .error status')
    (hnone : Ensures (k none) fun out => ∀ v, out = .ok v → Q v) :
    Says l (Decode.failure >>= k) Q where
  failed := by
    intro r hr
    obtain ⟨status, hstatus⟩ := ByteReader.exists_failure hr
    change ∃ status, (k r.failure r).1 = _
    rw [hstatus]
    exact hsome status r
  accepted := hnone _

end Says

theorem says_cadence (l : Bytes) : Says l decodeCadence fun c =>
    l[64]?.bind CadenceShape.ofByte? = some c.shape := by
  unfold decodeCadence
  iterate 8 refine .skip .u64v fun _ => ?_
  refine .byte fun shape => .checked (fun status _ => ⟨status, rfl⟩) ?_
  dsimp only
  split
  · exact .refuse
  · rename_i hshape
    refine .accept fun hbyte => ?_
    simp only [List.drop_drop, List.getElem?_drop, Nat.reduceAdd] at hbyte
    rw [hbyte]
    exact hshape

/-- The enumerations of a record are those whose discriminants stand in its bytes. -/
structure Discriminated (l : Bytes) (r : ApplicationRecord) : Prop where
  shape : l[208]?.bind CadenceShape.ofByte? = some r.desired.shape
  state : l[209]?.bind ApplicationState.ofByte? = some r.state
  lastKnownState : l[210]?.bind ApplicationState.ofByte? = some r.lastKnownState
  effect : l[211]?.bind EffectLabel.ofByte? = some r.effect
  evidenceKind : l[212]?.bind EvidenceKind.ofByte? = some r.evidenceKind
  drift : l[297]?.bind AuthorityDrift.ofByte? = some r.drift

theorem says_attempt (limits : Limits) (l : Bytes) :
    Says l (decodeAttempt limits) fun r =>
      Discriminated l r ∧ r.reason = .ofU16 (UInt16.ofNat (field l 295 2)) := by
  have hauthority : ∀ l : Bytes, Says l decodeAuthority fun _ => True := fun l =>
    ⟨concludes_authority.failed, fun _ _ => trivial⟩
  unfold decodeAttempt
  refine .skip .id fun _ => .skip .genRef fun _ => .skip .id fun _ => .skip .id fun _ =>
    .nested wide_authority (hauthority _) (fun status _ => ⟨status, rfl⟩) fun _ => ?_
  refine .nested wide_cadence (says_cadence _) (fun status _ => ⟨status, rfl⟩) fun desired => ?_
  refine .byte fun state => .byte fun lastState => .byte fun effect => .byte fun evidence => ?_
  iterate 6 refine .skip .u64v fun _ => ?_
  refine .skip .boolean fun _ => .skip .genRef fun _ => .skip .u64v fun _ => .skip .u64v fun _ =>
    .skip .boolean fun _ => .number (f := UInt16.ofNat) fun reason => .byte fun drift => ?_
  -- the text that follows has no fixed width, and no enumeration comes after it
  refine .field (.str _) fun _ _ => .skip .u64v fun _ => .skip .u64v fun _ => .skip .u64v fun _ =>
    .skip .boolean fun _ => .checked (fun status _ => ⟨status, rfl⟩) ?_
  dsimp only
  split
  · exact .refuse
  split
  · rename_i hstate' hlast' heffect' hevidence' hdrift'
    refine .accept fun hdrift hreason hevidence heffect hlast hstate hshape _ => ?_
    simp only [List.drop_drop, List.getElem?_drop, Nat.reduceAdd] at hdrift hevidence heffect
    simp only [List.drop_drop, List.getElem?_drop, Nat.reduceAdd] at hlast hstate hshape
    simp only [field, List.drop_drop, Nat.reduceAdd] at hreason
    exact ⟨⟨hshape, by rw [hstate]; exact hstate', by rw [hlast]; exact hlast',
      by rw [heffect]; exact heffect', by rw [hevidence]; exact hevidence',
      by rw [hdrift]; exact hdrift'⟩, congrArg ErrorCode.ofU16 hreason⟩
  · exact .refuse

/-- The bytes of a reference from `offset` on name something: neither half is zero. -/
def Named (l : Bytes) (offset : ℕ) : Prop := field l offset 8 ≠ 0 ∧ field l (offset + 8) 8 ≠ 0

theorem says_binding (limits : Limits) (l : Bytes) : Says l (decodeBinding limits) fun b =>
    (b.resource.known = true ↔ Named l 16) ∧ (b.path.known = true ↔ Named l 32) := by
  have hknown : ∀ {tag : Tag} (ref : GenRef tag) (i : ℕ),
      (ref.id.valid = true ↔ field (l.drop i) 0 8 ≠ 0) →
        (ref.generation.known = true ↔ field (l.drop i) 8 8 ≠ 0) →
          (ref.known = true ↔ Named l i) := by
    intro tag ref i hid hgeneration
    rw [GenRef.known, Bool.and_eq_true, hid, hgeneration]
    simp only [Named, field, List.drop_drop, Nat.add_zero]
  unfold decodeBinding
  refine .skip .id fun _ => .skip .generation fun _ => .genRef fun resource => .genRef fun path =>
    .skip .id fun _ => .skip .id fun _ => .skip .u64v fun _ => .skip .u64v fun _ =>
    .skip .boolean fun _ => .skip .id fun _ => .checked (fun status _ => ⟨status, rfl⟩) ?_
  dsimp only
  split
  · exact .refuse
  split
  · exact .refuse
  split
  · exact .refuse
  · simp only [List.drop_drop, Nat.reduceAdd]
    exact .accept fun hpath hpath' hresource hresource' =>
      ⟨hknown resource 16 hresource hresource', hknown path 32 hpath hpath'⟩

theorem says_policy (limits : Limits) (l : Bytes) : Says l (decodePolicy limits) fun p =>
    (p.ref.generation.known = true ↔ field l 8 8 ≠ 0) := by
  unfold decodePolicy
  refine .genRef fun ref => .field .u8v fun _ _ => .field .id fun _ _ => .field .id fun _ _ => ?_
  iterate 7 refine .field .u64v fun _ _ => ?_
  refine .field .u8v fun _ _ => .field .u64v fun _ _ => .field .genRef fun _ _ =>
    .field .id fun _ _ => .field .id fun _ _ => .field .id fun _ _ => .field .instant fun _ _ =>
    .field .u32v fun _ _ => .checked (fun status _ => ⟨status, rfl⟩) ?_
  dsimp only
  split
  · exact .refuse
  split
  · exact .refuse
  split
  · exact .refuse
  refine .skip fun exceptions => ?_
  split
  · exact .refuse
  split
  · exact .refuse
  · exact .accept fun _ hgeneration => hgeneration

/-- Listed codes are those below the first discriminant that is not. -/
theorem ErrorCode.ofU16_listed (raw : UInt16) : ofU16 raw ∈ listed ↔ raw.toNat < 38 := by
  unfold ofU16
  split
  · rename_i hbeyond
    exact ⟨fun h => absurd h (by simp [listed]), fun h => absurd hbeyond (Nat.not_le.2 h)⟩
  · rename_i hbelow
    have hlength : raw.toNat < listed.length := Nat.lt_of_not_le hbelow
    rw [List.getD_eq_getElem?_getD, List.getElem?_eq_getElem hlength, Option.getD_some]
    exact ⟨fun _ => hlength, fun _ => List.getElem_mem hlength⟩

/-! ### What every decoder ensures -/

theorem PacingPolicy.known_of_validate {p : PacingPolicy} {limits : Limits}
    (h : (p.validate limits).isOk = true) : p.ref.generation.known = true := by
  by_contra hunknown
  unfold validate at h
  by_cases hid : (!p.ref.id.valid) = true
  · rw [if_pos hid] at h
    cases h
  · rw [if_neg hid, if_pos (by simpa using hunknown)] at h
    cases h

theorem ensures_policy (limits : Limits) : Ensures (decodePolicy limits) fun out =>
    ∀ p, out = .ok p → ((PolicyStore.defaulted p).validate limits).isOk = true := by
  unfold decodePolicy
  iterate 20 refine Ensures.skip fun _ => ?_
  split
  · exact .refuse
  split
  · exact .refuse
  split
  · exact .refuse
  split
  · exact .refuse
  refine .skip fun exceptions => ?_
  split
  · exact .refuse
  · dsimp only
    split
    · exact .refuse
    · rename_i hvalid
      exact .accept (by simpa using hvalid)

theorem ensures_grant (limits : Limits) :
    Ensures (decodeGrant limits) fun out => ∀ g, out = .ok g → g.Legible limits := by
  unfold decodeGrant
  repeat refine Ensures.skip fun _ => ?_
  split
  · exact .refuse
  · split
    · exact .refuse
    · rename_i hceiling
      split
      · exact .refuse
      · rename_i hfloor
        exact .accept ⟨UInt64.not_lt.1 hceiling, UInt64.not_lt.1 hfloor⟩

/-- What decides whether an accepted value meets its own rules. A binding must name its resource
and its path in the input, a policy its generation, and the reason of an attempt must be listed;
everything else has been checked. -/
theorem decoded_valid_iff (limits : Limits) (bytes : Bytes) :
    (∀ b, (decodeBinding limits ⟨bytes, none⟩).1 = .ok b →
      (b.flow.valid = true ∧ b.generation.known = true ∧ b.resource.known = true ∧
          b.path.known = true ∧ b.declaredMaxBurstBytes ≤ limits.maxBurstBytes ∧
          b.declaredMaxBurstPackets ≤ limits.maxBurstPackets ↔
        Named bytes 16 ∧ Named bytes 32)) ∧
    (∀ p, (decodePolicy limits ⟨bytes, none⟩).1 = .ok p →
      ((p.validate limits).isOk = true ↔ field bytes 8 8 ≠ 0)) ∧
    (∀ e, (decodeEnvelope ⟨bytes, none⟩).1 = .ok e →
      e.authority.complete = true ∧ e.cadence.rateBps ≤ e.ceilingBps) ∧
    (∀ r, (decodeAttempt limits ⟨bytes, none⟩).1 = .ok r →
      (r.attempt.valid = true ∧ r.authority.complete = true ∧ Discriminated bytes r ∧
          r.reason ∈ ErrorCode.listed ↔
        field bytes 295 2 < 38)) ∧
    ∀ g, (decodeGrant limits ⟨bytes, none⟩).1 = .ok g →
      g.floorBps ≤ g.ceilingBps ∧ g.ceilingBps ≤ limits.maxRateBps := by
  refine ⟨fun b hb => ?_, fun p hp => ?_, fun e he => ?_, fun r hr => ?_, fun g hg => ?_⟩
  -- one decoder after the other: binding, policy, envelope, attempt, grant
  · have hlegible := ensures_binding limits _ b hb
    obtain ⟨hresource, hpath⟩ := (says_binding limits bytes).accepted b hb
    rw [← hresource, ← hpath]
    exact ⟨fun h => ⟨h.2.2.1, h.2.2.2.1⟩, fun h => ⟨hlegible.flow, hlegible.generation, h.1, h.2,
      hlegible.burstBytes, hlegible.burstPackets⟩⟩
  · have hvalid := ensures_policy limits _ p hp
    rw [← (says_policy limits bytes).accepted p hp]
    refine ⟨PacingPolicy.known_of_validate, fun hknown => ?_⟩
    unfold PolicyStore.defaulted at hvalid
    simpa only [hknown, Bool.not_true, Bool.false_eq_true, if_false] using hvalid
  · have hlegible := ensures_envelope _ e he
    exact ⟨hlegible.authority, hlegible.rate⟩
  · have hlegible := ensures_attempt limits _ r hr
    obtain ⟨hdiscriminated, hreason⟩ := (says_attempt limits bytes).accepted r hr
    have hraw : (UInt16.ofNat (field bytes 295 2)).toNat = field bytes 295 2 := by
      rw [UInt16.toNat_ofNat']
      exact Nat.mod_eq_of_lt (by simpa using field_lt bytes 295 2)
    rw [hreason, ErrorCode.ofU16_listed, hraw]
    exact ⟨fun h => h.2.2.2, fun h => ⟨hlegible.id, hlegible.authority, hdiscriminated, h⟩⟩
  · have hlegible := ensures_grant limits _ g hg
    exact ⟨hlegible.floor, hlegible.ceiling⟩

/-- A request to publish a policy: it names no generation. -/
def publicationRequest : PacingPolicy :=
  { ref := ⟨⟨1⟩, {}⟩, resource := ⟨⟨1⟩⟩, quantumBytes := 1500, windowNs := 1000000,
    path := ⟨⟨1⟩, ⟨1⟩⟩ }

/-- Its bytes are accepted, and the policy they hold is not one that validation accepts. -/
theorem decoded_unrevised :
    (decodePolicy {} ⟨(encodePolicy ⟨encodeCapacityBytes, [], none⟩ publicationRequest).buf,
      none⟩).1 = .ok publicationRequest ∧
    (publicationRequest.validate {}).isOk = false := by
  refine ⟨?_, by decide⟩
  obtain ⟨bytes, hemits, hreads⟩ :=
    @delimits_policy {} publicationRequest (by decide)
  have hread := hreads []
  rw [List.append_nil] at hread
  have hbuf := (hemits ⟨encodeCapacityBytes, [], none⟩ (by decide +kernel)).2
  rw [hbuf, List.nil_append, hread]

end Pacing
