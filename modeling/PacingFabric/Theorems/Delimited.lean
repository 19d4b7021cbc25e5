import PacingFabric.Theorems.RoundTrip

/-!
# Self-delimiting records

A decoder reads an encoding that other bytes follow, leaves exactly those bytes, and refuses
every proper part of the encoding. The first half is a round trip; the second follows from
how decoders read: what one accepts of some bytes it accepts of those bytes with more behind
them, and leaves the rest.

## Main definitions

* `Field`: a read that keeps a failure and does not look past what it consumes.
* `Settles`, `Concludes`: a decoder over a sound reader, and over any reader.
* `SelfDelimiting`: an encoder and a decoder are inverse inside any surrounding bytes.

## Main results

* `Concludes.refuses_part`: a decoder refuses every proper part of what it reads.
* `records_selfDelimiting`: the six record codecs.
-/

namespace Pacing

variable {α β : Type}

theorem ByteReader.exists_failure {r : ByteReader} (h : r.ok = false) :
    ∃ status, r.failure = some status := by
  cases hfailure : r.failure with
  | none => simp [ok, hfailure] at h
  | some status => exact ⟨status, rfl⟩

/-! ### Fields -/

/-- A failed reader stays failed; over a sound one, the field fails or reads the same of any
longer input. -/
structure Field (d : Decode α) : Prop where
  sticky : ∀ r : ByteReader, r.ok = false → (d r).2.ok = false
  grows : ∀ l, (d ⟨l, none⟩).2.ok = false ∨
    ∃ v l', ∀ rest, d ⟨l ++ rest, none⟩ = (v, ⟨l' ++ rest, none⟩)

namespace Field

theorem pure (v : α) : Field (Pure.pure v : Decode α) where
  sticky := fun _ h => h
  grows := fun l => .inr ⟨v, l, fun _ => rfl⟩

theorem bind {d : Decode α} {k : α → Decode β} (h : Field d) (hk : ∀ v, Field (k v)) :
    Field (d >>= k) where
  sticky := fun r hr => (hk _).sticky _ (h.sticky r hr)
  grows := by
    intro l
    rcases h.grows l with hfail | ⟨v, l', hread⟩
    · exact .inl ((hk _).sticky _ hfail)
    · have hbind : ∀ rest, (d >>= k) ⟨l ++ rest, none⟩ = k v ⟨l' ++ rest, none⟩ := by
        intro rest
        change k (d _).1 (d _).2 = _
        rw [hread rest]
      have hnil := hbind []
      rw [List.append_nil, List.append_nil] at hnil
      rw [hnil]
      rcases (hk v).grows l' with hfail | ⟨v', l'', hread'⟩
      · exact .inl hfail
      · exact .inr ⟨v', l'', fun rest => (hbind rest).trans (hread' rest)⟩

theorem take_failed {r : ByteReader} (h : r.ok = false) (n : ℕ) : r.take n = (none, r) := by
  unfold ByteReader.take
  rw [if_pos (by simp [h])]

theorem take_short {l : Bytes} {n : ℕ} (h : l.length < n) :
    ((ByteReader.mk l none).take n).1 = none ∧
      ((ByteReader.mk l none).take n).2.ok = false := by
  unfold ByteReader.take
  rw [if_neg (by simp [ByteReader.ok]), if_pos h]
  exact ⟨rfl, rfl⟩

theorem take_enough {l : Bytes} {n : ℕ} (h : n ≤ l.length) (rest : Bytes) :
    (ByteReader.mk (l ++ rest) none).take n = (some (l.take n), ⟨l.drop n ++ rest, none⟩) := by
  unfold ByteReader.take
  have hlength : n ≤ (l ++ rest).length := by
    rw [List.length_append]
    omega
  rw [if_neg (by simp [ByteReader.ok]), if_neg (Nat.not_lt.2 hlength)]
  simp only [List.take_append_of_le_length h, List.drop_append_of_le_length h]

theorem number_short {l : Bytes} {n : ℕ} (h : l.length < n) :
    ((ByteReader.mk l none).number n).2.ok = false := by
  obtain ⟨hnone, hfail⟩ := take_short h
  unfold ByteReader.number
  generalize (ByteReader.mk l none).take n = out at hnone hfail
  obtain ⟨bytes, r⟩ := out
  obtain rfl : bytes = none := hnone
  exact hfail

theorem number_enough {l : Bytes} {n : ℕ} (h : n ≤ l.length) :
    (ByteReader.mk l none).number n = (ofLittleEndian (l.take n), ⟨l.drop n, none⟩) := by
  have htake := take_enough h []
  rw [List.append_nil, List.append_nil] at htake
  simp only [ByteReader.number, htake]

/-- A field of fixed width. -/
theorem number (width : ℕ) (f : ℕ → α) :
    Field (fun r => (f (r.number width).1, (r.number width).2) : Decode α) where
  sticky := by
    intro r hr
    simp only [ByteReader.number, take_failed hr, hr]
  grows := by
    intro l
    rcases Nat.lt_or_ge l.length width with hshort | henough
    · exact .inl (number_short hshort)
    · right
      refine ⟨f (ofLittleEndian (l.take width)), l.drop width, fun rest => ?_⟩
      simp only [ByteReader.number, take_enough henough rest]

theorem u8v : Field Decode.u8v := number 1 UInt8.ofNat

theorem u16v : Field Decode.u16v := number 2 UInt16.ofNat

theorem u32v : Field Decode.u32v := number 4 UInt32.ofNat

theorem u64v : Field Decode.u64v := number 8 UInt64.ofNat

theorem boolean : Field Decode.boolean := u8v.bind fun v => pure (v != 0)

theorem id {tag : Tag} : Field (Decode.id : Decode (Id tag)) := u64v.bind fun _ => pure _

theorem generation : Field Decode.generation := u64v.bind fun _ => pure _

theorem genRef {tag : Tag} : Field (Decode.genRef : Decode (GenRef tag)) :=
  id.bind fun _ => generation.bind fun _ => pure _

theorem instant : Field Decode.instant := u64v.bind fun _ => pure _

theorem deadline : Field Decode.deadline := by
  refine boolean.bind fun v => ?_
  cases v with
  | true => exact instant.bind fun _ => pure _
  | false => exact u64v.bind fun _ => pure _

theorem str (maxLen : ℕ) : Field (Decode.str maxLen) where
  sticky := by
    intro r hr
    have hlen := u32v.sticky r hr
    unfold Decode.str
    generalize Decode.u32v r = out at hlen
    obtain ⟨n, r⟩ := out
    simp only at hlen
    simp only [hlen, Bool.not_false, if_true]
  grows := by
    intro l
    rcases u32v.grows l with hfail | ⟨n, l', hread⟩
    · left
      unfold Decode.str
      generalize Decode.u32v ⟨l, none⟩ = out at hfail
      obtain ⟨n, r⟩ := out
      simp only at hfail
      simp only [hfail, Bool.not_false, if_true]
    · -- the length is read; whether the string fits does not depend on what follows
      have hstr : ∀ rest, Decode.str maxLen ⟨l ++ rest, none⟩ =
          if n.toNat > maxLen then ([], ByteReader.fail ⟨l' ++ rest, none⟩
            (.of .oversized "decoded string exceeds bound"))
          else
            let out := (ByteReader.mk (l' ++ rest) none).take n.toNat
            (out.1.getD [], out.2) := by
        intro rest
        unfold Decode.str
        rw [hread rest]
        dsimp only
        rw [if_neg (by simp [ByteReader.ok])]
        rcases (ByteReader.mk (l' ++ rest) none).take n.toNat with ⟨_ | s, r⟩ <;> rfl
      by_cases hmax : n.toNat > maxLen
      · left
        have hnil := hstr []
        rw [List.append_nil, List.append_nil, if_pos hmax] at hnil
        rw [hnil]
        rfl
      · rcases Nat.lt_or_ge l'.length n.toNat with hshort | henough
        · left
          have hnil := hstr []
          rw [List.append_nil, List.append_nil, if_neg hmax] at hnil
          rw [hnil]
          obtain ⟨hnone, hfail⟩ := take_short hshort
          generalize (ByteReader.mk l' none).take n.toNat = out at hnone hfail
          obtain ⟨bytes, r⟩ := out
          obtain rfl : bytes = none := hnone
          exact hfail
        · right
          refine ⟨l'.take n.toNat, l'.drop n.toNat, fun rest => ?_⟩
          rw [hstr rest, if_neg hmax, take_enough henough rest]
          rfl

end Field

/-! ### Decoders -/

/-- Over a sound reader, the decoder refuses or accepts the same of any longer input. -/
def Settles (d : Decode (StatusOr α)) : Prop :=
  ∀ l, (∃ status, (d ⟨l, none⟩).1 = .error status) ∨
    ∃ v l', ∀ rest, d ⟨l ++ rest, none⟩ = (.ok v, ⟨l' ++ rest, none⟩)

/-- Moreover the decoder refuses over a failed reader. -/
structure Concludes (d : Decode (StatusOr α)) : Prop where
  settles : Settles d
  failed : ∀ r : ByteReader, r.ok = false → ∃ status, (d r).1 = .error status

namespace Settles

theorem refuse (status : Status) : Settles (Pure.pure (.error status) : Decode (StatusOr α)) :=
  fun _ => .inl ⟨status, rfl⟩

theorem accept (v : α) : Settles (Pure.pure (.ok v) : Decode (StatusOr α)) :=
  fun l => .inr ⟨v, l, fun _ => rfl⟩

/-- A decoder inside another one. -/
theorem bind {d : Decode (StatusOr α)} {k : StatusOr α → Decode (StatusOr β)} (h : Settles d)
    (herror : ∀ status r, ∃ status', (k (.error status) r).1 = .error status')
    (hok : ∀ v, Settles (k (.ok v))) : Settles (d >>= k) := by
  intro l
  rcases h l with ⟨status, hfail⟩ | ⟨v, l', hread⟩
  · left
    obtain ⟨status', hk⟩ := herror status (d ⟨l, none⟩).2
    refine ⟨status', ?_⟩
    change (k (d _).1 (d _).2).1 = _
    rw [hfail, hk]
  · have hbind : ∀ rest, (d >>= k) ⟨l ++ rest, none⟩ = k (.ok v) ⟨l' ++ rest, none⟩ := by
      intro rest
      change k (d _).1 (d _).2 = _
      rw [hread rest]
    have hnil := hbind []
    rw [List.append_nil, List.append_nil] at hnil
    rw [hnil]
    rcases hok v l' with hfail | ⟨v', l'', hread'⟩
    · exact .inl hfail
    · exact .inr ⟨v', l'', fun rest => (hbind rest).trans (hread' rest)⟩

end Settles

namespace Concludes

theorem field {d : Decode α} {k : α → Decode (StatusOr β)} (h : Field d)
    (hk : ∀ v, Concludes (k v)) : Concludes (d >>= k) where
  failed := fun r hr => (hk _).failed _ (h.sticky r hr)
  settles := by
    intro l
    rcases h.grows l with hfail | ⟨v, l', hread⟩
    · exact .inl ((hk _).failed _ hfail)
    · have hbind : ∀ rest, (d >>= k) ⟨l ++ rest, none⟩ = k v ⟨l' ++ rest, none⟩ := by
        intro rest
        change k (d _).1 (d _).2 = _
        rw [hread rest]
      have hnil := hbind []
      rw [List.append_nil, List.append_nil] at hnil
      rw [hnil]
      rcases (hk v).settles l' with hfail | ⟨v', l'', hread'⟩
      · exact .inl hfail
      · exact .inr ⟨v', l'', fun rest => (hbind rest).trans (hread' rest)⟩

/-- The question every decoder asks after its last field. -/
theorem checked {k : Option Status → Decode (StatusOr α)}
    (hsome : ∀ status r, ∃ status', (k (some status) r).1 = .error status')
    (hnone : Settles (k none)) : Concludes (Decode.failure >>= k) where
  failed := by
    intro r hr
    obtain ⟨status, hstatus⟩ := ByteReader.exists_failure hr
    change ∃ status, (k r.failure r).1 = _
    rw [hstatus]
    exact hsome status r
  settles := fun l => hnone l

/-- A decoder inside another one. -/
theorem bind {d : Decode (StatusOr α)} {k : StatusOr α → Decode (StatusOr β)} (h : Concludes d)
    (herror : ∀ status r, ∃ status', (k (.error status) r).1 = .error status')
    (hok : ∀ v, Settles (k (.ok v))) : Concludes (d >>= k) where
  settles := h.settles.bind herror hok
  failed := by
    intro r hr
    obtain ⟨status, hd⟩ := h.failed r hr
    obtain ⟨status', hk⟩ := herror status (d r).2
    refine ⟨status', ?_⟩
    change (k (d r).1 (d r).2).1 = _
    rw [hd, hk]

/-- Every proper part of what a decoder reads is refused. -/
theorem refuses_part {d : Decode (StatusOr α)} (h : Concludes d) {bytes p : Bytes} {value : α}
    (hreads : Reads d bytes (.ok value)) (hp : p <+: bytes) (hne : p ≠ bytes) :
    ∃ status, (d ⟨p, none⟩).1 = .error status := by
  rcases h.settles p with hfail | ⟨v, l', hread⟩
  · exact hfail
  · obtain ⟨missing, rfl⟩ := hp
    -- the whole is read to its end, so the part would have left its missing bytes unread
    have hwhole := hreads []
    rw [List.append_nil, hread missing] at hwhole
    have hnil : l' ++ missing = [] := congrArg (·.2.data) hwhole
    obtain rfl := (List.append_eq_nil_iff.1 hnil).2
    exact absurd (List.append_nil p).symm hne

end Concludes

private theorem refused {status : Status} (r : ByteReader) :
    ∃ status', ((Pure.pure (.error status) : Decode (StatusOr α)) r).1 = .error status' :=
  ⟨status, rfl⟩

/-! ### The six records -/

theorem concludes_cadence : Concludes decodeCadence := by
  unfold decodeCadence
  iterate 8 refine .field .u64v fun _ => ?_
  refine .field .u8v fun shape => .checked (fun _ => refused) ?_
  dsimp only
  split
  · exact .refuse _
  · exact .accept _

theorem concludes_authority : Concludes decodeAuthority := by
  unfold decodeAuthority
  iterate 5 refine .field .genRef fun _ => ?_
  iterate 3 refine .field .u64v fun _ => ?_
  refine .checked (fun _ => refused) ?_
  dsimp only
  split
  · exact .refuse _
  · exact .accept _

theorem concludes_binding (limits : Limits) : Concludes (decodeBinding limits) := by
  unfold decodeBinding
  refine .field .id fun _ => .field .generation fun _ => .field .genRef fun _ =>
    .field .genRef fun _ => .field .id fun _ => .field .id fun _ => .field .u64v fun _ =>
    .field .u64v fun _ => .field .boolean fun _ => .field .id fun _ =>
    .checked (fun _ => refused) ?_
  dsimp only
  split
  · exact .refuse _
  · split
    · exact .refuse _
    · split
      · exact .refuse _
      · exact .accept _

theorem concludes_exceptions (n : ℕ) (out : List ServiceClassException) :
    Concludes (decodeExceptions (n + 1) out) := by
  induction n generalizing out with
  | zero =>
    refine .field .id fun _ => .field .u64v fun _ => .field .u64v fun _ => .field .u64v fun _ =>
      .field .u64v fun _ => .field .u32v fun _ => .checked (fun _ => refused) ?_
    exact .accept _
  | succ n ih =>
    refine .field .id fun _ => .field .u64v fun _ => .field .u64v fun _ => .field .u64v fun _ =>
      .field .u64v fun _ => .field .u32v fun _ => .checked (fun _ => refused) ?_
    exact (ih _).settles

theorem settles_exceptions (n : ℕ) (out : List ServiceClassException) :
    Settles (decodeExceptions n out) := by
  cases n with
  | zero => exact .accept out
  | succ n => exact (concludes_exceptions n out).settles

theorem concludes_policy (limits : Limits) : Concludes (decodePolicy limits) := by
  unfold decodePolicy
  refine .field .genRef fun _ => .field .u8v fun _ => .field .id fun _ => .field .id fun _ => ?_
  iterate 7 refine .field .u64v fun _ => ?_
  refine .field .u8v fun _ => .field .u64v fun _ => .field .genRef fun _ => .field .id fun _ =>
    .field .id fun _ => .field .id fun _ => .field .instant fun _ => .field .u32v fun _ =>
    .checked (fun _ => refused) ?_
  dsimp only
  split
  · exact .refuse _
  · split
    · exact .refuse _
    · split
      · exact .refuse _
      · refine .bind (settles_exceptions _ _) (fun _ => refused) fun _ => ?_
        dsimp only
        split
        · exact .refuse _
        · exact .accept _

theorem concludes_envelope : Concludes decodeEnvelope := by
  unfold decodeEnvelope
  refine .field .genRef fun _ => .field .id fun _ => .field .id fun _ =>
    .bind concludes_authority (fun _ => refused) fun _ => ?_
  refine .bind concludes_cadence.settles (fun _ => refused) fun _ => ?_
  refine Concludes.settles ?_
  refine .field .u64v fun _ => .field .u64v fun _ => .field .u64v fun _ =>
    .field .boolean fun _ => .field .boolean fun _ => .field .id fun _ => .field .id fun _ => ?_
  iterate 6 refine .field .u64v fun _ => ?_
  refine .field .instant fun _ => .field .deadline fun _ => .field .boolean fun _ =>
    .field .boolean fun _ => .checked (fun _ => refused) ?_
  dsimp only
  split
  · exact .refuse _
  · split
    · exact .refuse _
    · exact .accept _

theorem concludes_attempt (limits : Limits) : Concludes (decodeAttempt limits) := by
  unfold decodeAttempt
  refine .field .id fun _ => .field .genRef fun _ => .field .id fun _ => .field .id fun _ =>
    .bind concludes_authority (fun _ => refused) fun _ => ?_
  refine .bind concludes_cadence.settles (fun _ => refused) fun _ => ?_
  refine Concludes.settles ?_
  iterate 4 refine .field .u8v fun _ => ?_
  iterate 6 refine .field .u64v fun _ => ?_
  refine .field .boolean fun _ => .field .genRef fun _ => .field .u64v fun _ =>
    .field .u64v fun _ => .field .boolean fun _ => .field .u16v fun _ => .field .u8v fun _ =>
    .field (.str _) fun _ => .field .u64v fun _ => .field .u64v fun _ => .field .u64v fun _ =>
    .field .boolean fun _ => .checked (fun _ => refused) ?_
  dsimp only
  split
  · exact .refuse _
  · split
    · exact .accept _
    · exact .refuse _

theorem concludes_grant (limits : Limits) : Concludes (decodeGrant limits) := by
  unfold decodeGrant
  refine .field .genRef fun _ => .field .id fun _ => .field .u64v fun _ => .field .u64v fun _ =>
    .field .u64v fun _ => .field .instant fun _ => .field .deadline fun _ => .field .id fun _ =>
    .field .boolean fun _ => .checked (fun _ => refused) ?_
  dsimp only
  split
  · exact .refuse _
  · split
    · exact .refuse _
    · exact .accept _

theorem concludes_backendDescriptor (limits : Limits) :
    Concludes (decodeBackendDescriptor limits) := by
  unfold decodeBackendDescriptor
  refine .field .genRef fun _ => .field (.str _) fun _ => .field .u8v fun _ =>
    .field .boolean fun _ => .field .u64v fun _ => .field .u64v fun _ => .field .u64v fun _ =>
    .checked (fun _ => refused) ?_
  dsimp only
  split
  · exact .refuse _
  · split
    · exact .refuse _
    · exact .accept _

/-! ### Inverse inside any surrounding bytes -/

/-- Every value that `accepts` holds of and that an empty writer has room for is read back
from its encoding, whatever follows, and from no proper part of it. -/
def SelfDelimiting (encode : ByteWriter → α → ByteWriter) (decode : Decode (StatusOr α))
    (accepts : α → Prop) : Prop :=
  ∀ value capacity payload, accepts value →
    (encode ⟨capacity, [], none⟩ value).finish = .ok payload →
    (∀ s, decode ⟨payload ++ s, none⟩ = (.ok value, ⟨s, none⟩)) ∧
      ∀ p, p <+: payload → p ≠ payload → ∃ status, (decode ⟨p, none⟩).1 = .error status

theorem Delimits.selfDelimiting {encode : ByteWriter → α → ByteWriter}
    {decode : Decode (StatusOr α)} {accepts : α → Prop} (hconcludes : Concludes decode)
    (h : ∀ value, accepts value → Delimits (encode · value) decode value) :
    SelfDelimiting encode decode accepts := by
  intro value capacity payload haccepts hpayload
  obtain ⟨bytes, hemits, hreads⟩ := h value haccepts
  obtain rfl := hemits.finish hpayload
  exact ⟨hreads, fun p hp hne => hconcludes.refuses_part hreads hp hne⟩

/-- A deadline that `at` or `none` built: nothing else builds one. -/
def Deadline.Sound (d : Deadline) : Prop := d.built = d

/-- The six record codecs are inverse inside any surrounding bytes, for the values their
decoders accept. -/
theorem records_selfDelimiting (limits : Limits) :
    SelfDelimiting encodeAttempt (decodeAttempt limits) (·.Legible limits) ∧
    SelfDelimiting encodeEnvelope decodeEnvelope (fun e => e.Legible ∧ e.validUntil.Sound) ∧
    SelfDelimiting encodePolicy (decodePolicy limits)
      (fun p => ((PolicyStore.defaulted p).validate limits).isOk = true) ∧
    SelfDelimiting encodeBinding (decodeBinding limits) (·.Legible limits) ∧
    SelfDelimiting encodeGrant (decodeGrant limits)
      (fun g => g.Legible limits ∧ g.validUntil.Sound) ∧
    SelfDelimiting encodeBackendDescriptor (decodeBackendDescriptor limits)
      (·.Legible limits) := by
  refine ⟨?_, ?_, ?_, ?_, ?_, ?_⟩
  · exact Delimits.selfDelimiting (concludes_attempt limits) fun r h => delimits_attempt h
  · refine Delimits.selfDelimiting concludes_envelope fun e h => ?_
    have hdelimits := delimits_envelope h.1
    rwa [show e.validUntil.built = e.validUntil from h.2] at hdelimits
  · exact Delimits.selfDelimiting (concludes_policy limits) fun p h => delimits_policy h
  · exact Delimits.selfDelimiting (concludes_binding limits) fun b h => delimits_binding h
  · refine Delimits.selfDelimiting (concludes_grant limits) fun g h => ?_
    have hdelimits := delimits_grant h.1
    rwa [show g.validUntil.built = g.validUntil from h.2] at hdelimits
  · exact Delimits.selfDelimiting (concludes_backendDescriptor limits) fun d h =>
      delimits_backendDescriptor h

/-- A binding in front of two other bytes, and without its last one. -/
example :
    let binding : FlowBinding :=
      { flow := ⟨1⟩, generation := ⟨1⟩, resource := ⟨⟨1⟩, ⟨1⟩⟩, path := ⟨⟨1⟩, ⟨1⟩⟩ }
    let payload := (encodeBinding ⟨1024, [], none⟩ binding).buf
    payload.length = 89 ∧
      (decodeBinding {} ⟨payload ++ [7, 7], none⟩).1 = .ok binding ∧
      (decodeBinding {} ⟨payload ++ [7, 7], none⟩).2.data = [7, 7] ∧
      (decodeBinding {} ⟨payload.take 88, none⟩).1 =
        .error (.of .malformedInput "truncated encoded input") :=
  ⟨by decide +kernel, by decide +kernel, by decide +kernel, by decide +kernel⟩

end Pacing
