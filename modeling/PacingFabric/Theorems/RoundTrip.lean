import PacingFabric.Model.Operations

/-!
# Round trips of the record payloads

`Emits encode bytes` says that an encoder that is not poisoned appended `bytes`, and
`Reads decode bytes value` that a decoder consumes exactly `bytes` and answers `value`.
Both compose field by field, so a payload round trip is the composition of its fields.

## Main results

* `decodePayload_of_reads`: an encoder and a decoder over the same bytes are inverse on
  whole payloads.
* `accepts_binding`, `accepts_policy`, `accepts_attempt`, …: what each decoder accepts of
  what its encoder wrote.
* `ensures_binding`, `ensures_envelope`, `ensures_attempt`, …: whatever a decoder accepts
  has the property its encoder needs.
-/

namespace Pacing

/-! ### Encoders -/

/-- An encoder that leaves a writer sound has appended `bytes`. -/
def Emits (encode : ByteWriter → ByteWriter) (bytes : Bytes) : Prop :=
  ∀ w, (encode w).poison = none → w.poison = none ∧ (encode w).buf = w.buf ++ bytes

namespace Emits

variable {encode : ByteWriter → ByteWriter} {bytes : Bytes}

theorem start : Emits (fun w => w) [] := fun _ h => ⟨h, (List.append_nil _).symm⟩

theorem raw (h : Emits encode bytes) (data : Bytes) :
    Emits (fun w => (encode w).raw data) (bytes ++ data) := by
  intro w hw
  unfold ByteWriter.raw ByteWriter.ok at hw ⊢
  cases hp : (encode w).poison with
  | some status => simp [hp] at hw
  | none =>
    obtain ⟨hnone, hbuf⟩ := h w hp
    simp only [hp, Option.isNone_none, Bool.not_true, Bool.false_eq_true, if_false] at hw ⊢
    split at hw
    · simp at hw
    · rename_i hfits
      rw [if_neg hfits]
      exact ⟨hnone, by rw [hbuf, List.append_assoc]⟩

theorem u8v (h : Emits encode bytes) (v : UInt8) :
    Emits (fun w => (encode w).u8v v) (bytes ++ [v]) := h.raw _

theorem u16v (h : Emits encode bytes) (v : UInt16) :
    Emits (fun w => (encode w).u16v v) (bytes ++ littleEndian 2 v.toNat) := h.raw _

theorem u32v (h : Emits encode bytes) (v : UInt32) :
    Emits (fun w => (encode w).u32v v) (bytes ++ littleEndian 4 v.toNat) := h.raw _

theorem u64v (h : Emits encode bytes) (v : UInt64) :
    Emits (fun w => (encode w).u64v v) (bytes ++ littleEndian 8 v.toNat) := h.raw _

theorem boolean (h : Emits encode bytes) (v : Bool) :
    Emits (fun w => (encode w).boolean v) (bytes ++ [if v then 1 else 0]) := h.u8v _

theorem id {tag : Tag} (h : Emits encode bytes) (v : Id tag) :
    Emits (fun w => (encode w).id v) (bytes ++ littleEndian 8 v.value.toNat) := h.u64v _

theorem generation (h : Emits encode bytes) (v : Generation) :
    Emits (fun w => (encode w).generation v) (bytes ++ littleEndian 8 v.value.toNat) :=
  h.u64v _

end Emits

/-- The bytes of a reference. -/
def GenRef.wire {tag : Tag} (ref : GenRef tag) : Bytes :=
  littleEndian 8 ref.id.value.toNat ++ littleEndian 8 ref.generation.value.toNat

/-- The bytes of a length-prefixed string. -/
def stringWire (s : Bytes) : Bytes := littleEndian 4 s.length ++ s

namespace Emits

variable {encode : ByteWriter → ByteWriter} {bytes : Bytes}

theorem genRef {tag : Tag} (h : Emits encode bytes) (ref : GenRef tag) :
    Emits (fun w => (encode w).genRef ref) (bytes ++ ref.wire) := by
  have hfields := (h.id ref.id).generation ref.generation
  rwa [List.append_assoc] at hfields

theorem str (h : Emits encode bytes) (s : Bytes) :
    Emits (fun w => (encode w).str s) (bytes ++ stringWire s) := by
  intro w hw
  have hstr := (h.u32v (UInt32.ofNat s.length)).raw s w
  unfold ByteWriter.str ByteWriter.ok at hw ⊢
  cases hp : (encode w).poison with
  | some status => simp [hp] at hw
  | none =>
    simp only [hp, Option.isNone_none, Bool.not_true, Bool.false_eq_true, if_false] at hw ⊢
    split at hw
    · simp at hw
    · rename_i hbound
      rw [if_neg hbound]
      obtain ⟨hnone, hbuf⟩ := hstr hw
      have hlength : (UInt32.ofNat s.length).toNat = s.length := by
        rw [UInt32.toNat_ofNat']
        refine Nat.mod_eq_of_lt ?_
        simp only [ByteWriter.maxStringBytes] at hbound
        omega
      exact ⟨hnone, by rw [hbuf, hlength, stringWire, List.append_assoc]⟩

/-- The finished payload is what the encoder emitted. -/
theorem finish (h : Emits encode bytes) {capacity : ℕ} {payload : Bytes}
    (hp : (encode ⟨capacity, [], none⟩).finish = .ok payload) : payload = bytes := by
  unfold ByteWriter.finish at hp
  split at hp
  · cases hp
  · rename_i hnone
    cases hp
    exact (h _ hnone).2

end Emits

/-! ### Decoders -/

/-- A decoder consumes exactly `bytes` and answers `value`. -/
def Reads {α : Type} (decode : Decode α) (bytes : Bytes) (value : α) : Prop :=
  ∀ rest, decode ⟨bytes ++ rest, none⟩ = (value, ⟨rest, none⟩)

namespace Reads

variable {α β : Type}

theorem pure (value : α) : Reads (Pure.pure value) [] value := fun _ => rfl

theorem bind {d : Decode α} {k : α → Decode β} {bytes bytes' : Bytes} {v : α} {v' : β}
    (h : Reads d bytes v) (h' : Reads (k v) bytes' v') :
    Reads (d >>= k) (bytes ++ bytes') v' := by
  intro rest
  change (k (d ⟨bytes ++ bytes' ++ rest, none⟩).1) (d ⟨bytes ++ bytes' ++ rest, none⟩).2 = _
  rw [List.append_assoc, h (bytes' ++ rest)]
  exact h' rest

/-- The last field of a decoder. -/
theorem bind_nil {d : Decode α} {k : α → Decode β} {bytes : Bytes} {v : α} {v' : β}
    (h : Reads d bytes v) (h' : Reads (k v) [] v') : Reads (d >>= k) bytes v' := by
  have := h.bind h'
  rwa [List.append_nil] at this

/-- A step that reads nothing. -/
theorem nil_bind {d : Decode α} {k : α → Decode β} {bytes : Bytes} {v : α} {v' : β}
    (h : Reads d [] v) (h' : Reads (k v) bytes v') : Reads (d >>= k) bytes v' :=
  h.bind h'

theorem failure : Reads Decode.failure [] none := fun _ => rfl

private theorem take_append (bytes rest : Bytes) :
    (ByteReader.mk (bytes ++ rest) none).take bytes.length =
      (some bytes, ⟨rest, none⟩) := by
  simp [ByteReader.take, ByteReader.ok]

private theorem number {n v : ℕ} (hv : v < 256 ^ n) (rest : Bytes) :
    (ByteReader.mk (littleEndian n v ++ rest) none).number n = (v, ⟨rest, none⟩) := by
  have htake := take_append (littleEndian n v) rest
  rw [length_littleEndian] at htake
  simp only [ByteReader.number, htake, ofLittleEndian_littleEndian, Nat.mod_eq_of_lt hv]

theorem u8v (v : UInt8) : Reads Decode.u8v [v] v := by
  intro rest
  have h := number (n := 1) (v := v.toNat) (by have := v.toNat_lt; omega) rest
  simp only [littleEndian, UInt8.ofNat_toNat] at h
  simp only [Decode.u8v, h, UInt8.ofNat_toNat]

theorem u16v (v : UInt16) : Reads Decode.u16v (littleEndian 2 v.toNat) v := by
  intro rest
  have h := number (n := 2) (v := v.toNat) (by have := v.toNat_lt; omega) rest
  simp only [Decode.u16v, h, UInt16.ofNat_toNat]

theorem u32v (v : UInt32) : Reads Decode.u32v (littleEndian 4 v.toNat) v := by
  intro rest
  have h := number (n := 4) (v := v.toNat) (by have := v.toNat_lt; omega) rest
  simp only [Decode.u32v, h, UInt32.ofNat_toNat]

theorem u64v (v : UInt64) : Reads Decode.u64v (littleEndian 8 v.toNat) v := by
  intro rest
  have h := number (n := 8) (v := v.toNat) (by have := v.toNat_lt; omega) rest
  simp only [Decode.u64v, h, UInt64.ofNat_toNat]

theorem boolean (v : Bool) : Reads Decode.boolean [if v then 1 else 0] v := by
  intro rest
  rw [Decode.boolean, u8v _ rest]
  cases v <;> rfl

theorem id {tag : Tag} (v : Id tag) :
    Reads Decode.id (littleEndian 8 v.value.toNat) v := by
  rw [Decode.id]
  exact (u64v v.value).bind_nil (pure _)

theorem generation (v : Generation) :
    Reads Decode.generation (littleEndian 8 v.value.toNat) v := by
  rw [Decode.generation]
  exact (u64v v.value).bind_nil (pure _)

theorem genRef {tag : Tag} (ref : GenRef tag) : Reads Decode.genRef ref.wire ref := by
  rw [Decode.genRef]
  exact (id ref.id).bind ((generation ref.generation).bind_nil (pure _))

theorem instant (v : Instant) : Reads Decode.instant (littleEndian 8 v.ns.toNat) v := by
  rw [Decode.instant]
  exact (u64v v.ns).bind_nil (pure _)

theorem str {maxLen : ℕ} {s : Bytes} (hmax : s.length ≤ maxLen) (h32 : s.length < 2 ^ 32) :
    Reads (Decode.str maxLen) (stringWire s) s := by
  intro rest
  have hlength : (UInt32.ofNat s.length).toNat = s.length := by
    rw [UInt32.toNat_ofNat']
    exact Nat.mod_eq_of_lt h32
  have hread := u32v (UInt32.ofNat s.length) (s ++ rest)
  rw [hlength] at hread
  rw [stringWire, List.append_assoc, Decode.str, hread]
  simp only [ByteReader.ok, Option.isNone_none, Bool.not_true, Bool.false_eq_true, if_false,
    hlength, if_neg (Nat.not_lt.2 hmax), take_append]

end Reads

/-- An encoder and a decoder over the same bytes: the payload decodes, and the reader is
exhausted. -/
theorem decodePayload_of_reads {α : Type} {encode : ByteWriter → ByteWriter} {bytes : Bytes}
    {decode : Decode (StatusOr α)} {value : α} (hemits : Emits encode bytes)
    (hreads : Reads decode bytes (.ok value)) {capacity : ℕ} {payload : Bytes}
    (hp : (encode ⟨capacity, [], none⟩).finish = .ok payload) :
    decodePayload decode payload = some value := by
  obtain rfl := hemits.finish hp
  have h := hreads []
  rw [List.append_nil] at h
  unfold decodePayload
  rw [h]
  rfl

/-- The encoder and the decoder of one value are about the same bytes. -/
def Delimits {α : Type} (encode : ByteWriter → ByteWriter) (decode : Decode (StatusOr α))
    (value : α) : Prop :=
  ∃ bytes, Emits encode bytes ∧ Reads decode bytes (.ok value)

theorem Delimits.payload {α : Type} {encode : ByteWriter → ByteWriter}
    {decode : Decode (StatusOr α)} {value : α} (h : Delimits encode decode value)
    {capacity : ℕ} {payload : Bytes}
    (hp : (encode ⟨capacity, [], none⟩).finish = .ok payload) :
    decodePayload decode payload = some value := by
  obtain ⟨bytes, hemits, hreads⟩ := h
  exact decodePayload_of_reads hemits hreads hp

/-! ### Shared parts -/

/-- Writes a chain of fields as one list of bytes. -/
theorem Emits.congr {encode : ByteWriter → ByteWriter} {bytes bytes' : Bytes}
    (h : Emits encode bytes) (heq : bytes = bytes') : Emits encode bytes' := heq ▸ h

/-- The bytes of a cadence. -/
def Cadence.wire (c : Cadence) : Bytes :=
  littleEndian 8 c.rateBps.toNat ++ (littleEndian 8 c.quantumBytes.toNat ++
    (littleEndian 8 c.intervalNs.toNat ++ (littleEndian 8 c.windowNs.toNat ++
    (littleEndian 8 c.grantsPerWindow.toNat ++ (littleEndian 8 c.bytesPerWindow.toNat ++
    (littleEndian 8 c.burstBytes.toNat ++ (littleEndian 8 c.burstPackets.toNat ++
    [c.shape.toByte])))))))

theorem emits_cadence {encode : ByteWriter → ByteWriter} {bytes : Bytes}
    (h : Emits encode bytes) (c : Cadence) :
    Emits (fun w => encodeCadence (encode w) c) (bytes ++ c.wire) := by
  refine (((((((((h.u64v c.rateBps).u64v c.quantumBytes).u64v c.intervalNs).u64v
    c.windowNs).u64v c.grantsPerWindow).u64v c.bytesPerWindow).u64v c.burstBytes).u64v
    c.burstPackets).u8v c.shape.toByte).congr ?_
  simp only [Cadence.wire, List.append_assoc]

theorem CadenceShape.ofByte?_toByte (s : CadenceShape) : ofByte? s.toByte = some s := by
  cases s <;> rfl

theorem reads_cadence (c : Cadence) : Reads decodeCadence c.wire (.ok c) := by
  unfold decodeCadence Cadence.wire
  refine (Reads.u64v _).bind ((Reads.u64v _).bind ((Reads.u64v _).bind ((Reads.u64v _).bind
    ((Reads.u64v _).bind ((Reads.u64v _).bind ((Reads.u64v _).bind ((Reads.u64v _).bind
    ((Reads.u8v _).bind_nil (Reads.failure.nil_bind ?_)))))))))
  dsimp only
  rw [CadenceShape.ofByte?_toByte]
  exact .pure _

/-- The bytes of an authority vector. -/
def AuthorityVector.wire (v : AuthorityVector) : Bytes :=
  v.flow.wire ++ (v.resource.wire ++ (v.policy.wire ++ (v.rateGrant.wire ++ (v.path.wire ++
    (littleEndian 8 v.epoch.value.toNat ++ (littleEndian 8 v.coordinatorBoot.counter.toNat ++
    littleEndian 8 v.coordinatorBoot.nonce.toNat))))))

theorem emits_authority {encode : ByteWriter → ByteWriter} {bytes : Bytes}
    (h : Emits encode bytes) (v : AuthorityVector) :
    Emits (fun w => encodeAuthority (encode w) v) (bytes ++ v.wire) := by
  refine ((((((((h.genRef v.flow).genRef v.resource).genRef v.policy).genRef
    v.rateGrant).genRef v.path).u64v v.epoch.value).u64v v.coordinatorBoot.counter).u64v
    v.coordinatorBoot.nonce).congr ?_
  simp only [AuthorityVector.wire, List.append_assoc]

theorem reads_authority {v : AuthorityVector} (h : v.complete = true) :
    Reads decodeAuthority v.wire (.ok v) := by
  unfold decodeAuthority AuthorityVector.wire
  refine (Reads.genRef _).bind ((Reads.genRef _).bind ((Reads.genRef _).bind ((Reads.genRef
    _).bind ((Reads.genRef _).bind ((Reads.u64v _).bind ((Reads.u64v _).bind
    ((Reads.u64v _).bind_nil (Reads.failure.nil_bind ?_))))))))
  dsimp only
  rw [if_neg (by simpa using h)]
  exact .pure _

/-! ### The payloads -/

/-- What `decode_binding` asks of a binding. -/
structure FlowBinding.Legible (limits : Limits) (b : FlowBinding) : Prop where
  flow : b.flow.valid = true
  generation : b.generation.known = true
  burstBytes : b.declaredMaxBurstBytes ≤ limits.maxBurstBytes
  burstPackets : b.declaredMaxBurstPackets ≤ limits.maxBurstPackets

theorem delimits_binding {limits : Limits} {b : FlowBinding} (h : b.Legible limits) :
    Delimits (encodeBinding · b) (decodeBinding limits) b := by
  have hemits := (((((((((Emits.start.id b.flow).generation b.generation).genRef
    b.resource).genRef b.path).id b.serviceClass).id b.tenant).u64v
    b.declaredMaxBurstBytes).u64v b.declaredMaxBurstPackets).boolean b.quiesced).id
    b.provenance
  simp only [List.append_assoc, List.nil_append] at hemits
  refine ⟨_, hemits, ?_⟩
  unfold decodeBinding
  refine (Reads.id _).bind ((Reads.generation _).bind ((Reads.genRef _).bind ((Reads.genRef
    _).bind ((Reads.id _).bind ((Reads.id _).bind ((Reads.u64v _).bind ((Reads.u64v _).bind
    ((Reads.boolean _).bind ((Reads.id _).bind_nil (Reads.failure.nil_bind ?_))))))))))
  dsimp only
  rw [if_neg (by simp [h.flow, h.generation]), if_neg (UInt64.not_lt.2 h.burstBytes),
    if_neg (UInt64.not_lt.2 h.burstPackets)]
  exact .pure _

theorem accepts_binding {limits : Limits} {b : FlowBinding} {capacity : ℕ} {payload : Bytes}
    (h : b.Legible limits) (hp : (encodeBinding ⟨capacity, [], none⟩ b).finish = .ok payload) :
    decodePayload (decodeBinding limits) payload = some b :=
  (delimits_binding h).payload hp

/-- The bytes of the exception table. -/
def exceptionWire (ex : ServiceClassException) : Bytes :=
  littleEndian 8 ex.serviceClass.value.toNat ++ (littleEndian 8 ex.minRateBps.toNat ++
    (littleEndian 8 ex.rateSharePpm.toNat ++ (littleEndian 8 ex.burstBytes.toNat ++
    (littleEndian 8 ex.burstPackets.toNat ++ littleEndian 4 ex.priority.toNat))))

theorem emits_exceptions (exs : List ServiceClassException) :
    ∀ {encode : ByteWriter → ByteWriter} {bytes : Bytes}, Emits encode bytes →
      Emits (fun w => exs.foldl encodeException (encode w))
        (bytes ++ (exs.map exceptionWire).flatten) := by
  induction exs with
  | nil =>
    intro encode bytes h
    simpa using h
  | cons ex rest ih =>
    intro encode bytes h
    have hex : Emits (fun w => encodeException (encode w) ex) (bytes ++ exceptionWire ex) :=
      ((((((h.id ex.serviceClass).u64v ex.minRateBps).u64v ex.rateSharePpm).u64v
        ex.burstBytes).u64v ex.burstPackets).u32v ex.priority).congr (by
          simp only [exceptionWire, List.append_assoc])
    exact (ih hex).congr (by simp only [List.map_cons, List.flatten_cons, List.append_assoc])

theorem reads_exceptions (exs out : List ServiceClassException) :
    Reads (decodeExceptions exs.length out) (exs.map exceptionWire).flatten
      (.ok (out ++ exs)) := by
  induction exs generalizing out with
  | nil => simpa [decodeExceptions] using Reads.pure (Except.ok out : StatusOr _)
  | cons ex rest ih =>
    rw [List.length_cons, decodeExceptions, List.map_cons, List.flatten_cons, exceptionWire]
    simp only [List.append_assoc]
    refine (Reads.id _).bind ((Reads.u64v _).bind ((Reads.u64v _).bind ((Reads.u64v _).bind
      ((Reads.u64v _).bind ((Reads.u32v _).bind (Reads.failure.nil_bind ?_))))))
    have h := ih (out ++ [ex])
    rwa [List.append_assoc, List.singleton_append] at h

theorem PacingLayer.ofByte?_toByte (l : PacingLayer) : ofByte? l.toByte = some l := by
  cases l <;> rfl

/-- A chain of refusals that ends well refused nothing. -/
theorem isOk_ite {c : Prop} [Decidable c] {code : ErrorCode} {detail : Bytes} {s : Status}
    (h : (if c then Status.of code detail else s).isOk = true) (hcode : code ≠ .ok) :
    ¬ c ∧ s.isOk = true := by
  split at h
  · simp [Status.of, Status.isOk, hcode] at h
  · exact ⟨by assumption, h⟩

theorem PacingPolicy.of_validate {p : PacingPolicy} {limits : Limits}
    (h : (p.validate limits).isOk = true) : p.ref.generation.known = true ∧
      p.exceptions.length ≤ limits.maxServiceClassExceptions.toNat := by
  unfold PacingPolicy.validate at h
  obtain ⟨-, h⟩ := isOk_ite h nofun
  obtain ⟨hknown, h⟩ := isOk_ite h nofun
  obtain ⟨-, h⟩ := isOk_ite h nofun
  obtain ⟨-, h⟩ := isOk_ite h nofun
  obtain ⟨-, h⟩ := isOk_ite h nofun
  obtain ⟨-, h⟩ := isOk_ite h nofun
  obtain ⟨-, h⟩ := isOk_ite h nofun
  obtain ⟨-, h⟩ := isOk_ite h nofun
  obtain ⟨-, h⟩ := isOk_ite h nofun
  obtain ⟨-, h⟩ := isOk_ite h nofun
  obtain ⟨-, h⟩ := isOk_ite h nofun
  obtain ⟨-, h⟩ := isOk_ite h nofun
  obtain ⟨-, h⟩ := isOk_ite h nofun
  obtain ⟨hbound, -⟩ := isOk_ite h nofun
  exact ⟨by simpa using hknown, Nat.le_of_not_lt hbound⟩

theorem PolicyStore.defaulted_exceptions (p : PacingPolicy) :
    (PolicyStore.defaulted p).exceptions = p.exceptions := by
  unfold PolicyStore.defaulted
  split <;> rfl

/-- A policy that validation accepts once it has a generation. -/
theorem delimits_policy {limits : Limits} {p : PacingPolicy}
    (hvalid : ((PolicyStore.defaulted p).validate limits).isOk = true) :
    Delimits (encodePolicy · p) (decodePolicy limits) p := by
  have hbound := (PacingPolicy.of_validate hvalid).2
  rw [PolicyStore.defaulted_exceptions] at hbound
  have hlength : (UInt32.ofNat p.exceptions.length).toNat = p.exceptions.length := by
    rw [UInt32.toNat_ofNat']
    have := limits.maxServiceClassExceptions.toNat_lt
    exact Nat.mod_eq_of_lt (by omega)
  have hemits := emits_exceptions p.exceptions ((((((((((((((((((((Emits.start.genRef
    p.ref).u8v p.layer.toByte).id p.resource).id p.flow).u64v p.rateSharePpm).u64v
    p.rateBps).u64v p.minRateBps).u64v p.burstBytes).u64v p.burstPackets).u64v
    p.quantumBytes).u64v p.windowNs).u8v p.shape.toByte).u64v p.grantsPerWindowHint).genRef
    p.path).id p.defaultServiceClass).id p.tenant).id p.provenance).u64v
    p.publishedAt.ns).u32v (UInt32.ofNat p.exceptions.length)))
  simp only [List.append_assoc, List.nil_append] at hemits
  refine ⟨_, hemits, ?_⟩
  unfold decodePolicy
  refine (Reads.genRef _).bind ((Reads.u8v _).bind ((Reads.id _).bind ((Reads.id _).bind
    ((Reads.u64v _).bind ((Reads.u64v _).bind ((Reads.u64v _).bind ((Reads.u64v _).bind
    ((Reads.u64v _).bind ((Reads.u64v _).bind ((Reads.u64v _).bind ((Reads.u8v _).bind
    ((Reads.u64v _).bind ((Reads.genRef _).bind ((Reads.id _).bind ((Reads.id _).bind
    ((Reads.id _).bind ((Reads.instant _).bind ((Reads.u32v _).bind
    (Reads.failure.nil_bind ?_)))))))))))))))))))
  dsimp only
  rw [PacingLayer.ofByte?_toByte, CadenceShape.ofByte?_toByte]
  dsimp only
  rw [if_neg (by rw [gt_iff_lt, UInt32.lt_iff_toNat_lt, hlength]; omega), hlength]
  refine (reads_exceptions p.exceptions []).bind_nil ?_
  dsimp only [List.nil_append]
  change Reads (if !((PolicyStore.defaulted p).validate limits).isOk then _ else _) [] _
  rw [if_neg (by simp [hvalid])]
  exact .pure _

/-- A policy that its own validation accepts. -/
theorem accepts_policy {limits : Limits} {p : PacingPolicy} {capacity : ℕ} {payload : Bytes}
    (hvalid : (p.validate limits).isOk = true)
    (hp : (encodePolicy ⟨capacity, [], none⟩ p).finish = .ok payload) :
    decodePayload (decodePolicy limits) payload = some p := by
  have hknown := (PacingPolicy.of_validate hvalid).1
  have hdefault : PolicyStore.defaulted p = p := if_neg (by simp [hknown])
  exact (delimits_policy (by rwa [hdefault])).payload hp

/-- What `decode_envelope` asks of an envelope. -/
structure PacingEnvelope.Legible (e : PacingEnvelope) : Prop where
  id : e.ref.id.valid = true
  generation : e.ref.generation.known = true
  flow : e.flow.valid = true
  authority : e.authority.complete = true
  rate : e.cadence.rateBps ≤ e.ceilingBps

/-- The deadline that `at` or `none` builds from the same flag and instant. -/
def Deadline.built (d : Deadline) : Deadline := if d.set then .at_ d.instant else {}

/-- An unset deadline is written as a clear flag and a zero that is skipped. -/
theorem reads_deadline (d : Deadline) : Reads Decode.deadline
    ([if d.set then 1 else 0] ++ littleEndian 8 d.nsOrZero.toNat) d.built := by
  rw [Decode.deadline]
  cases hset : d.set with
  | true =>
    refine (Reads.boolean true).bind ?_
    simp only [Deadline.nsOrZero, Deadline.built, hset, if_true]
    exact (Reads.instant d.instant).bind_nil (.pure _)
  | false =>
    refine (Reads.boolean false).bind ?_
    simp only [Deadline.built, hset, Bool.false_eq_true, if_false]
    exact (Reads.u64v _).bind_nil (.pure _)

theorem delimits_envelope {e : PacingEnvelope} (h : e.Legible) :
    Delimits (encodeEnvelope · e) decodeEnvelope { e with validUntil := e.validUntil.built } := by
  have hhead := emits_cadence (emits_authority (((Emits.start.genRef e.ref).id e.flow).id
    e.resource) e.authority) e.cadence
  have hemits := (((((((((((((((((hhead.u64v e.requestedRateBps).u64v e.ceilingBps).u64v
    e.floorBps).boolean e.clampedToCeiling).boolean e.clampedToFloor).id e.serviceClass).id
    e.provenance.id).u64v e.provenance.sequence).u64v e.provenance.fabricInstance).u64v
    e.provenance.bindingDigest).u64v e.provenance.policyDigest).u64v
    e.provenance.grantDigest).u64v e.provenance.cadenceDigest).u64v e.derivedAt.ns).boolean
    e.validUntil.set).u64v e.validUntil.nsOrZero).boolean e.upstreamSynthetic).boolean
    e.policySynthetic
  have hreads : Reads decodeEnvelope (e.ref.wire ++ (littleEndian 8 e.flow.value.toNat ++
      (littleEndian 8 e.resource.value.toNat ++ (e.authority.wire ++ (e.cadence.wire ++
      (littleEndian 8 e.requestedRateBps.toNat ++ (littleEndian 8 e.ceilingBps.toNat ++
      (littleEndian 8 e.floorBps.toNat ++ ([if e.clampedToCeiling then 1 else 0] ++
      ([if e.clampedToFloor then 1 else 0] ++ (littleEndian 8 e.serviceClass.value.toNat ++
      (littleEndian 8 e.provenance.id.value.toNat ++
      (littleEndian 8 e.provenance.sequence.toNat ++
      (littleEndian 8 e.provenance.fabricInstance.toNat ++
      (littleEndian 8 e.provenance.bindingDigest.toNat ++
      (littleEndian 8 e.provenance.policyDigest.toNat ++
      (littleEndian 8 e.provenance.grantDigest.toNat ++
      (littleEndian 8 e.provenance.cadenceDigest.toNat ++
      (littleEndian 8 e.derivedAt.ns.toNat ++ (([if e.validUntil.set then 1 else 0] ++
      littleEndian 8 e.validUntil.nsOrZero.toNat) ++
      ([if e.upstreamSynthetic then 1 else 0] ++
      [if e.policySynthetic then 1 else 0])))))))))))))))))))))
      (.ok { e with validUntil := e.validUntil.built }) := by
    unfold decodeEnvelope
    refine (Reads.genRef _).bind ((Reads.id _).bind ((Reads.id _).bind
      ((reads_authority h.authority).bind ((reads_cadence _).bind ((Reads.u64v _).bind
      ((Reads.u64v _).bind ((Reads.u64v _).bind ((Reads.boolean _).bind ((Reads.boolean _).bind
      ((Reads.id _).bind ((Reads.id _).bind ((Reads.u64v _).bind ((Reads.u64v _).bind
      ((Reads.u64v _).bind ((Reads.u64v _).bind ((Reads.u64v _).bind ((Reads.u64v _).bind
      ((Reads.instant _).bind ((reads_deadline _).bind ((Reads.boolean _).bind
      ((Reads.boolean _).bind_nil (Reads.failure.nil_bind ?_))))))))))))))))))))))
    dsimp only
    rw [if_neg (by simp [h.id, h.generation, h.flow]), if_neg (UInt64.not_lt.2 h.rate)]
    exact .pure _
  refine ⟨_, hemits.congr ?_, hreads⟩
  simp only [List.append_assoc, List.nil_append]

theorem accepts_envelope {e : PacingEnvelope} {capacity : ℕ} {payload : Bytes}
    (h : e.Legible) (hp : (encodeEnvelope ⟨capacity, [], none⟩ e).finish = .ok payload) :
    ∃ deadline, decodePayload decodeEnvelope payload =
      some { e with validUntil := deadline } :=
  ⟨_, (delimits_envelope h).payload hp⟩

/-- What `decode_grant` asks of a grant. -/
structure RateGrant.Legible (limits : Limits) (g : RateGrant) : Prop where
  ceiling : g.ceilingBps ≤ limits.maxRateBps
  floor : g.floorBps ≤ g.ceilingBps

theorem delimits_grant {limits : Limits} {g : RateGrant} (h : g.Legible limits) :
    Delimits (encodeGrant · g) (decodeGrant limits)
      { g with validUntil := g.validUntil.built } := by
  have hemits := (((((((((Emits.start.genRef g.ref).id g.resource).u64v g.ceilingBps).u64v
    g.floorBps).u64v g.revision).u64v g.observedAt.ns).boolean g.validUntil.set).u64v
    g.validUntil.nsOrZero).id g.provenance).boolean g.authoritative
  have hreads : Reads (decodeGrant limits) (g.ref.wire ++
      (littleEndian 8 g.resource.value.toNat ++ (littleEndian 8 g.ceilingBps.toNat ++
      (littleEndian 8 g.floorBps.toNat ++ (littleEndian 8 g.revision.toNat ++
      (littleEndian 8 g.observedAt.ns.toNat ++ (([if g.validUntil.set then 1 else 0] ++
      littleEndian 8 g.validUntil.nsOrZero.toNat) ++
      (littleEndian 8 g.provenance.value.toNat ++ [if g.authoritative then 1 else 0]))))))))
      (.ok { g with validUntil := g.validUntil.built }) := by
    unfold decodeGrant
    refine (Reads.genRef _).bind ((Reads.id _).bind ((Reads.u64v _).bind ((Reads.u64v _).bind
      ((Reads.u64v _).bind ((Reads.instant _).bind ((reads_deadline _).bind
      ((Reads.id _).bind ((Reads.boolean _).bind_nil (Reads.failure.nil_bind ?_)))))))))
    dsimp only
    rw [if_neg (UInt64.not_lt.2 h.ceiling), if_neg (UInt64.not_lt.2 h.floor)]
    exact .pure _
  refine ⟨_, hemits.congr ?_, hreads⟩
  simp only [List.append_assoc, List.nil_append]

theorem ErrorCode.ofU16_toU16 (code : ErrorCode) : ofU16 code.toU16 = code := by
  cases code with
  | unlisted raw beyond => simp [toU16, ofU16, beyond]
  | _ => decide

theorem ApplicationState.ofByte?_toByte (s : ApplicationState) : ofByte? s.toByte = some s := by
  cases s <;> rfl

theorem EffectLabel.ofByte?_toByte (l : EffectLabel) : ofByte? l.toByte = some l := by
  cases l <;> rfl

theorem EvidenceKind.ofByte?_toByte (k : EvidenceKind) : ofByte? k.toByte = some k := by
  cases k <;> rfl

theorem AuthorityDrift.ofByte?_toByte (d : AuthorityDrift) : ofByte? d.toByte = some d := by
  cases d <;> rfl

theorem BackendNature.ofByte?_toByte (n : BackendNature) : ofByte? n.toByte = some n := by
  cases n <;> rfl

/-- What `decode_attempt` asks of a record. -/
structure ApplicationRecord.Legible (limits : Limits) (r : ApplicationRecord) : Prop where
  id : r.attempt.valid = true
  authority : r.authority.complete = true
  detail : r.detail.length ≤ limits.maxExplanationBytes.toNat

theorem delimits_attempt {limits : Limits} {r : ApplicationRecord} (h : r.Legible limits) :
    Delimits (encodeAttempt · r) (decodeAttempt limits) r := by
  have h32 : r.detail.length < 2 ^ 32 :=
    Nat.lt_of_le_of_lt h.detail limits.maxExplanationBytes.toNat_lt
  have hhead := emits_cadence (emits_authority ((((Emits.start.id r.attempt).genRef
    r.envelope).id r.flow).id r.resource) r.authority) r.desired
  have hemits := ((((((((((((((((((((((hhead.u8v r.state.toByte).u8v
    r.lastKnownState.toByte).u8v r.effect.toByte).u8v r.evidenceKind.toByte).u64v
    r.observedRateBps).u64v r.observedQuantumBytes).u64v r.observedBurstBytes).u64v
    r.observedIntervalNs).u64v r.backendSeq).u64v r.evidenceDigest).boolean
    r.evidenceIntegrityOk).genRef r.backend).u64v r.worker.incarnation).u64v
    r.worker.nonce).boolean r.backendSynthetic).u16v r.reason.toU16).u8v r.drift.toByte).str
    r.detail).u64v r.revision).u64v r.createdNs).u64v r.updatedNs).boolean
    r.requiresRevalidation)
  simp only [List.append_assoc, List.nil_append] at hemits
  refine ⟨_, hemits, ?_⟩
  unfold decodeAttempt
  refine (Reads.id _).bind ((Reads.genRef _).bind ((Reads.id _).bind ((Reads.id _).bind
    ((reads_authority h.authority).bind ((reads_cadence _).bind ((Reads.u8v _).bind
    ((Reads.u8v _).bind ((Reads.u8v _).bind ((Reads.u8v _).bind ((Reads.u64v _).bind
    ((Reads.u64v _).bind ((Reads.u64v _).bind ((Reads.u64v _).bind ((Reads.u64v _).bind
    ((Reads.u64v _).bind ((Reads.boolean _).bind ((Reads.genRef _).bind ((Reads.u64v _).bind
    ((Reads.u64v _).bind ((Reads.boolean _).bind ((Reads.u16v _).bind ((Reads.u8v _).bind
    ((Reads.str h.detail h32).bind ((Reads.u64v _).bind ((Reads.u64v _).bind
    ((Reads.u64v _).bind ((Reads.boolean _).bind_nil
    (Reads.failure.nil_bind ?_))))))))))))))))))))))))))))
  dsimp only
  rw [if_neg (by simp [h.id]), ApplicationState.ofByte?_toByte, ApplicationState.ofByte?_toByte,
    EffectLabel.ofByte?_toByte, EvidenceKind.ofByte?_toByte, AuthorityDrift.ofByte?_toByte,
    ErrorCode.ofU16_toU16]
  exact .pure _

theorem accepts_attempt {limits : Limits} {r : ApplicationRecord} {capacity : ℕ}
    {payload : Bytes} (h : r.Legible limits)
    (hp : (encodeAttempt ⟨capacity, [], none⟩ r).finish = .ok payload) :
    decodePayload (decodeAttempt limits) payload = some r :=
  (delimits_attempt h).payload hp

/-- The bound `decode_revocation` puts on a reason. -/
def revocationReasonBytes : ℕ := 256

theorem accepts_revocation {ref : EnvelopeRef} {reason : Bytes} {capacity : ℕ}
    {payload : Bytes} (hid : ref.id.valid = true)
    (hreason : reason.length ≤ revocationReasonBytes)
    (hp : (encodeRevocation ⟨capacity, [], none⟩ ref reason).finish = .ok payload) :
    decodePayload decodeRevocation payload = some (ref, reason) := by
  have hemits := (Emits.start.genRef ref).str reason
  simp only [List.nil_append] at hemits
  refine decodePayload_of_reads hemits ?_ hp
  unfold decodeRevocation
  have h32 : reason.length < 2 ^ 32 := Nat.lt_of_le_of_lt hreason (by decide)
  refine (Reads.genRef _).bind ((Reads.str hreason h32).bind_nil (Reads.failure.nil_bind ?_))
  dsimp only
  rw [if_neg (by simp [hid])]
  exact .pure _

theorem accepts_epoch {epoch : Epoch} {boot : BootId} {capacity : ℕ} {payload : Bytes}
    (hvalid : epoch.valid = true)
    (hp : (encodeEpoch ⟨capacity, [], none⟩ epoch boot).finish = .ok payload) :
    decodePayload decodeEpoch payload = some (epoch, boot) := by
  have hemits := ((Emits.start.u64v epoch.value).u64v boot.counter).u64v boot.nonce
  simp only [List.append_assoc, List.nil_append] at hemits
  refine decodePayload_of_reads hemits ?_ hp
  unfold decodeEpoch
  refine (Reads.u64v _).bind ((Reads.u64v _).bind ((Reads.u64v _).bind_nil
    (Reads.failure.nil_bind ?_)))
  dsimp only
  rw [if_neg (by simp [hvalid])]
  exact .pure _

theorem accepts_identity {value : UInt64} {capacity : ℕ} {payload : Bytes}
    (hp : (encodeIdentityU64 ⟨capacity, [], none⟩ value).finish = .ok payload) :
    decodePayload decodeIdentityU64 payload = some value := by
  have hemits := Emits.start.u64v value
  simp only [List.nil_append] at hemits
  refine decodePayload_of_reads hemits ?_ hp
  unfold decodeIdentityU64
  exact (Reads.u64v _).bind_nil (Reads.failure.nil_bind (.pure _))

/-- What `decode_backend_descriptor` asks of a descriptor. -/
structure BackendDescriptor.Legible (limits : Limits) (d : BackendDescriptor) : Prop where
  id : d.ref.id.valid = true
  generation : d.ref.generation.known = true
  named : d.name.isEmpty = false
  name : d.name.length ≤ limits.maxNameBytes.toNat

theorem delimits_backendDescriptor {limits : Limits} {d : BackendDescriptor}
    (h : d.Legible limits) :
    Delimits (encodeBackendDescriptor · d) (decodeBackendDescriptor limits) d := by
  have h32 : d.name.length < 2 ^ 32 := Nat.lt_of_le_of_lt h.name limits.maxNameBytes.toNat_lt
  have hemits := ((((((Emits.start.genRef d.ref).str d.name).u8v d.nature.toByte).boolean
    d.supportsReadback).u64v d.maxRateBps).u64v d.maxBurstBytes).u64v d.capabilityFlags
  simp only [List.append_assoc, List.nil_append] at hemits
  refine ⟨_, hemits, ?_⟩
  unfold decodeBackendDescriptor
  refine (Reads.genRef _).bind ((Reads.str h.name h32).bind ((Reads.u8v _).bind
    ((Reads.boolean _).bind ((Reads.u64v _).bind ((Reads.u64v _).bind
    ((Reads.u64v _).bind_nil (Reads.failure.nil_bind ?_)))))))
  dsimp only
  rw [BackendNature.ofByte?_toByte]
  dsimp only
  rw [if_neg (by simp [h.id, h.generation, h.named])]
  exact .pure _

/-- A descriptor that `register_backend` accepts. -/
theorem accepts_backendDescriptor {limits : Limits} {d : BackendDescriptor} {capacity : ℕ}
    {payload : Bytes} (h : (Fabric.checkDescriptor limits d).isOk = true)
    (hp : (encodeBackendDescriptor ⟨capacity, [], none⟩ d).finish = .ok payload) :
    decodePayload (decodeBackendDescriptor limits) payload = some d := by
  unfold Fabric.checkDescriptor at h
  obtain ⟨husable, h⟩ := isOk_ite h nofun
  obtain ⟨hname, -⟩ := isOk_ite h nofun
  simp only [BackendDescriptor.usable, GenRef.known, Bool.not_eq_true', Bool.not_eq_false,
    Bool.and_eq_true] at husable
  obtain ⟨⟨hid, hgen⟩, hempty⟩ := husable
  have hlegible : d.Legible limits :=
    ⟨hid, hgen, by simpa using hempty, Nat.le_of_not_lt hname⟩
  exact (delimits_backendDescriptor hlegible).payload hp

/-! ### What a decoder accepts -/

/-- Whatever a decoder reads, its answer has the property. -/
def Ensures {α : Type} (decode : Decode α) (P : α → Prop) : Prop := ∀ r, P (decode r).1

namespace Ensures

variable {α β : Type} {d : Decode α} {k : α → Decode β} {P : β → Prop}

theorem bind {Q : α → Prop} (h : Ensures d Q) (h' : ∀ v, Q v → Ensures (k v) P) :
    Ensures (d >>= k) P := fun r => h' _ (h r) _

/-- A field whose value does not matter. -/
theorem skip (h : ∀ v, Ensures (k v) P) : Ensures (d >>= k) P := fun _ => h _ _

/-- A refusal accepts nothing. -/
theorem refuse {Q : α → Prop} {status : Status} :
    Ensures (Pure.pure (.error status)) fun out : StatusOr α => ∀ v, out = .ok v → Q v := by
  intro r v h
  cases h

theorem accept {Q : α → Prop} {value : α} (h : Q value) :
    Ensures (Pure.pure (.ok value)) fun out : StatusOr α => ∀ v, out = .ok v → Q v := by
  intro r v hv
  obtain rfl := Except.ok.inj hv
  exact h

theorem str (maxLen : ℕ) : Ensures (Decode.str maxLen) (·.length ≤ maxLen) := by
  intro r
  rw [Decode.str]
  generalize Decode.u32v r = field
  obtain ⟨n, r⟩ := field
  dsimp only
  split
  · exact Nat.zero_le _
  · split
    · exact Nat.zero_le _
    · rename_i hbound
      split
      · rename_i s _ htake
        have hlen : s.length ≤ n.toNat := by
          unfold ByteReader.take at htake
          repeat' split at htake
          all_goals simp only [Prod.mk.injEq, reduceCtorEq, false_and, Option.some.injEq] at htake
          rw [← htake.1]
          exact List.length_take_le ..
        exact Nat.le_trans hlen (Nat.le_of_not_lt hbound)
      · exact Nat.zero_le _

end Ensures

theorem ensures_authority :
    Ensures decodeAuthority fun out => ∀ v, out = .ok v → v.complete = true := by
  unfold decodeAuthority
  repeat refine Ensures.skip fun _ => ?_
  split
  · exact .refuse
  · dsimp only
    split
    · exact .refuse
    · rename_i hcomplete
      refine .accept ?_
      simpa using hcomplete

theorem ensures_binding (limits : Limits) :
    Ensures (decodeBinding limits) fun out => ∀ b, out = .ok b → b.Legible limits := by
  unfold decodeBinding
  repeat refine Ensures.skip fun _ => ?_
  split
  · exact .refuse
  · split
    · exact .refuse
    · rename_i hid
      split
      · exact .refuse
      · rename_i hbytes
        split
        · exact .refuse
        · rename_i hpackets
          refine .accept ?_
          simp only [Bool.or_eq_true, Bool.not_eq_true', not_or, Bool.not_eq_false] at hid
          exact ⟨hid.1, hid.2, UInt64.not_lt.1 hbytes, UInt64.not_lt.1 hpackets⟩

theorem ensures_envelope :
    Ensures decodeEnvelope fun out => ∀ e, out = .ok e → e.Legible := by
  unfold decodeEnvelope
  refine .skip fun ref => .skip fun flow => .skip fun resource => .bind ensures_authority ?_
  intro authority hauthority
  split
  · exact .refuse
  · refine .skip fun cadence => ?_
    split
    · exact .refuse
    · repeat refine Ensures.skip fun _ => ?_
      split
      · exact .refuse
      · split
        · exact .refuse
        · rename_i hid
          split
          · exact .refuse
          · rename_i hrate
            refine .accept ?_
            simp only [Bool.or_eq_true, Bool.not_eq_true', not_or, Bool.not_eq_false] at hid
            exact ⟨hid.1.1, hid.1.2, hid.2, hauthority _ rfl, UInt64.not_lt.1 hrate⟩

theorem ensures_attempt (limits : Limits) :
    Ensures (decodeAttempt limits) fun out => ∀ r, out = .ok r → r.Legible limits := by
  unfold decodeAttempt
  iterate 4 refine Ensures.skip fun _ => ?_
  refine Ensures.bind ensures_authority fun authority hauthority => ?_
  split
  · exact .refuse
  · refine Ensures.skip fun cadence => ?_
    split
    · exact .refuse
    · iterate 17 refine Ensures.skip fun _ => ?_
      refine .bind (.str _) fun detail hdetail => ?_
      iterate 5 refine Ensures.skip fun _ => ?_
      split
      · exact .refuse
      · split
        · exact .refuse
        · rename_i hid
          split
          · refine .accept ?_
            exact ⟨by simpa using hid, hauthority _ rfl, hdetail⟩
          · exact .refuse

theorem ensures_revocation : Ensures decodeRevocation fun out => ∀ e, out = .ok e →
    e.1.id.valid = true ∧ e.2.length ≤ revocationReasonBytes := by
  unfold decodeRevocation
  refine .skip fun envelope => .bind (.str 256) fun reason hreason => .skip fun _ => ?_
  split
  · exact .refuse
  · split
    · exact .refuse
    · rename_i hid
      refine .accept ?_
      exact ⟨by simpa using hid, hreason⟩

/-- What a decoder ensures holds of the payloads it accepts. -/
theorem Ensures.of_decodePayload {α : Type} {decode : Decode (StatusOr α)} {P : α → Prop}
    (h : Ensures decode fun out => ∀ v, out = .ok v → P v) {payload : Bytes} {value : α}
    (hp : decodePayload decode payload = some value) : P value := by
  have hout := h ⟨payload, none⟩
  unfold decodePayload at hp
  split at hp
  · rename_i hdecode
    rw [hdecode] at hout
    split at hp
    · obtain rfl := Option.some.inj hp
      exact hout _ rfl
    · cases hp
  · cases hp

end Pacing
