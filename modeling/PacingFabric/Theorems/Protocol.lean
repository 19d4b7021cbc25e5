import PacingFabric.Theorems.Messages
import PacingFabric.Theorems.Refusals
import PacingFabric.Theorems.Transport

/-!
# The protocol between client and server

A request is read as it was written, the fields of the typed helpers ask for the operation of
the helper, and a frame sent on one end of a link is what the other end receives. Together: what
a client asks for is what the server dispatches, and what the dispatch answers is what the
client gets.

## Main definitions

* `ControlRequest.Asks`: the fields of a helper ask for a piece of work.

## Main results

* `helpers_ask`: every helper asks for its operation; a reason that does not fit its writer is
  refused by the server.
* `request_delivered`, `response_delivered`: both directions of an exchange.
* `handshake_accepted`: the stamp a handshake leaves passes the checks of a dispatch.
-/

namespace Pacing

open Decode

variable {encode : ByteWriter → ByteWriter} {bytes : Bytes}

/-! ### The helpers of the client -/

theorem ByteReader.exhausted_nil : (⟨[], none⟩ : ByteReader).exhausted = true := rfl

/-- Whatever a helper puts into its fields, the server takes for this piece of work. -/
def ControlRequest.Asks (limits : Limits) (op : Operation) (fields : Fields) (asked : Work) :
    Prop :=
  ∀ stamp bytes, fields = .ok bytes → work limits { op, stamp, fields := bytes } = asked

theorem fieldsOf_reads {α : Type} {decode : Decode α} {value : α}
    (hreads : Reads decode bytes value) (detail : Bytes) (work : α → Work) :
    ControlRequest.fieldsOf bytes decode detail work = work value := by
  have h := hreads []
  rw [List.append_nil] at h
  unfold ControlRequest.fieldsOf
  rw [h]
  rfl

/-- Fields that are read to no sound end are refused. -/
theorem fieldsOf_failed {α : Type} {decode : Decode α} (h : (decode ⟨bytes, none⟩).2.ok = false)
    (detail : Bytes) (work : α → Work) :
    ControlRequest.fieldsOf bytes decode detail work =
      .refuse (.failure .malformedInput detail) := by
  unfold ControlRequest.fieldsOf
  generalize decode ⟨bytes, none⟩ = out at h
  obtain ⟨value, reader⟩ := out
  have hexhausted : reader.exhausted = false := by
    rw [ByteReader.exhausted, show reader.ok = false from h, Bool.false_and]
  dsimp only
  rw [hexhausted, if_neg Bool.false_ne_true]

/-- A writer without room for it keeps what it holds. -/
theorem ByteWriter.raw_full {w : ByteWriter} {data : Bytes} (hok : w.poison = none)
    (h : w.capacity < w.buf.length + data.length) : (w.raw data).buf = w.buf := by
  unfold raw ok
  rw [if_neg (by simp [hok]), if_pos (by omega)]

/-- The reason of a helper, behind the identity it is about. -/
theorem str_taken {capacity : ℕ} {front reason : Bytes} (hfront : front.length + 4 ≤ capacity) :
    ((⟨capacity, front, none⟩ : ByteWriter).str reason).buf =
      if front.length + 4 + reason.length ≤ capacity ∧ reason.length ≤ ByteWriter.maxStringBytes
      then front ++ stringWire reason
      else if reason.length ≤ ByteWriter.maxStringBytes then
        front ++ littleEndian 4 reason.length
      else front := by
  unfold ByteWriter.str ByteWriter.ok
  rw [if_neg (by simp)]
  by_cases hmax : reason.length ≤ ByteWriter.maxStringBytes
  · have hlength : (UInt32.ofNat reason.length).toNat = reason.length := by
      rw [UInt32.toNat_ofNat']
      refine Nat.mod_eq_of_lt ?_
      simp only [ByteWriter.maxStringBytes] at hmax
      omega
    have hprefix : (⟨capacity, front, none⟩ : ByteWriter).u32v (UInt32.ofNat reason.length) =
        ⟨capacity, front ++ littleEndian 4 reason.length, none⟩ := by
      unfold ByteWriter.u32v
      rw [hlength]
      exact ByteWriter.raw_room rfl (by rw [length_littleEndian]; exact hfront)
    rw [if_neg (Nat.not_lt.2 hmax), hprefix]
    by_cases hroom : front.length + 4 + reason.length ≤ capacity
    · rw [if_pos ⟨hroom, hmax⟩, ByteWriter.raw_room rfl (by simpa using hroom), stringWire,
        List.append_assoc]
    · rw [if_neg fun h => hroom h.1, if_pos hmax,
        ByteWriter.raw_full rfl (by simpa using Nat.lt_of_not_le hroom)]
  · rw [if_pos (Nat.lt_of_not_le hmax), if_neg fun h => hmax h.2, if_neg hmax]

/-- A string above the bound of its reader, or cut short, fails it. -/
theorem str_refuses {maxLen n : ℕ} (hn : n < 2 ^ 32) {rest : Bytes}
    (h : maxLen < n ∨ rest.length < n) :
    (Decode.str maxLen ⟨littleEndian 4 n ++ rest, none⟩).2.ok = false := by
  have hlength : (UInt32.ofNat n).toNat = n := by
    rw [UInt32.toNat_ofNat']
    exact Nat.mod_eq_of_lt hn
  have hread := Reads.u32v (UInt32.ofNat n) rest
  rw [hlength] at hread
  unfold Decode.str
  rw [hread]
  simp only [ByteReader.ok, Option.isNone_none, Bool.not_true, Bool.false_eq_true, if_false,
    hlength]
  split
  · rfl
  · rename_i hmax
    obtain ⟨hnone, hfail⟩ := Field.take_short (h.resolve_left hmax)
    generalize (ByteReader.mk rest none).take n = out at hnone hfail
    obtain ⟨bytes, r⟩ := out
    obtain rfl : bytes = none := hnone
    exact hfail

/-- An identity and a reason: the reason arrives if its writer has room for it and it is within
the bound of the reader; otherwise the fields are refused. -/
theorem fieldsOf_reasoned {α : Type} {head : Decode α} {value : α} {front reason : Bytes}
    (hhead : Reads head front value) {capacity : ℕ} (hfront : front.length + 4 ≤ capacity)
    (hcapacity : capacity ≤ ByteWriter.maxStringBytes) (maxLen : ℕ) (detail : Bytes)
    (work : α × Bytes → Work) :
    ControlRequest.fieldsOf ((⟨capacity, front, none⟩ : ByteWriter).str reason).buf
        (do return (← head, ← Decode.str maxLen)) detail work =
      if front.length + 4 + reason.length ≤ capacity ∧ reason.length ≤ maxLen then
        work (value, reason)
      else .refuse (.failure .malformedInput detail) := by
  have hbound : ByteWriter.maxStringBytes < 2 ^ 32 := by decide
  -- where the string does not arrive, its reader fails
  have hfails : ∀ rest, (Decode.str maxLen ⟨rest, none⟩).2.ok = false →
      ControlRequest.fieldsOf (front ++ rest) (do return (← head, ← Decode.str maxLen)) detail
        work = .refuse (.failure .malformedInput detail) := by
    intro rest hrest
    refine fieldsOf_failed ?_ detail work
    change (Decode.str maxLen (head ⟨front ++ rest, none⟩).2).2.ok = false
    rw [hhead rest]
    exact hrest
  rw [str_taken hfront]
  by_cases hroom : front.length + 4 + reason.length ≤ capacity
  · rw [if_pos ⟨hroom, by omega⟩]
    by_cases hmax : reason.length ≤ maxLen
    · rw [if_pos ⟨hroom, hmax⟩]
      exact fieldsOf_reads (hhead.bind ((Reads.str hmax (by omega)).bind_nil
        (.pure (value, reason)))) detail work
    · rw [if_neg fun h => hmax h.2]
      exact hfails _ (str_refuses (by omega) (.inl (Nat.lt_of_not_le hmax)))
  · refine Eq.trans ?_ (if_neg fun h => hroom h.1).symm
    rw [if_neg fun h => hroom h.1]
    by_cases hstring : reason.length ≤ ByteWriter.maxStringBytes
    · rw [if_pos hstring]
      refine hfails _ ?_
      have hshort : maxLen < reason.length ∨ ([] : Bytes).length < reason.length :=
        .inr (by rw [List.length_nil]; omega)
      have hcut := str_refuses (by omega) hshort
      rwa [List.append_nil] at hcut
    · rw [if_neg hstring]
      have hnone := hfails [] rfl
      rwa [List.append_nil] at hnone

theorem ByteWriter.ofCapacity_id {tag : Tag} {n : ℕ} (h : 8 ≤ n) (id : Id tag) :
    (ofCapacity n).id id = ⟨n, littleEndian 8 id.value.toNat, none⟩ :=
  @raw_room ⟨n, [], none⟩ (littleEndian 8 id.value.toNat) rfl (by simpa using h)

theorem ByteWriter.ofCapacity_genRef {tag : Tag} {n : ℕ} (h : 16 ≤ n) (ref : GenRef tag) :
    (ofCapacity n).genRef ref = ⟨n, ref.wire, none⟩ := by
  unfold genRef
  rw [ofCapacity_id (by omega)]
  exact @raw_room ⟨n, littleEndian 8 ref.id.value.toNat, none⟩
    (littleEndian 8 ref.generation.value.toNat) rfl (by simpa using h)

section
open ControlRequest

/-- A helper that sends one identity. -/
theorem asks_identity {limits : Limits} {tag : Tag} {op : Operation} {detail : Bytes}
    {ask : Id tag → Work}
    (hop : ∀ r : ControlRequest, r.op = op →
      r.work limits = fieldsOf r.fields Decode.id detail ask) (id : Id tag) :
    Asks limits op (Fields.identity id) (ask id) := by
  intro stamp bytes h
  obtain rfl := Except.ok.inj h
  rw [hop _ rfl, ByteWriter.ofCapacity_id (by decide)]
  exact fieldsOf_reads (Reads.id id) detail ask

/-- What a reason of a helper comes to: it is carried, or the request is refused. -/
def carriesReason (limits : Limits) (front : ℕ) (reason detail : Bytes) (asked : Work) : Work :=
  if front + 4 + reason.length ≤ 512 ∧ reason.length ≤ limits.maxExplanationBytes.toNat then asked
  else .refuse (.failure .malformedInput detail)

theorem asks_bindFlow (limits : Limits) (b : FlowBinding) :
    Asks limits .bindFlow (Fields.bindFlow b)
      (.operate (.bindFlow { b with generation := {} })) := by
  intro stamp bytes h
  have hemits := ((((((((Emits.start.id b.flow).genRef b.resource).genRef b.path).id
    b.serviceClass).id b.tenant).u64v b.declaredMaxBurstBytes).u64v
    b.declaredMaxBurstPackets).boolean b.quiesced).id b.provenance
  simp only [List.append_assoc, List.nil_append] at hemits
  unfold Fields.bindFlow Fields.checked ByteWriter.ofCapacity at h
  obtain rfl := hemits.finish h
  simp only [work]
  refine @fieldsOf_reads _ _ _ { b with generation := {} } ?_ _ _
  unfold bindFields
  exact (Reads.id b.flow).bind ((Reads.genRef b.resource).bind ((Reads.genRef b.path).bind
    ((Reads.id b.serviceClass).bind ((Reads.id b.tenant).bind ((Reads.u64v
    b.declaredMaxBurstBytes).bind ((Reads.u64v b.declaredMaxBurstPackets).bind ((Reads.boolean
    b.quiesced).bind ((Reads.id b.provenance).bind_nil (.pure _)))))))))

theorem work_publishPolicy {limits : Limits} {r : ControlRequest} {p : PacingPolicy}
    (hop : r.op = .publishPolicy)
    (hpolicy : decodePolicy limits ⟨r.fields, none⟩ = (.ok p, ⟨[], none⟩)) :
    r.work limits = .operate (.publishPolicy p) := by
  unfold work
  -- the decoder is not to be evaluated, only its outcome matters
  generalize decodePolicy limits ⟨r.fields, none⟩ = out at hpolicy ⊢
  subst hpolicy
  rw [hop]
  exact if_pos ByteReader.exhausted_nil

theorem asks_publishPolicy {limits : Limits} {p : PacingPolicy}
    (hvalid : ((PolicyStore.defaulted p).validate limits).isOk = true) :
    Asks limits .publishPolicy (Fields.publishPolicy p) (.operate (.publishPolicy p)) := by
  intro stamp bytes h
  obtain ⟨wire, hemits, hreads⟩ := delimits_policy hvalid
  unfold Fields.publishPolicy Fields.checked ByteWriter.ofCapacity at h
  obtain rfl := hemits.finish h
  have hpolicy := hreads []
  rw [List.append_nil] at hpolicy
  exact work_publishPolicy rfl hpolicy

/-- A binding always fits its writer. -/
theorem written_bindFlow (b : FlowBinding) : ∃ bytes, Fields.bindFlow b = .ok bytes := by
  have hfills := ((((((((Fills.start.id b.flow).genRef b.resource).genRef b.path).id
    b.serviceClass).id b.tenant).u64v b.declaredMaxBurstBytes).u64v
    b.declaredMaxBurstPackets).boolean b.quiesced).id b.provenance
  refine ⟨_, @Fills.finish _ _ hfills controlCapacityBytes ?_⟩
  simp only [List.length_append, List.length_nil, length_littleEndian, GenRef.wire,
    List.length_singleton]
  decide

theorem fills_exceptions (exs : List ServiceClassException) (h : Fills encode bytes) :
    Fills (fun w => exs.foldl encodeException (encode w))
      (bytes ++ (exs.map exceptionWire).flatten) := by
  induction exs generalizing encode bytes with
  | nil => simpa using h
  | cons ex rest ih =>
    have hex : Fills (fun w => encodeException (encode w) ex) (bytes ++ exceptionWire ex) :=
      ((((((h.id ex.serviceClass).u64v ex.minRateBps).u64v ex.rateSharePpm).u64v
        ex.burstBytes).u64v ex.burstPackets).u32v ex.priority).congr (by
          simp only [exceptionWire, List.append_assoc])
    exact (ih hex).congr (by simp only [List.map_cons, List.flatten_cons, List.append_assoc])

/-- A policy fits its writer unless its exceptions take too much of it. -/
theorem written_publishPolicy {p : PacingPolicy}
    (h : 150 + 44 * p.exceptions.length ≤ controlCapacityBytes) :
    ∃ bytes, Fields.publishPolicy p = .ok bytes := by
  have hfills := fills_exceptions p.exceptions ((((((((((((((((((((Fills.start.genRef
    p.ref).u8v p.layer.toByte).id p.resource).id p.flow).u64v p.rateSharePpm).u64v
    p.rateBps).u64v p.minRateBps).u64v p.burstBytes).u64v p.burstPackets).u64v
    p.quantumBytes).u64v p.windowNs).u8v p.shape.toByte).u64v p.grantsPerWindowHint).genRef
    p.path).id p.defaultServiceClass).id p.tenant).id p.provenance).u64v
    p.publishedAt.ns).u32v (UInt32.ofNat p.exceptions.length)))
  refine ⟨_, hfills.finish (le_trans (le_of_eq ?_) h)⟩
  have hexceptions : ((p.exceptions.map exceptionWire).flatten).length =
      44 * p.exceptions.length := by
    rw [List.length_flatten, List.map_map, show List.length ∘ exceptionWire = fun _ => 44 from
      funext fun ex => by simp [exceptionWire], List.map_const', List.sum_replicate_nat,
      Nat.mul_comm]
  simp only [List.length_append, List.length_nil, length_littleEndian, GenRef.wire,
    List.length_singleton, hexceptions]

theorem asks_applyEnvelope (limits : Limits) (envelope : EnvelopeRef) (backend : BackendId)
    (requested : AttemptId) :
    Asks limits .applyEnvelope (Fields.applyEnvelope envelope backend requested)
      (.operate (.applyEnvelope envelope backend requested)) := by
  intro stamp bytes h
  obtain rfl := Except.ok.inj h
  have hwritten : (((ByteWriter.ofCapacity 64).genRef envelope).id backend |>.id requested).buf =
      envelope.wire ++ (littleEndian 8 backend.value.toNat ++
        littleEndian 8 requested.value.toNat) := by
    rw [ByteWriter.ofCapacity_genRef (by decide)]
    simp [ByteWriter.id, ByteWriter.u64v, ByteWriter.raw_room, GenRef.wire]
  simp only [work, hwritten]
  refine @fieldsOf_reads _ _ _ (envelope, backend, requested) ?_ _ _
  exact Reads.bind (Reads.genRef envelope) (Reads.bind (Reads.id backend)
    (Reads.bind_nil (Reads.id requested) (.pure _)))

theorem asks_cancelAttempt (limits : Limits) (attempt : AttemptId) (reason : Bytes) :
    Asks limits .cancelAttempt (Fields.cancelAttempt attempt reason)
      (carriesReason limits 8 reason "cancel-attempt fields are malformed"
        (.operate (.cancelAttempt attempt reason))) := by
  intro stamp bytes h
  obtain rfl := Except.ok.inj h
  have hroom : (littleEndian 8 attempt.value.toNat).length + 4 ≤ 512 := by simp
  have hreasoned := @fieldsOf_reasoned _ _ _ _ reason (Reads.id attempt) _ hroom (by decide)
    limits.maxExplanationBytes.toNat "cancel-attempt fields are malformed"
    fun x => .operate (.cancelAttempt x.1 x.2)
  rw [length_littleEndian] at hreasoned
  simp only [work]
  rw [ByteWriter.ofCapacity_id (by decide)]
  exact hreasoned

theorem asks_revokeEnvelope (limits : Limits) (envelope : EnvelopeRef) (reason : Bytes) :
    Asks limits .revokeEnvelope (Fields.revokeEnvelope envelope reason)
      (carriesReason limits 16 reason "revoke-envelope fields are malformed"
        (.operate (.revokeEnvelope envelope reason))) := by
  intro stamp bytes h
  obtain rfl := Except.ok.inj h
  have hlength : envelope.wire.length = 16 := by simp [GenRef.wire]
  have hroom : envelope.wire.length + 4 ≤ 512 := by rw [hlength]; decide
  have hreasoned := @fieldsOf_reasoned _ _ _ _ reason (Reads.genRef envelope) _ hroom (by decide)
    limits.maxExplanationBytes.toNat "revoke-envelope fields are malformed"
    fun x => .operate (.revokeEnvelope x.1 x.2)
  rw [hlength] at hreasoned
  simp only [work]
  rw [ByteWriter.ofCapacity_genRef (by decide)]
  exact hreasoned

/-- Every helper of the client asks for its operation on the values it was given. The
generation of a binding is not sent, and a reason that does not fit the writer of its helper is
refused. Only the two helpers that ask their writer can have no fields: a binding always has
them, and a policy whose exceptions leave its writer room. -/
theorem helpers_ask (limits : Limits) :
    (∀ b, (∃ bytes, Fields.bindFlow b = .ok bytes) ∧
      Asks limits .bindFlow (Fields.bindFlow b)
        (.operate (.bindFlow { b with generation := {} }))) ∧
    (∀ p, (150 + 44 * p.exceptions.length ≤ controlCapacityBytes →
        ∃ bytes, Fields.publishPolicy p = .ok bytes) ∧
      (((PolicyStore.defaulted p).validate limits).isOk = true →
        Asks limits .publishPolicy (Fields.publishPolicy p) (.operate (.publishPolicy p)))) ∧
    (∀ flow, Asks limits .deriveEnvelope (Fields.identity flow)
      (.operate (.deriveEnvelope flow))) ∧
    (∀ flow, Asks limits .explain (Fields.identity flow) (.inspect flow)) ∧
    (∀ attempt, Asks limits .verifyAttempt (Fields.identity attempt)
      (.operate (.verifyAttempt attempt))) ∧
    (∀ attempt, Asks limits .revalidate (Fields.identity attempt)
      (.operate (.revalidate attempt))) ∧
    (∀ envelope backend requested,
      Asks limits .applyEnvelope (Fields.applyEnvelope envelope backend requested)
        (.operate (.applyEnvelope envelope backend requested))) ∧
    (∀ attempt reason, Asks limits .cancelAttempt (Fields.cancelAttempt attempt reason)
      (carriesReason limits 8 reason "cancel-attempt fields are malformed"
        (.operate (.cancelAttempt attempt reason)))) ∧
    (∀ envelope reason, Asks limits .revokeEnvelope (Fields.revokeEnvelope envelope reason)
      (carriesReason limits 16 reason "revoke-envelope fields are malformed"
        (.operate (.revokeEnvelope envelope reason)))) :=
  ⟨fun b => ⟨written_bindFlow b, asks_bindFlow limits b⟩,
    fun _ => ⟨written_publishPolicy, asks_publishPolicy⟩,
    asks_identity fun r hop => by simp only [work, hop]; rfl,
    asks_identity fun r hop => by simp only [work, hop]; rfl,
    asks_identity fun r hop => by simp only [work, hop]; rfl,
    asks_identity fun r hop => by simp only [work, hop]; rfl,
    asks_applyEnvelope limits, asks_cancelAttempt limits, asks_revokeEnvelope limits⟩

end

/-! ### Both ends of a link -/

namespace ByteWriter.Roomy

variable {w : ByteWriter}

theorem block (h : w.Roomy) (data : Bytes) : (w.block data).Roomy :=
  List.foldlRecOn data ByteWriter.u8v (motive := Roomy) (h.u32v _) fun _ hw b _ => hw.u8v b

theorem stamp (h : w.Roomy) (s : CallerStamp) : (encodeStamp w s).Roomy :=
  h.u64v _ |>.u64v _ |>.u64v _ |>.u64v _ |>.u64v _

theorem request (h : w.Roomy) (r : ControlRequest) : (encodeRequest w r).Roomy :=
  h.u16v _ |>.stamp _ |>.block _

theorem response (h : w.Roomy) (r : ControlResponse) : (encodeResponse w r).Roomy :=
  h.u16v _ |>.str _ |>.block _

theorem ne_success (h : w.Roomy) {status : Status} (hs : w.finish = .error status) :
    status ≠ .success := by
  rintro rfl
  cases h.finish hs

end ByteWriter.Roomy

namespace FramedConnection

variable {limits limits' : Limits} {c c' peer : FramedConnection} {f : Frame} {room : ℕ}

/-- A frame is sent whole over an open connection, or the status says so. -/
theorem of_send (h : c.send f limits room = (.success, c')) :
    f.Fits limits ∧ c' = { c with outgoing := c.outgoing ++ f.wire } := by
  unfold send at h
  split at h
  · cases h
  split at h
  · cases h
  split at h
  · cases h
  rename_i hpoisoned hvalid hbound
  have hopen : c.Open := ⟨by simpa using hvalid, by simpa [poisoned] using hpoisoned⟩
  have hfits : f.Fits limits := Nat.le_of_not_lt hbound
  refine ⟨hfits, ?_⟩
  rw [hfits.narrow] at h
  simp only [sendAll] at h
  split at h
  · cases h
  rename_i hheader
  obtain ⟨hroom, rfl⟩ := Prod.mk.inj hheader
  split at h
  · cases h
  rename_i hpayload
  obtain ⟨hleft, rfl⟩ := Prod.mk.inj hpayload
  obtain rfl := (Prod.mk.inj h).2
  rw [List.take_of_length_le (of_decide_eq_true hroom),
    List.take_of_length_le (of_decide_eq_true hleft), List.append_assoc]
  rfl

/-- What one end sent, the other end receives. -/
theorem send_delivered (h : c.send f limits room = (.success, c')) (hopen : peer.Open)
    (hbound : limits.maxFramePayloadBytes ≤ limits'.maxFramePayloadBytes) {sent rest : Bytes}
    (hlink : c'.outgoing = c.outgoing ++ sent) (hin : peer.incoming = sent ++ rest) :
    f.Fits limits ∧ peer.receive limits' = (.ok f, { peer with incoming := rest }) := by
  obtain ⟨hfits, rfl⟩ := of_send h
  obtain rfl := List.append_cancel_left hlink
  exact ⟨hfits, receive_wire hopen (hfits.trans (UInt32.le_iff_toNat_le.1 hbound)) hin⟩

end FramedConnection

/-- What a client sent asks the server for what the client was asked for. -/
theorem request_delivered {client client' : ControlClient} {op : Operation} {fields : Bytes}
    {stamp : CallerStamp} {room : ℕ}
    (hsent : client.sendRequest op fields stamp room = (.success, client')) {limits : Limits}
    (hbound : client.limits.maxFramePayloadBytes ≤ limits.maxFramePayloadBytes)
    {peer : FramedConnection} (hopen : peer.Open) {sent rest : Bytes}
    (hlink : client'.connection.outgoing = client.connection.outgoing ++ sent)
    (hin : peer.incoming = sent ++ rest) :
    ∃ frame, peer.receive limits = (.ok frame, { peer with incoming := rest }) ∧
      frame.requestId = client.requestId + 1 ∧
      handle limits true frame = .dispatch { op, stamp, fields } := by
  unfold ControlClient.sendRequest at hsent
  cases hpayload : (encodeRequest (.ofCapacity controlCapacityBytes) { op, stamp, fields }).finish
    with
  | error status =>
    rw [hpayload] at hsent
    exact absurd (Prod.mk.inj hsent).1 (((ByteWriter.Roomy.fresh _).request _).ne_success hpayload)
  | ok payload =>
    rw [hpayload] at hsent
    obtain ⟨hstatus, rfl⟩ := Prod.mk.inj hsent
    obtain ⟨hfits, hreceived⟩ :=
      FramedConnection.send_delivered (Prod.ext hstatus rfl) hopen hbound hlink hin
    refine ⟨_, hreceived, rfl, ?_⟩
    -- the fields are within the bound because the whole payload is
    have hfields : fields.length ≤ payload.length := by
      have hemits := ((emits_stamp (Emits.start.u16v op.raw) stamp).u32v
        (UInt32.ofNat fields.length)).bytewise fields
      rw [hemits.finish hpayload, List.length_append]
      exact Nat.le_add_left ..
    have hwithin : fields.length ≤ limits.maxFramePayloadBytes.toNat :=
      (hfields.trans hfits).trans (UInt32.le_iff_toNat_le.1 hbound)
    obtain ⟨wire, hemits, hreads⟩ := delimits_request (r := { op, stamp, fields }) hwithin
    obtain rfl := hemits.finish hpayload
    have hdecoded := hreads []
    rw [List.append_nil] at hdecoded
    simp only [handle, hdecoded, Bool.not_true, Bool.false_eq_true, if_false]
    rw [if_pos ByteReader.exhausted_nil]

theorem Reads.run {α β : Type} {d : Decode α} {k : α → Decode β} {bytes : Bytes} {v : α}
    (h : Reads d bytes v) (rest : Bytes) :
    (d >>= k) ⟨bytes ++ rest, none⟩ = k v ⟨rest, none⟩ := by
  change k (d _).1 (d _).2 = _
  rw [h rest]

/-- What the server sends as a response is received in one frame. -/
theorem sendResponse_received {server server' client : FramedConnection} {limits limits' : Limits}
    {requestId : UInt64} {fault : Bool} {response : ControlResponse} {room : ℕ}
    (hsent : server.sendResponse limits requestId fault response room = (.success, server'))
    (hbound : limits.maxFramePayloadBytes ≤ limits'.maxFramePayloadBytes)
    (hopen : client.Open) {sent rest : Bytes} (hlink : server'.outgoing = server.outgoing ++ sent)
    (hin : client.incoming = sent ++ rest) :
    ∃ payload,
      (encodeResponse (.ofCapacity controlCapacityBytes) response).finish = .ok payload ∧
      client.receive limits' =
        (.ok { type := if fault then .fault else .response, requestId, payload },
          { client with incoming := rest }) ∧
      response.payload.length ≤ limits'.maxFramePayloadBytes.toNat := by
  unfold FramedConnection.sendResponse responseFrame at hsent
  cases hpayload : (encodeResponse (.ofCapacity controlCapacityBytes) response).finish with
  | error status =>
    rw [hpayload] at hsent
    exact absurd (Prod.mk.inj hsent).1
      (((ByteWriter.Roomy.fresh _).response _).ne_success hpayload)
  | ok payload =>
    rw [hpayload] at hsent
    obtain ⟨hfits, hreceived⟩ :=
      FramedConnection.send_delivered hsent hopen hbound hlink hin
    refine ⟨payload, rfl, hreceived, ?_⟩
    -- the payload of the response is part of that of the frame
    have hemits := (((Emits.start.u16v response.code.toU16).str response.detail).u32v
      (UInt32.ofNat response.payload.length)).bytewise response.payload
    have hpart : response.payload.length ≤ payload.length := by
      rw [hemits.finish hpayload, List.length_append]
      exact Nat.le_add_left ..
    exact (hpart.trans hfits).trans (UInt32.le_iff_toNat_le.1 hbound)

/-- A response within the bounds of its reader is read from its payload. -/
theorem decodeResponse_payload {limits : Limits} {r : ControlResponse} {payload : Bytes}
    (hpayload : (encodeResponse (.ofCapacity controlCapacityBytes) r).finish = .ok payload)
    (hdetail : r.detail.length ≤ limits.maxExplanationBytes.toNat)
    (hwithin : r.payload.length ≤ limits.maxFramePayloadBytes.toNat) :
    decodeResponse limits ⟨payload, none⟩ = (.ok r, ⟨[], none⟩) := by
  obtain ⟨wire, hemits, hreads⟩ := delimits_response hdetail hwithin
  obtain rfl := hemits.finish hpayload
  have hdecoded := hreads []
  rwa [List.append_nil] at hdecoded

namespace Scenario

theorem eq_of_fst {α β : Type} {x : α × β} {y : α} (h : x.1 = y) : x = (y, x.2) := by rw [← h]

theorem outgoing_adopt (sent : Bytes) : sent = (FramedConnection.adopt []).outgoing ++ sent :=
  (List.nil_append sent).symm

theorem incoming_adopt (sent : Bytes) : (FramedConnection.adopt sent).incoming = sent ++ [] :=
  (List.append_nil sent).symm

/-- A client that has sent nothing yet. -/
def client : ControlClient := { connection := .adopt [] }

/-- The same after it has asked for the epoch. -/
def asking : ControlClient := (client.sendRequest .epoch [] {} 100).2

end Scenario

theorem request_delivered_epoch :
    ∃ frame, (FramedConnection.adopt Scenario.asking.connection.outgoing).receive {} =
        (.ok frame, .adopt []) ∧ frame.requestId = 0 + 1 ∧
      handle {} true frame = .dispatch { op := .epoch } := by
  have hsent : Scenario.client.sendRequest .epoch [] {} 100 = (.success, Scenario.asking) :=
    Scenario.eq_of_fst (by decide +kernel)
  have hopen : (FramedConnection.adopt Scenario.asking.connection.outgoing).Open := ⟨rfl, rfl⟩
  exact request_delivered hsent (UInt32.le_refl _) hopen (Scenario.outgoing_adopt _)
    (Scenario.incoming_adopt _)

/-- The bytes of a welcome. -/
def welcomeWire (epoch : Epoch) (boot : BootId) (running : Bool) : Bytes :=
  littleEndian 8 epoch.value.toNat ++ (littleEndian 8 boot.counter.toNat ++
    (littleEndian 8 boot.nonce.toNat ++ [if running then 1 else 0]))

theorem welcomeResponse_eq (epoch : Epoch) (boot : BootId) (running : Bool) :
    welcomeResponse epoch boot running = { payload := welcomeWire epoch boot running } := by
  unfold welcomeResponse ByteWriter.ofCapacity
  simp [ByteWriter.u64v, ByteWriter.boolean, ByteWriter.u8v, ByteWriter.raw_room,
    ControlResponse.finished, ByteWriter.finish, welcomeWire]

theorem reads_welcome (epoch : Epoch) (boot : BootId) (running : Bool) :
    Reads decodeEpochPayload (welcomeWire epoch boot running) (.ok (epoch, boot, running)) := by
  unfold decodeEpochPayload
  exact (Reads.u64v _).bind ((Reads.u64v _).bind ((Reads.u64v _).bind
    ((Reads.boolean _).bind_nil (Reads.failure.nil_bind (.pure _)))))

/-- The request passes the two checks of a dispatch. -/
def ControlRequest.Passes (r : ControlRequest) (f : Fabric) : Prop :=
  ∀ limits a, Dispatch.step limits f a (.check r) = (f, some (.checkBoot r)) ∧
    Dispatch.step limits f a (.checkBoot r) = (f, some (.decode r))

/-- A client that reads a welcome takes its stamp from it. -/
theorem receiveWelcome_eq {client : ControlClient} {frame : Frame} {connection : FramedConnection}
    {response : ControlResponse} {epoch : Epoch} {boot : BootId} {running : Bool}
    (hreceived : client.connection.receive client.limits = (.ok frame, connection))
    (htype : frame.type = .response)
    (hdecoded : decodeResponse client.limits ⟨frame.payload, none⟩ = (.ok response, ⟨[], none⟩))
    (hcode : response.code = .ok)
    (hwelcome : decodeEpochPayload ⟨response.payload, none⟩ =
      (.ok (epoch, boot, running), ⟨[], none⟩)) :
    client.receiveWelcome = (.success, { client with
      connection
      stamp := { epoch := epoch.value, bootCounter := boot.counter, bootNonce := boot.nonce,
                 workerIncarnation := boot.counter, workerNonce := boot.nonce } }) := by
  unfold ControlClient.receiveWelcome
  rw [hreceived]
  dsimp only
  -- the decoders are not to be evaluated, only their outcomes matter
  generalize decodeResponse client.limits ⟨frame.payload, none⟩ = decoded at hdecoded ⊢
  subst hdecoded
  dsimp only
  generalize decodeEpochPayload ⟨response.payload, none⟩ = welcome at hwelcome ⊢
  subst hwelcome
  simp [htype, hcode, ByteReader.exhausted_nil]

/-- The client takes the welcome, and with the stamp it has then every request passes the checks
of a dispatch for as long as epoch and boot are the ones it was welcomed with. -/
theorem handshake_accepted {server server' : FramedConnection} {limits : Limits}
    {requestId : UInt64} {epoch : Epoch} {boot : BootId} {running : Bool} {room : ℕ}
    (hsent : server.sendResponse limits requestId false (welcomeResponse epoch boot running) room =
      (.success, server')) {client : ControlClient}
    (hbound : limits.maxFramePayloadBytes ≤ client.limits.maxFramePayloadBytes)
    (hopen : client.connection.Open) {sent rest : Bytes}
    (hlink : server'.outgoing = server.outgoing ++ sent)
    (hin : client.connection.incoming = sent ++ rest) :
    ∃ client', client.receiveWelcome = (.success, client') ∧
      client'.connection = { client.connection with incoming := rest } ∧
      ∀ f : Fabric, f.epoch = epoch → f.boot = boot → epoch.value ≠ 0 → ∀ op fields,
        ControlRequest.Passes { op, stamp := client'.stamp, fields } f := by
  obtain ⟨payload, hpayload, hreceived, hwithin⟩ :=
    sendResponse_received hsent hbound hopen hlink hin
  rw [welcomeResponse_eq] at hpayload hwithin
  have hdecoded := decodeResponse_payload hpayload (Nat.zero_le _) hwithin
  have hwelcome := reads_welcome epoch boot running []
  rw [List.append_nil] at hwelcome
  refine ⟨_, receiveWelcome_eq hreceived rfl hdecoded rfl hwelcome, rfl, ?_⟩
  rintro f rfl rfl hknown op fields limits a
  constructor
  · simp [Dispatch.step, hknown]
  · simp [Dispatch.step]

namespace Scenario

/-- The client after its hello. -/
def greeting : ControlClient := (client.sendHello [97] 100).2

/-- A connection on which a hello has been answered. -/
def welcoming : FramedConnection :=
  ((FramedConnection.adopt []).sendResponse {} 1 false (welcomeResponse ⟨1⟩ ⟨1, 7⟩ true) 100).2

/-- A client with that welcome on its way to it. -/
def welcomed : ControlClient := { greeting with connection := .adopt welcoming.outgoing }

end Scenario

theorem handshake_accepted_first :
    ∃ client', Scenario.welcomed.receiveWelcome = (.success, client') ∧
      client'.connection = .adopt [] ∧
      ∀ f : Fabric, f.epoch = ⟨1⟩ → f.boot = ⟨1, 7⟩ → ∀ op fields,
        ControlRequest.Passes { op, stamp := client'.stamp, fields } f := by
  have hok : ((FramedConnection.adopt []).sendResponse {} 1 false
      (welcomeResponse ⟨1⟩ ⟨1, 7⟩ true) 100).1 = .success := by decide +kernel
  have hsent : (FramedConnection.adopt []).sendResponse {} 1 false
      (welcomeResponse ⟨1⟩ ⟨1, 7⟩ true) 100 = (.success, Scenario.welcoming) :=
    Scenario.eq_of_fst hok
  have hopen : Scenario.welcomed.connection.Open := ⟨rfl, rfl⟩
  obtain ⟨client', hwelcome, hconnection, hpasses⟩ := handshake_accepted hsent (UInt32.le_refl _)
    hopen (Scenario.outgoing_adopt _) (Scenario.incoming_adopt _)
  exact ⟨client', hwelcome, hconnection, fun f hepoch hboot =>
    hpasses f hepoch hboot (by decide)⟩

end Pacing
