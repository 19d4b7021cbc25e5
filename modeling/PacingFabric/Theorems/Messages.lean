import PacingFabric.Model.Protocol
import PacingFabric.Theorems.Delimited

/-!
# Requests and responses as bytes

A request or a response is read back from its encoding, whatever follows it. Conversely,
whatever bytes a decoder accepts, the ones it consumed are what the encoder writes of its
answer: the codec has one encoding for each message.

## Main definitions

* `Fills`: an encoder over a writer that has room for its bytes.
* `Consumes`: a decoder read backwards, from what it answers to the bytes it consumed.
* `Canonical`: what a decoder accepts is within its bounds, and encoded one way.

## Main results

* `control_selfDelimiting`: requests and responses are self-delimiting, and canonical.
-/

namespace Pacing

open Decode

/-! ### Blocks -/

variable {encode : ByteWriter → ByteWriter} {bytes : Bytes}

/-- Bytes written one by one are written in one piece, or poison the writer. -/
theorem Emits.bytewise (h : Emits encode bytes) (data : Bytes) :
    Emits (fun w => data.foldl ByteWriter.u8v (encode w)) (bytes ++ data) := by
  induction data generalizing encode bytes with
  | nil => simpa using h
  | cons b data ih =>
    have hcons := ih (h.u8v b)
    rwa [List.append_assoc] at hcons

theorem Emits.block (h : Emits encode bytes) {data : Bytes} (hdata : data.length < 2 ^ 32) :
    Emits (fun w => (encode w).block data) (bytes ++ stringWire data) := by
  have hblock := (h.u32v (UInt32.ofNat data.length)).bytewise data
  have hlength : (UInt32.ofNat data.length).toNat = data.length := by
    rw [UInt32.toNat_ofNat']
    exact Nat.mod_eq_of_lt hdata
  rwa [hlength, List.append_assoc] at hblock

theorem Field.tail (n : ℕ) : Field (Decode.tail n) where
  sticky r hr := by
    unfold Decode.tail
    rw [take_failed hr]
    exact hr
  grows l := by
    rcases Nat.lt_or_ge l.length n with hshort | henough
    · left
      obtain ⟨hnone, hfail⟩ := take_short hshort
      unfold Decode.tail
      generalize (ByteReader.mk l none).take n = out at hnone hfail
      obtain ⟨bytes, r⟩ := out
      obtain rfl : bytes = none := hnone
      exact hfail
    · refine .inr ⟨l.take n, l.drop n, fun rest => ?_⟩
      unfold Decode.tail
      rw [take_enough henough rest]

theorem Reads.tail (data : Bytes) : Reads (Decode.tail data.length) data data := by
  intro rest
  unfold Decode.tail
  rw [Field.take_enough le_rfl]
  simp

theorem reads_block {limits : Limits} {data : Bytes} (detail : Bytes)
    (h : data.length ≤ limits.maxFramePayloadBytes.toNat) :
    Reads (decodeBlock limits detail) (stringWire data) (.ok data) := by
  have hlength : (UInt32.ofNat data.length).toNat = data.length := by
    rw [UInt32.toNat_ofNat']
    exact Nat.mod_eq_of_lt (h.trans_lt limits.maxFramePayloadBytes.toNat_lt)
  unfold decodeBlock stringWire
  have hread := Reads.u32v (UInt32.ofNat data.length)
  rw [hlength] at hread
  refine hread.bind (Reads.failure.nil_bind ?_)
  dsimp only
  rw [if_neg (by rw [gt_iff_lt, UInt32.lt_iff_toNat_lt, hlength]; omega), hlength]
  exact (Reads.tail data).bind_nil (Reads.failure.nil_bind (.pure _))

theorem concludes_block (limits : Limits) (detail : Bytes) :
    Concludes (decodeBlock limits detail) := by
  unfold decodeBlock
  refine .field .u32v fun length => .checked (fun _ _ => ⟨_, rfl⟩) ?_
  dsimp only
  split
  · exact .refuse _
  · exact (Concludes.field (.tail _) fun _ =>
      .checked (fun _ _ => ⟨_, rfl⟩) (.accept _)).settles

/-! ### Writers with room -/

/-- A writer with room for all of it holds what was written. -/
theorem ByteWriter.raw_room {w : ByteWriter} {data : Bytes} (hok : w.poison = none)
    (h : w.buf.length + data.length ≤ w.capacity) :
    w.raw data = { w with buf := w.buf ++ data } := by
  unfold raw ok
  rw [if_neg (by simp [hok]), if_neg (by omega)]

/-- Given room for `bytes`, the encoder appends them. -/
def Fills (encode : ByteWriter → ByteWriter) (bytes : Bytes) : Prop :=
  ∀ w, w.poison = none → w.buf.length + bytes.length ≤ w.capacity →
    encode w = { w with buf := w.buf ++ bytes }

namespace Fills

theorem congr (h : Fills encode bytes) {bytes' : Bytes} (heq : bytes = bytes') :
    Fills encode bytes' := heq ▸ h

theorem start : Fills (fun w => w) [] := fun w _ _ => by simp

theorem raw (h : Fills encode bytes) (data : Bytes) :
    Fills (fun w => (encode w).raw data) (bytes ++ data) := by
  intro w hok hroom
  rw [List.length_append] at hroom
  dsimp only
  rw [h w hok (by omega)]
  refine (@ByteWriter.raw_room { w with buf := w.buf ++ bytes } data hok ?_).trans ?_
  · rw [List.length_append]
    exact (Nat.add_assoc ..).trans_le hroom
  · exact congrArg (ByteWriter.mk w.capacity · w.poison) (List.append_assoc ..)

theorem u8v (h : Fills encode bytes) (v : UInt8) :
    Fills (fun w => (encode w).u8v v) (bytes ++ [v]) := h.raw _

theorem u16v (h : Fills encode bytes) (v : UInt16) :
    Fills (fun w => (encode w).u16v v) (bytes ++ littleEndian 2 v.toNat) := h.raw _

theorem u32v (h : Fills encode bytes) (v : UInt32) :
    Fills (fun w => (encode w).u32v v) (bytes ++ littleEndian 4 v.toNat) := h.raw _

theorem u64v (h : Fills encode bytes) (v : UInt64) :
    Fills (fun w => (encode w).u64v v) (bytes ++ littleEndian 8 v.toNat) := h.raw _

theorem boolean (h : Fills encode bytes) (v : Bool) :
    Fills (fun w => (encode w).boolean v) (bytes ++ [if v then 1 else 0]) := h.u8v _

theorem id {tag : Tag} (h : Fills encode bytes) (v : Id tag) :
    Fills (fun w => (encode w).id v) (bytes ++ littleEndian 8 v.value.toNat) := h.u64v _

theorem genRef {tag : Tag} (h : Fills encode bytes) (ref : GenRef tag) :
    Fills (fun w => (encode w).genRef ref) (bytes ++ ref.wire) :=
  ((h.id ref.id).u64v ref.generation.value).congr (List.append_assoc ..)

theorem str (h : Fills encode bytes) {s : Bytes} (hs : s.length ≤ ByteWriter.maxStringBytes) :
    Fills (fun w => (encode w).str s) (bytes ++ stringWire s) := by
  have hlength : (UInt32.ofNat s.length).toNat = s.length := by
    rw [UInt32.toNat_ofNat']
    exact Nat.mod_eq_of_lt (hs.trans_lt (by decide))
  have hfields : Fills _ (bytes ++ stringWire s) :=
    ((h.u32v (UInt32.ofNat s.length)).raw s).congr (by rw [hlength, List.append_assoc, stringWire])
  intro w hok hroom
  have hsound : (encode w).poison = none := by
    rw [List.length_append] at hroom
    rw [h w hok (by omega)]
    exact hok
  refine Eq.trans ?_ (hfields w hok hroom)
  dsimp only
  unfold ByteWriter.str ByteWriter.ok
  rw [if_neg (by simp [hsound]), if_neg (Nat.not_lt.2 hs)]

/-- Bytes written one by one take the room of all of them. -/
theorem bytewise (h : Fills encode bytes) (data : Bytes) :
    Fills (fun w => data.foldl ByteWriter.u8v (encode w)) (bytes ++ data) := by
  induction data generalizing encode bytes with
  | nil => simpa using h
  | cons b data ih =>
    have hcons := ih (h.raw [b])
    rwa [List.append_assoc] at hcons

theorem block (h : Fills encode bytes) {data : Bytes} (hdata : data.length < 2 ^ 32) :
    Fills (fun w => (encode w).block data) (bytes ++ stringWire data) := by
  refine ((h.u32v (UInt32.ofNat data.length)).bytewise data).congr ?_
  rw [UInt32.toNat_ofNat', Nat.mod_eq_of_lt hdata, List.append_assoc]
  rfl

theorem finish (h : Fills encode bytes) {capacity : ℕ} (hroom : bytes.length ≤ capacity) :
    (encode ⟨capacity, [], none⟩).finish = .ok bytes := by
  rw [h ⟨capacity, [], none⟩ rfl (by simpa using hroom)]
  rfl

end Fills

/-! ### Decoders read backwards -/

/-- Where the read does not fail, its answer and the bytes it consumed are related by `Q`. -/
def Consumes {α : Type} (d : Decode α) (Q : α → Bytes → Prop) : Prop :=
  ∀ r, (d r).2.ok = true →
    r.ok = true ∧ ∃ used, r.data = used ++ (d r).2.data ∧ Q (d r).1 used

namespace Consumes

variable {α β : Type} {d : Decode α} {k : α → Decode β} {Q : α → Bytes → Prop}
  {R : β → Bytes → Prop}

theorem pure {v : α} (h : Q v []) : Consumes (Pure.pure v) Q := fun _ hok => ⟨hok, [], rfl, h⟩

theorem bind (h : Consumes d Q)
    (hk : ∀ v, Consumes (k v) fun out more => ∀ used, Q v used → R out (used ++ more)) :
    Consumes (d >>= k) R := by
  intro r hok
  obtain ⟨hfirst, more, hmore, hR⟩ := hk (d r).1 (d r).2 hok
  obtain ⟨hsound, used, hused, hQ⟩ := h r hfirst
  refine ⟨hsound, used ++ more, ?_, hR used hQ⟩
  rw [hused, hmore, List.append_assoc]
  rfl

theorem failure : Consumes Decode.failure fun failed used => failed = none ∧ used = [] :=
  fun _ hok => ⟨hok, [], rfl, Option.isNone_iff_eq_none.1 hok, rfl⟩

theorem take {r : ByteReader} {n : ℕ} (h : (r.take n).2.ok = true) :
    r.ok = true ∧ n ≤ r.data.length ∧ r.take n = (some (r.data.take n), ⟨r.data.drop n, none⟩) := by
  obtain ⟨data, failure⟩ := r
  unfold ByteReader.take at h ⊢
  cases failure with
  | some status => cases h
  | none =>
    rw [if_neg (by simp [ByteReader.ok])] at h ⊢
    split at h
    · cases h
    · rename_i henough
      rw [if_neg henough]
      exact ⟨rfl, Nat.le_of_not_lt henough, rfl⟩

/-- A field of fixed width, under the function that puts its number back. -/
theorem number (width : ℕ) {f : ℕ → α} {g : α → ℕ} (hg : ∀ n < 256 ^ width, g (f n) = n) :
    Consumes (fun r => (f (r.number width).1, (r.number width).2))
      fun v used => used = littleEndian width (g v) := by
  intro r hok
  have htaken : (r.take width).2.ok = true := by
    change (r.number width).2.ok = true at hok
    unfold ByteReader.number at hok
    split at hok <;> (rename_i heq; rw [heq]; exact hok)
  obtain ⟨hsound, henough, htake⟩ := take htaken
  have hlength : (r.data.take width).length = width := List.length_take_of_le henough
  refine ⟨hsound, r.data.take width, ?_, ?_⟩
  · simp only [ByteReader.number, htake, List.take_append_drop]
  · have hsmall := ofLittleEndian_lt (r.data.take width)
    rw [hlength] at hsmall
    have hback := littleEndian_ofLittleEndian (r.data.take width)
    rw [hlength] at hback
    simp only [ByteReader.number, htake, hg _ hsmall, hback]

theorem u16v : Consumes Decode.u16v fun v used => used = littleEndian 2 v.toNat :=
  number 2 fun n hn => by
    rw [UInt16.toNat_ofNat']
    exact Nat.mod_eq_of_lt hn

theorem u32v : Consumes Decode.u32v fun v used => used = littleEndian 4 v.toNat :=
  number 4 fun n hn => by
    rw [UInt32.toNat_ofNat']
    exact Nat.mod_eq_of_lt hn

theorem u64v : Consumes Decode.u64v fun v used => used = littleEndian 8 v.toNat :=
  number 8 fun n hn => by
    rw [UInt64.toNat_ofNat']
    exact Nat.mod_eq_of_lt hn

theorem tail (n : ℕ) : Consumes (Decode.tail n) fun v used => used = v ∧ v.length = n := by
  intro r hok
  have htaken : (r.take n).2.ok = true := by
    unfold Decode.tail at hok
    split at hok <;> (rename_i heq; rw [heq]; exact hok)
  obtain ⟨hsound, henough, htake⟩ := take htaken
  refine ⟨hsound, r.data.take n, ?_, ?_⟩
  · simp only [Decode.tail, htake, List.take_append_drop]
  · simp only [Decode.tail, htake]
    exact ⟨trivial, List.length_take_of_le henough⟩

theorem str (maxLen : ℕ) :
    Consumes (Decode.str maxLen) fun s used => used = stringWire s ∧ s.length ≤ maxLen := by
  intro r hok
  unfold Decode.str at hok ⊢
  have hnumber := u32v r
  generalize Decode.u32v r = out at hok hnumber ⊢
  obtain ⟨n, r'⟩ := out
  dsimp only at hok hnumber ⊢
  by_cases hread : r'.ok = true
  · obtain ⟨hsound, used, hused, rfl⟩ := hnumber hread
    rw [if_neg (by simp [hread])] at hok ⊢
    by_cases hmax : n.toNat > maxLen
    · rw [if_pos hmax, ByteReader.fail, if_pos hread] at hok
      cases hok
    · rw [if_neg hmax] at hok ⊢
      have htaken : (r'.take n.toNat).2.ok = true := by
        split at hok <;> (rename_i heq; rw [heq]; exact hok)
      obtain ⟨-, henough, htake⟩ := take htaken
      have hlength : (r'.data.take n.toNat).length = n.toNat := List.length_take_of_le henough
      rw [htake]
      refine ⟨hsound, stringWire (r'.data.take n.toNat), ?_, rfl, ?_⟩
      · rw [hused, stringWire, hlength, List.append_assoc, List.take_append_drop]
      · exact hlength.trans_le (Nat.le_of_not_lt hmax)
  · rw [if_pos (by simpa using hread)] at hok
    exact absurd hok hread

end Consumes

theorem consumes_block (limits : Limits) (detail : Bytes) :
    Consumes (decodeBlock limits detail) fun out used => ∀ data, out = .ok data →
      used = stringWire data ∧ data.length ≤ limits.maxFramePayloadBytes.toNat := by
  unfold decodeBlock
  refine .bind .u32v fun length => .bind .failure fun failed => ?_
  cases failed with
  | some status => exact .pure (by rintro _ ⟨h, -⟩; cases h)
  | none =>
    dsimp only
    split
    · refine .pure ?_
      rintro _ - _ - _ h
      cases h
    · rename_i hbound
      refine .bind (.tail length.toNat) fun data => .bind .failure fun failed => ?_
      cases failed with
      | some status => exact .pure (by rintro _ ⟨h, -⟩; cases h)
      | none =>
        refine .pure ?_
        rintro _ ⟨-, rfl⟩ used ⟨rfl, hlength⟩ _ ⟨-, rfl⟩ _ rfl _ h
        obtain rfl := Except.ok.inj h
        rw [stringWire, hlength]
        refine ⟨by simp, ?_⟩
        exact UInt32.le_iff_toNat_le.1 (UInt32.not_lt.1 hbound)

/-! ### Requests and responses -/

theorem Operation.ofRaw?_raw (op : Operation) : ofRaw? op.raw = some op := by
  cases op <;> rfl

/-- The bytes of a stamp. -/
def CallerStamp.wire (s : CallerStamp) : Bytes :=
  littleEndian 8 s.epoch.toNat ++ (littleEndian 8 s.bootCounter.toNat ++
    (littleEndian 8 s.bootNonce.toNat ++ (littleEndian 8 s.workerIncarnation.toNat ++
      littleEndian 8 s.workerNonce.toNat)))

theorem emits_stamp (h : Emits encode bytes) (s : CallerStamp) :
    Emits (fun w => encodeStamp (encode w) s) (bytes ++ s.wire) := by
  have hfields := ((((h.u64v s.epoch).u64v s.bootCounter).u64v s.bootNonce).u64v
    s.workerIncarnation).u64v s.workerNonce
  simp only [List.append_assoc] at hfields
  exact hfields

theorem reads_stamp (s : CallerStamp) : Reads decodeStamp s.wire (.ok s) := by
  unfold decodeStamp
  exact (Reads.u64v _).bind ((Reads.u64v _).bind ((Reads.u64v _).bind ((Reads.u64v _).bind
    ((Reads.u64v _).bind_nil (Reads.failure.nil_bind (.pure _))))))

theorem concludes_stamp : Concludes decodeStamp := by
  unfold decodeStamp
  iterate 5 refine .field .u64v fun _ => ?_
  exact .checked (fun _ _ => ⟨_, rfl⟩) (.accept _)

theorem delimits_request {limits : Limits} {r : ControlRequest}
    (h : r.fields.length ≤ limits.maxFramePayloadBytes.toNat) :
    Delimits (encodeRequest · r) (decodeRequest limits) r := by
  have hemits := (emits_stamp (Emits.start.u16v r.op.raw) r.stamp).block
    (h.trans_lt limits.maxFramePayloadBytes.toNat_lt)
  simp only [List.append_assoc, List.nil_append] at hemits
  refine ⟨_, hemits, ?_⟩
  unfold decodeRequest
  refine (Reads.u16v _).bind (Reads.failure.nil_bind ?_)
  dsimp only
  rw [Operation.ofRaw?_raw]
  exact (reads_stamp r.stamp).bind ((reads_block _ h).bind_nil (.pure _))

theorem concludes_request (limits : Limits) : Concludes (decodeRequest limits) := by
  unfold decodeRequest
  refine .field .u16v fun raw => .checked (fun _ _ => ⟨_, rfl⟩) ?_
  dsimp only
  split
  · exact .refuse _
  · refine concludes_stamp.settles.bind (fun _ _ => ⟨_, rfl⟩) fun _ => ?_
    exact (concludes_block _ _).settles.bind (fun _ _ => ⟨_, rfl⟩) fun _ => .accept _

theorem delimits_response {limits : Limits} {r : ControlResponse}
    (hdetail : r.detail.length ≤ limits.maxExplanationBytes.toNat)
    (hpayload : r.payload.length ≤ limits.maxFramePayloadBytes.toNat) :
    Delimits (encodeResponse · r) (decodeResponse limits) r := by
  have hemits := ((Emits.start.u16v r.code.toU16).str r.detail).block
    (hpayload.trans_lt limits.maxFramePayloadBytes.toNat_lt)
  simp only [List.append_assoc, List.nil_append] at hemits
  refine ⟨_, hemits, ?_⟩
  unfold decodeResponse
  refine (Reads.u16v _).bind (Reads.failure.nil_bind ?_)
  refine (Reads.str hdetail (hdetail.trans_lt limits.maxExplanationBytes.toNat_lt)).bind
    (Reads.failure.nil_bind ?_)
  refine (reads_block _ hpayload).bind_nil ?_
  dsimp only
  rw [ErrorCode.ofU16_toU16]
  exact .pure _

theorem concludes_response (limits : Limits) : Concludes (decodeResponse limits) := by
  unfold decodeResponse
  refine .field .u16v fun raw => .checked (fun _ _ => ⟨_, rfl⟩) ?_
  refine (Concludes.field (.str _) fun detail => .checked (fun _ _ => ⟨_, rfl⟩) ?_).settles
  exact (concludes_block _ _).settles.bind (fun _ _ => ⟨_, rfl⟩) fun _ => .accept _

theorem Operation.raw_of_ofRaw? {raw : UInt16} {op : Operation} (h : ofRaw? raw = some op) :
    op.raw = raw := by
  have hraw : ∀ i (hi : i < listed.length), listed[i].raw = UInt16.ofNat i := by decide
  obtain ⟨hi, rfl⟩ := List.getElem?_eq_some_iff.1 h
  rw [hraw, UInt16.ofNat_toNat]

theorem ErrorCode.toU16_ofU16 (raw : UInt16) : (ofU16 raw).toU16 = raw := by
  have hlisted : ∀ i (hi : i < listed.length), listed[i].toU16 = UInt16.ofNat i := by decide
  unfold ofU16
  split
  · rfl
  · rename_i hbelow
    have hi : raw.toNat < listed.length := Nat.lt_of_not_le hbelow
    rw [List.getD_eq_getElem?_getD, List.getElem?_eq_getElem hi, Option.getD_some, hlisted,
      UInt16.ofNat_toNat]

/-- The bytes of a request. -/
def ControlRequest.wire (r : ControlRequest) : Bytes :=
  littleEndian 2 r.op.raw.toNat ++ (r.stamp.wire ++ stringWire r.fields)

/-- The bytes of a response. -/
def ControlResponse.wire (r : ControlResponse) : Bytes :=
  littleEndian 2 r.code.toU16.toNat ++ (stringWire r.detail ++ stringWire r.payload)

theorem fills_request {limits : Limits} {r : ControlRequest}
    (h : r.fields.length ≤ limits.maxFramePayloadBytes.toNat) :
    Fills (encodeRequest · r) r.wire := by
  have hfills := ((((((Fills.start.u16v r.op.raw).u64v r.stamp.epoch).u64v
    r.stamp.bootCounter).u64v r.stamp.bootNonce).u64v r.stamp.workerIncarnation).u64v
    r.stamp.workerNonce).block (h.trans_lt limits.maxFramePayloadBytes.toNat_lt)
  simp only [List.append_assoc, List.nil_append] at hfills
  simp only [ControlRequest.wire, CallerStamp.wire, List.append_assoc]
  exact hfills

theorem fills_response {limits : Limits} {r : ControlResponse}
    (hdetail : r.detail.length ≤ ByteWriter.maxStringBytes)
    (hpayload : r.payload.length ≤ limits.maxFramePayloadBytes.toNat) :
    Fills (encodeResponse · r) r.wire := by
  have hfills := ((Fills.start.u16v r.code.toU16).str hdetail).block
    (hpayload.trans_lt limits.maxFramePayloadBytes.toNat_lt)
  simp only [List.append_assoc, List.nil_append] at hfills
  exact hfills

theorem consumes_stamp :
    Consumes decodeStamp fun out used => ∀ s, out = .ok s → used = s.wire := by
  unfold decodeStamp
  refine .bind .u64v fun _ => .bind .u64v fun _ => .bind .u64v fun _ => .bind .u64v fun _ =>
    .bind .u64v fun _ => .bind .failure fun failed => ?_
  cases failed with
  | some status => exact .pure (by rintro _ ⟨h, -⟩; cases h)
  | none =>
    refine .pure ?_
    rintro _ ⟨-, rfl⟩ _ rfl _ rfl _ rfl _ rfl _ rfl _ h
    obtain rfl := Except.ok.inj h
    simp [CallerStamp.wire]

theorem consumes_request (limits : Limits) :
    Consumes (decodeRequest limits) fun out used => ∀ r, out = .ok r →
      used = r.wire ∧ r.fields.length ≤ limits.maxFramePayloadBytes.toNat := by
  unfold decodeRequest
  refine .bind .u16v fun raw => .bind .failure fun failed => ?_
  cases failed with
  | some status => exact .pure (by rintro _ ⟨h, -⟩; cases h)
  | none =>
    dsimp only
    split
    · refine .pure ?_
      rintro _ - _ - _ h
      cases h
    · rename_i op hop
      refine .bind consumes_stamp fun stamp => ?_
      cases stamp with
      | error status =>
        refine .pure ?_
        rintro _ - _ - _ - _ h
        cases h
      | ok stamp =>
        refine .bind (consumes_block limits _) fun fields => ?_
        cases fields with
        | error status =>
          refine .pure ?_
          rintro _ - _ - _ - _ - _ h
          cases h
        | ok fields =>
          refine .pure ?_
          rintro _ hfields _ hstamp _ ⟨-, rfl⟩ _ rfl _ h
          obtain rfl := Except.ok.inj h
          obtain ⟨rfl, hbound⟩ := hfields fields rfl
          obtain rfl := hstamp stamp rfl
          refine ⟨?_, hbound⟩
          rw [ControlRequest.wire, Operation.raw_of_ofRaw? hop]
          simp

theorem consumes_response (limits : Limits) :
    Consumes (decodeResponse limits) fun out used => ∀ r, out = .ok r →
      used = r.wire ∧ r.detail.length ≤ limits.maxExplanationBytes.toNat ∧
        r.payload.length ≤ limits.maxFramePayloadBytes.toNat := by
  unfold decodeResponse
  refine .bind .u16v fun raw => .bind .failure fun failed => ?_
  cases failed with
  | some status => exact .pure (by rintro _ ⟨h, -⟩; cases h)
  | none =>
    refine .bind (.str _) fun detail => .bind .failure fun failed => ?_
    cases failed with
    | some status => exact .pure (by rintro _ ⟨h, -⟩; cases h)
    | none =>
      refine .bind (consumes_block limits _) fun payload => ?_
      cases payload with
      | error status =>
        refine .pure ?_
        rintro _ - _ - _ - _ - _ - _ h
        cases h
      | ok payload =>
        refine .pure ?_
        rintro _ hpayload _ ⟨-, rfl⟩ _ ⟨rfl, hdetail⟩ _ ⟨-, rfl⟩ _ rfl _ h
        obtain rfl := Except.ok.inj h
        obtain ⟨rfl, hbound⟩ := hpayload payload rfl
        refine ⟨?_, hdetail, hbound⟩
        rw [ControlResponse.wire, ErrorCode.toU16_ofU16]
        simp

/-- A decoder that answers with a value leaves its reader sound; the value is within its bounds,
and the encoder writes the consumed bytes of it wherever there is room for them. -/
def Canonical {α : Type} (encode : ByteWriter → α → ByteWriter) (decode : Decode (StatusOr α))
    (accepts writable : α → Prop) : Prop :=
  ∀ l value r, decode ⟨l, none⟩ = (.ok value, r) → r.failure = none ∧ accepts value ∧
    ∃ used, l = used ++ r.data ∧ (writable value → ∀ capacity, used.length ≤ capacity →
      (encode ⟨capacity, [], none⟩ value).finish = .ok used)

/-- What a decoder consumes, an encoder writes. -/
theorem Consumes.canonical {α : Type} {encode : ByteWriter → α → ByteWriter}
    {decode : Decode (StatusOr α)} {accepts writable : α → Prop} {wire : α → Bytes}
    (hconcludes : Concludes decode)
    (hconsumes : Consumes decode fun out used => ∀ v, out = .ok v → used = wire v ∧ accepts v)
    (hfills : ∀ v, accepts v → writable v → Fills (encode · v) (wire v)) :
    Canonical encode decode accepts writable := by
  intro l value r hdecoded
  have hsound : r.failure = none := by
    rcases hconcludes.settles l with ⟨status, hfail⟩ | ⟨v, l', hread⟩
    · rw [hdecoded] at hfail
      cases hfail
    · have hnil := hread []
      rw [List.append_nil, hdecoded] at hnil
      exact congrArg (·.2.failure) hnil
  obtain ⟨-, used, hused, hQ⟩ := hconsumes ⟨l, none⟩ (by
    rw [hdecoded]
    exact Option.isNone_iff_eq_none.2 hsound)
  rw [hdecoded] at hused hQ
  obtain ⟨rfl, haccepts⟩ := hQ value rfl
  exact ⟨hsound, haccepts, _, hused, fun hwritable _ hroom =>
    (hfills value haccepts hwritable).finish hroom⟩

/-- Requests and responses are inverse inside any surrounding bytes, and refused when cut short,
for the field blocks and details within the bounds of their reader; and what is accepted is the
encoding of something within these bounds. No writer takes a detail over the bound of the codec
itself. -/
theorem control_selfDelimiting (limits : Limits) :
    (SelfDelimiting encodeRequest (decodeRequest limits)
        (fun r => r.fields.length ≤ limits.maxFramePayloadBytes.toNat) ∧
      Canonical encodeRequest (decodeRequest limits)
        (fun r => r.fields.length ≤ limits.maxFramePayloadBytes.toNat) fun _ => True) ∧
    SelfDelimiting encodeResponse (decodeResponse limits)
      (fun r => r.detail.length ≤ limits.maxExplanationBytes.toNat ∧
        r.payload.length ≤ limits.maxFramePayloadBytes.toNat) ∧
    Canonical encodeResponse (decodeResponse limits)
      (fun r => r.detail.length ≤ limits.maxExplanationBytes.toNat ∧
        r.payload.length ≤ limits.maxFramePayloadBytes.toNat)
      fun r => r.detail.length ≤ ByteWriter.maxStringBytes :=
  ⟨⟨Delimits.selfDelimiting (concludes_request limits) fun _ h => delimits_request h,
      (consumes_request limits).canonical (concludes_request limits)
        fun _ h _ => fills_request h⟩,
    Delimits.selfDelimiting (concludes_response limits) fun _ h => delimits_response h.1 h.2,
    (consumes_response limits).canonical (concludes_response limits)
      fun _ h hdetail => fills_response hdetail h.2⟩

end Pacing
