import PacingFabric.Model.Transport
import PacingFabric.Theorems.Format

/-!
# The frame receiver accepts what the sender produces

`Frame.wire` is what `send` writes for a frame. A received frame is one that `send` admits,
and its wire is exactly what the receiver consumed; in the other direction the wire of an
admissible frame is read back. A failed `receive` poisons the connection, and a poisoned one
neither reads nor writes again.

## Main results

* `FramedConnection.receive_wire`, `FramedConnection.of_receive`: the two directions for one
  frame.
* `FramedConnection.receive_faithful`: any mixture of calls on an open connection.
-/

namespace Pacing

open DurableFile (field field_append field_lt)

/-! ### Numbers and slices -/

theorem slice_add (l : Bytes) (i n m : ℕ) :
    (l.drop i).take (n + m) = (l.drop i).take n ++ (l.drop (i + n)).take m := by
  rw [List.take_add, List.drop_drop]

section slices
variable {l : Bytes} {offset width : ℕ} (h : offset + width ≤ l.length)
include h

theorem length_slice : ((l.drop offset).take width).length = width := by
  rw [List.length_take, List.length_drop]
  omega

/-- The bytes of a field are the ones its number is written as. -/
theorem littleEndian_field : littleEndian width (field l offset width) =
    (l.drop offset).take width := by
  have heq := littleEndian_ofLittleEndian ((l.drop offset).take width)
  rwa [length_slice h] at heq

end slices

/-! ### The wire of a frame -/

theorem FrameType.ofRaw?_raw (type : FrameType) : ofRaw? type.raw = some type := by
  cases type <;> rfl

theorem FrameType.raw_of_ofRaw? {n : ℕ} {type : FrameType} (h : ofRaw? n = some type) :
    type.raw = n := by
  unfold ofRaw? at h
  split at h <;> cases h <;> rfl

theorem FrameType.raw_lt (type : FrameType) : type.raw < 256 ^ 2 := by
  cases type <;> decide

namespace Frame

/-- What `send` writes. -/
def wire (f : Frame) : Bytes := f.header (UInt32.ofNat f.payload.length) ++ f.payload

/-- The payload bound, which `send` and `receive` both check. -/
def Fits (limits : Limits) (f : Frame) : Prop :=
  f.payload.length ≤ limits.maxFramePayloadBytes.toNat

variable {limits : Limits} {f : Frame}

@[simp] theorem length_covered (type : FrameType) (requestId : UInt64) (payloadLen : ℕ) :
    (covered type requestId payloadLen).length = 16 := by simp [covered]

@[simp] theorem length_header (payloadLen : UInt32) :
    (f.header payloadLen).length = frameHeaderBytes := by simp [header, frameHeaderBytes]

theorem length_wire : f.wire.length = frameHeaderBytes + f.payload.length := by simp [wire]

theorem Fits.length_lt (h : f.Fits limits) : f.payload.length < 2 ^ 32 :=
  Nat.lt_of_le_of_lt h limits.maxFramePayloadBytes.toNat_lt

theorem Fits.narrow (h : f.Fits limits) :
    Checked.narrowU32 f.payload.length = some (UInt32.ofNat f.payload.length) := by
  have hlt := h.length_lt
  exact if_neg (by omega)

theorem Fits.toNat (h : f.Fits limits) :
    (UInt32.ofNat f.payload.length).toNat = f.payload.length := by
  rw [UInt32.toNat_ofNat']
  exact Nat.mod_eq_of_lt h.length_lt

section fields
variable (payloadLen : UInt32)

theorem header_eq : f.header payloadLen =
    littleEndian 4 frameMagic ++ covered f.type f.requestId payloadLen.toNat ++
      littleEndian 4
        (checksum (covered f.type f.requestId payloadLen.toNat) f.payload).toNat := rfl

theorem field_magic : field (f.header payloadLen) 0 4 = frameMagic := by
  rw [header_eq]
  generalize (checksum (covered f.type f.requestId payloadLen.toNat) f.payload).toNat = crc
  have h := field_append [] (covered f.type f.requestId payloadLen.toNat ++ littleEndian 4 crc)
    4 (by decide : frameMagic < 256 ^ 4)
  rwa [List.nil_append, ← List.append_assoc] at h

theorem field_version : field (f.header payloadLen) 4 2 = wireProtocolVersion := by
  rw [header_eq]
  generalize (checksum (covered f.type f.requestId payloadLen.toNat) f.payload).toNat = crc
  have h := field_append (littleEndian 4 frameMagic) (littleEndian 2 f.type.raw ++
    littleEndian 8 f.requestId.toNat ++ littleEndian 4 payloadLen.toNat ++ littleEndian 4 crc)
    2 (by decide : wireProtocolVersion < 256 ^ 2)
  simpa only [covered, List.append_assoc, length_littleEndian] using h

theorem field_type : field (f.header payloadLen) 6 2 = f.type.raw := by
  rw [header_eq]
  generalize (checksum (covered f.type f.requestId payloadLen.toNat) f.payload).toNat = crc
  have h := field_append (littleEndian 4 frameMagic ++ littleEndian 2 wireProtocolVersion)
    (littleEndian 8 f.requestId.toNat ++ littleEndian 4 payloadLen.toNat ++
      littleEndian 4 crc) 2 f.type.raw_lt
  simpa only [covered, List.append_assoc, List.length_append, length_littleEndian,
    Nat.reduceAdd] using h

theorem field_requestId : field (f.header payloadLen) 8 8 = f.requestId.toNat := by
  rw [header_eq]
  generalize (checksum (covered f.type f.requestId payloadLen.toNat) f.payload).toNat = crc
  have h := field_append (littleEndian 4 frameMagic ++ littleEndian 2 wireProtocolVersion ++
    littleEndian 2 f.type.raw) (littleEndian 4 payloadLen.toNat ++ littleEndian 4 crc) 8
    (by have := f.requestId.toNat_lt; omega : f.requestId.toNat < 256 ^ 8)
  simpa only [covered, List.append_assoc, List.length_append, length_littleEndian,
    Nat.reduceAdd] using h

theorem field_payloadLen : field (f.header payloadLen) 16 4 = payloadLen.toNat := by
  rw [header_eq]
  generalize (checksum (covered f.type f.requestId payloadLen.toNat) f.payload).toNat = crc
  have h := field_append (littleEndian 4 frameMagic ++ littleEndian 2 wireProtocolVersion ++
    littleEndian 2 f.type.raw ++ littleEndian 8 f.requestId.toNat) (littleEndian 4 crc) 4
    (by have := payloadLen.toNat_lt; omega : payloadLen.toNat < 256 ^ 4)
  simpa only [covered, List.append_assoc, List.length_append, length_littleEndian,
    Nat.reduceAdd] using h

theorem slice_covered : ((f.header payloadLen).drop 4).take 16 =
    covered f.type f.requestId payloadLen.toNat := by
  rw [header_eq]
  generalize (checksum (covered f.type f.requestId payloadLen.toNat) f.payload).toNat = crc
  rw [List.append_assoc, List.drop_left' (length_littleEndian ..),
    List.take_left' (length_covered ..)]

theorem field_checksum : field (f.header payloadLen) 20 4 =
    (checksum (covered f.type f.requestId payloadLen.toNat) f.payload).toNat := by
  rw [header_eq]
  generalize checksum (covered f.type f.requestId payloadLen.toNat) f.payload = crc
  have h := field_append (littleEndian 4 frameMagic ++
    covered f.type f.requestId payloadLen.toNat) [] 4
    (by have := crc.toNat_lt; omega : crc.toNat < 256 ^ 4)
  rwa [List.append_nil, List.length_append, length_littleEndian, length_covered] at h

end fields

/-- A header whose fields are those of a frame is the header of the frame. -/
theorem header_of_fields {header : Bytes} (hlength : header.length = frameHeaderBytes)
    (hmagic : field header 0 4 = frameMagic)
    (hversion : field header 4 2 = wireProtocolVersion)
    (htype : f.type.raw = field header 6 2) (hid : f.requestId = UInt64.ofNat (field header 8 8))
    (hlen : f.payload.length = field header 16 4)
    (hcrc : (checksum ((header.drop 4).take 16) f.payload).toNat = field header 20 4) :
    f.header (UInt32.ofNat f.payload.length) = header := by
  have h24 : header.length = 24 := hlength
  have hidlt : field header 8 8 < 2 ^ 64 := field_lt header 8 8
  have hlenlt : field header 16 4 < 2 ^ 32 := field_lt header 16 4
  have hcovered : covered f.type f.requestId (UInt32.ofNat f.payload.length).toNat =
      (header.drop 4).take 16 := by
    rw [covered, htype, hid, hlen, UInt32.toNat_ofNat', Nat.mod_eq_of_lt hlenlt,
      UInt64.toNat_ofNat', Nat.mod_eq_of_lt hidlt, ← hversion,
      littleEndian_field (by omega), littleEndian_field (by omega),
      littleEndian_field (by omega), littleEndian_field (by omega),
      ← slice_add header 4 2 2, ← slice_add header 4 4 8, ← slice_add header 4 12 4]
  rw [header_eq, hcovered, hcrc, ← hmagic, littleEndian_field (by omega),
    littleEndian_field (by omega),
    ← slice_add header 0 4 16, ← slice_add header 0 20 4, List.drop_zero]
  exact List.take_of_length_le (by omega)

end Frame

namespace FramedConnection

variable {limits : Limits} {c : FramedConnection} {f : Frame}

/-- Connected, and no framing failure so far. -/
structure Open (c : FramedConnection) : Prop where
  valid : c.valid = true
  sound : c.poisonReason = none

theorem Open.poisoned (h : c.Open) : c.poisoned = false := by
  rw [FramedConnection.poisoned, h.sound]
  rfl

/-- The answer of a poisoned connection. -/
def unusable : Status := .of .invalidState "connection is unusable after a framing failure"

/-! ### Sending -/

/-- A frame within the bound, over a socket that takes all of it. -/
theorem send_open (h : c.Open) (hf : f.Fits limits) {room : ℕ} (hroom : f.wire.length ≤ room) :
    c.send f limits room = (.success, { c with outgoing := c.outgoing ++ f.wire }) := by
  rw [Frame.length_wire] at hroom
  unfold send
  rw [if_neg (by simp [h.poisoned]), if_neg (by simp [h.valid]), if_neg (Nat.not_lt.2 hf),
    hf.narrow]
  have hheader : (f.header (UInt32.ofNat f.payload.length)).length ≤ room := by
    rw [Frame.length_header]
    omega
  have hpayload : f.payload.length ≤ room - frameHeaderBytes := by omega
  simp only [sendAll, hheader, hpayload, decide_true, List.take_of_length_le, Frame.wire,
    List.append_assoc]

theorem poison_keeps (reason : Status) :
    (c.poison reason).incoming = c.incoming ∧ (c.poison reason).outgoing = c.outgoing := by
  unfold poison
  split <;> exact ⟨rfl, rfl⟩

theorem poison_poisoned (reason : Status) : (c.poison reason).poisoned = true := by
  unfold poison
  split
  · assumption
  · rfl

/-- Sending reads nothing, and leaves the connection open unless it poisons it. -/
theorem send_keeps (room : ℕ) : (c.send f limits room).2.incoming = c.incoming ∧
    (c.Open → (c.send f limits room).2.Open ∨ (c.send f limits room).2.poisoned = true) := by
  unfold send
  split
  · exact ⟨rfl, .inl⟩
  · split
    · exact ⟨rfl, .inl⟩
    · split
      · exact ⟨rfl, .inl⟩
      · split
        · exact ⟨rfl, .inl⟩
        · dsimp only [sendAll]
          split
          · rename_i hheader
            obtain ⟨-, rfl⟩ := Prod.mk.inj hheader
            exact ⟨(poison_keeps _).1, fun _ => .inr (poison_poisoned _)⟩
          · rename_i hheader
            obtain ⟨-, rfl⟩ := Prod.mk.inj hheader
            split
            · rename_i hpayload
              obtain ⟨-, rfl⟩ := Prod.mk.inj hpayload
              exact ⟨(poison_keeps _).1, fun _ => .inr (poison_poisoned _)⟩
            · rename_i hpayload
              obtain ⟨-, rfl⟩ := Prod.mk.inj hpayload
              exact ⟨rfl, fun h => .inl ⟨h.valid, h.sound⟩⟩

/-! ### Receiving -/

theorem recvExact_append {data rest : Bytes} (h : c.incoming = data ++ rest) :
    c.recvExact data.length = (some data, { c with incoming := rest }) := by
  unfold recvExact
  rw [h, if_pos (by rw [List.length_append]; omega), List.take_left, List.drop_left]

theorem of_recvExact {n : ℕ} {data : Bytes} {c' : FramedConnection}
    (h : c.recvExact n = (some data, c')) : data.length = n ∧
      c.incoming = data ++ c'.incoming ∧ c' = { c with incoming := c'.incoming } := by
  unfold recvExact at h
  split at h
  · rename_i hn
    cases h
    exact ⟨by rw [List.length_take]; omega, (List.take_append_drop n _).symm, rfl⟩
  · cases h

/-- The wire of a frame within the bound is read back, and nothing behind it. -/
theorem receive_wire (h : c.Open) (hf : f.Fits limits) {rest : Bytes}
    (hin : c.incoming = f.wire ++ rest) :
    c.receive limits = (.ok f, { c with incoming := rest }) := by
  unfold receive
  rw [if_neg (by simp [h.poisoned]), if_neg (by simp [h.valid])]
  have hheader : c.incoming =
      f.header (UInt32.ofNat f.payload.length) ++ (f.payload ++ rest) := by
    rw [hin, Frame.wire, List.append_assoc]
  -- the header is read off the front, and then the payload
  have hread := recvExact_append hheader
  rw [Frame.length_header] at hread
  have hpayload := @recvExact_append { c with incoming := f.payload ++ rest }
    f.payload _ rfl
  rw [hread]
  dsimp only
  rw [if_neg (by rw [Frame.field_magic]; simp), if_neg (by rw [Frame.field_version]; simp),
    Frame.field_type, FrameType.ofRaw?_raw]
  dsimp only
  rw [Frame.field_payloadLen, hf.toNat, if_neg (Nat.not_lt.2 hf), hpayload]
  dsimp only
  rw [Frame.slice_covered, Frame.field_checksum, if_neg (not_not.2 rfl), Frame.field_requestId,
    UInt64.ofNat_toNat]

/-- What is received was within the bound, and its wire is what was consumed. -/
theorem of_receive (h : c.Open) {c' : FramedConnection} (hrec : c.receive limits = (.ok f, c')) :
    f.Fits limits ∧ c.incoming = f.wire ++ c'.incoming ∧
      c' = { c with incoming := c'.incoming } := by
  unfold receive at hrec
  rw [if_neg (by simp [h.poisoned]), if_neg (by simp [h.valid])] at hrec
  split at hrec
  · cases hrec
  · rename_i header c₁ hheader
    obtain ⟨hlength, hin, hc₁⟩ := of_recvExact hheader
    split at hrec
    · cases hrec
    · rename_i hmagic
      split at hrec
      · cases hrec
      · rename_i hversion
        split at hrec
        · cases hrec
        · rename_i type htype
          dsimp only at hrec
          split at hrec
          · cases hrec
          · rename_i hbound
            split at hrec
            · cases hrec
            · rename_i payload c₂ hpayload
              obtain ⟨hlen, hin', hc₂⟩ := of_recvExact hpayload
              split at hrec
              · cases hrec
              · rename_i hcrc
                obtain ⟨rfl, rfl⟩ := Prod.mk.inj hrec |>.imp_left Except.ok.inj
                refine ⟨?_, ?_, ?_⟩
                · rw [Frame.Fits, hlen]
                  exact Nat.le_of_not_lt hbound
                · -- each field was compared, so the header is the one `send` writes
                  rw [Frame.wire, Frame.header_of_fields hlength (not_not.1 hmagic)
                    (not_not.1 hversion) (FrameType.raw_of_ofRaw? htype) rfl hlen
                    (not_not.1 hcrc), List.append_assoc, hin, hin']
                · rw [hc₂, hc₁]

/-- A connection that received is as open as before. -/
theorem open_of_receive (h : c.Open) {c' : FramedConnection}
    (hrec : c.receive limits = (.ok f, c')) : c'.Open := by
  obtain ⟨-, -, hc'⟩ := of_receive h hrec
  rw [hc']
  exact ⟨h.valid, h.sound⟩

theorem fail_poisoned (reason : Status) : (c.fail reason).2.poisoned = true :=
  poison_poisoned reason

/-- A failed `receive` leaves a poisoned connection. -/
theorem poisoned_of_receive (h : c.Open) {status : Status}
    (hrec : (c.receive limits).1 = .error status) : (c.receive limits).2.poisoned = true := by
  unfold receive at hrec ⊢
  rw [if_neg (by simp [h.poisoned]), if_neg (by simp [h.valid])] at hrec ⊢
  split
  · exact fail_poisoned _
  · rename_i header c₁ hheader
    rw [hheader] at hrec
    dsimp only at hrec
    split
    · exact fail_poisoned _
    · rename_i hmagic
      rw [if_neg hmagic] at hrec
      split
      · exact fail_poisoned _
      · rename_i hversion
        rw [if_neg hversion] at hrec
        split
        · exact fail_poisoned _
        · rename_i type htype
          rw [htype] at hrec
          dsimp only at hrec ⊢
          split
          · exact fail_poisoned _
          · rename_i hbound
            rw [if_neg hbound] at hrec
            split
            · exact fail_poisoned _
            · rename_i payload c₂ hpayload
              rw [hpayload] at hrec
              dsimp only at hrec
              split
              · exact fail_poisoned _
              · rename_i hcrc
                rw [if_neg hcrc] at hrec
                cases hrec

/-! ### Runs -/

/-- The frames that were received. -/
def frames : List Reply → List Frame
  | [] => []
  | .received (.ok f) :: replies => f :: frames replies
  | _ :: replies => frames replies

/-- No call to `receive` failed. -/
def Unfailed (replies : List Reply) : Prop :=
  ∀ status, Reply.received (.error status) ∉ replies

/-- What a connection refuses a call with once it is poisoned. -/
def refusal : Call → Reply
  | .send .. => .sent unusable
  | .receive => .received (.error unusable)

/-- What `send` writes for the frames, one after another, over a socket that takes it. -/
def sent (limits : Limits) (fs : List Frame) : Bytes :=
  (run limits (adopt []) (fs.map fun f => .send f f.wire.length)).2.outgoing

theorem run_sends (fs : List Frame) (hfits : ∀ f ∈ fs, f.Fits limits) (h : c.Open) :
    (run limits c (fs.map fun f => .send f f.wire.length)).2 =
      { c with outgoing := c.outgoing ++ fs.flatMap Frame.wire } := by
  induction fs generalizing c with
  | nil => simp [run]
  | cons f fs ih =>
    have hsend := send_open h (hfits f List.mem_cons_self) (Nat.le_refl _)
    have hopen : ({ c with outgoing := c.outgoing ++ f.wire } : FramedConnection).Open :=
      ⟨h.valid, h.sound⟩
    rw [List.map_cons, run, call, hsend]
    dsimp only
    rw [ih (fun g hg => hfits g (List.mem_cons_of_mem f hg)) hopen]
    simp

theorem sent_eq {fs : List Frame} (hfits : ∀ f ∈ fs, f.Fits limits) :
    sent limits fs = fs.flatMap Frame.wire := by
  rw [sent, run_sends fs hfits ⟨rfl, rfl⟩]
  rfl

/-- A poisoned connection refuses every call and stays as it is. -/
theorem run_poisoned (h : c.poisoned = true) (calls : List Call) :
    run limits c calls = (calls.map refusal, c) := by
  induction calls with
  | nil => rfl
  | cons next calls ih =>
    have hcall : call limits c next = (refusal next, c) := by
      cases next with
      | send frame room => rw [call, send, if_pos h]; rfl
      | receive => rw [call, receive, if_pos h]; rfl
    rw [run, hcall]
    dsimp only
    rw [ih, List.map_cons]

theorem run_unfailed (h : c.Open) (calls : List Call)
    (hun : Unfailed (run limits c calls).1) :
    (∀ f ∈ frames (run limits c calls).1, f.Fits limits) ∧
      c.incoming = (frames (run limits c calls).1).flatMap Frame.wire ++
        (run limits c calls).2.incoming := by
  induction calls generalizing c with
  | nil => exact ⟨fun f hf => absurd hf List.not_mem_nil, rfl⟩
  | cons next calls ih =>
    rw [run] at hun ⊢
    cases next with
    | send frame room =>
      obtain ⟨hin, hopen⟩ := @send_keeps limits c frame room
      rw [call] at hun ⊢
      generalize c.send frame limits room = out at hin hopen hun ⊢
      obtain ⟨status, c'⟩ := out
      dsimp only at hin hopen hun ⊢
      have hun' : Unfailed (run limits c' calls).1 :=
        fun s hs => hun s (List.mem_cons_of_mem _ hs)
      rw [← hin]
      rcases hopen h with hopen | hpoisoned
      · exact ih hopen hun'
      · -- a poisoned connection receives nothing more
        rw [run_poisoned hpoisoned] at hun' ⊢
        have hnone : frames (.sent status :: calls.map refusal) = [] := by
          change frames (calls.map refusal) = []
          clear ih hun hun'
          induction calls with
          | nil => rfl
          | cons next calls ih =>
            cases next with
            | send => exact ih
            | receive => exact ih
        rw [hnone]
        exact ⟨fun f hf => absurd hf List.not_mem_nil, rfl⟩
    | receive =>
      rw [call] at hun ⊢
      cases hrec : c.receive limits with
      | mk outcome c' =>
        rw [hrec] at hun
        dsimp only at hun ⊢
        cases outcome with
        | error status => exact absurd List.mem_cons_self (hun status)
        | ok f =>
          obtain ⟨hfits, hin, -⟩ := of_receive h hrec
          have hun' : Unfailed (run limits c' calls).1 :=
            fun s hs => hun s (List.mem_cons_of_mem _ hs)
          obtain ⟨hall, hrest⟩ := ih (open_of_receive h hrec) hun'
          refine ⟨?_, ?_⟩
          · intro g hg
            rcases List.mem_cons.1 hg with rfl | hg
            · exact hfits
            · exact hall g hg
          · rw [hin, frames, List.flatMap_cons, List.append_assoc, ← hrest]

theorem run_receives (fs : List Frame) (hfits : ∀ f ∈ fs, f.Fits limits) (h : c.Open)
    {rest : Bytes} (hin : c.incoming = fs.flatMap Frame.wire ++ rest) :
    run limits c (List.replicate fs.length .receive) =
      (fs.map fun f => .received (.ok f), { c with incoming := rest }) := by
  induction fs generalizing c with
  | nil =>
    rw [List.flatMap_nil, List.nil_append] at hin
    rw [← hin]
    rfl
  | cons f fs ih =>
    rw [List.flatMap_cons, List.append_assoc] at hin
    have hrec := receive_wire h (hfits f List.mem_cons_self) hin
    rw [List.length_cons, List.replicate_succ, run, call, hrec]
    dsimp only
    rw [ih (c := { c with incoming := fs.flatMap Frame.wire ++ rest })
      (fun g hg => hfits g (List.mem_cons_of_mem f hg)) ⟨h.valid, h.sound⟩ rfl]
    rfl

theorem run_failed (h : c.Open) (calls : List Call)
    (hfailed : ¬ Unfailed (run limits c calls).1) :
    (run limits c calls).2.poisoned = true := by
  induction calls generalizing c with
  | nil => exact absurd (fun _ => List.not_mem_nil) hfailed
  | cons next calls ih =>
    rw [run] at hfailed ⊢
    cases next with
    | send frame room =>
      have hopen := (@send_keeps limits c frame room).2 h
      rw [call] at hfailed ⊢
      generalize c.send frame limits room = out at hopen hfailed ⊢
      obtain ⟨status, c'⟩ := out
      dsimp only at hopen hfailed ⊢
      rcases hopen with hopen | hpoisoned
      · refine ih hopen fun hun => hfailed fun s hs => ?_
        rcases List.mem_cons.1 hs with hs | hs
        · cases hs
        · exact hun s hs
      · rw [run_poisoned hpoisoned]
        exact hpoisoned
    | receive =>
      rw [call] at hfailed ⊢
      cases hrec : c.receive limits with
      | mk outcome c' =>
        rw [hrec] at hfailed
        dsimp only at hfailed ⊢
        cases outcome with
        | error status =>
          have hpoisoned := @poisoned_of_receive limits _ h _ (congrArg Prod.fst hrec)
          rw [hrec] at hpoisoned
          rw [run_poisoned hpoisoned]
          exact hpoisoned
        -- the call that failed is a later one
        | ok f =>
          refine ih (open_of_receive h hrec) fun hun => hfailed fun s hs => ?_
          rcases List.mem_cons.1 hs with hs | hs
          · cases hs
          · exact hun s hs

/-- On an open connection, whatever is called: while no `receive` has failed, the bytes that
`send` writes for the received frames are exactly what was consumed; the bytes sent for
frames within the bound are received as those frames; and once a `receive` has failed, every
later call is refused and neither reads nor writes. -/
theorem receive_faithful (limits : Limits) (c : FramedConnection) (h : c.Open) :
    (∀ calls, Unfailed (run limits c calls).1 →
      c.incoming = sent limits (frames (run limits c calls).1) ++
        (run limits c calls).2.incoming) ∧
    (∀ fs rest, (∀ f ∈ fs, f.Fits limits) → c.incoming = sent limits fs ++ rest →
      run limits c (List.replicate fs.length .receive) =
        (fs.map fun f => .received (.ok f), { c with incoming := rest })) ∧
    (∀ calls later, ¬ Unfailed (run limits c calls).1 →
      run limits (run limits c calls).2 later =
        (later.map refusal, (run limits c calls).2)) := by
  refine ⟨?_, ?_, ?_⟩
  · intro calls hun
    obtain ⟨hfits, hin⟩ := run_unfailed h calls hun
    rw [sent_eq hfits]
    exact hin
  · intro fs rest hfits hin
    rw [sent_eq hfits] at hin
    exact run_receives fs hfits h hin
  · intro calls later hfailed
    exact run_poisoned (run_failed h calls hfailed) later

/-- A stream of one frame and three stray bytes. -/
theorem receive_faithful_stream :
    let stream := sent {} [⟨.hello, 7, [1, 2]⟩] ++ [0, 1, 2]
    (∀ calls, Unfailed (run {} (adopt stream) calls).1 →
      stream = sent {} (frames (run {} (adopt stream) calls).1) ++
        (run {} (adopt stream) calls).2.incoming) ∧
    (∀ fs rest, (∀ f ∈ fs, f.Fits {}) → stream = sent {} fs ++ rest →
      run {} (adopt stream) (List.replicate fs.length .receive) =
        (fs.map fun f => .received (.ok f), adopt rest)) ∧
    (∀ calls later, ¬ Unfailed (run {} (adopt stream) calls).1 →
      run {} (run {} (adopt stream) calls).2 later =
        (later.map refusal, (run {} (adopt stream) calls).2)) :=
  receive_faithful {} (adopt (sent {} [⟨.hello, 7, [1, 2]⟩] ++ [0, 1, 2])) ⟨rfl, rfl⟩

end FramedConnection

end Pacing
