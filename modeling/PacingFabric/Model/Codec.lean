import PacingFabric.Model.Status
import Mathlib.Algebra.Group.Basic
import Mathlib.Algebra.Ring.Nat

/-!
# Bounded binary encoding

`ByteWriter` appends little-endian fields under a hard capacity and is poisoned by the
first field that does not fit. `ByteReader` checks the remaining length before each field,
answers zero once it has failed, and is asked for its status at the end.
-/

namespace Pacing

/-- The `n` low bytes of a number, least significant first. -/
def littleEndian : Nat → Nat → Bytes
  | 0, _ => []
  | n + 1, v => UInt8.ofNat v :: littleEndian n (v / 256)

@[simp] theorem length_littleEndian (n v : Nat) : (littleEndian n v).length = n := by
  induction n generalizing v with
  | zero => rfl
  | succ n ih => simp [littleEndian, ih]

/-- The number a little-endian byte string stands for. -/
def ofLittleEndian : Bytes → Nat
  | [] => 0
  | b :: rest => b.toNat + 256 * ofLittleEndian rest

theorem ofLittleEndian_littleEndian (n v : Nat) :
    ofLittleEndian (littleEndian n v) = v % 256 ^ n := by
  induction n generalizing v with
  | zero => simp [littleEndian, ofLittleEndian, Nat.mod_one]
  | succ n ih =>
    have hb : (UInt8.ofNat v).toNat = v % 256 := by simp
    rw [littleEndian, ofLittleEndian, ih, hb, pow_succ', Nat.mod_mul]

theorem ofLittleEndian_lt (l : Bytes) : ofLittleEndian l < 256 ^ l.length := by
  induction l with
  | nil => exact Nat.one_pos
  | cons b l ih =>
    have := b.toNat_lt
    rw [ofLittleEndian, List.length_cons, pow_succ]
    omega

theorem littleEndian_ofLittleEndian (l : Bytes) :
    littleEndian l.length (ofLittleEndian l) = l := by
  induction l with
  | nil => rfl
  | cons b l ih =>
    have hb := b.toNat_lt
    have hlow : UInt8.ofNat (b.toNat + 256 * ofLittleEndian l) = b := by
      rw [← UInt8.toNat_inj, UInt8.toNat_ofNat']
      omega
    have hhigh : (b.toNat + 256 * ofLittleEndian l) / 256 = ofLittleEndian l := by omega
    rw [ofLittleEndian, List.length_cons, littleEndian, hlow, hhigh, ih]

def ByteWriter.maxStringBytes : Nat := 1 <<< 20

structure ByteWriter where
  capacity : Nat
  buf : Bytes := []
  poison : Option Status := none

namespace ByteWriter

def ok (w : ByteWriter) : Bool := w.poison.isNone

def raw (w : ByteWriter) (data : Bytes) : ByteWriter :=
  if !w.ok then w
  else if data.length > w.capacity ∨ w.buf.length > w.capacity - data.length then
    { w with poison := some (.of .oversized "codec capacity exceeded") }
  else { w with buf := w.buf ++ data }

def u8v (w : ByteWriter) (v : UInt8) : ByteWriter := w.raw [v]

def u16v (w : ByteWriter) (v : UInt16) : ByteWriter := w.raw (littleEndian 2 v.toNat)

def u32v (w : ByteWriter) (v : UInt32) : ByteWriter := w.raw (littleEndian 4 v.toNat)

def u64v (w : ByteWriter) (v : UInt64) : ByteWriter := w.raw (littleEndian 8 v.toNat)

def boolean (w : ByteWriter) (v : Bool) : ByteWriter := w.u8v (if v then 1 else 0)

/-- Length-prefixed string. -/
def str (w : ByteWriter) (s : Bytes) : ByteWriter :=
  if !w.ok then w
  else if s.length > maxStringBytes then
    { w with poison := some (.of .oversized "string exceeds codec bound") }
  else (w.u32v (UInt32.ofNat s.length)).raw s

/-- The finished payload, or the status of the poisoned writer. -/
def finish (w : ByteWriter) : StatusOr Bytes :=
  match w.poison with
  | some status => .error status
  | none => .ok w.buf

end ByteWriter

/-- The unread bytes and the first failure. -/
structure ByteReader where
  data : Bytes
  failure : Option Status := none

namespace ByteReader

def ok (r : ByteReader) : Bool := r.failure.isNone

/-- Every byte was consumed exactly once. -/
def exhausted (r : ByteReader) : Bool := r.ok && r.data.isEmpty

def fail (r : ByteReader) (status : Status) : ByteReader :=
  if r.ok then { r with failure := some status } else r

/-- `need` followed by the bytes it guards. -/
def take (r : ByteReader) (n : Nat) : Option Bytes × ByteReader :=
  if !r.ok then (none, r)
  else if n > r.data.length then
    (none, r.fail (.of .malformedInput "truncated encoded input"))
  else (some (r.data.take n), { r with data := r.data.drop n })

/-- A fixed-width field; zero when it cannot be read. -/
def number (r : ByteReader) (width : Nat) : Nat × ByteReader :=
  match r.take width with
  | (some bytes, r) => (ofLittleEndian bytes, r)
  | (none, r) => (0, r)

end ByteReader

/-- A decoder runs over the reader it is handed. -/
abbrev Decode (α : Type) := StateM ByteReader α

namespace Decode

def u8v : Decode UInt8 := fun r => let (v, r) := r.number 1; (UInt8.ofNat v, r)

def u16v : Decode UInt16 := fun r => let (v, r) := r.number 2; (UInt16.ofNat v, r)

def u32v : Decode UInt32 := fun r => let (v, r) := r.number 4; (UInt32.ofNat v, r)

def u64v : Decode UInt64 := fun r => let (v, r) := r.number 8; (UInt64.ofNat v, r)

def boolean : Decode Bool := fun r => let (v, r) := u8v r; (v != 0, r)

def str (maxLen : Nat) : Decode Bytes := fun r =>
  let (n, r) := u32v r
  if !r.ok then ([], r)
  else if n.toNat > maxLen then ([], r.fail (.of .oversized "decoded string exceeds bound"))
  else
    match r.take n.toNat with
    | (some s, r) => (s, r)
    | (none, r) => ([], r)

/-- The status callers ask for after the last field: `none` when nothing failed. -/
def failure : Decode (Option Status) := fun r => (r.failure, r)

end Decode

end Pacing
