import Mathlib.Data.List.Range
import Mathlib.Logic.Function.Iterate

/-!
# Reflected shift registers

A register of `w` bits divides a string of bits, the least significant first, by a reflected
polynomial. Reading one bit at a time agrees with reading a word at once: the word is added
to the register, and the register is turned once for each bit.

## Main definitions

* `ShiftRegister.feed`: one bit of the string.
* `ShiftRegister.turn`: a turn with nothing to read.

## Main results

* `foldl_feed_lowBits`: `n` bits of a word are `n` turns of the register and the word added.
* `turn_iterate_eq`: `n` turns see the lowest `n` bits; the rest of the register moves down.
-/

namespace ShiftRegister

variable {w : ℕ}

/-- The register reads a bit: the bit decides, with the lowest one of the register, whether
the polynomial is added. -/
def feed (poly : BitVec w) (c : BitVec w) (m : Bool) : BitVec w :=
  if c.getLsbD 0 ^^ m then poly ^^^ (c >>> 1) else c >>> 1

/-- The register turns once. -/
def turn (poly : BitVec w) (c : BitVec w) : BitVec w :=
  if c.getLsbD 0 then poly ^^^ (c >>> 1) else c >>> 1

/-- The lowest `n` bits, the least significant first. -/
def lowBits (n : ℕ) (x : BitVec w) : List Bool := (List.range n).map x.getLsbD

theorem lowBits_succ (n : ℕ) (x : BitVec w) :
    lowBits (n + 1) x = x.getLsbD 0 :: lowBits n (x >>> 1) := by
  simp only [lowBits, List.range_succ_eq_map, List.map_cons, List.map_map]
  congr 1
  apply List.map_congr_left
  intro i _
  rw [Function.comp_apply, BitVec.getLsbD_ushiftRight, Nat.add_comm]

variable (poly : BitVec w)

/-- Reading a bit of a word first or adding the word first is the same. -/
theorem feed_xor (c x : BitVec w) :
    feed poly c (x.getLsbD 0) ^^^ (x >>> 1) = turn poly (c ^^^ x) := by
  unfold feed turn
  rw [BitVec.getLsbD_xor, BitVec.ushiftRight_xor_distrib]
  split
  · rw [BitVec.xor_assoc]
  · rfl

/-- A word read bit by bit is the word added, and a turn for each bit. -/
theorem foldl_feed_lowBits (n : ℕ) (c x : BitVec w) :
    (lowBits n x).foldl (feed poly) c = (turn poly)^[n] (c ^^^ x) ^^^ (x >>> n) := by
  induction n generalizing c x with
  | zero =>
    change c = (c ^^^ x) ^^^ (x >>> 0)
    rw [BitVec.ushiftRight_zero, BitVec.xor_assoc, BitVec.xor_self, BitVec.xor_zero]
  | succ n ih =>
    rw [lowBits_succ, List.foldl_cons, ih, feed_xor, Function.iterate_succ_apply,
      ← BitVec.shiftRight_add, Nat.add_comm 1 n]

/-- Two words with the same lowest bits differ after the turns in the other bits alone. -/
theorem turn_iterate_eq {n : ℕ} {x y : BitVec w} (h : lowBits n x = lowBits n y) :
    (turn poly)^[n] x = (turn poly)^[n] y ^^^ (y >>> n) ^^^ (x >>> n) := by
  have hx := foldl_feed_lowBits poly n 0#w x
  have hy := foldl_feed_lowBits poly n 0#w y
  rw [BitVec.zero_xor] at hx hy
  rw [← hy, ← h, hx, BitVec.xor_assoc, BitVec.xor_self, BitVec.xor_zero]

end ShiftRegister
