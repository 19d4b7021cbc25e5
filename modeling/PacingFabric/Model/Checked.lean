import Mathlib.Logic.Function.Basic

/-!
# Exact, checked 64-bit arithmetic

Operations answer `none` where the source returns `false`. `umul128` is the portable limb
decomposition, and `mulDivMod` the restoring shift-subtract division over the 128-bit
product; neither uses an operation wider than 64 bits.

`Digest64` is the FNV-1a digest that provenance and evidence records carry.
-/

namespace Pacing

namespace Checked

def u64Max : UInt64 := 0xFFFFFFFFFFFFFFFF

def add (a b : UInt64) : Option UInt64 :=
  if a > u64Max - b then none else some (a + b)

def mul (a b : UInt64) : Option UInt64 :=
  if a == 0 || b == 0 then some 0
  else if a > u64Max / b then none
  else some (a * b)

/-- Exact 128-bit product, as its high and low halves. -/
def umul128 (a b : UInt64) : UInt64 × UInt64 :=
  let aLo := a &&& 0xFFFFFFFF
  let aHi := a >>> 32
  let bLo := b &&& 0xFFFFFFFF
  let bHi := b >>> 32
  let t := aLo * bLo
  let w0 := t &&& 0xFFFFFFFF
  let k := t >>> 32
  let t := aHi * bLo + k
  let w1 := t &&& 0xFFFFFFFF
  let w2 := t >>> 32
  let t := aLo * bHi + w1
  let k := t >>> 32
  (aHi * bHi + w2 + k, (t <<< 32) + w0)

/-- One turn of the restoring division, for bit `i` of the dividend: the running quotient
and remainder. -/
def divideBit (hi lo d : UInt64) (i : Nat) (q r : UInt64) : UInt64 × UInt64 :=
  let bit := if i ≥ 64 then (hi >>> UInt64.ofNat (i - 64)) &&& 1
    else (lo >>> UInt64.ofNat i) &&& 1
  let r2 := (r <<< 1) ||| bit
  let carry := (r >>> 63) != 0
  let ge := carry || decide (r2 ≥ d)
  -- modular subtraction stays exact even when the carry was set
  let r' := if ge then r2 - d else r2
  let q' := if ge && decide (i < 64) then q ||| (1 <<< UInt64.ofNat i) else q
  (q', r')

/-- The loop over bits `n - 1, …, 0`. -/
def divideLoop (hi lo d : UInt64) : Nat → UInt64 → UInt64 → UInt64 × UInt64
  | 0, q, r => (q, r)
  | i + 1, q, r =>
    let step := divideBit hi lo d i q r
    divideLoop hi lo d i step.1 step.2

/-- `(a * b) / d` with remainder over the full product; `none` when `d` is zero or the
quotient does not fit. -/
def mulDivMod (a b d : UInt64) : Option (UInt64 × UInt64) :=
  if d == 0 then none
  else
    let product := umul128 a b
    if product.1 ≥ d then none
    else if product.1 == 0 then some (product.2 / d, product.2 % d)
    else some (divideLoop product.1 product.2 d 128 0 0)

def mulDivFloor (a b d : UInt64) : Option UInt64 :=
  (mulDivMod a b d).map Prod.fst

def mulDivCeil (a b d : UInt64) : Option UInt64 :=
  match mulDivMod a b d with
  | none => none
  | some (q, r) =>
    if r != 0 then
      if q == u64Max then none else some (q + 1)
    else some q

def narrowU32 (v : Nat) : Option UInt32 :=
  if v > 0xFFFFFFFF then none else some (UInt32.ofNat v)

/-- A fraction of a value in parts per million, floored. -/
def ppmOf (value ppm : UInt64) : Option UInt64 :=
  mulDivFloor value ppm 1000000

end Checked

/-- FNV-1a 64-bit digest. -/
structure Digest64 where
  state : UInt64 := 0xCBF29CE484222325

namespace Digest64

def mixByte (d : Digest64) (b : UInt8) : Digest64 :=
  ⟨(d.state ^^^ b.toUInt64) * 0x100000001B3⟩

def mixU64 (d : Digest64) (v : UInt64) : Digest64 :=
  (List.range 8).foldl (fun d i => d.mixByte (v >>> UInt64.ofNat (8 * i)).toUInt8) d

def mixBool (d : Digest64) (v : Bool) : Digest64 :=
  d.mixByte (if v then 1 else 0)

def value (d : Digest64) : UInt64 := d.state

end Digest64

end Pacing
