import PacingFabric.Model.Limits
import PacingFabric.Arithmetic.LongDivision
import Mathlib.Algebra.Order.Floor.Div
import Mathlib.Tactic.Positivity

/-!
# Exactness of the checked arithmetic

Each checked operation answers the exact value over the natural numbers, and answers
nothing precisely when that value does not fit in 64 bits. The 128-bit product is exact in
its two halves, and the shift-subtract loop is long division of it.
-/

namespace Pacing.Checked

open LongDivision

/-! ### Products -/

theorem mul_eq_ite (a b : UInt64) :
    mul a b = if a.toNat * b.toNat < 2 ^ 64 then some (a * b) else none := by
  unfold mul
  by_cases ha : a = 0
  · simp [ha]
  by_cases hb : b = 0
  · simp [hb]
  have hb' : 0 < b.toNat := by
    rw [Nat.pos_iff_ne_zero]
    exact fun h => hb (UInt64.toNat_inj.1 h)
  have hfits : a > u64Max / b ↔ ¬a.toNat * b.toNat < 2 ^ 64 := by
    rw [gt_iff_lt, UInt64.lt_iff_toNat_lt, UInt64.toNat_div, Nat.div_lt_iff_lt_mul hb',
      show u64Max.toNat = 2 ^ 64 - 1 from rfl]
    omega
  simp only [beq_iff_eq, ha, hb, if_false, hfits, ite_not, Bool.or_eq_true, or_self]

theorem mul_eq_some_iff {a b c : UInt64} :
    mul a b = some c ↔ a.toNat * b.toNat = c.toNat := by
  rw [mul_eq_ite]
  split
  · rename_i h
    rw [Option.some.injEq, ← UInt64.toNat_inj, UInt64.toNat_mul, Nat.mod_eq_of_lt h]
  · rename_i h
    have := c.toNat_lt
    simp only [reduceCtorEq, false_iff]
    omega

private theorem toNat_low (x : UInt64) : (x &&& 0xFFFFFFFF).toNat = x.toNat % 2 ^ 32 := by
  rw [UInt64.toNat_and]
  exact Nat.and_two_pow_sub_one_eq_mod x.toNat 32

private theorem toNat_high (x : UInt64) : (x >>> 32).toNat = x.toNat / 2 ^ 32 := by
  rw [UInt64.toNat_shiftRight]
  exact Nat.shiftRight_eq_div_pow ..

private theorem toNat_mul_limbs {x y : UInt64} (hx : x.toNat < 2 ^ 32) (hy : y.toNat < 2 ^ 32) :
    (x * y).toNat = x.toNat * y.toNat ∧ x.toNat * y.toNat ≤ (2 ^ 32 - 1) * (2 ^ 32 - 1) := by
  have hle : x.toNat * y.toNat ≤ (2 ^ 32 - 1) * (2 ^ 32 - 1) :=
    Nat.mul_le_mul (by omega) (by omega)
  refine ⟨?_, hle⟩
  rw [UInt64.toNat_mul, Nat.mod_eq_of_lt (by omega)]

private theorem toNat_add_of_lt {x y : UInt64} (h : x.toNat + y.toNat < 2 ^ 64) :
    (x + y).toNat = x.toNat + y.toNat := by
  rw [UInt64.toNat_add, Nat.mod_eq_of_lt h]

private theorem toNat_shiftLeft_limb (x : UInt64) :
    (x <<< 32).toNat = x.toNat % 2 ^ 32 * 2 ^ 32 := by
  rw [UInt64.toNat_shiftLeft, Nat.shiftLeft_eq]
  exact Nat.mul_mod_mul_right (2 ^ 32) x.toNat (2 ^ 32)

/-- The two halves make up the product over the natural numbers. -/
theorem umul128_exact (a b : UInt64) :
    (umul128 a b).1.toNat * 2 ^ 64 + (umul128 a b).2.toNat = a.toNat * b.toNat := by
  have ha := a.toNat_lt
  have hb := b.toNat_lt
  have haLo := toNat_low a
  have haHi := toNat_high a
  have hbLo := toNat_low b
  have hbHi := toNat_high b
  unfold umul128
  dsimp only
  generalize a &&& 0xFFFFFFFF = aLo at *
  generalize a >>> 32 = aHi at *
  generalize b &&& 0xFFFFFFFF = bLo at *
  generalize b >>> 32 = bHi at *
  have hproduct : a.toNat * b.toNat =
      aHi.toNat * bHi.toNat * 2 ^ 64 + (aHi.toNat * bLo.toNat + aLo.toNat * bHi.toNat) * 2 ^ 32 +
        aLo.toNat * bLo.toNat := by
    have hsplitA : a.toNat = aHi.toNat * 2 ^ 32 + aLo.toNat := by omega
    have hsplitB : b.toNat = bHi.toNat * 2 ^ 32 + bLo.toNat := by omega
    rw [hsplitA, hsplitB]
    ring
  obtain ⟨hll, hllLe⟩ := toNat_mul_limbs (x := aLo) (y := bLo) (by omega) (by omega)
  obtain ⟨hhl, hhlLe⟩ := toNat_mul_limbs (x := aHi) (y := bLo) (by omega) (by omega)
  obtain ⟨hlh, hlhLe⟩ := toNat_mul_limbs (x := aLo) (y := bHi) (by omega) (by omega)
  obtain ⟨hhh, hhhLe⟩ := toNat_mul_limbs (x := aHi) (y := bHi) (by omega) (by omega)
  rw [hproduct]
  generalize aLo * bLo = ll at *
  generalize aHi * bLo = hl at *
  generalize aLo * bHi = lh at *
  generalize aHi * bHi = hh at *
  -- the carries of the two middle products
  have hk := toNat_high ll
  have ht : (hl + ll >>> 32).toNat = hl.toNat + (ll >>> 32).toNat := toNat_add_of_lt (by omega)
  generalize hl + ll >>> 32 = t at *
  have hw1 := toNat_low t
  have hw2 := toNat_high t
  have hu : (lh + (t &&& 0xFFFFFFFF)).toNat = lh.toNat + (t &&& 0xFFFFFFFF).toNat :=
    toNat_add_of_lt (by omega)
  generalize lh + (t &&& 0xFFFFFFFF) = u at *
  have hk' := toNat_high u
  have hlow : ((u <<< 32) + (ll &&& 0xFFFFFFFF)).toNat =
      u.toNat % 2 ^ 32 * 2 ^ 32 + ll.toNat % 2 ^ 32 := by
    rw [toNat_add_of_lt] <;> rw [toNat_shiftLeft_limb, toNat_low]
    omega
  have hsum : (hh + t >>> 32).toNat = hh.toNat + (t >>> 32).toNat := toNat_add_of_lt (by omega)
  have hhigh : (hh + t >>> 32 + u >>> 32).toNat =
      hh.toNat + (t >>> 32).toNat + (u >>> 32).toNat := by
    rw [toNat_add_of_lt, hsum]
    omega
  rw [hlow, hhigh]
  omega

/-! ### Division of the product -/

section Division
variable {hi lo d q r : UInt64} {i : ℕ}

/-- The dividend the two halves stand for. -/
private def dividend (hi lo : UInt64) : ℕ := hi.toNat * 2 ^ 64 + lo.toNat

private theorem toNat_bit {x : UInt64} (h : i < 64) :
    ((x >>> UInt64.ofNat i) &&& 1).toNat = x.toNat / 2 ^ i % 2 := by
  have hi : (UInt64.ofNat i).toNat % 64 = i := by
    rw [UInt64.toNat_ofNat', Nat.mod_eq_of_lt (a := i) (by omega), Nat.mod_eq_of_lt h]
  rw [UInt64.toNat_and, UInt64.toNat_shiftRight, hi, Nat.shiftRight_eq_div_pow]
  exact Nat.and_one_is_mod _

/-- The bit the loop reads next is that of the dividend. -/
private theorem toNat_dividendBit (hi lo : UInt64) (h : i < 128) :
    (if i ≥ 64 then (hi >>> UInt64.ofNat (i - 64)) &&& 1
      else (lo >>> UInt64.ofNat i) &&& 1).toNat = dividend hi lo / 2 ^ i % 2 := by
  have hlo := lo.toNat_lt
  unfold dividend
  split
  · rename_i hge
    rw [toNat_bit (by omega)]
    have hsplit : 2 ^ i = 2 ^ 64 * 2 ^ (i - 64) := by
      rw [← pow_add]
      congr 1
      omega
    rw [hsplit, ← Nat.div_div_eq_div_mul]
    congr 2
    omega
  · rename_i hlt
    rw [toNat_bit (by omega)]
    have hsplit : hi.toNat * 2 ^ 64 = 2 ^ i * (2 * (hi.toNat * 2 ^ (63 - i))) := by
      have : (2 : ℕ) ^ 64 = 2 ^ i * (2 * 2 ^ (63 - i)) := by
        rw [← pow_succ', ← pow_add]
        congr 1
        omega
      rw [this]
      ring
    rw [hsplit, Nat.mul_add_div (by positivity)]
    omega

/-- Shifting in a bit wraps exactly when the top bit of the remainder was set. -/
private theorem toNat_shiftIn {bit : UInt64} (hbit : bit.toNat < 2) :
    ((r <<< 1) ||| bit).toNat = (2 * r.toNat + bit.toNat) % 2 ^ 64 := by
  have hr := r.toNat_lt
  rw [UInt64.toNat_or, UInt64.toNat_shiftLeft, Nat.shiftLeft_eq]
  change r.toNat * 2 ^ 1 % 2 ^ 64 ||| bit.toNat = _
  have heven : r.toNat * 2 ^ 1 % 2 ^ 64 = 2 ^ 1 * (r.toNat % 2 ^ 63) := by omega
  rw [heven, ← Nat.two_pow_add_eq_or_of_lt (by simpa using hbit)]
  omega

private theorem carry_iff : (r >>> 63 != 0) = true ↔ 2 ^ 63 ≤ r.toNat := by
  have hr := r.toNat_lt
  rw [bne_iff_ne, ne_eq, ← UInt64.toNat_inj, UInt64.toNat_shiftRight]
  change ¬r.toNat >>> 63 = 0 ↔ _
  rw [Nat.shiftRight_eq_div_pow]
  omega

private theorem toNat_setBit (h : i < 64) (hq : q.toNat % 2 ^ (i + 1) = 0) :
    (q ||| (1 <<< UInt64.ofNat i)).toNat = q.toNat + 2 ^ i := by
  have hone : (1 <<< UInt64.ofNat i : UInt64).toNat = 2 ^ i := by
    have hi : (UInt64.ofNat i).toNat % 64 = i := by
      rw [UInt64.toNat_ofNat', Nat.mod_eq_of_lt (a := i) (by omega), Nat.mod_eq_of_lt h]
    rw [UInt64.toNat_shiftLeft, hi, Nat.shiftLeft_eq]
    change 1 * 2 ^ i % 2 ^ 64 = 2 ^ i
    rw [one_mul, Nat.mod_eq_of_lt (Nat.pow_lt_pow_right one_lt_two h)]
  obtain ⟨k, hk⟩ := Nat.dvd_of_mod_eq_zero hq
  rw [UInt64.toNat_or, hone, hk,
    Nat.two_pow_add_eq_or_of_lt (Nat.pow_lt_pow_right one_lt_two (Nat.lt_succ_self i))]

/-- One turn of the loop is one bit of long division. The bits from 64 upwards never reach
the divisor, so none of the quotient is lost. -/
private theorem reached_divideBit (hhi : hi < d) (h : i < 128)
    (hreached : Reached (dividend hi lo) d.toNat (i + 1) q.toNat r.toNat) :
    Reached (dividend hi lo) d.toNat i (divideBit hi lo d i q r).1.toNat
      (divideBit hi lo d i q r).2.toNat := by
  have hd : 0 < d.toNat := by
    have := UInt64.lt_iff_toNat_lt.1 hhi
    omega
  have hr := hreached.lt hd
  have hdLt := d.toNat_lt
  have hstep := hreached.step hd
  have hbit := toNat_dividendBit hi lo h
  unfold divideBit
  dsimp only
  generalize (if i ≥ 64 then (hi >>> UInt64.ofNat (i - 64)) &&& 1
    else (lo >>> UInt64.ofNat i) &&& 1) = bit at *
  have hbit2 : bit.toNat < 2 := by omega
  have hshift := toNat_shiftIn (r := r) hbit2
  rw [← hbit] at hstep
  have hge : ((r >>> 63 != 0) || decide (((r <<< 1) ||| bit) ≥ d)) = true ↔
      d.toNat ≤ 2 * r.toNat + bit.toNat := by
    rw [Bool.or_eq_true, carry_iff, decide_eq_true_iff, ge_iff_le, UInt64.le_iff_toNat_le,
      hshift]
    omega
  generalize (r <<< 1) ||| bit = r2 at *
  by_cases hle : d.toNat ≤ 2 * r.toNat + bit.toNat
  · -- the high word is below the divisor, so no bit from 64 upwards subtracts
    have hlow : i < 64 := by
      by_contra hhigh
      have hreach := hreached.restored_le (hbit ▸ hle)
      have htop : dividend hi lo / 2 ^ i ≤ hi.toNat := by
        calc dividend hi lo / 2 ^ i ≤ dividend hi lo / 2 ^ 64 :=
              Nat.div_le_div_left (Nat.pow_le_pow_right two_pos (by omega)) (by positivity)
          _ = hi.toNat := by
              have := lo.toNat_lt
              unfold dividend
              omega
      have := UInt64.lt_iff_toNat_lt.1 hhi
      omega
    have hquotient : q.toNat % 2 ^ (i + 1) = 0 := by
      rw [hreached.quotient]
      exact Nat.mul_mod_left ..
    simp only [hge.2 hle, hlow, decide_true, Bool.and_self, if_true]
    rw [if_pos hle, if_pos hle] at hstep
    rw [toNat_setBit hlow hquotient, UInt64.toNat_sub, hshift]
    convert hstep using 1
    omega
  · have hfalse := Bool.eq_false_iff.2 (mt hge.1 hle)
    simp only [hfalse, Bool.false_and, Bool.false_eq_true, if_false]
    rw [if_neg hle, if_neg hle] at hstep
    rw [hshift]
    convert hstep using 1
    omega

private theorem reached_divideLoop (hhi : hi < d) (h : i ≤ 128)
    (hreached : Reached (dividend hi lo) d.toNat i q.toNat r.toNat) :
    (divideLoop hi lo d i q r).1.toNat = dividend hi lo / d.toNat ∧
      (divideLoop hi lo d i q r).2.toNat = dividend hi lo % d.toNat := by
  induction i generalizing q r with
  | zero => exact hreached.finish
  | succ i ih => exact ih (by omega) (reached_divideBit hhi (by omega) hreached)

end Division

/-- Division of the full product answers its quotient and remainder, and nothing exactly
when the quotient does not fit. -/
theorem mulDivMod_exact {a b d : UInt64} (hd : d ≠ 0) :
    (mulDivMod a b d = none ∧ 2 ^ 64 ≤ a.toNat * b.toNat / d.toNat) ∨
      ∃ q r, mulDivMod a b d = some (q, r) ∧ q.toNat = a.toNat * b.toNat / d.toNat ∧
        r.toNat = a.toNat * b.toNat % d.toNat := by
  have hexact := umul128_exact a b
  have hd' : 0 < d.toNat := by
    rw [Nat.pos_iff_ne_zero]
    exact fun h => hd (UInt64.toNat_inj.1 h)
  unfold mulDivMod
  rw [if_neg (by simpa using hd)]
  dsimp only
  generalize umul128 a b = product at *
  obtain ⟨hi, lo⟩ := product
  dsimp only at *
  rw [← hexact]
  by_cases hhi : hi ≥ d
  · rw [if_pos hhi]
    refine .inl ⟨rfl, ?_⟩
    rw [Nat.le_div_iff_mul_le hd']
    have := UInt64.le_iff_toNat_le.1 hhi
    omega
  · rw [if_neg hhi]
    refine .inr ?_
    -- a product of one word is divided directly
    by_cases hzero : hi = 0
    · subst hzero
      refine ⟨lo / d, lo % d, rfl, ?_, ?_⟩ <;> simp
    · rw [if_neg (by simpa using hzero)]
      have hbelow : dividend hi lo < 2 ^ 128 := by
        have := hi.toNat_lt
        have := lo.toNat_lt
        unfold dividend
        omega
      have hstart : Reached (dividend hi lo) d.toNat 128 (UInt64.toNat 0) (UInt64.toNat 0) :=
        reached_start hbelow
      obtain ⟨hquotient, hremainder⟩ :=
        reached_divideLoop (UInt64.not_le.1 hhi) le_rfl hstart
      exact ⟨_, _, rfl, hquotient, hremainder⟩

theorem mulDivFloor_eq_some_iff {a b d c : UInt64} (hd : d ≠ 0) :
    mulDivFloor a b d = some c ↔ c.toNat = a.toNat * b.toNat / d.toNat := by
  unfold mulDivFloor
  have hc := c.toNat_lt
  rcases mulDivMod_exact (a := a) (b := b) hd with ⟨hnone, hbig⟩ | ⟨q, r, hsome, hq, -⟩
  · rw [hnone]
    simp only [Option.map_none, reduceCtorEq, false_iff]
    omega
  · rw [hsome, ← hq]
    simp only [Option.map_some, Option.some.injEq]
    rw [← UInt64.toNat_inj, eq_comm]

/-- Rounding up divides with remainder and adds one where the remainder is not zero. -/
theorem ceilDiv_eq (n : ℕ) {d : ℕ} (hd : 0 < d) :
    n ⌈/⌉ d = n / d + if n % d = 0 then 0 else 1 := by
  rw [Nat.ceilDiv_eq_add_pred_div]
  have hmod := Nat.mod_lt n hd
  have hdecomp : n + d - 1 = n % d + (d - 1) + d * (n / d) := by
    have := Nat.mod_add_div n d
    omega
  rw [hdecomp, Nat.add_mul_div_left _ _ hd]
  split
  · rw [Nat.div_eq_of_lt (by omega)]
    omega
  · have hone : n % d + (d - 1) = n % d - 1 + d := by omega
    rw [hone, Nat.add_div_right _ hd, Nat.div_eq_of_lt (by omega)]
    omega

theorem mulDivCeil_eq_some_iff {a b d c : UInt64} (hd : d ≠ 0) :
    mulDivCeil a b d = some c ↔ c.toNat = (a.toNat * b.toNat) ⌈/⌉ d.toNat := by
  unfold mulDivCeil
  have hd' : 0 < d.toNat := by
    rw [Nat.pos_iff_ne_zero]
    exact fun h => hd (UInt64.toNat_inj.1 h)
  have hc := c.toNat_lt
  rw [ceilDiv_eq _ hd']
  rcases mulDivMod_exact (a := a) (b := b) hd with ⟨hnone, hbig⟩ | ⟨q, r, hsome, hq, hr⟩
  · rw [hnone]
    simp only [reduceCtorEq, false_iff]
    omega
  · rw [hsome, ← hq, ← hr]
    have hr0 : r = 0 ↔ r.toNat = 0 := UInt64.toNat_inj.symm
    have hq' := q.toNat_lt
    dsimp only
    by_cases hzero : r = 0
    · rw [if_neg (by simpa using hzero), if_pos (hr0.1 hzero), Option.some.injEq,
        ← UInt64.toNat_inj, eq_comm, add_zero]
    · rw [if_pos (by simpa using hzero), if_neg (mt hr0.2 hzero)]
      by_cases hmax : q = u64Max
      · rw [if_pos (by simpa using hmax), hmax, show u64Max.toNat = 2 ^ 64 - 1 from rfl]
        simp only [reduceCtorEq, false_iff]
        omega
      · have hlt : q.toNat + 1 < 2 ^ 64 := by
          have : q.toNat ≠ 2 ^ 64 - 1 := fun h => hmax (UInt64.toNat_inj.1 h)
          omega
        rw [if_neg (by simpa using hmax), Option.some.injEq, ← UInt64.toNat_inj,
          UInt64.toNat_add, show (1 : UInt64).toNat = 1 from rfl, Nat.mod_eq_of_lt hlt, eq_comm]

theorem mulDivCeil_isSome_iff {a b d : UInt64} (hd : d ≠ 0) :
    (mulDivCeil a b d).isSome ↔ (a.toNat * b.toNat) ⌈/⌉ d.toNat < 2 ^ 64 := by
  constructor
  · intro h
    obtain ⟨c, hc⟩ := Option.isSome_iff_exists.1 h
    rw [← (mulDivCeil_eq_some_iff hd).1 hc]
    exact c.toNat_lt
  · intro h
    refine Option.isSome_iff_exists.2
      ⟨.ofNat ((a.toNat * b.toNat) ⌈/⌉ d.toNat), (mulDivCeil_eq_some_iff hd).2 ?_⟩
    rw [UInt64.toNat_ofNat', Nat.mod_eq_of_lt h]

/-! ### Exactness for every divisor -/

theorem mulDivMod_eq_some_iff {a b d q r : UInt64} :
    mulDivMod a b d = some (q, r) ↔ d ≠ 0 ∧ q.toNat = a.toNat * b.toNat / d.toNat ∧
      r.toNat = a.toNat * b.toNat % d.toNat := by
  by_cases hd : d = 0
  · exact iff_of_false (by simp [mulDivMod, hd]) fun h => h.1 hd
  have hq := q.toNat_lt
  rcases mulDivMod_exact (a := a) (b := b) hd with ⟨hnone, hbig⟩ | ⟨q', r', hsome, hq', hr'⟩
  · rw [hnone]
    exact iff_of_false (by simp) fun h => by omega
  · rw [hsome, ← hq', ← hr', Option.some.injEq, Prod.mk.injEq, ← UInt64.toNat_inj,
      ← UInt64.toNat_inj, eq_comm, @eq_comm _ r'.toNat]
    exact (and_iff_right hd).symm

theorem mulDivMod_isSome_iff {a b d : UInt64} :
    (mulDivMod a b d).isSome ↔ d ≠ 0 ∧ a.toNat * b.toNat / d.toNat < 2 ^ 64 := by
  by_cases hd : d = 0
  · exact iff_of_false (by simp [mulDivMod, hd]) fun h => h.1 hd
  rcases mulDivMod_exact (a := a) (b := b) hd with ⟨hnone, hbig⟩ | ⟨q, r, hsome, hq, -⟩
  · rw [hnone]
    exact iff_of_false (by simp) fun h => by omega
  · rw [hsome, ← hq]
    exact iff_of_true rfl ⟨hd, q.toNat_lt⟩

theorem mulDivCeil_zero (a b : UInt64) : mulDivCeil a b 0 = none := by
  simp [mulDivCeil, mulDivMod]

/-- Division of the full product succeeds exactly when there is a divisor and the quotient
fits, and division rounding up exactly when the ceiling does; the answers are exact. -/
theorem mulDiv_exact (a b d : UInt64) :
    ((mulDivMod a b d).isSome ↔ d ≠ 0 ∧ a.toNat * b.toNat / d.toNat < 2 ^ 64) ∧
      (∀ q r, mulDivMod a b d = some (q, r) ↔ d ≠ 0 ∧
        q.toNat = a.toNat * b.toNat / d.toNat ∧ r.toNat = a.toNat * b.toNat % d.toNat) ∧
      ((mulDivCeil a b d).isSome ↔ d ≠ 0 ∧ (a.toNat * b.toNat) ⌈/⌉ d.toNat < 2 ^ 64) ∧
      ∀ c, mulDivCeil a b d = some c ↔ d ≠ 0 ∧ c.toNat = (a.toNat * b.toNat) ⌈/⌉ d.toNat := by
  refine ⟨mulDivMod_isSome_iff, fun q r => mulDivMod_eq_some_iff, ?_, fun c => ?_⟩
  · by_cases hd : d = 0
    · exact iff_of_false (by simp [hd, mulDivCeil_zero]) fun h => h.1 hd
    · rw [mulDivCeil_isSome_iff hd, and_iff_right hd]
  · by_cases hd : d = 0
    · exact iff_of_false (by simp [hd, mulDivCeil_zero]) fun h => h.1 hd
    · rw [mulDivCeil_eq_some_iff hd, and_iff_right hd]

end Pacing.Checked
