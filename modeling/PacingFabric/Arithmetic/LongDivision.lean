import Mathlib.Data.Nat.ModEq
import Mathlib.Tactic.Ring

/-!
# Restoring long division

Binary long division takes the bits of a numerator from the highest to the lowest. After
the bits from `i` upwards the remainder is the one of the prefix read so far, and the
quotient bits found stand at their final places.
-/

namespace LongDivision

/-- Quotient and remainder once the bits from `i` upwards have been read. -/
structure Reached (n d i q r : ℕ) : Prop where
  quotient : q = n / 2 ^ i / d * 2 ^ i
  remainder : r = n / 2 ^ i % d

variable {n d i q r : ℕ}

/-- Nothing has been read of a number below `2 ^ i`. -/
theorem reached_start (h : n < 2 ^ i) : Reached n d i 0 0 := by
  constructor <;> simp [Nat.div_eq_of_lt h]

/-- The prefix grows by one bit. -/
theorem prefix_succ (n i : ℕ) : n / 2 ^ i = 2 * (n / 2 ^ (i + 1)) + n / 2 ^ i % 2 := by
  rw [pow_succ, ← Nat.div_div_eq_div_mul]
  omega

/-- Dividing twice a number and a bit, from the remainder of the number. -/
theorem divMod_double {m b : ℕ} (hd : 0 < d) (hb : b < 2) :
    (2 * m + b) / d = 2 * (m / d) + (if d ≤ 2 * (m % d) + b then 1 else 0) ∧
      (2 * m + b) % d =
        if d ≤ 2 * (m % d) + b then 2 * (m % d) + b - d else 2 * (m % d) + b := by
  have hr := Nat.mod_lt m hd
  have hm : 2 * m + b = 2 * (m % d) + b + d * (2 * (m / d)) := by
    conv_lhs => rw [← Nat.mod_add_div m d]
    ring
  rw [hm, Nat.add_mul_div_left _ _ hd, Nat.add_mul_mod_self_left]
  split
  · rename_i hle
    have hlt : 2 * (m % d) + b - d < d := by omega
    constructor
    · rw [Nat.div_eq_sub_div hd hle, Nat.div_eq_of_lt hlt]
      omega
    · rw [Nat.mod_eq_sub_mod hle, Nat.mod_eq_of_lt hlt]
  · rename_i hle
    have hlt : 2 * (m % d) + b < d := Nat.lt_of_not_le hle
    exact ⟨by rw [Nat.div_eq_of_lt hlt]; omega, Nat.mod_eq_of_lt hlt⟩

/-- One bit: the shifted remainder is restored below the divisor, and the quotient bit is
set where that took a subtraction. -/
theorem Reached.step (h : Reached n d (i + 1) q r) (hd : 0 < d) :
    Reached n d i
      (if d ≤ 2 * r + n / 2 ^ i % 2 then q + 2 ^ i else q)
      (if d ≤ 2 * r + n / 2 ^ i % 2 then 2 * r + n / 2 ^ i % 2 - d
        else 2 * r + n / 2 ^ i % 2) := by
  obtain ⟨rfl, rfl⟩ := h
  obtain ⟨hquotient, hremainder⟩ :=
    divMod_double (m := n / 2 ^ (i + 1)) hd (Nat.mod_lt (n / 2 ^ i) two_pos)
  rw [← prefix_succ] at hquotient hremainder
  refine ⟨?_, hremainder.symm⟩
  rw [hquotient]
  split <;> ring

/-- A quotient bit is only ever set where the prefix reaches the divisor. -/
theorem Reached.restored_le (h : Reached n d (i + 1) q r)
    (hle : d ≤ 2 * r + n / 2 ^ i % 2) : d ≤ n / 2 ^ i := by
  rw [prefix_succ n i]
  have := Nat.mod_le (n / 2 ^ (i + 1)) d
  rw [h.remainder] at hle
  omega

/-- All bits read: the quotient and the remainder. -/
theorem Reached.finish (h : Reached n d 0 q r) : q = n / d ∧ r = n % d := by
  simpa using And.intro h.quotient h.remainder

theorem Reached.lt (h : Reached n d i q r) (hd : 0 < d) : r < d :=
  h.remainder ▸ Nat.mod_lt _ hd

end LongDivision
