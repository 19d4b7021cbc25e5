import Mathlib.Logic.Function.Basic
import Mathlib.Tactic.Common

/-!
# Checksums computed symbol by symbol

A checksum is a fold over the symbols of a string. When each symbol permutes the states, and
different symbols move a state to different states, a change of one symbol is always
noticed.

## Main results

* `Detecting.foldl_injective`: what follows a difference of states keeps it.
* `Detecting.foldl_ne`: two strings that differ in exactly one symbol have different folds.
-/

namespace Checksum

variable {σ β : Type*}

/-- Each symbol acts injectively on states, and different symbols act differently. -/
structure Detecting (step : σ → β → σ) : Prop where
  state : ∀ b, Function.Injective (step · b)
  symbol : ∀ s, Function.Injective (step s)

namespace Detecting

variable {step : σ → β → σ}

theorem foldl_injective (h : Detecting step) (l : List β) :
    Function.Injective (l.foldl step) := by
  induction l with
  | nil => exact Function.injective_id
  | cons b l ih =>
    intro s t heq
    exact h.state b (ih heq)

/-- A change of one symbol changes the fold. -/
theorem foldl_ne (h : Detecting step) {xs ys : List β} {b b' : β} (hne : b ≠ b') (s : σ) :
    (xs ++ b :: ys).foldl step s ≠ (xs ++ b' :: ys).foldl step s := by
  intro heq
  rw [List.foldl_append, List.foldl_append, List.foldl_cons, List.foldl_cons] at heq
  exact hne (h.symbol _ (h.foldl_injective ys heq))

/-- The same for an update in place. -/
theorem foldl_modify_ne (h : Detecting step) {l : List β} {i : ℕ} (hi : i < l.length)
    {g : β → β} (hg : ∀ b, g b ≠ b) (s : σ) : (l.modify i g).foldl step s ≠ l.foldl step s := by
  have hsplit : l = l.take i ++ l[i] :: l.drop (i + 1) := by simp
  have hmodify : l.modify i g = l.take i ++ g l[i] :: l.drop (i + 1) := by
    rw [List.modify_eq_take_cons_drop hi]
  rw [hmodify]
  conv_rhs => rw [hsplit]
  exact h.foldl_ne (hg _) s

end Detecting

end Checksum
