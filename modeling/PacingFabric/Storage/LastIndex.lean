import Mathlib.Data.List.Basic
import Mathlib.Data.List.Induction
import Mathlib.Order.Nat
import Mathlib.Tactic.Common

/-!
# Indexes into a table of slots that are marked rather than removed

A table is a list of slots, each live under a key or dead. An index of the table maps each
key that is live somewhere to its last live slot, and no other key to anything. Appending a
slot, marking one dead and rebuilding the table each keep an index by a rule of their own;
marking a slot dead is the one that can lose a key that is still live elsewhere.

## Main definitions

* `marks`: what an index sees of a table, the key of each live slot.
* `Indexes`: the index maps each live key to its last slot.

## Main results

* `Indexes.concat`, `Indexes.clear`, `Indexes.clear_older`: appending and marking dead.
* `Indexes.bind_getElem?`: what an index finds is the last live slot of the key.
* `Indexes.bind_filter`: dropping the dead slots and rebuilding an index changes no lookup.
-/

namespace LastIndex

variable {σ κ : Type*}

/-- The keys of a table, none where the slot is dead. -/
def marks (live : σ → Bool) (key : σ → κ) (xs : List σ) : List (Option κ) :=
  xs.map fun s => if live s then some (key s) else none

/-- Each key that is live is mapped to its last live slot, and no other key to anything. -/
def Indexes (slots : List (Option κ)) (index : κ → Option ℕ) : Prop :=
  ∀ v i, index v = some i ↔
    slots[i]? = some (some v) ∧ ∀ j : ℕ, slots[j]? = some (some v) → j ≤ i

/-- No key is live in two slots. -/
def Apart (slots : List (Option κ)) : Prop :=
  ∀ v (i j : ℕ), slots[i]? = some (some v) → slots[j]? = some (some v) → i = j

/-! ### Marks -/

section marks
variable {live : σ → Bool} {key : σ → κ} {xs : List σ} {i : ℕ} {v : κ}

theorem getElem?_marks :
    (marks live key xs)[i]? = some (some v) ↔
      ∃ s, xs[i]? = some s ∧ live s = true ∧ key s = v := by
  rw [marks, List.getElem?_map, Option.map_eq_some_iff]
  refine exists_congr fun s => and_congr_right fun _ => ?_
  cases live s <;> simp

theorem marks_concat (s : σ) :
    marks live key (xs ++ [s]) =
      marks live key xs ++ [if live s then some (key s) else none] := by
  rw [marks, List.map_append]
  rfl

theorem marks_set_dead {t : σ} (hdead : live t = false) :
    marks live key (xs.set i t) = (marks live key xs).set i none := by
  rw [marks, marks, List.map_set, hdead, if_neg Bool.false_ne_true]

theorem countP_marks :
    (marks live key xs).countP (·.isNone) = xs.countP fun s => !live s := by
  rw [marks, List.countP_map]
  refine List.countP_congr fun s _ => ?_
  cases h : live s <;> simp [h]

theorem length_marks (live : σ → Bool) (key : σ → κ) (xs : List σ) :
    (marks live key xs).length = xs.length := List.length_map _

end marks

/-! ### Slots that are live under a key -/

variable {slots : List (Option κ)} {index index' : κ → Option ℕ} {i : ℕ} {v : κ}

theorem getElem?_concat_eq {j : ℕ} {u : κ} :
    (slots ++ [some v])[j]? = some (some u) ↔
      slots[j]? = some (some u) ∨ j = slots.length ∧ u = v := by
  rcases Nat.lt_trichotomy j slots.length with h | rfl | h
  · rw [List.getElem?_append_left h]
    exact ⟨.inl, fun h' => h'.resolve_right fun h' => by omega⟩
  · simp [eq_comm]
  · rw [List.getElem?_eq_none (by simp; omega), List.getElem?_eq_none (by omega)]
    constructor
    · intro h'
      cases h'
    · rintro (h' | ⟨rfl, -⟩)
      · cases h'
      · exact absurd h (lt_irrefl _)

theorem getElem?_set_none_eq {j : ℕ} {u : κ} :
    (slots.set i none)[j]? = some (some u) ↔ i ≠ j ∧ slots[j]? = some (some u) := by
  by_cases hij : i = j
  · subst hij
    refine iff_of_false ?_ fun h => h.1 rfl
    rw [List.getElem?_set, if_pos rfl]
    split <;> simp
  · rw [List.getElem?_set_ne hij, and_iff_right hij]

/-! ### What keeps an index -/

namespace Indexes

theorem nil : Indexes ([] : List (Option κ)) fun _ => none := fun v i => by simp

/-- A slot is appended, and the index points its key to it. -/
theorem concat [DecidableEq κ] (h : Indexes slots index) (v : κ) :
    Indexes (slots ++ [some v]) (Function.update index v (some slots.length)) := by
  intro u i
  by_cases hu : u = v
  · subst hu
    rw [Function.update_self, Option.some.injEq]
    refine ⟨?_, fun ⟨hi, hlast⟩ => ?_⟩
    · rintro rfl
      refine ⟨getElem?_concat_eq.2 (.inr ⟨rfl, rfl⟩), fun j hj => ?_⟩
      rcases getElem?_concat_eq.1 hj with hj | ⟨rfl, -⟩
      · exact (List.getElem?_eq_some_iff.1 hj).1.le
      · exact le_rfl
    · refine Nat.le_antisymm (hlast _ (getElem?_concat_eq.2 (.inr ⟨rfl, rfl⟩))) ?_
      rcases getElem?_concat_eq.1 hi with hi | ⟨rfl, -⟩
      · exact (List.getElem?_eq_some_iff.1 hi).1.le
      · exact le_rfl
  · have hsame : ∀ j : ℕ, (slots ++ [some v])[j]? = some (some u) ↔
        slots[j]? = some (some u) := fun j => by
      rw [getElem?_concat_eq]
      exact or_iff_left fun h => hu h.2
    rw [Function.update_of_ne hu, h u i]
    simp only [hsame]

/-- A slot is marked dead that the index does not point to. -/
theorem clear_older (h : Indexes slots index) (hi : slots[i]? = some (some v))
    (hne : index v ≠ some i) : Indexes (slots.set i none) index := by
  intro u k
  rw [h u k]
  simp only [getElem?_set_none_eq]
  constructor
  · rintro ⟨hk, hlast⟩
    refine ⟨⟨?_, hk⟩, fun j hj => hlast j hj.2⟩
    rintro rfl
    obtain rfl : u = v := by simpa [hk] using hi
    exact hne ((h u i).2 ⟨hk, hlast⟩)
  · rintro ⟨⟨hik, hk⟩, hlast⟩
    refine ⟨hk, fun j hj => ?_⟩
    by_cases hij : i = j
    · -- a later slot of the key would be one the index prefers
      subst hij
      obtain rfl : u = v := by simpa [hj] using hi
      by_contra hlt
      refine hne ((h u i).2 ⟨hj, fun l hl => ?_⟩)
      by_cases hil : i = l
      · exact hil.ge
      · exact (hlast l ⟨hil, hl⟩).trans (Nat.le_of_not_le hlt)
    · exact hlast j ⟨hij, hj⟩

/-- The only live slot of a key is marked dead, and the index forgets the key. -/
theorem clear [DecidableEq κ] (h : Indexes slots index)
    (halone : ∀ j : ℕ, slots[j]? = some (some v) → j = i) (hi : slots[i]? = some (some v)) :
    Indexes (slots.set i none) (Function.update index v none) := by
  intro u k
  simp only [getElem?_set_none_eq]
  by_cases hu : u = v
  · subst hu
    rw [Function.update_self]
    exact iff_of_false nofun fun hk => hk.1.1 (halone k hk.1.2).symm
  · have hsame : ∀ j : ℕ, i ≠ j ∧ slots[j]? = some (some u) ↔ slots[j]? = some (some u) :=
      fun j => and_iff_right_of_imp fun hj => by
        rintro rfl
        rw [hi] at hj
        exact hu (Option.some.inj (Option.some.inj hj)).symm
    rw [Function.update_of_ne hu, h u k]
    simp only [hsame]

/-- With keys apart, an index is the inverse of the table. -/
theorem eq_some_iff (h : Indexes slots index) (ha : Apart slots) :
    index v = some i ↔ slots[i]? = some (some v) := by
  rw [h v i]
  exact and_iff_left_of_imp fun hi j hj => (ha v i j hi hj).ge

/-- A key that is live somewhere is in the index. -/
theorem isSome (h : Indexes slots index) (hi : slots[i]? = some (some v)) :
    (index v).isSome := by
  by_contra hnone
  rw [Option.not_isSome_iff_eq_none] at hnone
  -- the live slots of the key are bounded, so one of them is the last
  induction hn : slots.length - i using Nat.strongRecOn generalizing i with
  | ind n ih =>
    by_cases hlast : ∀ j : ℕ, slots[j]? = some (some v) → j ≤ i
    · rw [(h v i).2 ⟨hi, hlast⟩] at hnone
      cases hnone
    · push Not at hlast
      obtain ⟨j, hj, hij⟩ := hlast
      have hlt := (List.getElem?_eq_some_iff.1 hj).1
      exact ih (slots.length - j) (by omega) hj (by omega)

theorem eq_none_iff (h : Indexes slots index) :
    index v = none ↔ ∀ j : ℕ, slots[j]? ≠ some (some v) := by
  constructor
  · intro hnone j hj
    have := h.isSome hj
    rw [hnone] at this
    cases this
  · intro hall
    rw [Option.eq_none_iff_forall_ne_some]
    exact fun i hi => hall i ((h v i).1 hi).1

end Indexes

/-! ### Tables whose keys are apart -/

namespace Apart

theorem nil : Apart ([] : List (Option κ)) := fun v i j h => by simp at h

theorem concat (h : Apart slots) (hfresh : ∀ j : ℕ, slots[j]? ≠ some (some v)) :
    Apart (slots ++ [some v]) := by
  intro u i j hi hj
  rcases getElem?_concat_eq.1 hi with hi | ⟨rfl, rfl⟩ <;>
    rcases getElem?_concat_eq.1 hj with hj | ⟨rfl, hu⟩
  · exact h u i j hi hj
  · exact absurd (hu ▸ hi) (hfresh i)
  · exact absurd hj (hfresh j)
  · rfl

theorem clear (h : Apart slots) : Apart (slots.set i none) := fun v j k hj hk =>
  h v j k (getElem?_set_none_eq.1 hj).2 (getElem?_set_none_eq.1 hk).2

theorem iff_pairwise :
    Apart slots ↔ slots.Pairwise fun s t => ∀ v, s = some v → t ≠ some v := by
  rw [List.pairwise_iff_getElem]
  constructor
  · intro h i j hi hj hij v hs ht
    have := h v i j (by rw [List.getElem?_eq_getElem hi, hs])
      (by rw [List.getElem?_eq_getElem hj, ht])
    omega
  · intro h v i j hi hj
    obtain ⟨hilt, hs⟩ := List.getElem?_eq_some_iff.1 hi
    obtain ⟨hjlt, ht⟩ := List.getElem?_eq_some_iff.1 hj
    rcases Nat.lt_trichotomy i j with hij | hij | hij
    · exact absurd ht (h i j hilt hjlt hij v hs)
    · exact hij
    · exact absurd hs (h j i hjlt hilt hij v ht)

theorem sublist {slots' : List (Option κ)} (h : Apart slots) (hs : slots'.Sublist slots) :
    Apart slots' :=
  iff_pairwise.2 ((iff_pairwise.1 h).sublist hs)

end Apart

/-! ### Exact indexes -/

/-- The keys are apart, the index is exact, and the dead slots are counted. -/
structure Exact (slots : List (Option κ)) (index : κ → Option ℕ) (dead : ℕ) : Prop where
  indexes : Indexes slots index
  apart : Apart slots
  dead : dead = slots.countP (·.isNone)

namespace Exact

variable {dead : ℕ}

theorem nil : Exact ([] : List (Option κ)) (fun _ => none) 0 := ⟨.nil, .nil, rfl⟩

theorem eq_some_iff (h : Exact slots index dead) :
    index v = some i ↔ slots[i]? = some (some v) := h.indexes.eq_some_iff h.apart

theorem concat [DecidableEq κ] (h : Exact slots index dead)
    (hfresh : ∀ j : ℕ, slots[j]? ≠ some (some v)) :
    Exact (slots ++ [some v]) (Function.update index v (some slots.length)) dead where
  indexes := h.indexes.concat v
  apart := h.apart.concat hfresh
  dead := by
    rw [h.dead, List.countP_append]
    rfl

theorem clear [DecidableEq κ] (h : Exact slots index dead) (hi : slots[i]? = some (some v)) :
    Exact (slots.set i none) (Function.update index v none) (dead + 1) where
  indexes := h.indexes.clear (fun j hj => h.apart v j i hj hi) hi
  apart := h.apart.clear
  dead := by
    obtain ⟨hlt, hs⟩ := List.getElem?_eq_some_iff.1 hi
    rw [h.dead, List.countP_set hlt, hs]
    rfl

/-- Dropping the dead slots and rebuilding the index. -/
theorem filter {live : σ → Bool} {key : σ → κ} {xs : List σ}
    (h : Exact (marks live key xs) index dead)
    (hindex : Indexes (marks live key (xs.filter live)) index') :
    Exact (marks live key (xs.filter live)) index' 0 where
  indexes := hindex
  apart := h.apart.sublist (List.filter_sublist.map _)
  dead := by
    rw [countP_marks, eq_comm, List.countP_eq_zero]
    intro s hs
    rw [(List.mem_filter.1 hs).2]
    exact Bool.false_ne_true

end Exact

/-! ### Lookups -/

section lookup
variable {live : σ → Bool} {key : σ → κ} {xs : List σ} [DecidableEq κ]

/-- The last slot that passes a test. -/
theorem find?_reverse_eq_some_iff {p : σ → Bool} {s : σ} :
    xs.reverse.find? p = some s ↔ ∃ i : ℕ, xs[i]? = some s ∧ p s = true ∧
      ∀ (j : ℕ) (t : σ), xs[j]? = some t → p t = true → j ≤ i := by
  induction xs using List.reverseRecOn with
  | nil => simp
  | append_singleton xs x ih =>
    have hlast : (xs ++ [x])[xs.length]? = some x := by simp
    rw [List.reverse_append, List.reverse_singleton, List.singleton_append, List.find?_cons]
    cases hx : p x with
    | true =>
      refine ⟨?_, fun ⟨i, hi, _, hmax⟩ => ?_⟩
      · rintro ⟨⟩
        refine ⟨xs.length, hlast, hx, fun j t hj _ => ?_⟩
        have := (List.getElem?_eq_some_iff.1 hj).1
        rw [List.length_append, List.length_singleton] at this
        omega
      · have hge := hmax _ x hlast hx
        have := (List.getElem?_eq_some_iff.1 hi).1
        rw [List.length_append, List.length_singleton] at this
        obtain rfl : i = xs.length := by omega
        exact hlast.symm.trans hi
    | false =>
      dsimp only
      rw [ih]
      refine exists_congr fun i => ?_
      have hold : ∀ (j : ℕ) (t : σ), p t = true →
          ((xs ++ [x])[j]? = some t ↔ xs[j]? = some t) := by
        intro j t ht
        rcases Nat.lt_trichotomy j xs.length with h | rfl | h
        · rw [List.getElem?_append_left h]
        · rw [hlast, List.getElem?_eq_none (Nat.le_refl _)]
          refine iff_of_false ?_ nofun
          rintro ⟨⟩
          rw [hx] at ht
          cases ht
        · rw [List.getElem?_eq_none (by simp; omega), List.getElem?_eq_none (by omega)]
      constructor
      · rintro ⟨hi, hs, hmax⟩
        exact ⟨(hold i s hs).2 hi, hs, fun j t hj ht => hmax j t ((hold j t ht).1 hj) ht⟩
      · rintro ⟨hi, hs, hmax⟩
        exact ⟨(hold i s hs).1 hi, hs, fun j t hj ht => hmax j t ((hold j t ht).2 hj) ht⟩

/-- An index leads to the last live slot of the key. -/
theorem Indexes.bind_getElem? (h : Indexes (marks live key xs) index) (v : κ) :
    (index v).bind (xs[·]?) = xs.reverse.find? fun s => live s && key s == v := by
  have hslot : ∀ (j : ℕ), (marks live key xs)[j]? = some (some v) ↔
      ∃ s, xs[j]? = some s ∧ (live s && key s == v) = true := fun j => by
    rw [getElem?_marks]
    simp
  cases hfind : index v with
  | none =>
    symm
    rw [Option.bind_none, List.find?_eq_none]
    intro s hs hmatch
    obtain ⟨j, hj⟩ := List.getElem?_of_mem (List.mem_reverse.1 hs)
    exact h.eq_none_iff.1 hfind j ((hslot j).2 ⟨s, hj, hmatch⟩)
  | some i =>
    obtain ⟨hi, hlast⟩ := (h v i).1 hfind
    obtain ⟨s, hs, hmatch⟩ := (hslot i).1 hi
    rw [Option.bind_some, hs, eq_comm, find?_reverse_eq_some_iff]
    exact ⟨i, hs, hmatch, fun j t hj ht => hlast j ((hslot j).2 ⟨t, hj, ht⟩)⟩

/-- Dropping the dead slots and rebuilding an index changes nothing that is looked up. -/
theorem Indexes.bind_filter (h : Indexes (marks live key xs) index)
    (h' : Indexes (marks live key (xs.filter live)) index') (v : κ) :
    (index' v).bind ((xs.filter live)[·]?) = (index v).bind (xs[·]?) := by
  rw [h.bind_getElem?, h'.bind_getElem?, ← List.filter_reverse, List.find?_filter]
  congr 1
  funext s
  rw [Bool.eq_iff_iff]
  simp

end lookup

end LastIndex
