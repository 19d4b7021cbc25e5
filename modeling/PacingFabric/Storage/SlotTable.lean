import Mathlib.Data.Finset.Dedup
import Mathlib.Data.List.Nodup
import Mathlib.Logic.Function.Basic

/-!
# Tables of slots that are marked rather than removed

A table is a list of slots. Each slot has a key and a mark that says whether it is live; a
lookup finds the first live slot of a key. As long as no two live slots share a key, a
write to one slot is a write to one key.

## Main definitions

* `Apart`: live slots have different keys.
* `lookup`: the live slot of a key.

## Main results

* `Apart.lookup_eq_some_iff`: a lookup finds the live slot of its key.
* `Apart.write`, `Apart.lookup_write`: writing a slot writes its key.
-/

namespace SlotTable

variable {σ κ : Type*} (key : σ → κ) (live : σ → Bool)

/-- The first live slot of a key. -/
def lookup [DecidableEq κ] (xs : List σ) (k : κ) : Option σ :=
  xs.find? fun s => live s && key s == k

/-- Live slots have different keys. -/
def Apart (xs : List σ) : Prop :=
  ∀ (i j : ℕ) (s t : σ), xs[i]? = some s → xs[j]? = some t → live s = true → live t = true →
    key s = key t → i = j

variable {key live} {xs ys : List σ} {i : ℕ} {k : κ} {t : σ}

/-- A lookup finds the live slot of its key. -/
theorem Apart.lookup_eq_some_iff [DecidableEq κ] (h : Apart key live xs) {s : σ} :
    lookup key live xs k = some s ↔ ∃ i : ℕ, xs[i]? = some s ∧ live s = true ∧ key s = k := by
  constructor
  · intro hs
    obtain ⟨hlive, hkey⟩ : live s = true ∧ key s = k := by
      simpa using List.find?_some hs
    obtain ⟨i, hi⟩ := List.mem_iff_getElem?.1 (List.mem_of_find?_eq_some hs)
    exact ⟨i, hi, hlive, hkey⟩
  · rintro ⟨i, hi, hlive, rfl⟩
    cases hfind : lookup key live xs (key s) with
    | none =>
      have hnone := List.find?_eq_none.1 hfind s (List.mem_of_getElem? hi)
      simp [hlive] at hnone
    | some t =>
      obtain ⟨hlive', hkey⟩ : live t = true ∧ key t = key s := by
        simpa using List.find?_some hfind
      obtain ⟨j, hj⟩ := List.mem_iff_getElem?.1 (List.mem_of_find?_eq_some hfind)
      obtain rfl := h j i t s hj hi hlive' hlive hkey
      exact hj.symm.trans hi

/-- The keys of the live slots are different. -/
theorem Apart.nodup (h : Apart key live xs) : ((xs.filter live).map key).Nodup := by
  rw [List.Nodup, List.pairwise_map, List.pairwise_filter, List.pairwise_iff_getElem]
  intro i j hi hj hij hlive hlive' hkey
  have heq := h i j xs[i] xs[j] (List.getElem?_eq_getElem hi) (List.getElem?_eq_getElem hj) hlive
    hlive' hkey
  omega

/-- `ys` is `xs` with slot `i` written, a slot of the same key if there was one. -/
structure Writes (key : σ → κ) (live : σ → Bool) (xs : List σ) (i : ℕ) (t : σ)
    (ys : List σ) : Prop where
  here : ys[i]? = some t
  others : ∀ j : ℕ, j ≠ i → ys[j]? = xs[j]?
  before : ∀ s, xs[i]? = some s → key s = key t
  alone : ∀ (j : ℕ) (s : σ), j ≠ i → xs[j]? = some s → live s = true → key s ≠ key t

theorem Writes.set {s : σ} (hi : xs[i]? = some s) (hkey : key s = key t)
    (halone : ∀ (j : ℕ) (u : σ), j ≠ i → xs[j]? = some u → live u = true → key u ≠ key t) :
    Writes key live xs i t (xs.set i t) where
  here := by
    obtain ⟨hlt, -⟩ := List.getElem?_eq_some_iff.1 hi
    simp [hlt]
  others := fun j hj => by simp [List.getElem?_set_ne hj.symm]
  before := fun u hu => by
    obtain rfl := Option.some.inj (hi.symm.trans hu)
    exact hkey
  alone := halone

theorem Writes.concat
    (halone : ∀ (j : ℕ) (u : σ), xs[j]? = some u → live u = true → key u ≠ key t) :
    Writes key live xs xs.length t (xs ++ [t]) where
  here := by simp
  others := fun j hj => by
    rcases Nat.lt_or_ge j xs.length with hlt | hge
    · rw [List.getElem?_append_left hlt]
    · rw [List.getElem?_append_right hge, List.getElem?_eq_none hge,
        List.getElem?_eq_none (by simp; omega)]
  before := fun u hu => by simp at hu
  alone := fun j u _ => halone j u

/-- A write that leaves the table as it was has written what was there. -/
theorem eq_of_set_eq {s : σ} (hi : xs[i]? = some s) (h : xs.set i t = xs) : t = s := by
  obtain ⟨hlt, -⟩ := List.getElem?_eq_some_iff.1 hi
  have hslot := congrArg (·[i]?) h
  simp only [List.getElem?_set_self hlt, hi] at hslot
  exact Option.some.inj hslot

theorem eq_of_modify_eq {s : σ} {change : σ → σ} (hi : xs[i]? = some s)
    (h : xs.modify i change = xs) : change s = s := by
  have hslot := congrArg (·[i]?) h
  simp only [List.getElem?_modify_eq, hi] at hslot
  exact Option.some.inj hslot

/-- Writing one slot keeps live slots apart. -/
theorem Apart.write (h : Apart key live xs) (hw : Writes key live xs i t ys) :
    Apart key live ys := by
  intro j l s u hs hu hlive hlive' hkey
  by_cases hj : j = i <;> by_cases hl : l = i
  · rw [hj, hl]
  · subst hj
    obtain rfl := Option.some.inj (hw.here.symm.trans hs)
    exact absurd hkey.symm (hw.alone l u hl (hw.others l hl ▸ hu) hlive')
  · subst hl
    obtain rfl := Option.some.inj (hw.here.symm.trans hu)
    exact absurd hkey (hw.alone j s hj (hw.others j hj ▸ hs) hlive)
  · exact h j l s u (hw.others j hj ▸ hs) (hw.others l hl ▸ hu) hlive hlive' hkey

/-- Writing one slot writes its key. -/
theorem Apart.lookup_write [DecidableEq κ] (h : Apart key live xs)
    (hw : Writes key live xs i t ys) :
    lookup key live ys =
      Function.update (lookup key live xs) (key t) (if live t then some t else none) := by
  have hys := h.write hw
  funext k
  by_cases hk : k = key t
  · subst hk
    rw [Function.update_self]
    cases hlive : live t with
    | true => exact hys.lookup_eq_some_iff.2 ⟨i, hw.here, hlive, rfl⟩
    | false =>
      refine Option.eq_none_iff_forall_ne_some.2 fun s hs => ?_
      obtain ⟨j, hj, hlive', hkey⟩ := hys.lookup_eq_some_iff.1 hs
      by_cases hji : j = i
      · subst hji
        obtain rfl := Option.some.inj (hw.here.symm.trans hj)
        simp [hlive] at hlive'
      · exact hw.alone j s hji (hw.others j hji ▸ hj) hlive' hkey
  · rw [Function.update_of_ne hk]
    ext s
    rw [hys.lookup_eq_some_iff, h.lookup_eq_some_iff]
    constructor
    · rintro ⟨j, hj, hlive, rfl⟩
      have hji : j ≠ i := by
        rintro rfl
        obtain rfl := Option.some.inj (hw.here.symm.trans hj)
        exact hk rfl
      exact ⟨j, hw.others j hji ▸ hj, hlive, rfl⟩
    · rintro ⟨j, hj, hlive, rfl⟩
      have hji : j ≠ i := by
        rintro rfl
        exact hk (hw.before s hj)
      exact ⟨j, (hw.others j hji).symm ▸ hj, hlive, rfl⟩

theorem Writes.mem_keys (h : Writes key live xs i t ys) (hk : k ∈ xs.map key) :
    k ∈ ys.map key := by
  obtain ⟨s, hs, rfl⟩ := List.mem_map.1 hk
  obtain ⟨j, hj⟩ := List.mem_iff_getElem?.1 hs
  by_cases hji : j = i
  · subst hji
    rw [h.before s hj]
    exact List.mem_map_of_mem (List.mem_of_getElem? h.here)
  · exact List.mem_map_of_mem (List.mem_of_getElem? ((h.others j hji).trans hj))

theorem Writes.key_mem (h : Writes key live xs i t ys) : key t ∈ ys.map key :=
  List.mem_map_of_mem (List.mem_of_getElem? h.here)

/-! ### Slots with different keys, whatever their marks -/

theorem slot_inj (h : (xs.map key).Nodup) {i j : ℕ} {s t : σ} (hi : xs[i]? = some s)
    (hj : xs[j]? = some t) (hkey : key s = key t) : i = j := by
  obtain ⟨hlt, -⟩ := List.getElem?_eq_some_iff.1 hi
  have hkeys : (xs.map key)[i]? = (xs.map key)[j]? := by
    rw [List.getElem?_map, List.getElem?_map, hi, hj, Option.map_some, Option.map_some, hkey]
  exact (List.getElem?_inj (by simpa using hlt) h).1 hkeys

theorem apart_of_nodup (h : (xs.map key).Nodup) : Apart key live xs :=
  fun _ _ _ _ hi hj _ _ hkey => slot_inj h hi hj hkey

/-- Filling a slot of the key again. -/
theorem map_key_set {s : σ} (hi : xs[i]? = some s) (hkey : key s = key t) :
    (xs.set i t).map key = xs.map key := by
  rw [List.map_set, ← hkey]
  refine List.ext_getElem? fun j => ?_
  obtain ⟨hlt, -⟩ := List.getElem?_eq_some_iff.1 hi
  by_cases hij : i = j
  · subst hij
    rw [List.getElem?_set_self (by simpa using hlt), List.getElem?_map, hi]
    rfl
  · rw [List.getElem?_set_ne hij]

theorem Writes.set_of_nodup {s : σ} (h : (xs.map key).Nodup) (hi : xs[i]? = some s)
    (hkey : key s = key t) : Writes key live xs i t (xs.set i t) :=
  .set hi hkey fun _ _ hj hu _ hukey => hj (slot_inj h hu hi (hukey.trans hkey.symm))

theorem Writes.concat_of_fresh (h : key t ∉ xs.map key) :
    Writes key live xs xs.length t (xs ++ [t]) :=
  .concat fun _ _ hu _ hkey => h (hkey ▸ List.mem_map_of_mem (List.mem_of_getElem? hu))

theorem nodup_concat (h : (xs.map key).Nodup) (hfresh : key t ∉ xs.map key) :
    ((xs ++ [t]).map key).Nodup := by
  rw [List.map_append, List.map_singleton, List.nodup_append]
  refine ⟨h, List.nodup_singleton _, fun k hk k' hk' heq => ?_⟩
  rw [List.mem_singleton.1 hk'] at heq
  exact hfresh (heq ▸ hk)

/-! ### Finding a slot -/

theorem getElem?_of_findIdx? {p : σ → Bool} (h : xs.findIdx? p = some i) :
    ∃ s, xs[i]? = some s ∧ p s = true := by
  obtain ⟨hi, hp, -⟩ := List.findIdx?_eq_some_iff_getElem.1 h
  exact ⟨xs[i], List.getElem?_eq_getElem hi, hp⟩

theorem find?_of_findIdx? {p : σ → Bool} (h : xs.findIdx? p = some i) : xs.find? p = xs[i]? := by
  obtain ⟨hi, hp, hbefore⟩ := List.findIdx?_eq_some_iff_getElem.1 h
  rw [List.getElem?_eq_getElem hi, List.find?_eq_some_iff_getElem]
  exact ⟨hp, i, hi, rfl, fun j hj => by simpa using hbefore j hj⟩

theorem find?_of_findIdx?_none {p : σ → Bool} (h : xs.findIdx? p = none) : xs.find? p = none :=
  List.find?_eq_none.2 fun s hs => by simp [List.findIdx?_eq_none_iff.1 h s hs]

theorem key_not_mem [DecidableEq κ] (h : xs.findIdx? (fun s => key s == k) = none) :
    k ∉ xs.map key := by
  intro hmem
  obtain ⟨s, hs, rfl⟩ := List.mem_map.1 hmem
  have hnone := List.findIdx?_eq_none_iff.1 h s hs
  rw [beq_self_eq_true] at hnone
  cases hnone

end SlotTable
