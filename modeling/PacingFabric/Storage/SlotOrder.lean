import PacingFabric.Storage.SlotTable

/-!
# The order of a table of slots

A writer that looks for the slot of a key, whatever its mark, keeps the slots in the order
in which their keys came. A copy of the table without some of its dead slots keeps the order
of the live ones, until one of the dropped slots would be filled again.

## Main definitions

* `fill`: the slot of a key written, a new one at the end if there is none.
* `Thinned`: a table without some of its dead slots.

## Main results

* `Writes.eq_fill`: in a table whose keys differ, a write is a fill.
* `Thinned.fill`: filling the same slot keeps two tables in order.
-/

namespace SlotTable

section
variable {σ κ : Type*} [DecidableEq κ] (key : σ → κ) (live : σ → Bool)

/-- Writing the slot of a key: the one it has, whatever its mark, or a new one. -/
def fill (t : σ) : List σ → List σ
  | [] => [t]
  | s :: xs => if key s = key t then t :: xs else s :: fill t xs

/-- The second table without some of its dead slots is the first. -/
inductive Thinned : List σ → List σ → Prop
  | nil : Thinned [] []
  | keep (s : σ) {xs ys : List σ} : Thinned xs ys → Thinned (s :: xs) (s :: ys)
  | drop {s : σ} {xs ys : List σ} : live s = false → Thinned xs ys → Thinned xs (s :: ys)

variable {key live} {xs ys : List σ} {t : σ} {i : ℕ}

theorem key_mem_fill : key t ∈ (fill key t xs).map key := by
  induction xs with
  | nil => exact List.mem_singleton.2 rfl
  | cons s xs ih =>
    unfold fill
    split
    · exact List.mem_cons_self
    · exact List.mem_cons_of_mem _ ih

theorem mem_keys_fill {k : κ} (h : k ∈ xs.map key) : k ∈ (fill key t xs).map key := by
  induction xs with
  | nil => cases h
  | cons s xs ih =>
    unfold fill
    rcases List.mem_cons.1 h with rfl | h
    · split
      · rename_i hkey
        exact List.mem_cons.2 (.inl hkey)
      · exact List.mem_cons_self
    · split
      · exact List.mem_cons_of_mem _ h
      · exact List.mem_cons_of_mem _ (ih h)

theorem mem_fill : t ∈ fill key t xs := by
  induction xs with
  | nil => exact List.mem_singleton.2 rfl
  | cons s xs ih =>
    unfold fill
    split
    · exact List.mem_cons_self
    · exact List.mem_cons_of_mem _ ih

theorem length_fill_of_fresh (h : key t ∉ xs.map key) :
    (fill key t xs).length = xs.length + 1 := by
  induction xs with
  | nil => rfl
  | cons s xs ih =>
    rw [List.map_cons, List.mem_cons, not_or] at h
    rw [fill, if_neg (Ne.symm h.1), List.length_cons, ih h.2, List.length_cons]

/-- A slot that holds what is written stays as it is. -/
theorem fill_eq_self (h : (xs.map key).Nodup) (ht : t ∈ xs) : fill key t xs = xs := by
  induction xs with
  | nil => cases ht
  | cons s xs ih =>
    obtain ⟨hs, hxs⟩ := List.nodup_cons.1 h
    unfold fill
    rcases List.mem_cons.1 ht with rfl | ht
    · rw [if_pos rfl]
    · have hne : key s ≠ key t := by
        intro hkey
        rw [hkey] at hs
        exact hs (List.mem_map_of_mem ht)
      rw [if_neg hne, ih hxs ht]

/-- With keys that differ, every write fills the slot of its key. -/
theorem Writes.eq_fill (hw : Writes key live xs i t ys) (h : (ys.map key).Nodup) :
    ys = fill key t xs := by
  -- the first slot is the one written, or the write is in the rest
  induction xs generalizing i ys with
  | nil =>
    cases i with
    | zero =>
      refine List.ext_getElem? fun j => ?_
      cases j with
      | zero => exact hw.here
      | succ j => exact (hw.others _ (by simp)).trans (by simp [fill])
    | succ i =>
      have hnone := hw.others 0 (by simp)
      obtain rfl : ys = [] := by simpa using hnone
      have hhere := hw.here
      simp at hhere
  | cons s xs ih =>
    cases i with
    | zero =>
      have hkey := hw.before s rfl
      rw [fill, if_pos hkey]
      refine List.ext_getElem? fun j => ?_
      cases j with
      | zero => exact hw.here
      | succ j => exact hw.others _ (by simp)
    | succ i =>
      have hfirst := hw.others 0 (by simp)
      cases ys with
      | nil => simp at hfirst
      | cons y ys =>
        obtain rfl : y = s := by simpa using hfirst
        obtain ⟨hy, hys⟩ := List.nodup_cons.1 h
        have hhere : ys[i]? = some t := hw.here
        have hrest : Writes key live xs i t ys := by
          refine ⟨hhere, fun j hj => ?_, hw.before, fun j u hj => ?_⟩
          · exact hw.others (j + 1) (by simpa using hj)
          · exact hw.alone (j + 1) u (by simpa using hj)
        have hne : key y ≠ key t := fun hkey =>
          hy (hkey ▸ List.mem_map_of_mem (List.mem_of_getElem? hhere))
        rw [fill, if_neg hne, ← ih hrest hys]

namespace Thinned

/-- A table without any of its dead slots. -/
theorem live_slots (xs : List σ) : Thinned live (xs.filter live) xs := by
  induction xs with
  | nil => exact .nil
  | cons s xs ih =>
    cases hs : live s with
    | true =>
      rw [List.filter_cons_of_pos hs]
      exact .keep s ih
    | false =>
      rw [List.filter_cons_of_neg (by simp [hs])]
      exact .drop hs ih

theorem filter_eq (h : Thinned live xs ys) : xs.filter live = ys.filter live := by
  induction h with
  | nil => rfl
  | keep s _ ih =>
    rw [List.filter_cons, List.filter_cons, ih]
  | drop hs _ ih =>
    rw [ih, List.filter_cons_of_neg (by simp [hs])]

theorem sublist (h : Thinned live xs ys) : xs.Sublist ys := by
  induction h with
  | nil => exact .slnil
  | keep s _ ih => exact ih.cons_cons s
  | drop _ _ ih => exact ih.cons _

/-- A live slot is kept. -/
theorem mem_of_live (h : Thinned live xs ys) {s : σ} (hs : s ∈ ys) (hlive : live s = true) :
    s ∈ xs :=
  List.mem_of_mem_filter (h.filter_eq ▸ List.mem_filter.2 ⟨hs, hlive⟩)

/-- A write to both, of a key that has a slot in both or in neither. -/
theorem fill (h : Thinned live xs ys) (hnodup : (ys.map key).Nodup)
    (hkept : key t ∈ ys.map key → key t ∈ xs.map key) :
    Thinned live (fill key t xs) (fill key t ys) := by
  induction h with
  | nil => exact .keep t .nil
  | @keep s xs ys h ih =>
    obtain ⟨hs, hys⟩ := List.nodup_cons.1 hnodup
    unfold SlotTable.fill
    by_cases hkey : key s = key t
    · rw [if_pos hkey, if_pos hkey]
      exact .keep t h
    · rw [if_neg hkey, if_neg hkey]
      refine .keep s (ih hys fun hmem => ?_)
      exact (List.mem_cons.1 (hkept (List.mem_cons_of_mem _ hmem))).resolve_left
        fun heq => hkey heq.symm
  | @drop s xs ys hs h ih =>
    obtain ⟨hs', hys⟩ := List.nodup_cons.1 hnodup
    -- the dropped slot is not the one written, which the first table has
    have hkey : key s ≠ key t := by
      intro hkey
      have hmem := hkept (hkey ▸ List.mem_cons_self)
      exact hs' (hkey ▸ (h.sublist.map key).subset hmem)
    rw [show SlotTable.fill key t (s :: ys) = s :: SlotTable.fill key t ys from if_neg hkey]
    exact .drop hs (ih hys fun hmem => hkept (List.mem_cons_of_mem _ hmem))

end Thinned

end

end SlotTable
