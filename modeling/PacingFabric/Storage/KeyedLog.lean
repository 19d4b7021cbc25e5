import Mathlib.Data.Finset.Card
import Mathlib.Data.Finset.Dedup
import Mathlib.Data.List.Nodup

/-!
# Logs of keyed writes

A log of writes under keys stands for a finite map: the last write of a key wins. A log
may be cut and replaced by one write for each key the map holds, and a write that the map
already reflects may be logged again.

## Main definitions

* `Entry`: writing or deleting one key.
* `replay`: the map a log stands for.
* `written`: the keys a log writes.

## Main results

* `replay_puts`: one write for each of several keys.
* `Entry.apply_apply`: a write may be repeated.
-/

namespace KeyedLog

variable {κ β : Type*} [DecidableEq κ]

/-- A write of one key. -/
inductive Entry (κ β : Type*)
  | put (key : κ) (value : β)
  | delete (key : κ)

namespace Entry

def key : Entry κ β → κ
  | put key _ => key
  | delete key => key

/-- What the key holds afterwards. -/
def value : Entry κ β → Option β
  | put _ value => some value
  | delete _ => none

/-- The map after a write. -/
def apply (m : κ → Option β) (e : Entry κ β) : κ → Option β := Function.update m e.key e.value

/-- A write may be repeated. -/
theorem apply_apply (m : κ → Option β) (e : Entry κ β) : apply (apply m e) e = apply m e :=
  Function.update_idem ..

end Entry

/-- The map a log stands for. -/
def replay (log : List (Entry κ β)) : κ → Option β := log.foldl Entry.apply fun _ => none

@[simp] theorem replay_nil : replay ([] : List (Entry κ β)) = fun _ => none := rfl

theorem replay_concat (log : List (Entry κ β)) (e : Entry κ β) :
    replay (log ++ [e]) = Entry.apply (replay log) e := by
  rw [replay, List.foldl_append, List.foldl_cons, List.foldl_nil, replay]

/-- One write for each pair. -/
def puts (xs : List (κ × β)) : List (Entry κ β) := xs.map fun x => .put x.1 x.2

/-- One write for each of several keys. -/
theorem replay_puts {xs : List (κ × β)} (h : (xs.map Prod.fst).Nodup) {k : κ} {v : β} :
    replay (puts xs) k = some v ↔ (k, v) ∈ xs := by
  induction xs using List.reverseRecOn with
  | nil => simp [puts]
  | append_singleton xs x ih =>
    rw [List.map_append, List.map_singleton, List.nodup_append] at h
    obtain ⟨hxs, -, hne⟩ := h
    rw [puts, List.map_append, List.map_singleton, replay_concat, Entry.apply, List.mem_append,
      List.mem_singleton]
    by_cases hk : k = x.1
    · subst hk
      have hfresh : (x.1, v) ∉ xs := fun hmem =>
        hne _ (List.mem_map_of_mem hmem) _ (List.mem_singleton_self _) rfl
      simp [Entry.key, Entry.value, hfresh, Prod.ext_iff, eq_comm]
    · have hother : (k, v) ≠ x := by
        rintro rfl
        exact hk rfl
      rw [Entry.key, Function.update_of_ne hk]
      exact (ih hxs).trans (by simp [hother])

/-- The keys a log writes, deletions apart. -/
def written (log : List (Entry κ β)) : Finset κ :=
  (log.filterMap fun
    | .put key _ => some key
    | .delete _ => none).toFinset

theorem written_append (log log' : List (Entry κ β)) :
    written (log ++ log') = written log ∪ written log' := by
  rw [written, List.filterMap_append, List.toFinset_append, written, written]

@[simp] theorem written_put (key : κ) (value : β) :
    written [Entry.put key value] = {key} := rfl

@[simp] theorem written_delete (key : κ) : written [(Entry.delete key : Entry κ β)] = ∅ := rfl

theorem mem_written_puts {xs : List (κ × β)} {k : κ} :
    k ∈ written (puts xs) ↔ k ∈ xs.map Prod.fst := by
  rw [written, puts, List.filterMap_map, List.mem_toFinset]
  change k ∈ xs.filterMap (fun x => some x.1) ↔ _
  rw [List.filterMap_eq_map']

end KeyedLog
