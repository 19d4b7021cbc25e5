import PacingFabric.Model.Operations
import Mathlib.Data.List.Basic
import Mathlib.Data.List.Induction

/-!
# The attempt ledger as a map

The ledger is a vector with an index. When the index is exact, the ledger is a finite map
from attempt identities to records, and each operation on it is an update of that map.

## Main results

* `AttemptLedger.WellFormed`: every slot is live and the index is exact.
* `WellFormed.overwrite`, `WellFormed.insert`: both operations keep it.
* `record_overwrite`, `record_insert`: both are updates of `AttemptLedger.record`.
-/

namespace Pacing

namespace AttemptLedger

/-- Every slot is live and the index names each slot by the identity of its record. -/
structure WellFormed (l : AttemptLedger) : Prop where
  live : ∀ e ∈ l.entries, e.live = true
  dead : l.dead = 0
  indexed : ∀ i e, l.entries[i]? = some e → l.index e.record.attempt.value = some i
  sound : ∀ v i, l.index v = some i → ∃ e, l.entries[i]? = some e ∧ e.record.attempt.value = v

theorem wellFormed_empty : ({} : AttemptLedger).WellFormed :=
  ⟨by simp, rfl, by simp, by simp⟩

variable {l : AttemptLedger}

namespace WellFormed

theorem find_eq_some_iff (h : l.WellFormed) {id : AttemptId} {i : ℕ} {e : AttemptEntry} :
    l.find id = some (i, e) ↔ l.entries[i]? = some e ∧ e.record.attempt = id := by
  constructor
  · intro hf
    unfold find at hf
    split at hf
    · simp at hf
    · rename_i j hj
      obtain ⟨x, hx, hv⟩ := h.sound _ _ hj
      simp only [hx, h.live x (List.mem_of_getElem? hx), if_true, Option.some.injEq,
        Prod.mk.injEq] at hf
      obtain ⟨rfl, rfl⟩ := hf
      exact ⟨hx, Id.ext hv⟩
  · rintro ⟨he, rfl⟩
    simp [find, h.indexed i e he, he, h.live e (List.mem_of_getElem? he)]

theorem record_eq_some_iff (h : l.WellFormed) {id : AttemptId} {r : ApplicationRecord} :
    l.record id = some r ↔
      ∃ (i : ℕ) (e : AttemptEntry), l.entries[i]? = some e ∧ e.record = r ∧ r.attempt = id := by
  rw [record, Option.map_eq_some_iff]
  constructor
  · rintro ⟨⟨i, e⟩, hf, rfl⟩
    obtain ⟨he, hid⟩ := h.find_eq_some_iff.1 hf
    exact ⟨i, e, he, rfl, hid⟩
  · rintro ⟨i, e, he, rfl, hid⟩
    exact ⟨(i, e), h.find_eq_some_iff.2 ⟨he, hid⟩, rfl⟩

theorem record_attempt (h : l.WellFormed) {id : AttemptId} {r : ApplicationRecord}
    (hr : l.record id = some r) : r.attempt = id := by
  obtain ⟨_, _, _, _, hid⟩ := h.record_eq_some_iff.1 hr
  exact hid

theorem record_of_getElem? (h : l.WellFormed) {i : ℕ} {e : AttemptEntry}
    (he : l.entries[i]? = some e) : l.record e.record.attempt = some e.record :=
  h.record_eq_some_iff.2 ⟨i, e, he, rfl, rfl⟩

/-- Two slots never hold the same identity. -/
theorem slot_unique (h : l.WellFormed) {i j : ℕ} {e e' : AttemptEntry}
    (hi : l.entries[i]? = some e) (hj : l.entries[j]? = some e')
    (hid : e.record.attempt = e'.record.attempt) : i = j := by
  have h₁ := h.indexed i e hi
  rw [hid, h.indexed j e' hj] at h₁
  exact (Option.some.inj h₁).symm

end WellFormed

/-! ### Replacing a record -/

section overwrite
variable {i : ℕ} {e : AttemptEntry} {r : ApplicationRecord}

private theorem getElem?_overwrite (he : l.entries[i]? = some e) (j : ℕ) :
    (l.overwrite i e r).entries[j]? =
      if j = i then some { e with record := r } else l.entries[j]? := by
  have hlt : i < l.entries.length := (List.getElem?_eq_some_iff.1 he).1
  rw [overwrite, List.getElem?_set]
  by_cases hj : j = i
  · simp [hj, hlt]
  · simp [hj, Ne.symm hj]

theorem WellFormed.overwrite (h : l.WellFormed) (he : l.entries[i]? = some e)
    (hr : r.attempt = e.record.attempt) : (l.overwrite i e r).WellFormed where
  live x hx := by
    rcases List.mem_or_eq_of_mem_set hx with hx | rfl
    · exact h.live x hx
    · exact h.live e (List.mem_of_getElem? he)
  dead := h.dead
  indexed j x hx := by
    rw [getElem?_overwrite he] at hx
    split_ifs at hx with hj
    · obtain rfl := Option.some.inj hx
      simpa [AttemptLedger.overwrite, hj, hr] using h.indexed i e he
    · exact h.indexed j x hx
  sound v j hv := by
    obtain ⟨x, hx, hxv⟩ := h.sound v j hv
    by_cases hj : j = i
    · subst hj
      obtain rfl : e = x := by simpa [he] using hx
      exact ⟨{ e with record := r }, by simp [getElem?_overwrite he], by simp [hr, hxv]⟩
    · exact ⟨x, by simp [getElem?_overwrite he, hj, hx], hxv⟩

theorem record_overwrite (h : l.WellFormed) (he : l.entries[i]? = some e)
    (hr : r.attempt = e.record.attempt) :
    (l.overwrite i e r).record = Function.update l.record e.record.attempt (some r) := by
  have h' := h.overwrite he hr
  funext id
  by_cases hid : id = e.record.attempt
  · subst hid
    rw [Function.update_self]
    exact h'.record_eq_some_iff.2 ⟨i, { e with record := r },
      by simp [getElem?_overwrite he], rfl, hr⟩
  · rw [Function.update_of_ne hid]
    ext x
    rw [h'.record_eq_some_iff, h.record_eq_some_iff]
    constructor
    · rintro ⟨j, y, hy, rfl, hyid⟩
      rw [getElem?_overwrite he] at hy
      split_ifs at hy with hj
      · obtain rfl := Option.some.inj hy
        exact absurd (hyid.symm.trans hr) hid
      · exact ⟨j, y, hy, rfl, hyid⟩
    · rintro ⟨j, y, hy, rfl, hyid⟩
      refine ⟨j, y, ?_, rfl, hyid⟩
      have hj : j ≠ i := by
        rintro rfl
        obtain rfl : e = y := by simpa [he] using hy
        exact hid hyid.symm
      simp [getElem?_overwrite he, hj, hy]

theorem WellFormed.write (h : l.WellFormed) (he : l.entries[i]? = some e)
    (hr : r.attempt = e.record.attempt) : (l.write i e r).WellFormed :=
  let h' := h.overwrite he hr
  ⟨h'.live, h'.dead, h'.indexed, h'.sound⟩

theorem record_write (h : l.WellFormed) (he : l.entries[i]? = some e)
    (hr : r.attempt = e.record.attempt) :
    (l.write i e r).record = Function.update l.record e.record.attempt (some r) :=
  record_overwrite h he hr

end overwrite

/-! ### Inserting a record -/

section insert
variable {r : ApplicationRecord}

theorem WellFormed.index_eq_none (h : l.WellFormed) {id : AttemptId} (hid : l.record id = none) :
    l.index id.value = none := by
  by_contra hne
  obtain ⟨i, hi⟩ := Option.ne_none_iff_exists'.1 hne
  obtain ⟨e, he, hv⟩ := h.sound _ _ hi
  have hid' : e.record.attempt = id := Id.ext hv
  rw [← hid', h.record_of_getElem? he] at hid
  simp at hid

private theorem getElem?_insert (j : ℕ) :
    (l.insert r).entries[j]? =
      if j = l.entries.length then some { record := r } else l.entries[j]? := by
  rw [insert, List.getElem?_append]
  split_ifs with h₁ h₂ h₂
  · omega
  · rfl
  · simp [h₂]
  · have : l.entries[j]? = none := List.getElem?_eq_none (by omega)
    rw [this]
    exact List.getElem?_eq_none (by simp; omega)

theorem WellFormed.insert (h : l.WellFormed) (hr : l.record r.attempt = none) :
    (l.insert r).WellFormed where
  live x hx := by
    rcases List.mem_append.1 hx with hx | hx
    · exact h.live x hx
    · simp [List.mem_singleton.1 hx]
  dead := h.dead
  indexed j x hx := by
    rw [getElem?_insert] at hx
    split_ifs at hx with hj
    · obtain rfl := Option.some.inj hx
      simp [AttemptLedger.insert, hj]
    · have hne : x.record.attempt.value ≠ r.attempt.value := by
        intro heq
        have h₁ := h.indexed j x hx
        rw [heq, h.index_eq_none hr] at h₁
        simp at h₁
      simpa [AttemptLedger.insert, Function.update_of_ne hne] using h.indexed j x hx
  sound v j hv := by
    by_cases hv' : v = r.attempt.value
    · subst hv'
      obtain rfl : l.entries.length = j := by simpa [AttemptLedger.insert] using hv
      exact ⟨{ record := r }, by simp [getElem?_insert], rfl⟩
    · obtain ⟨x, hx, hxv⟩ :=
        h.sound v j (by simpa [AttemptLedger.insert, Function.update_of_ne hv'] using hv)
      have hj : j ≠ l.entries.length := by
        have := (List.getElem?_eq_some_iff.1 hx).1
        omega
      exact ⟨x, by simp [getElem?_insert, hj, hx], hxv⟩

theorem record_insert (h : l.WellFormed) (hr : l.record r.attempt = none) :
    (l.insert r).record = Function.update l.record r.attempt (some r) := by
  have h' := h.insert hr
  funext id
  by_cases hid : id = r.attempt
  · subst hid
    rw [Function.update_self]
    exact h'.record_eq_some_iff.2 ⟨_, { record := r }, by rw [getElem?_insert, if_pos rfl],
      rfl, rfl⟩
  · rw [Function.update_of_ne hid]
    ext x
    rw [h'.record_eq_some_iff, h.record_eq_some_iff]
    constructor
    · rintro ⟨j, y, hy, rfl, hyid⟩
      rw [getElem?_insert] at hy
      split_ifs at hy with hj
      · obtain rfl := Option.some.inj hy
        exact absurd hyid.symm hid
      · exact ⟨j, y, hy, rfl, hyid⟩
    · rintro ⟨j, y, hy, rfl, hyid⟩
      have hj : j ≠ l.entries.length := by
        have := (List.getElem?_eq_some_iff.1 hy).1
        omega
      exact ⟨j, y, by simp [getElem?_insert, hj, hy], rfl, hyid⟩

end insert

/-! ### Mapping over all records -/

section mapped
variable {g : AttemptEntry → AttemptEntry}

/-- The ledger with every entry mapped, the index left alone. -/
def mapEntries (l : AttemptLedger) (g : AttemptEntry → AttemptEntry) : AttemptLedger :=
  { l with entries := l.entries.map g }

theorem WellFormed.mapEntries (h : l.WellFormed) (hlive : ∀ e, (g e).live = e.live)
    (hid : ∀ e, (g e).record.attempt = e.record.attempt) : (l.mapEntries g).WellFormed where
  live x hx := by
    obtain ⟨e, he, rfl⟩ := List.mem_map.1 hx
    rw [hlive, h.live e he]
  dead := h.dead
  indexed i x hx := by
    obtain ⟨e, he, rfl⟩ : ∃ e, l.entries[i]? = some e ∧ g e = x := by
      simpa [AttemptLedger.mapEntries] using hx
    rw [hid]
    exact h.indexed i e he
  sound v i hv := by
    obtain ⟨e, he, hev⟩ := h.sound v i hv
    exact ⟨g e, by simp [AttemptLedger.mapEntries, he], by rw [hid, hev]⟩

theorem find_mapEntries (h : l.WellFormed) (hlive : ∀ e, (g e).live = e.live)
    (hid : ∀ e, (g e).record.attempt = e.record.attempt) (id : AttemptId) :
    (l.mapEntries g).find id = (l.find id).map fun slot => (slot.1, g slot.2) := by
  have h' := h.mapEntries hlive hid
  ext ⟨i, x⟩
  rw [h'.find_eq_some_iff, Option.map_eq_some_iff]
  constructor
  · rintro ⟨hx, rfl⟩
    obtain ⟨e, he, rfl⟩ : ∃ e, l.entries[i]? = some e ∧ g e = x := by
      simpa [AttemptLedger.mapEntries] using hx
    exact ⟨(i, e), h.find_eq_some_iff.2 ⟨he, (hid e).symm⟩, rfl⟩
  · rintro ⟨⟨j, e⟩, hf, heq⟩
    obtain ⟨he, rfl⟩ := h.find_eq_some_iff.1 hf
    simp only [Prod.mk.injEq] at heq
    obtain ⟨rfl, rfl⟩ := heq
    exact ⟨by simp [AttemptLedger.mapEntries, he], hid e⟩

theorem record_mapEntries (h : l.WellFormed) (hlive : ∀ e, (g e).live = e.live)
    (hid : ∀ e, (g e).record.attempt = e.record.attempt) (id : AttemptId) :
    (l.mapEntries g).record id = (l.find id).map fun slot => (g slot.2).record := by
  rw [record, find_mapEntries h hlive hid, Option.map_map]
  rfl

end mapped

end AttemptLedger

/-! ### Loops over all slots -/

private theorem getElem?_foldl_modify {α : Type*} (g : α → α) (l : List α) (n j : ℕ) :
    ((List.range n).foldl (fun l i => l.modify i g) l)[j]? =
      if j < n then l[j]?.map g else l[j]? := by
  induction n with
  | zero => simp
  | succ n ih =>
    rw [List.range_succ, List.foldl_append, List.foldl_cons, List.foldl_nil,
      List.getElem?_modify, ih]
    by_cases hj : n = j
    · simp [hj]
    · have : j < n + 1 ↔ j < n := by omega
      simp [hj, this]

/-- Modifying each slot once, in order, maps the list. -/
theorem foldl_modify_range {α : Type*} (g : α → α) (l : List α) :
    (List.range l.length).foldl (fun l i => l.modify i g) l = l.map g := by
  refine List.ext_getElem? fun j => ?_
  rw [getElem?_foldl_modify, List.getElem?_map]
  split_ifs with hj
  · rfl
  · rw [List.getElem?_eq_none (by omega), Option.map_none]

theorem modify_eq_set_of_getElem? {α : Type*} {l : List α} {i : ℕ} {e : α} (g : α → α)
    (he : l[i]? = some e) : l.modify i g = l.set i (g e) := by
  obtain ⟨hi, rfl⟩ := List.getElem?_eq_some_iff.1 he
  refine List.ext_getElem? fun j => ?_
  rw [List.getElem?_modify, List.getElem?_set]
  by_cases hj : i = j
  · subst hj
    simp [hi]
  · simp [hj]

/-- Each turn of a loop modifies its slot by `g` and leaves the indexes alone. -/
def Turns (turn : Fabric → ℕ → Fabric) (g : AttemptEntry → AttemptEntry) : Prop :=
  ∀ f i, ∃ pending, (turn f i).attempts =
    { f.attempts with entries := f.attempts.entries.modify i g, pending := pending }

/-- A loop over all slots maps every entry of the ledger. -/
theorem Turns.foldl {turn : Fabric → ℕ → Fabric} {g : AttemptEntry → AttemptEntry}
    (h : Turns turn g) (f : Fabric) :
    ∃ pending, ((List.range f.attempts.entries.length).foldl turn f).attempts =
      { f.attempts.mapEntries g with pending := pending } := by
  have hfold : ∀ is : List ℕ, ∃ pending, (is.foldl turn f).attempts =
      { f.attempts with
        entries := is.foldl (fun l i => l.modify i g) f.attempts.entries
        pending := pending } := by
    intro is
    induction is using List.reverseRecOn with
    | nil => exact ⟨_, rfl⟩
    | append_singleton is i ih =>
      obtain ⟨p, hp⟩ := ih
      obtain ⟨q, hq⟩ := h (is.foldl turn f) i
      refine ⟨q, ?_⟩
      rw [List.foldl_append, List.foldl_append, List.foldl_cons, List.foldl_nil, hq, hp]
      rfl
  obtain ⟨pending, hp⟩ := hfold (List.range f.attempts.entries.length)
  refine ⟨pending, ?_⟩
  rw [hp, foldl_modify_range]
  rfl

end Pacing
