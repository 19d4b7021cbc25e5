import Mathlib.Data.Set.Card
import Mathlib.Logic.Function.Basic
import Mathlib.Tactic.Common

/-!
# Interleaved runs of concurrent calls

A program is a set of calls that take atomic steps over a shared state. Any number of calls
may be in flight; each step is taken by one of them, with an answer from the environment.
A restart drops every call and replaces the shared state.

## Main definitions

* `Program`, `Config`, `Step`: programs and their configurations.
* `Run P ok c₀ n c`: `n` steps lead from `c₀` to `c`, each of them allowed by `ok`.
* `Outline`: an annotation of the shared state, of each call in flight, and of each pair.
* `Program.exec`: the configuration a given schedule leads to.

## Main results

* `Run.invariant`: what every allowed step preserves holds in every configuration reached.
* `Run.assertion`: in a sequential run a local assertion of the call in flight holds.
* `Run.erase`: an auxiliary variable adds no runs.
* `Outline.Stable.holds`: an annotation whose steps are locally correct and free of
  interference holds in every configuration reached.
-/

namespace Interleaving

variable {σ κ ρ α : Type*}

/-- A program over shared states `σ`: a request `ρ` begins a call, and a step of a call
consumes an answer `α` and leaves the call at its next point or returned. -/
structure Program (σ κ ρ α : Type*) where
  begin : ρ → κ
  step : σ → α → κ → σ × Option κ
  restarts : σ → σ → Prop

/-- A shared state with the calls in flight, by thread. -/
structure Config (σ κ : Type*) where
  shared : σ
  calls : ℕ → Option κ

/-- What one step of a configuration is. -/
inductive Event (κ ρ α : Type*)
  | start (thread : ℕ) (request : ρ)
  | move (thread : ℕ) (call : κ) (answer : α)
  | restart

namespace Config

/-- The configuration with no call in flight. -/
def idle (s : σ) : Config σ κ := ⟨s, fun _ => none⟩

/-- No call is in flight. -/
def Quiet (c : Config σ κ) : Prop := ∀ i, c.calls i = none

/-- At most one call is in flight. -/
def Solo (c : Config σ κ) : Prop :=
  ∀ i j k l, c.calls i = some k → c.calls j = some l → i = j

theorem quiet_idle (s : σ) : (idle s : Config σ κ).Quiet := fun _ => rfl

theorem Quiet.solo {c : Config σ κ} (h : c.Quiet) : c.Solo := by
  intro i j k l hi
  simp [h i] at hi

/-- The threads whose call passes a test. -/
def threads (c : Config σ κ) (p : κ → Bool) : Set ℕ := {i | (c.calls i).any p = true}

theorem threads_idle (s : σ) (p : κ → Bool) : (idle s : Config σ κ).threads p = ∅ :=
  Set.eq_empty_of_forall_notMem fun _ h => nomatch h

theorem threads_update (c : Config σ κ) (p : κ → Bool) (s : σ) (i : ℕ) (x : Option κ) :
    (⟨s, Function.update c.calls i x⟩ : Config σ κ).threads p =
      if x.any p then insert i (c.threads p) else c.threads p \ {i} := by
  ext j
  by_cases hj : j = i
  · subst hj
    cases hx : x.any p <;> simp [threads, hx]
  · cases hx : x.any p <;> simp [threads, hj]

theorem finite_threads {c : Config σ κ} {p : κ → Bool} (h : (c.threads p).Finite) (s : σ) (i : ℕ)
    (x : Option κ) : ((⟨s, Function.update c.calls i x⟩ : Config σ κ).threads p).Finite := by
  rw [threads_update]
  split
  · exact h.insert i
  · exact h.sdiff

/-- Moving one call counts it where it is instead of where it was. -/
theorem ncard_threads {c : Config σ κ} {p : κ → Bool} (h : (c.threads p).Finite) (s : σ) (i : ℕ)
    (x : Option κ) :
    ((⟨s, Function.update c.calls i x⟩ : Config σ κ).threads p).ncard +
        ((c.calls i).any p).toNat = (c.threads p).ncard + (x.any p).toNat := by
  rw [threads_update]
  have hmem : i ∈ c.threads p ↔ (c.calls i).any p = true := Iff.rfl
  cases hold : (c.calls i).any p <;> cases hnew : x.any p <;> rw [hold] at hmem
  · rw [if_neg (by simp), Set.sdiff_singleton_eq_self (by simpa using hmem)]
  · rw [if_pos rfl, Set.ncard_insert_of_notMem (by simpa using hmem) h]
    rfl
  · rw [if_neg (by simp)]
    exact Set.ncard_sdiff_singleton_add_one (by simpa using hmem) h
  · rw [if_pos rfl, Set.insert_eq_of_mem (by simpa using hmem)]

end Config

/-- One step of a configuration. -/
inductive Step (P : Program σ κ ρ α) : Config σ κ → Event κ ρ α → Config σ κ → Prop
  | start {c : Config σ κ} {i : ℕ} {r : ρ} (free : c.calls i = none) :
      Step P c (.start i r) ⟨c.shared, Function.update c.calls i (some (P.begin r))⟩
  | move {c : Config σ κ} {i : ℕ} {k : κ} {a : α} (here : c.calls i = some k) :
      Step P c (.move i k a)
        ⟨(P.step c.shared a k).1, Function.update c.calls i (P.step c.shared a k).2⟩
  | restart {c : Config σ κ} {s : σ} (h : P.restarts c.shared s) :
      Step P c .restart (.idle s)

/-- `n` steps, each of them allowed by `ok` in the configuration it starts from. -/
inductive Run (P : Program σ κ ρ α) (ok : Config σ κ → Event κ ρ α → Prop)
    (c₀ : Config σ κ) : ℕ → Config σ κ → Prop
  | zero : Run P ok c₀ 0 c₀
  | succ {n : ℕ} {c c' : Config σ κ} {e : Event κ ρ α} :
      Run P ok c₀ n c → ok c e → Step P c e c' → Run P ok c₀ (n + 1) c'

/-- Every step is allowed. -/
def anyStep (_ : Config σ κ) (_ : Event κ ρ α) : Prop := True

/-- A call starts only when none is in flight. -/
def sequential (c : Config σ κ) : Event κ ρ α → Prop
  | .start _ _ => c.Quiet
  | _ => True

/-- Every step is one of a single thread. -/
def byThread (thread : ℕ) (_ : Config σ κ) : Event κ ρ α → Prop
  | .start i _ | .move i _ _ => i = thread
  | .restart => False

/-- Every step is one of a single thread, which calls when its last call has returned. -/
def alone (thread : ℕ) (c : Config σ κ) : Event κ ρ α → Prop
  | .start i _ => i = thread ∧ c.calls thread = none
  | .move i _ _ => i = thread
  | .restart => False

instance (thread : ℕ) (c : Config σ κ) : (e : Event κ ρ α) → Decidable (alone thread c e)
  | .start i _ => inferInstanceAs (Decidable (i = thread ∧ c.calls thread = none))
  | .move i _ _ => inferInstanceAs (Decidable (i = thread))
  | .restart => inferInstanceAs (Decidable False)

/-- The shared state is not replaced. -/
def withinIncarnation (_ : Config σ κ) : Event κ ρ α → Prop
  | .restart => False
  | _ => True

theorem byThread_of_alone {thread : ℕ} {c : Config σ κ} {e : Event κ ρ α}
    (h : alone thread c e) : byThread thread c e := by
  cases e with
  | start i r => exact h.1
  | _ => exact h

theorem withinIncarnation_of_alone {thread : ℕ} {c : Config σ κ} {e : Event κ ρ α}
    (h : alone thread c e) : withinIncarnation c e := by
  cases e with
  | restart => exact h
  | _ => trivial

namespace Run

variable {P : Program σ κ ρ α} {ok ok' : Config σ κ → Event κ ρ α → Prop}
  {c₀ c₁ c : Config σ κ} {n m : ℕ}

/-- What holds at the start and is preserved by every allowed step holds at the end. -/
theorem invariant {I : Config σ κ → Prop} (h₀ : I c₀)
    (hstep : ∀ c e c', I c → ok c e → Step P c e c' → I c') (h : Run P ok c₀ n c) :
    I c := by
  induction h with
  | zero => exact h₀
  | succ _ hok hs ih => exact hstep _ _ _ ih hok hs

theorem mono (hok : ∀ c e, ok c e → ok' c e) (h : Run P ok c₀ n c) : Run P ok' c₀ n c := by
  induction h with
  | zero => exact .zero
  | succ _ h hs ih => exact .succ ih (hok _ _ h) hs

theorem trans (h : Run P ok c₀ n c₁) (h' : Run P ok c₁ m c) : Run P ok c₀ (n + m) c := by
  induction h' with
  | zero => exact h
  | succ _ hok hs ih => exact .succ ih hok hs

/-- A run that allows what its own configurations allow. -/
theorem allow (hok : ∀ m d e, Run P ok c₀ m d → ok d e → ok' d e) (h : Run P ok c₀ n c) :
    Run P ok' c₀ n c := by
  induction h with
  | zero => exact .zero
  | succ hrun h hs ih => exact .succ ih (hok _ _ _ hrun h) hs

/-- The steps of one thread leave every other thread without a call. -/
theorem others {thread : ℕ} (h₀ : ∀ j, j ≠ thread → c₀.calls j = none)
    (h : Run P (byThread thread) c₀ n c) : ∀ j, j ≠ thread → c.calls j = none := by
  refine invariant (I := fun c : Config σ κ => ∀ j, j ≠ thread → c.calls j = none) h₀ ?_ h
  intro c e c' hc hok hs j hj
  cases hs with
  | @start i r free =>
    obtain rfl : i = thread := hok
    exact (Function.update_of_ne hj ..).trans (hc j hj)
  | @move i k a here =>
    obtain rfl : i = thread := hok
    exact (Function.update_of_ne hj ..).trans (hc j hj)
  | restart _ => exact absurd hok id

/-- Once its last call has returned, a single thread leaves no call in flight. -/
theorem quiet_of_alone {thread : ℕ} (h₀ : c₀.Quiet) (h : Run P (alone thread) c₀ n c)
    (hnone : c.calls thread = none) : c.Quiet := by
  intro j
  by_cases hj : j = thread
  · rw [hj]
    exact hnone
  · exact (h.mono fun _ _ => byThread_of_alone).others (fun j _ => h₀ j) j hj

/-- The calls of one thread do not overlap. -/
theorem sequential_of_alone {thread : ℕ} (h₀ : c₀.Quiet)
    (h : Run P (fun c e => alone thread c e ∧ ok c e) c₀ n c) :
    Run P (fun c e => sequential c e ∧ ok c e) c₀ n c := by
  refine @allow _ _ _ _ _ _ _ _ _ _ (fun m d e hrun hok => ⟨?_, hok.2⟩) h
  cases e with
  | start i r => exact (hrun.mono fun _ _ => And.left).quiet_of_alone h₀ hok.1.2
  | _ => trivial

/-- The steps of one thread are a sequential run that replaces no shared state. -/
theorem sequential_within {thread : ℕ} (h₀ : c₀.Quiet) (h : Run P (alone thread) c₀ n c) :
    Run P (fun c e => sequential c e ∧ withinIncarnation c e) c₀ n c :=
  sequential_of_alone h₀ (h.mono fun _ _ h => ⟨h, withinIncarnation_of_alone h⟩)

/-- A sequential run never has two calls in flight. -/
theorem solo (hseq : ∀ c e, ok c e → sequential c e) (h₀ : c₀.Solo)
    (h : Run P ok c₀ n c) : c.Solo := by
  refine invariant (I := Config.Solo) h₀ ?_ h
  intro c e c' hc hok hs
  cases hs with
  | @start i r free =>
    have hq := hseq _ _ hok
    intro j l k k' hj hl
    by_cases hji : j = i <;> by_cases hli : l = i
    · rw [hji, hli]
    · simp [Function.update_of_ne hli, hq l] at hl
    · simp [Function.update_of_ne hji, hq j] at hj
    · simp [Function.update_of_ne hji, hq j] at hj
  | @move i k a here =>
    intro j l k' k'' hj hl
    have back : ∀ m x, Function.update c.calls i (P.step c.shared a k).2 m = some x →
        m = i := by
      intro m x hm
      by_contra hne
      rw [Function.update_of_ne hne] at hm
      exact hne (hc _ _ _ _ hm here)
    rw [back j _ hj, back l _ hl]
  | restart _ => exact (Config.quiet_idle _).solo

end Run

/-! ### Sequential runs -/

/-- In a sequential run the assertion of a call is safe from other calls, so the steps of the
call itself are all there is to check. -/
theorem Run.assertion {P : Program σ κ ρ α} {ok : Config σ κ → Event κ ρ α → Prop}
    {c₀ c : Config σ κ} {n : ℕ} {A : σ → κ → Prop}
    (hseq : ∀ c e, ok c e → sequential c e) (hbegin : ∀ s r, A s (P.begin r))
    (hstep : ∀ c i k k' a, ok c (.move i k a) → A c.shared k →
      (P.step c.shared a k).2 = some k' → A (P.step c.shared a k).1 k')
    (h₀ : c₀.Quiet) (h : Run P ok c₀ n c) : ∀ i k, c.calls i = some k → A c.shared k := by
  refine (h.invariant (I := fun c => c.Solo ∧ ∀ i k, c.calls i = some k → A c.shared k)
    ⟨h₀.solo, fun i k hk => by simp [h₀ i] at hk⟩ ?_).2
  rintro c e c' ⟨hsolo, hc⟩ hok hs
  refine ⟨(Run.succ .zero hok hs).solo hseq hsolo, ?_⟩
  cases hs with
  | @start i r free =>
    intro j k hk
    by_cases hj : j = i
    · subst hj
      obtain rfl : P.begin r = k := by simpa using hk
      exact hbegin _ _
    · simp [Function.update_of_ne hj, hseq _ _ hok j] at hk
  | @move i k a here =>
    intro j l hl
    by_cases hj : j = i
    · subst hj
      exact hstep _ _ _ _ _ hok (hc _ _ here) (by simpa using hl)
    · have hl' : c.calls j = some l := by simpa [Function.update_of_ne hj] using hl
      exact absurd (hsolo _ _ _ _ hl' here) hj
  | restart _ =>
    intro j k hk
    simp [Config.idle] at hk

/-! ### Auxiliary variables -/

section Instrument
variable {γ : Type*}

/-- The program with an auxiliary variable, which the moves update and none reads. A restart
sets it back. -/
def Program.instrument (P : Program σ κ ρ α) (x₀ : γ) (record : γ → σ → α → κ → γ) :
    Program (σ × γ) κ ρ α where
  begin := P.begin
  step s a k := (((P.step s.1 a k).1, record s.2 s.1 a k), (P.step s.1 a k).2)
  restarts s s' := P.restarts s.1 s'.1 ∧ s'.2 = x₀

/-- The configuration without the auxiliary variable. -/
def Config.erase (c : Config (σ × γ) κ) : Config σ κ := ⟨c.shared.1, c.calls⟩

variable {P : Program σ κ ρ α} {x₀ : γ} {record : γ → σ → α → κ → γ}
  {ok : Config σ κ → Event κ ρ α → Prop}

theorem sequential_erase {c : Config (σ × γ) κ} {e : Event κ ρ α} :
    sequential c.erase e ↔ sequential c e := by
  cases e <;> exact Iff.rfl

theorem Step.erase {c c' : Config (σ × γ) κ} {e : Event κ ρ α}
    (h : Step (P.instrument x₀ record) c e c') : Step P c.erase e c'.erase := by
  cases h with
  | start free => exact .start free
  | move here => exact .move here
  | restart hr => exact .restart hr.1

/-- Erasing the auxiliary variable leaves a run. -/
theorem Run.erase {c₀ c : Config (σ × γ) κ} {n : ℕ}
    (h : Run (P.instrument x₀ record) (fun c e => ok c.erase e) c₀ n c) :
    Run P ok c₀.erase n c.erase := by
  induction h with
  | zero => exact .zero
  | succ _ hok hs ih => exact .succ ih hok hs.erase

end Instrument

/-- An annotation of a program: what holds of the shared state, what each call in flight
asserts, and how any two of them relate. -/
structure Outline (σ κ : Type*) where
  shared : σ → Prop
  assertion : σ → κ → Prop
  apart : κ → κ → Prop

namespace Outline

variable {P : Program σ κ ρ α} {ok : Config σ κ → Event κ ρ α → Prop} (O : Outline σ κ)

structure Holds (c : Config σ κ) : Prop where
  shared : O.shared c.shared
  assertion : ∀ i k, c.calls i = some k → O.assertion c.shared k
  apart : ∀ i j k l, i ≠ j → c.calls i = some k → c.calls j = some l → O.apart k l

/-- The proof obligations of an annotation: each step establishes the assertion of the call
that takes it and leaves the assertions of the others intact. -/
structure Stable (P : Program σ κ ρ α) (ok : Config σ κ → Event κ ρ α → Prop) : Prop where
  begins : ∀ c i r, O.Holds c → ok c (.start i r) → c.calls i = none →
    O.assertion c.shared (P.begin r) ∧
      ∀ j l, c.calls j = some l → O.apart (P.begin r) l ∧ O.apart l (P.begin r)
  locally : ∀ c i k a, O.Holds c → ok c (.move i k a) → c.calls i = some k →
    O.shared (P.step c.shared a k).1 ∧
      ∀ k', (P.step c.shared a k).2 = some k' → O.assertion (P.step c.shared a k).1 k'
  interference : ∀ c i k a j l, O.Holds c → ok c (.move i k a) → c.calls i = some k →
    j ≠ i → c.calls j = some l →
    O.assertion (P.step c.shared a k).1 l ∧
      ∀ k', (P.step c.shared a k).2 = some k' → O.apart k' l ∧ O.apart l k'
  restarts : ∀ c s, O.Holds c → ok c .restart → P.restarts c.shared s → O.shared s

variable {O}

theorem holds_idle {s : σ} (h : O.shared s) : O.Holds (.idle s) where
  shared := h
  assertion := fun _ _ hk => by simp [Config.idle] at hk
  apart := fun _ _ _ _ _ hk => by simp [Config.idle] at hk

theorem Stable.start (h : O.Stable P ok) {c : Config σ κ} {i : ℕ} {r : ρ} (hc : O.Holds c)
    (hok : ok c (.start i r)) (free : c.calls i = none) :
    O.Holds ⟨c.shared, Function.update c.calls i (some (P.begin r))⟩ := by
  obtain ⟨hbegin, hapart⟩ := h.begins c i r hc hok free
  refine ⟨hc.shared, ?_, ?_⟩
  · intro j k hk
    by_cases hj : j = i
    · subst hj
      obtain rfl : P.begin r = k := by simpa using hk
      exact hbegin
    · exact hc.assertion j k (by simpa [Function.update_of_ne hj] using hk)
  · intro j l k k' hjl hj hl
    by_cases hji : j = i
    · subst hji
      obtain rfl : P.begin r = k := by simpa using hj
      exact (hapart l k' (by simpa [Function.update_of_ne hjl.symm] using hl)).1
    · have hj' : c.calls j = some k := by simpa [Function.update_of_ne hji] using hj
      by_cases hli : l = i
      · subst hli
        obtain rfl : P.begin r = k' := by simpa using hl
        exact (hapart j k hj').2
      · exact hc.apart j l k k' hjl hj' (by simpa [Function.update_of_ne hli] using hl)

theorem Stable.move (h : O.Stable P ok) {c : Config σ κ} {i : ℕ} {k : κ} {a : α}
    (hc : O.Holds c) (hok : ok c (.move i k a)) (here : c.calls i = some k) :
    O.Holds ⟨(P.step c.shared a k).1, Function.update c.calls i (P.step c.shared a k).2⟩ := by
  obtain ⟨hshared, hown⟩ := h.locally c i k a hc hok here
  refine ⟨hshared, ?_, ?_⟩
  · intro j l hl
    by_cases hj : j = i
    · subst hj
      exact hown l (by simpa using hl)
    · exact (h.interference c i k a j l hc hok here hj
        (by simpa [Function.update_of_ne hj] using hl)).1
  · intro j l x y hjl hx hy
    by_cases hji : j = i
    · subst hji
      have hy' : c.calls l = some y := by simpa [Function.update_of_ne hjl.symm] using hy
      exact ((h.interference c j k a l y hc hok here hjl.symm hy').2 x (by simpa using hx)).1
    · have hx' : c.calls j = some x := by simpa [Function.update_of_ne hji] using hx
      by_cases hli : l = i
      · subst hli
        exact ((h.interference c l k a j x hc hok here hji hx').2 y (by simpa using hy)).2
      · exact hc.apart j l x y hjl hx' (by simpa [Function.update_of_ne hli] using hy)

/-- An annotation that meets its obligations holds in every configuration reached. -/
theorem Stable.holds (h : O.Stable P ok) {c₀ c : Config σ κ} {n : ℕ} (h₀ : O.Holds c₀)
    (hr : Run P ok c₀ n c) : O.Holds c := by
  refine hr.invariant h₀ ?_
  intro c e c' hc hok hs
  cases hs with
  | start free => exact h.start hc hok free
  | move here => exact h.move hc hok here
  | restart hs => exact holds_idle (h.restarts c _ hc hok hs)

end Outline

/-- One entry of a schedule. -/
inductive Action (ρ α : Type*)
  | start (thread : ℕ) (request : ρ)
  | move (thread : ℕ) (answer : α)

namespace Program

variable (P : Program σ κ ρ α)

/-- An entry that is not enabled changes nothing. -/
def act (c : Config σ κ) : Action ρ α → Config σ κ
  | .start i r =>
    match c.calls i with
    | some _ => c
    | none => ⟨c.shared, Function.update c.calls i (some (P.begin r))⟩
  | .move i a =>
    match c.calls i with
    | none => c
    | some k => ⟨(P.step c.shared a k).1, Function.update c.calls i (P.step c.shared a k).2⟩

/-- The configuration a schedule leads to. -/
def exec (c : Config σ κ) (schedule : List (Action ρ α)) : Config σ κ :=
  schedule.foldl P.act c

/-- Every enabled entry of the schedule passes the test where it is taken. -/
def allows (test : Config σ κ → Event κ ρ α → Bool) :
    Config σ κ → List (Action ρ α) → Bool
  | _, [] => true
  | c, .start i r :: rest =>
    (match c.calls i with
      | some _ => true
      | none => test c (.start i r)) && allows test (P.act c (.start i r)) rest
  | c, .move i a :: rest =>
    (match c.calls i with
      | none => true
      | some k => test c (.move i k a)) && allows test (P.act c (.move i a)) rest

variable {P} {c : Config σ κ} {i : ℕ} {k : κ} {r : ρ} {a : α}

theorem act_start (h : c.calls i = none) : P.act c (.start i r) =
    ⟨c.shared, Function.update c.calls i (some (P.begin r))⟩ := by
  simp only [act, h]

theorem act_start_busy (h : c.calls i = some k) : P.act c (.start i r) = c := by
  simp only [act, h]

theorem act_move (h : c.calls i = some k) : P.act c (.move i a) =
    ⟨(P.step c.shared a k).1, Function.update c.calls i (P.step c.shared a k).2⟩ := by
  simp only [act, h]

theorem act_move_idle (h : c.calls i = none) : P.act c (.move i a) = c := by
  simp only [act, h]

/-- A schedule whose entries pass a test, and whose answers are of a kind, is a run of such
steps. -/
theorem run_of_tested {ok : Config σ κ → Event κ ρ α → Prop} {good : α → Prop}
    {test : Config σ κ → Event κ ρ α → Bool}
    (htest : ∀ c e, test c e = true → (∀ i k a, e = .move i k a → good a) → ok c e)
    (schedule : List (Action ρ α)) (hgood : ∀ i a, .move i a ∈ schedule → good a) :
    ∀ c : Config σ κ, P.allows test c schedule = true →
      ∃ n, Run P ok c n (P.exec c schedule) := by
  have step : ∀ {c c' : Config σ κ} {e : Event κ ρ α}, ok c e → Step P c e c' →
      ∀ {rest : List (Action ρ α)}, (∃ n, Run P ok c' n (P.exec c' rest)) →
      ∃ n, Run P ok c n (P.exec c' rest) := by
    rintro c c' e hok hs rest ⟨n, hn⟩
    exact ⟨1 + n, (Run.succ .zero hok hs).trans hn⟩
  induction schedule with
  | nil => exact fun _ _ => ⟨0, .zero⟩
  | cons action rest ih =>
    intro c h
    have ih := ih fun i a ha => hgood i a (List.mem_cons_of_mem _ ha)
    change ∃ n, Run P ok c n (P.exec (P.act c action) rest)
    cases action with
    | start i r =>
      rw [allows, Bool.and_eq_true] at h
      obtain ⟨hok, hrest⟩ := h
      cases hi : c.calls i with
      | none =>
        rw [hi] at hok
        exact step (htest _ _ hok nofun) (act_start hi ▸ .start hi) (ih _ hrest)
      | some k =>
        -- a thread that is busy cannot start another call
        rw [act_start_busy hi] at hrest ⊢
        exact ih c hrest
    | move i a =>
      rw [allows, Bool.and_eq_true] at h
      obtain ⟨hok, hrest⟩ := h
      cases hi : c.calls i with
      | none =>
        -- a thread without a call has no step to make
        rw [act_move_idle hi] at hrest ⊢
        exact ih c hrest
      | some k =>
        rw [hi] at hok
        refine step (htest _ _ hok fun i' k' a' he => ?_) (act_move hi ▸ .move hi) (ih _ hrest)
        obtain ⟨-, -, rfl⟩ := Event.move.inj he
        exact hgood i a List.mem_cons_self

/-- A schedule whose entries pass a test is a run of steps that pass it. -/
theorem run_of_allows {ok : Config σ κ → Event κ ρ α → Prop}
    {test : Config σ κ → Event κ ρ α → Bool} (htest : ∀ c e, test c e = true → ok c e)
    (schedule : List (Action ρ α)) {c : Config σ κ} (h : P.allows test c schedule = true) :
    ∃ n, Run P ok c n (P.exec c schedule) :=
  run_of_tested (fun c e hok _ => htest c e hok) schedule
    (fun _ _ _ => trivial) c h

/-- A schedule of one thread that calls when its last call has returned. -/
theorem run_of_alone (thread : ℕ) (schedule : List (Action ρ α)) {c : Config σ κ}
    (h : P.allows (fun c e => decide (alone thread c e)) c schedule = true) :
    ∃ n, Run P (alone thread) c n (P.exec c schedule) :=
  run_of_allows (fun _ _ => of_decide_eq_true) schedule h

/-- A schedule is a run of steps that are allowed, when every start is and every move under
one of its answers. -/
theorem run_of_answers {ok : Config σ κ → Event κ ρ α → Prop} (schedule : List (Action ρ α))
    (hstart : ∀ c i r, ok c (.start i r))
    (hmove : ∀ i a, .move i a ∈ schedule → ∀ c k, ok c (.move i k a)) (c : Config σ κ) :
    ∃ n, Run P ok c n (P.exec c schedule) := by
  induction schedule generalizing c with
  | nil => exact ⟨0, .zero⟩
  | cons action rest ih =>
    obtain ⟨n, hn⟩ := ih (fun i a ha => hmove i a (List.mem_cons_of_mem _ ha)) (P.act c action)
    have htake : (∃ e, ok c e ∧ Step P c e (P.act c action)) ∨ P.act c action = c := by
      cases action with
      | start i r =>
        cases hi : c.calls i with
        | none => exact .inl ⟨_, hstart c i r, act_start hi ▸ .start hi⟩
        | some k => exact .inr (act_start_busy hi)
      | move i a =>
        cases hi : c.calls i with
        | none => exact .inr (act_move_idle hi)
        | some k =>
          exact .inl ⟨_, hmove i a List.mem_cons_self c k, act_move hi ▸ .move hi⟩
    rcases htake with ⟨e, hok, hs⟩ | hstay
    · exact ⟨1 + n, (Run.succ .zero hok hs).trans hn⟩
    · refine ⟨n, ?_⟩
      change Run P ok c n (P.exec (P.act c action) rest)
      rwa [hstay] at hn ⊢

/-- A schedule is a run within one incarnation. -/
theorem run_exec (c : Config σ κ) (schedule : List (Action ρ α)) :
    ∃ n, Run P withinIncarnation c n (P.exec c schedule) :=
  run_of_answers schedule (fun _ _ _ => trivial) (fun _ _ _ _ _ => trivial) c

end Program

end Interleaving
