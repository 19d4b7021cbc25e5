import PacingFabric.Concurrency.Interleaving
import Mathlib.Logic.Relation

/-!
# Programs that contain other programs

A program refines another one when each of its threads can be read as a thread of the other,
through a map of the shared states and a map that finds the inner call in a call. A step of the
outer program is any number of steps that the inner thread takes alone, none included.

## Main definitions

* `Local`: the steps of one thread, with the shared state.
* `Refines`: what each step and each restart of the outer program is to the inner one.

## Main results

* `Refines.run`: every run of the outer program is read as a run of the inner one.
* `Refines.run_within`: so is one that starts nothing anew.
-/

namespace Interleaving

variable {σ κ ρ α σ' κ' ρ' α' : Type*}

/-- A step of one thread: it begins a call, or its call takes a step. -/
inductive Local (Q : Program σ κ ρ α) : σ × Option κ → σ × Option κ → Prop
  | start (s : σ) (r : ρ) : Local Q (s, none) (s, some (Q.begin r))
  | move (s : σ) (a : α) (k : κ) : Local Q (s, some k) (Q.step s a k)

namespace Config

/-- The configuration in which a thread is replaced. -/
def setThread (c : Config σ κ) (i : ℕ) (x : σ × Option κ) : Config σ κ :=
  ⟨x.1, Function.update c.calls i x.2⟩

theorem setThread_self (c : Config σ κ) (i : ℕ) : c.setThread i (c.shared, c.calls i) = c := by
  simp only [setThread, Function.update_eq_self]

end Config

/-- What one thread does alone, it does in any configuration. -/
theorem Run.of_local {Q : Program σ κ ρ α} {x y : σ × Option κ}
    (h : Relation.ReflTransGen (Local Q) x y) (c : Config σ κ) (i : ℕ) :
    ∃ n, Run Q (byThread i) (c.setThread i x) n (c.setThread i y) := by
  induction h with
  | refl => exact ⟨0, .zero⟩
  | @tail y z _ hstep ih =>
    obtain ⟨n, hn⟩ := ih
    refine ⟨n + 1, ?_⟩
    cases hstep with
    | start s r =>
      have hs : Step Q (c.setThread i (s, none)) (.start i r) _ :=
        .start (Function.update_self ..)
      have hrun := Run.succ hn (e := .start i r) rfl hs
      rwa [show (c.setThread i (s, none)).calls = Function.update c.calls i none from rfl,
        Function.update_idem] at hrun
    | move s a k =>
      have hs : Step Q (c.setThread i (s, some k)) (.move i k a) _ :=
        .move (Function.update_self ..)
      have hrun := Run.succ hn (e := .move i k a) rfl hs
      rwa [show (c.setThread i (s, some k)).calls = Function.update c.calls i (some k) from rfl,
        Function.update_idem] at hrun

/-- A program that has no restarts runs within one incarnation. -/
theorem Run.within {P : Program σ κ ρ α} {ok : Config σ κ → Event κ ρ α → Prop}
    {c₀ c : Config σ κ} {n : ℕ} (hnone : ∀ s s', ¬ P.restarts s s') (h : Run P ok c₀ n c) :
    Run P withinIncarnation c₀ n c := by
  induction h with
  | zero => exact .zero
  | succ _ _ hs ih =>
    refine .succ ih ?_ hs
    cases hs with
    | restart hr => exact hnone _ _ hr
    | _ => trivial

/-- Each step of the outer program, seen through the two maps, is made of steps of one inner
thread. -/
structure Refines (P : Program σ κ ρ α) (Q : Program σ' κ' ρ' α') (proj : σ → σ')
    (view : κ → Option κ') : Prop where
  begins : ∀ s r, Relation.ReflTransGen (Local Q) (s, none) (s, view (P.begin r))
  steps : ∀ s a k, Relation.ReflTransGen (Local Q) (proj s, view k)
    (proj (P.step s a k).1, (P.step s a k).2.bind view)
  restarts : ∀ s s', P.restarts s s' → Q.restarts (proj s) (proj s')

/-- A configuration of the outer program, as one of the inner program. -/
def Config.project (c : Config σ κ) (proj : σ → σ') (view : κ → Option κ') : Config σ' κ' :=
  ⟨proj c.shared, fun i => (c.calls i).bind view⟩

/-- A thread is replaced on both sides. -/
theorem Config.project_setThread (c : Config σ κ) (i : ℕ) (x : σ × Option κ) (proj : σ → σ')
    (view : κ → Option κ') : (c.setThread i x).project proj view =
      (c.project proj view).setThread i (proj x.1, x.2.bind view) := by
  simp only [setThread, project, mk.injEq, true_and]
  funext j
  by_cases hj : j = i
  · subst hj
    simp only [Function.update_self]
  · simp only [Function.update_of_ne hj]

namespace Refines

variable {P : Program σ κ ρ α} {Q : Program σ' κ' ρ' α'} {proj : σ → σ'} {view : κ → Option κ'}

/-- The inner program starts anew only where the outer one does. -/
theorem step (h : Refines P Q proj view) {c c' : Config σ κ} {e : Event κ ρ α}
    (hs : Step P c e c') :
    ∃ n, Run Q (fun _ e' => e' = .restart → e = .restart) (c.project proj view) n
      (c'.project proj view) := by
  -- the thread that moves is seen before and after, the others stay
  have hthread : ∀ (i : ℕ) (x : σ × Option κ),
      Relation.ReflTransGen (Local Q) (proj c.shared, (c.calls i).bind view)
        (proj x.1, x.2.bind view) →
      ∃ n, Run Q (fun _ e' => e' = .restart → e = .restart) (c.project proj view) n
        ((c.setThread i x).project proj view) := by
    intro i x hlocal
    obtain ⟨n, hn⟩ := Run.of_local hlocal (c.project proj view) i
    rw [show (proj c.shared, (c.calls i).bind view) =
      ((c.project proj view).shared, (c.project proj view).calls i) from rfl,
      Config.setThread_self, ← Config.project_setThread] at hn
    refine ⟨n, hn.mono fun _ e' hwithin he' => ?_⟩
    subst he'
    exact hwithin.elim
  cases hs with
  | @start i r free =>
    refine hthread i (c.shared, some (P.begin r)) ?_
    rw [free]
    exact h.begins (proj c.shared) r
  | @move i k a here =>
    refine hthread i (P.step c.shared a k) ?_
    rw [here]
    exact h.steps c.shared a k
  | restart hr => exact ⟨1, .succ .zero (fun _ => rfl) (.restart (h.restarts _ _ hr))⟩

/-- Every run is read as a run of the inner program, in which whatever starts nothing anew is
allowed when the outer run starts nothing anew. -/
theorem run (h : Refines P Q proj view) {ok : Config σ κ → Event κ ρ α → Prop}
    {ok' : Config σ' κ' → Event κ' ρ' α' → Prop}
    (hok : ∀ c e d e', ok c e → (e' = .restart → e = .restart) → ok' d e')
    {c₀ c : Config σ κ} {n : ℕ} (hrun : Run P ok c₀ n c) :
    ∃ m, Run Q ok' (c₀.project proj view) m (c.project proj view) := by
  induction hrun with
  | zero => exact ⟨0, .zero⟩
  | succ _ hallowed hs ih =>
    obtain ⟨m, hm⟩ := ih
    obtain ⟨k, hk⟩ := h.step hs
    exact ⟨m + k, hm.trans (hk.mono fun _ _ => hok _ _ _ _ hallowed)⟩

/-- A run within one incarnation is read as one. -/
theorem run_within (h : Refines P Q proj view) {c₀ c : Config σ κ} {n : ℕ}
    (hrun : Run P withinIncarnation c₀ n c) :
    ∃ m, Run Q withinIncarnation (c₀.project proj view) m (c.project proj view) := by
  refine h.run (fun _ e _ e' hwithin hsame => ?_) hrun
  cases e' with
  | restart =>
    obtain rfl := hsame rfl
    exact hwithin
  | _ => trivial

end Refines

end Interleaving
