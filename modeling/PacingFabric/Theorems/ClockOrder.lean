import PacingFabric.Concurrency.Interleaving
import PacingFabric.Model.Fabric

/-!
# Sampling the clock from several threads

`sample_clock` reads the injected clock before it takes the lock of the watch, so the
readings of two threads can be folded in the opposite order. Elsewhere a sample is one
step; here it is two, the reading and the fold.

## Main definitions

* `sampling`: any number of threads sampling one clock.
* `inOrder`: no reading is folded while a smaller one is still held.

## Main results

* `trustworthy_iff_inOrder`: under a monotone clock the watch stays trustworthy as long as
  the readings are folded in order.
* `overtaking_regresses`: a reading folded past a smaller one that is still held raises the
  flag.
* `overtaken_reading_regresses`: two threads and a monotone clock that raise the flag.
-/

namespace Pacing

open Interleaving

/-- Where a call of `sample_clock` stands. -/
inductive Sampling
  | read
  | fold (now : Instant)

/-- The watch, and the latest reading the injected clock has answered. -/
structure ClockState where
  watch : ClockWatch := {}
  latest : UInt64 := 0

/-- `sample_clock`: the reading, then the update under the lock. -/
def sampling : Program ClockState Sampling Unit Instant where
  begin _ := .read
  step s now
    | .read => ({ s with latest := now.ns }, some (.fold now))
    | .fold seen => ({ s with watch := s.watch.observe seen }, none)
  restarts _ _ := False

/-- Each reading is at least the one before it, whichever thread took that. -/
def monotoneClock (c : Config ClockState Sampling) : Event Sampling Unit Instant → Prop
  | .move _ .read now => c.shared.latest ≤ now.ns
  | _ => True

/-- A reading is folded only when no call in flight holds a smaller one. -/
def overtakesNone (c : Config ClockState Sampling) : Event Sampling Unit Instant → Prop
  | .move _ (.fold now) _ => ∀ j held, c.calls j = some (.fold held) → now.ns ≤ held.ns
  | _ => True

def inOrder (c : Config ClockState Sampling) (e : Event Sampling Unit Instant) : Prop :=
  monotoneClock c e ∧ overtakesNone c e

theorem ClockWatch.observe_of_le {w : ClockWatch} {now : Instant}
    (h : w.lastObservedNs ≤ now.ns) : w.observe now = { w with lastObservedNs := now.ns } :=
  if_neg (UInt64.not_lt.2 h)

theorem ClockWatch.observe_of_lt {w : ClockWatch} {now : Instant}
    (h : now.ns < w.lastObservedNs) : w.observe now = { w with regressed := true } :=
  if_pos h

theorem ClockWatch.isOk_requireTrustworthy (w : ClockWatch) :
    w.requireTrustworthy.isOk = !w.regressed := by
  unfold requireTrustworthy
  cases w.regressed <;> rfl

/-- No reading in flight is below what the watch has seen. -/
structure Ordered (c : Config ClockState Sampling) : Prop where
  clean : c.shared.watch.regressed = false
  latest : c.shared.watch.lastObservedNs ≤ c.shared.latest
  held : ∀ i now, c.calls i = some (.fold now) →
    c.shared.watch.lastObservedNs ≤ now.ns ∧ now.ns ≤ c.shared.latest

theorem Ordered.step {c c' : Config ClockState Sampling} {e : Event Sampling Unit Instant}
    (h : Ordered c) (hok : inOrder c e) (hs : Step sampling c e c') : Ordered c' := by
  obtain ⟨hmono, hnone⟩ := hok
  cases hs with
  | @start i r free =>
    refine ⟨h.clean, h.latest, fun j now hj => ?_⟩
    by_cases hji : j = i
    · subst hji
      simp [sampling] at hj
    · exact h.held j now (by simpa [Function.update_of_ne hji] using hj)
  | @move i k a here =>
    cases k with
    | read =>
      have hlast := UInt64.le_trans h.latest hmono
      refine ⟨h.clean, hlast, fun j now hj => ?_⟩
      by_cases hji : j = i
      · subst hji
        obtain rfl : a = now := by simpa [sampling] using hj
        exact ⟨hlast, UInt64.le_refl _⟩
      · have hj' := h.held j now (by simpa [Function.update_of_ne hji] using hj)
        exact ⟨hj'.1, UInt64.le_trans hj'.2 hmono⟩
    | fold now =>
      obtain ⟨hlow, hhigh⟩ := h.held i now here
      have hwatch : (sampling.step c.shared a (.fold now)).1.watch =
          { c.shared.watch with lastObservedNs := now.ns } := ClockWatch.observe_of_le hlow
      refine ⟨by rw [hwatch]; exact h.clean, by rw [hwatch]; exact hhigh, fun j held hj => ?_⟩
      by_cases hji : j = i
      · subst hji
        simp [sampling] at hj
      · have hj' : c.calls j = some (.fold held) := by
          simpa [Function.update_of_ne hji] using hj
        rw [hwatch]
        exact ⟨hnone j held hj', (h.held j held hj').2⟩
  | restart hr => exact hr.elim

/-- The flag is up, or a reading in flight will raise it. -/
def Overtaken (c : Config ClockState Sampling) : Prop :=
  c.shared.watch.regressed = true ∨
    ∃ i now, c.calls i = some (.fold now) ∧ now.ns < c.shared.watch.lastObservedNs

theorem ClockWatch.regressed_observe {w : ClockWatch} (h : w.regressed = true)
    (now : Instant) : (w.observe now).regressed = true := by
  unfold observe
  split_ifs <;> simp [h]

/-- Folding a reading either raises the flag or moves the watch to that reading. -/
theorem ClockWatch.observe_cases (w : ClockWatch) (now : Instant) :
    (w.observe now).regressed = true ∨
      w.lastObservedNs ≤ now.ns ∧ (w.observe now).lastObservedNs = now.ns := by
  by_cases h : now.ns < w.lastObservedNs
  · exact .inl (by rw [observe_of_lt h])
  · exact .inr ⟨UInt64.not_lt.1 h, by rw [observe_of_le (UInt64.not_lt.1 h)]⟩

theorem Overtaken.step {c c' : Config ClockState Sampling} {e : Event Sampling Unit Instant}
    (h : Overtaken c) (hs : Step sampling c e c') : Overtaken c' := by
  cases hs with
  | @start i r free =>
    refine h.imp id ?_
    rintro ⟨j, now, hj, hlt⟩
    have hji : j ≠ i := by
      rintro rfl
      simp [free] at hj
    exact ⟨j, now, by simpa [Function.update_of_ne hji] using hj, hlt⟩
  | @move i k a here =>
    cases k with
    | read =>
      refine h.imp id ?_
      rintro ⟨j, now, hj, hlt⟩
      have hji : j ≠ i := by
        rintro rfl
        simp [here] at hj
      exact ⟨j, now, by simpa [Function.update_of_ne hji] using hj, hlt⟩
    | fold now =>
      rcases h with hreg | ⟨j, held, hj, hlt⟩
      · exact .inl (ClockWatch.regressed_observe hreg now)
      · rcases c.shared.watch.observe_cases now with hreg | ⟨hle, hlast⟩
        · exact .inl hreg
        · have hji : j ≠ i := by
            rintro rfl
            obtain rfl : now = held := by simpa [here] using hj
            exact UInt64.not_lt.2 hle hlt
          refine .inr ⟨j, held, by simpa [Function.update_of_ne hji] using hj, ?_⟩
          change held.ns < (c.shared.watch.observe now).lastObservedNs
          rw [hlast]
          exact UInt64.lt_of_lt_of_le hlt hle
  | restart hr => exact hr.elim

/-- Folding past a smaller reading that is still held. -/
theorem overtaken_of_step {c c' : Config ClockState Sampling} {e : Event Sampling Unit Instant}
    (h : ¬ overtakesNone c e) (hs : Step sampling c e c') : Overtaken c' := by
  cases hs with
  | start _ => exact absurd trivial h
  | restart hr => exact hr.elim
  | @move i k a here =>
    cases k with
    | read => exact absurd trivial h
    | fold now =>
      obtain ⟨j, held, hj, hlt⟩ : ∃ j held, c.calls j = some (.fold held) ∧
          held.ns < now.ns := by
        simpa [overtakesNone, UInt64.not_le] using h
      have hji : j ≠ i := by
        rintro rfl
        obtain rfl : now = held := by simpa [here] using hj
        exact UInt64.lt_irrefl _ hlt
      rcases c.shared.watch.observe_cases now with hreg | ⟨_, hlast⟩
      · exact .inl hreg
      · refine .inr ⟨j, held, by simpa [Function.update_of_ne hji] using hj, ?_⟩
        change held.ns < (c.shared.watch.observe now).lastObservedNs
        rwa [hlast]

theorem inOrder_or_overtaken {c₀ c : Config ClockState Sampling} {n : ℕ}
    (h : Run sampling monotoneClock c₀ n c) :
    Run sampling inOrder c₀ n c ∨ Overtaken c := by
  induction h with
  | zero => exact .inl .zero
  | @succ n c c' e _ hok hs ih =>
    rcases ih with ih | ih
    · by_cases hnone : overtakesNone c e
      · exact .inl (.succ ih ⟨hok, hnone⟩ hs)
      · exact .inr (overtaken_of_step hnone hs)
    · exact .inr (ih.step hs)

theorem Overtaken.run {c c' : Config ClockState Sampling} {n : ℕ} (h : Overtaken c)
    (hrun : Run sampling monotoneClock c n c') : Overtaken c' :=
  hrun.invariant h fun _ _ _ hc _ hs => hc.step hs

theorem Overtaken.regressed {c : Config ClockState Sampling} (h : Overtaken c)
    (hquiet : c.Quiet) : c.shared.watch.regressed = true := by
  rcases h with hreg | ⟨i, now, hi, -⟩
  · exact hreg
  · simp [hquiet i] at hi

/-- Once a reading has been folded past a smaller one that is still held, the flag is up by the
time all samples have returned. -/
theorem overtaking_regresses {c c' d : Config ClockState Sampling}
    {e : Event Sampling Unit Instant} {n : ℕ} (hstep : Step sampling c e c')
    (hovertakes : ¬ overtakesNone c e) (hrun : Run sampling monotoneClock c' n d)
    (hquiet : d.Quiet) : d.shared.watch.requireTrustworthy.isOk = false := by
  have hregressed := ((overtaken_of_step hovertakes hstep).run hrun).regressed hquiet
  simp [ClockWatch.isOk_requireTrustworthy, hregressed]

/-- Under a monotone clock the watch is trustworthy in every state reached by folding the
readings in order; and when all samples have returned and it is trustworthy, a run that folds
them in order ends in the same configuration. -/
theorem trustworthy_iff_inOrder {c : Config ClockState Sampling} {n : ℕ}
    (h : Run sampling monotoneClock (.idle {}) n c) :
    (Run sampling inOrder (.idle {}) n c →
        c.shared.watch.requireTrustworthy.isOk = true) ∧
      (c.Quiet → c.shared.watch.requireTrustworthy.isOk = true →
        Run sampling inOrder (.idle {}) n c) := by
  constructor
  · intro hrun
    have hord : Ordered c := by
      refine hrun.invariant ⟨rfl, UInt64.le_refl _, fun i now hi => ?_⟩
        fun c e c' hc hok hs => hc.step hok hs
      simp [Config.idle] at hi
    simp [ClockWatch.isOk_requireTrustworthy, hord.clean]
  · intro hquiet hok
    rcases inOrder_or_overtaken h with hrun | hovertaken
    · exact hrun
    · simp [ClockWatch.isOk_requireTrustworthy, hovertaken.regressed hquiet] at hok

/-- Two threads sample; `first` folds before the other one. -/
def twoSamples (first second : ℕ) : List (Action Unit Instant) :=
  [.start 0 (), .start 1 (), .move 0 ⟨1⟩, .move 1 ⟨2⟩, .move first {}, .move second {}]

theorem monotone_twoSamples (first second : ℕ)
    (h : sampling.allows (fun c e => match e with
      | .move _ .read now => decide (c.shared.latest ≤ now.ns)
      | _ => true) (.idle {}) (twoSamples first second) = true) :
    ∃ n, Run sampling monotoneClock (.idle {}) n
      (sampling.exec (.idle {}) (twoSamples first second)) := by
  refine Program.run_of_allows (fun c e htest => ?_) _ h
  cases e with
  | move i k now =>
    cases k with
    | read => simpa [monotoneClock] using htest
    | fold _ => trivial
  | _ => trivial

theorem trustworthy_iff_inOrder_twoSamples :
    ∃ n, Run sampling inOrder (.idle {}) n (sampling.exec (.idle {}) (twoSamples 0 1)) := by
  obtain ⟨n, hn⟩ := monotone_twoSamples 0 1 (by decide +kernel)
  refine ⟨n, (trustworthy_iff_inOrder hn).2 (fun i => ?_) (by decide +kernel)⟩
  match i with
  | 0 => rfl
  | 1 => rfl
  | _ + 2 => rfl

/-- The reading taken first is folded last: a monotone clock raises the flag. -/
theorem overtaken_reading_regresses :
    (∃ n, Run sampling monotoneClock (.idle {}) n
        (sampling.exec (.idle {}) (twoSamples 1 0))) ∧
      (sampling.exec (.idle {}) (twoSamples 1 0)).shared.watch.regressed = true ∧
      (sampling.exec (.idle {}) (twoSamples 1 0)).shared.watch.requireTrustworthy.isOk =
        false :=
  ⟨monotone_twoSamples 1 0 (by decide +kernel), by decide +kernel, by decide +kernel⟩

end Pacing
