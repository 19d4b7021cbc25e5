import PacingFabric.Concurrency.Refinement
import PacingFabric.Model.Lifecycle
import PacingFabric.Theorems.Draining

/-!
# Initializing an object again

The last section of `shutdown` takes the store out of the object without looking at the flags
again. As long as no `initialize` has come in between, nothing that is left may journal. An
`initialize` that does come in between, once another `shutdown` has closed the object, admits new
operations, and the `shutdown` that is late takes their store away.

## Main definitions

* `Orderly`: no `initialize` opens the object between the sections of a `shutdown`.
* `ObjectCall.Journals`, `ObjectCall.Over`: a step that journals, and the storage it finds.

## Main results

* `World.run_lift`: the runs of the coordinator are runs of an object that is initialized once.
* `journals_held`: every step that journals finds the store held and open.
* `journals_skipped`: an operation whose record is dropped.
-/

namespace Pacing

open Interleaving

variable {a : Answers}

/-! ### The calls of the coordinator -/

/-- The configuration without the calls of `initialize`. -/
def ObjectWorld.toWorld (w : ObjectWorld) : World := w.project id ObjectCall.inner

/-- Fewer operations hold their guard than 32 bits can count, and `initialize` opens the object
only when no `shutdown` is between its first section and its last. -/
structure Orderly (w : ObjectWorld) (e : Event ObjectCall ObjectRequest Answers) : Prop where
  few : (w.toWorld.threads Call.guarded).ncard < 2 ^ 32
  alone : ∀ i a, e = .move i .initializeLocked a → w.shared.initialized = false →
    ∀ j, j ≠ i → w.calls j ≠ some (.call .drain) ∧ w.calls j ≠ some (.call .detach)

theorem ObjectCall.inner_map (x : Option Call) : (x.map ObjectCall.call).bind inner = x := by
  cases x <;> rfl

/-- A step that is not the locked section of `initialize`. -/
theorem Orderly.of_ne {w : ObjectWorld} {e : Event ObjectCall ObjectRequest Answers}
    (hfew : (w.toWorld.threads Call.guarded).ncard < 2 ^ 32)
    (h : ∀ i a, e ≠ .move i .initializeLocked a) : Orderly w e :=
  ⟨hfew, fun i a he => absurd he (h i a)⟩

namespace ObjectWorld

theorem toWorld_setThread (w : ObjectWorld) (i : ℕ) (f : Fabric) (x : Option ObjectCall) :
    toWorld ⟨f, Function.update w.calls i x⟩ =
      ⟨f, Function.update w.toWorld.calls i (x.bind ObjectCall.inner)⟩ :=
  Config.project_setThread w i (f, x) id ObjectCall.inner

/-- A thread that is in no call of the coordinator, before and after. -/
theorem toWorld_other (w : ObjectWorld) {i : ℕ} (f : Fabric) {x : Option ObjectCall}
    (hold : (w.calls i).bind ObjectCall.inner = none) (hnew : x.bind ObjectCall.inner = none) :
    toWorld ⟨f, Function.update w.calls i x⟩ = ⟨f, w.toWorld.calls⟩ := by
  rw [toWorld_setThread, hnew, ← hold]
  exact congrArg (Config.mk f) (Function.update_eq_self i w.toWorld.calls)

theorem toWorld_calls {w : ObjectWorld} {i : ℕ} {k : Call} :
    w.toWorld.calls i = some k ↔ w.calls i = some (.call k) := by
  change (w.calls i).bind ObjectCall.inner = some k ↔ _
  rw [Option.bind_eq_some_iff]
  constructor
  · rintro ⟨c, hc, hk⟩
    cases c with
    | call k' =>
      obtain rfl := Option.some.inj hk
      exact hc
    | _ => cases hk
  · exact fun h => ⟨_, h, rfl⟩

end ObjectWorld

theorem draining {w : ObjectWorld} {n : ℕ}
    (h : Run coordinatorObject Orderly ObjectWorld.initial n w) : Draining w.toWorld := by
  have hfirst : Draining ObjectWorld.initial.toWorld := Draining.idle {} {}
  refine Run.invariant (I := fun w : ObjectWorld => Draining w.toWorld) hfirst ?_ h
  intro (w : ObjectWorld) e w' hw hok hs
  cases hs with
  | @start i r free =>
    have hfree : w.toWorld.calls i = none := by
      change (w.calls i).bind ObjectCall.inner = none
      rw [free]
      rfl
    cases r with
    -- `initialize` is in no call of the coordinator, and takes no guard
    | initializeFabric =>
      rw [ObjectWorld.toWorld_other w w.shared hfree (by rfl)]
      exact hw
    | call r =>
      rw [ObjectWorld.toWorld_setThread]
      exact hw.start r hfree
  | @move i k a here =>
    cases k with
    | sample =>
      rw [ObjectWorld.toWorld_other w _ (by rw [here]; rfl) (by rfl)]
      exact hw.sample a.now
    | initializeLocked =>
      rw [ObjectWorld.toWorld_other w _ (by rw [here]; rfl) (by rfl)]
      -- the thread itself is in `initialize`, the others are not in a `shutdown`
      refine hw.start_object fun hclosed j => ?_
      rw [Ne, Ne, ObjectWorld.toWorld_calls, ObjectWorld.toWorld_calls]
      by_cases hj : j = i
      · subst hj
        rw [here]
        exact ⟨by simp, by simp⟩
      · exact hok.alone i a rfl hclosed j hj
    | call k =>
      have hmove := hw.move (a := a) (ObjectWorld.toWorld_calls.2 here) hok.few
      have hnext : (coordinatorObject.step w.shared a (.call k)).2.bind ObjectCall.inner =
          (Call.step w.shared a k).2 := ObjectCall.inner_map _
      rw [ObjectWorld.toWorld_setThread, hnext]
      exact hmove
  | restart hs =>
    obtain ⟨config, rfl⟩ := hs
    exact .idle config w.shared.storage.disk

/-! ### What journals -/

namespace ObjectCall

/-- The next step journals: the call would, or `initialize` gets past opening the files. -/
def Journals (f : Fabric) (a : Answers) : ObjectCall → Prop
  | .sample => False
  | .initializeLocked => f.initialized = false ∧ (Fabric.checkConfig f.config).isOk = true ∧
    ∃ store disk, DurableStore.openStore f.config.limits f.storage.disk a.files.opening =
      (.ok store, disk)
  | .call k => k.Journals f a

/-- The storage that the next step journals over: what `initialize` has just opened, or what the
call finds. -/
def Over (f : Fabric) (a : Answers) : ObjectCall → Storage → Prop
  | .initializeLocked, s => f.storage.OpenedAs f.config.limits a s
  | _, s => s = f.storage

end ObjectCall

/-- Every step that journals does so over a store that is held and open, and it stays so
throughout the step. -/
theorem journals_held {w : ObjectWorld} {n : ℕ}
    (h : Run coordinatorObject Orderly ObjectWorld.initial n w)
    (huses : Fabric.usesDirectory w.shared.config = true) {i : ℕ} {k : ObjectCall}
    (here : w.calls i = some k) (hjournals : k.Journals w.shared a) :
    ∃ s, k.Over w.shared a s ∧ s.Journaled a (ObjectCall.step w.shared a k).1.storage ∧
      ∀ s', s.Journaled a s' → s'.Held := by
  have hthroughout : ∀ {s : Storage}, s.Held → ∀ s', s.Journaled a s' → s'.Held := by
    intro s hs s' hs'
    rw [Storage.held_iff] at hs ⊢
    exact hs'.open.trans hs
  cases k with
  | sample => exact hjournals.elim
  -- recovery journals over the store that this section has just opened
  | initializeLocked =>
    obtain ⟨hclosed, hvalid, store, disk, hopen⟩ := hjournals
    obtain ⟨s, hopened, hjournaled⟩ :=
      Fabric.initializeLocked_opened hclosed hvalid huses hopen
    exact ⟨s, hopened, hjournaled, hthroughout hopened.held⟩
  | call k =>
    have hheld := (draining h).held huses (ObjectWorld.toWorld_calls.2 here) hjournals
    exact ⟨_, rfl, Call.step_journaled hjournals.1, hthroughout hheld⟩

/-! ### The coordinator as an object -/

/-- The steps of one thread are orderly. -/
theorem orderly_of_byThread {f : Fabric} {w : ObjectWorld} {i n : ℕ}
    (h : Run coordinatorObject (byThread i) (.idle f) n w) :
    Run coordinatorObject Orderly (.idle f) n w := by
  refine Run.allow (fun m (d : ObjectWorld) e hrun hok => ?_) h
  have hnone := hrun.others fun _ _ => rfl
  refine ⟨?_, ?_⟩
  · have hsub : d.toWorld.threads Call.guarded ⊆ {i} := by
      intro j hj
      by_contra hne
      have hcalls : d.toWorld.calls j = none := by
        change (d.calls j).bind ObjectCall.inner = none
        rw [hnone j hne]
        rfl
      simp [Config.threads, hcalls] at hj
    calc (d.toWorld.threads Call.guarded).ncard ≤ Set.ncard {i} := Set.ncard_le_ncard hsub
      _ < 2 ^ 32 := by simp
  · rintro j a rfl - l hl
    obtain rfl : j = i := hok
    simp [hnone l hl]

/-- An object that is initialized where no call is in flight. -/
theorem run_initializes (f : Fabric) (a : Answers) :
    ∃ n, Run coordinatorObject Orderly (.idle f) n (.idle (f.initializeFabric a).2) := by
  have hlocal : Relation.ReflTransGen (Local coordinatorObject) (f, none)
      ((f.initializeFabric a).2, none) :=
    .tail (.tail (.single (.start f ObjectRequest.initializeFabric)) (.move f a ObjectCall.sample))
      (.move (f.sample a.now) a ObjectCall.initializeLocked)
  obtain ⟨n, hn⟩ := Run.of_local hlocal (.idle f) 0
  have hidle : ∀ g : Fabric, (Config.idle f : ObjectWorld).setThread 0 (g, none) = .idle g :=
    fun g => congrArg (Config.mk g) (Function.update_eq_self 0 _)
  rw [hidle, hidle] at hn
  exact ⟨n, orderly_of_byThread hn⟩

/-- The coordinator in flight, as an object. -/
def World.lift (w : World) : ObjectWorld := ⟨w.shared, fun i => (w.calls i).map .call⟩

namespace World

theorem lift_update (w : World) (f : Fabric) (i : ℕ) (x : Option Call) :
    lift ⟨f, Function.update w.calls i x⟩ =
      ⟨f, Function.update w.lift.calls i (x.map .call)⟩ := by
  refine congrArg (Config.mk f) (funext fun j => ?_)
  by_cases hj : j = i
  · subst hj
    simp
  · simp [Function.update_of_ne hj, lift]

theorem toWorld_lift (w : World) : w.lift.toWorld = w :=
  congrArg (Config.mk w.shared) (funext fun j => ObjectCall.inner_map (w.calls j))

end World

/-- Fewer operations hold their guard than 32 bits can count. -/
def fewInFlight (w : World) (_ : Event Call Request Answers) : Prop :=
  (w.threads Call.guarded).ncard < 2 ^ 32

/-- A run of the coordinator is a run of objects, each initialized once and before its other
calls. -/
theorem World.run_lift {w : World} {n : ℕ} (h : Run coordinator fewInFlight World.initial n w) :
    ∃ m, Run coordinatorObject Orderly ObjectWorld.initial m w.lift := by
  induction h with
  | zero => exact ⟨0, .zero⟩
  | @succ n w w' e _ hok hs ih =>
    obtain ⟨m, hm⟩ := ih
    have hfew : ((World.lift w).toWorld.threads Call.guarded).ncard < 2 ^ 32 := by
      rw [World.toWorld_lift]
      exact hok
    cases hs with
    | @start i r free =>
      have hs : Step coordinatorObject (World.lift w) (.start i (.call r)) _ :=
        .start (by simp [World.lift, free])
      have hrun := hm.succ (.of_ne hfew (by simp)) hs
      rw [World.lift_update]
      exact ⟨_, hrun⟩
    | @move i k a here =>
      have hs : Step coordinatorObject (World.lift w) (.move i (.call k) a) _ :=
        .move (by simp [World.lift, here])
      have hrun := hm.succ (.of_ne hfew (by simp)) hs
      rw [World.lift_update]
      exact ⟨_, hrun⟩
    | restart hr =>
      obtain ⟨config, a, rfl⟩ := hr
      -- the coordinator starts at once: the object is constructed, then initialized
      have hs : Step coordinatorObject (World.lift w) .restart _ := .restart ⟨config, rfl⟩
      have hrun := hm.succ (.of_ne hfew (by simp)) hs
      obtain ⟨l, hl⟩ := run_initializes (.construct config w.shared.storage.disk) a
      exact ⟨_, hrun.trans hl⟩

/-- So a coordinator that nobody initializes again holds its store at every step that
journals. -/
theorem World.store_held {w : World} {n : ℕ} (h : Run coordinator fewInFlight World.initial n w)
    (huses : Fabric.usesDirectory w.shared.config = true) {i : ℕ} {k : Call}
    (here : w.calls i = some k) (hjournals : k.Journals w.shared a) : w.shared.storage.Held := by
  obtain ⟨m, hm⟩ := World.run_lift h
  have hw := draining hm
  rw [World.toWorld_lift] at hw
  exact hw.held huses here hjournals

/-! ### Concrete objects -/

namespace Scenario

/-- A thread that initializes the object. -/
def initializing (thread : ℕ) : List (Action ObjectRequest Answers) :=
  [.start thread .initializeFabric, .move thread answers, .move thread answers]

/-- A call of a thread and `n` steps of it. -/
def objectCalls (thread : ℕ) (request : Request) (n : ℕ) :
    List (Action ObjectRequest Answers) :=
  .start thread (.call request) :: List.replicate n (.move thread answers)

/-- An object that journals and is not initialized yet. -/
def constructed : ObjectWorld := .idle (Fabric.construct journaling {})

/-- The object is closed and initialized again before a flow is bound. -/
def reopened : List (Action ObjectRequest Answers) :=
  initializing 0 ++ objectCalls 0 .shutdown 3 ++ initializing 0 ++
    objectCalls 0 (.bindFlow binding) 2

/-- Two threads shut the object down. Between the last sections of the two, it is initialized
again, and a binding takes its guard. -/
def lateShutdown : List (Action ObjectRequest Answers) :=
  initializing 0 ++ objectCalls 1 .shutdown 1 ++ objectCalls 2 .shutdown 3 ++ initializing 0 ++
    objectCalls 3 (.bindFlow binding) 2 ++ [.move 1 answers]

def reopenedWorld : ObjectWorld := coordinatorObject.exec constructed reopened

def lateWorld : ObjectWorld := coordinatorObject.exec constructed lateShutdown

/-- The caller is answered with success. -/
def succeeds : Call → Bool
  | .leave (.status status) => status.isOk
  | _ => false

/-- The step binds a flow with success, and journals when the storage is `s`. -/
def binds (s : Storage) (f : Fabric) : ObjectCall → Bool
  | .call (.locked (.bindFlow binding) now) =>
    (Call.step { f with storage := s } answers
      (.locked (.bindFlow binding) now)).1.storage.sequence != s.sequence &&
    (Call.step f answers (.locked (.bindFlow binding) now)).2.any succeeds
  | _ => false

theorem of_succeeds {k : Option Call} (h : k.any succeeds = true) :
    ∃ status, k = some (.leave (.status status)) ∧ status.isOk = true := by
  cases k with
  | none => cases h
  | some k =>
    cases k with
    | leave reply =>
      cases reply with
      | status status => exact ⟨status, rfl, h⟩
      | _ => cases h
    | _ => cases h

theorem of_binds {s : Storage} {f : Fabric} {c : Option ObjectCall}
    (h : c.any (binds s f) = true) : ∃ k : Call, c = some (.call k) ∧ k.guarded = true ∧
      k.Journals f answers ∧
      ∃ status, (Call.step f answers k).2 = some (.leave (.status status)) ∧
        status.isOk = true := by
  cases c with
  | none => cases h
  | some k =>
    cases k with
    | call k =>
      cases k with
      | locked request now =>
        cases request with
        | bindFlow binding =>
          obtain ⟨hwrites, hsucceeds⟩ := Bool.and_eq_true_iff.1 h
          exact ⟨.locked (.bindFlow binding) now, rfl, rfl, ⟨by simp, s,
            fun hsame => bne_iff_ne.1 hwrites (congrArg Storage.sequence hsame)⟩,
            of_succeeds hsucceeds⟩
        | _ => cases h
      | _ => cases h
    | _ => cases h

theorem run_constructed (schedule : List (Action ObjectRequest Answers)) :
    ∃ n, Run coordinatorObject anyStep ObjectWorld.initial n
      (coordinatorObject.exec constructed schedule) := by
  have hfirst : Step coordinatorObject ObjectWorld.initial .restart constructed :=
    .restart ⟨journaling, rfl⟩
  obtain ⟨n, hn⟩ := Program.run_exec (P := coordinatorObject) constructed schedule
  exact ⟨_, (Run.zero.succ trivial hfirst).trans (hn.mono fun _ _ _ => trivial)⟩

end Scenario

/-- An object that has been closed and initialized again holds its store. -/
theorem journals_held_reopened :
    ∃ k, Scenario.reopenedWorld.calls 0 = some k ∧
      k.Journals Scenario.reopenedWorld.shared Scenario.answers ∧
      ∃ s, k.Over Scenario.reopenedWorld.shared Scenario.answers s ∧
        s.Journaled Scenario.answers
          (ObjectCall.step Scenario.reopenedWorld.shared Scenario.answers k).1.storage ∧
        ∀ s', s.Journaled Scenario.answers s' → s'.Held := by
  obtain ⟨n, hn⟩ := Program.run_of_alone (P := coordinatorObject) 0 Scenario.reopened
    (c := Scenario.constructed) (by decide +kernel)
  have hfirst : Step coordinatorObject ObjectWorld.initial .restart Scenario.constructed :=
    .restart ⟨_, rfl⟩
  have hrestart : Orderly ObjectWorld.initial .restart := by
    refine .of_ne ?_ (by simp)
    rw [show ObjectWorld.initial.toWorld = .idle _ from rfl, Config.threads_idle, Set.ncard_empty]
    decide
  obtain ⟨k, hk, -, hj, -⟩ := Scenario.of_binds (c := Scenario.reopenedWorld.calls 0)
    (s := Scenario.reopenedWorld.shared.storage) (f := Scenario.reopenedWorld.shared)
    (by decide +kernel)
  exact ⟨_, hk, hj, journals_held ((Run.zero.succ hrestart hfirst).trans
    (orderly_of_byThread (hn.mono fun _ _ => byThread_of_alone))) (by decide +kernel) hk hj⟩

/-- A `shutdown` that is late takes the store away from an object that has been initialized
again: a binding that holds its guard reports success, and its record is dropped. -/
theorem journals_skipped :
    ∃ n w, Run coordinatorObject anyStep ObjectWorld.initial n w ∧
      Fabric.usesDirectory w.shared.config = true ∧
      ∃ i k a, w.calls i = some (.call k) ∧ k.guarded = true ∧ k.Journals w.shared a ∧
        ¬ w.shared.storage.Held ∧ (Call.step w.shared a k).1.storage = w.shared.storage ∧
        ∃ status, (Call.step w.shared a k).2 = some (.leave (.status status)) ∧
          status.isOk = true := by
  obtain ⟨n, hn⟩ := Scenario.run_constructed Scenario.lateShutdown
  obtain ⟨k, hk, hguarded, hj, hreply⟩ := Scenario.of_binds (c := Scenario.lateWorld.calls 3)
    (s := Scenario.journalingStarted.shared.storage) (f := Scenario.lateWorld.shared)
    (by decide +kernel)
  have hnone : Scenario.lateWorld.shared.storage.durable = none :=
    Option.isNone_iff_eq_none.1 (by decide +kernel)
  refine ⟨n, _, hn, by decide +kernel, 3, k, Scenario.answers, hk, hguarded, hj, ?_,
    (Call.step_journaled hj.1).of_none hnone, hreply⟩
  rintro ⟨store, hstore, -⟩
  cases hnone.symm.trans hstore

end Pacing
