import PacingFabric.Concurrency.Refinement
import PacingFabric.Model.Server
import PacingFabric.Theorems.Closed
import PacingFabric.Theorems.Protocol

/-!
# The layers of the control plane

The server runs dispatches, and a dispatch runs an operation of the coordinator. Seen from the
coordinator, a thread of the server is a caller of its public interface: whatever the peers
send, over any number of connections, the coordinator goes through one of its own runs.

## Main definitions

* `Dispatch.call`, `Serving.inner`: the call a thread has in progress one layer below.

## Main results

* `control_refines`, `server_refines`: each layer refines the one below it.
* `served_reachable`: what the server makes of a coordinator, its own callers can make of it.
-/

namespace Pacing

open Interleaving Relation

/-- The operation a dispatch is in. -/
def Dispatch.call : Dispatch → Option Call
  | .operate _ call => some call
  | _ => none

/-- The dispatch a thread of the server is in. -/
def Serving.inner : Serving → Option Dispatch
  | .dispatch _ _ _ d => some d
  | _ => none

/-! ### Dispatches over the coordinator -/

variable {f : Fabric} {a : Answers}

/-- `explain` samples the clock, if it changes anything. -/
theorem Fabric.fetchAuthority_snd (flow : FlowId) :
    (f.fetchAuthority a flow).2 = f ∨ (f.fetchAuthority a flow).2 = f.sample a.now := by
  unfold fetchAuthority
  dsimp only
  split
  · exact .inl rfl
  split
  · exact .inl rfl
  split
  · exact .inl rfl
  split <;> exact .inr rfl

/-- Any caller may sample the clock: `current_tick` does nothing else. -/
theorem local_sample (f : Fabric) (a : Answers) :
    ReflTransGen (Local coordinator) (f, none) (f.sample a.now, none) :=
  .tail (.tail (.tail .refl (.start f .currentTick)) (.move f a (Call.sample .currentTick)))
    (.move (f.sample a.now) a (Call.locked .currentTick a.now))

theorem local_inspect (limits : Limits) (r : ControlRequest) (flow : FlowId) :
    ReflTransGen (Local coordinator) (f, none)
      ((Dispatch.step limits f a (.inspect r flow)).1,
        (Dispatch.step limits f a (.inspect r flow)).2.bind Dispatch.call) := by
  by_cases hop : r.op = .explain
  · have hfst : (Dispatch.step limits f a (.inspect r flow)).1 = (f.fetchAuthority a flow).2 := by
      simp only [Dispatch.step, hop]
      split <;> rfl
    have hsnd : (Dispatch.step limits f a (.inspect r flow)).2.bind Dispatch.call = none := by
      simp only [Dispatch.step, hop]
      split <;> rfl
    rw [hfst, hsnd]
    rcases Fabric.fetchAuthority_snd (f := f) (a := a) flow with hsame | hsample
    · rw [hsame]
    · rw [hsample]
      exact local_sample f a
  · have hstep : Dispatch.step limits f a (.inspect r flow) =
        (f, some (.readBack r (.status .success))) := by
      simp only [Dispatch.step]
    rw [hstep]
    exact .refl

/-- A look at the state goes on to its response. -/
theorem Dispatch.inspect_some (limits : Limits) (r : ControlRequest) (flow : FlowId) :
    ∃ d, (Dispatch.step limits f a (.inspect r flow)).2 = some d := by
  simp only [Dispatch.step]
  split
  · split <;> exact ⟨_, rfl⟩
  · exact ⟨_, rfl⟩

/-- The dispatches of a control plane are callers of its coordinator. -/
theorem control_refines (limits : Limits) :
    Refines (control limits) coordinator id Dispatch.call where
  begins s r := by
    have hnone : ((control limits).begin r).call = none := by
      change (Dispatch.begin r).call = none
      unfold Dispatch.begin
      split <;> rfl
    rw [hnone]
  steps f a d := by
    change ReflTransGen (Local coordinator) (f, d.call)
      ((Dispatch.step limits f a d).1, (Dispatch.step limits f a d).2.bind Dispatch.call)
    cases d with
    | check r =>
      have hnone : (Dispatch.step limits f a (.check r)).2.bind Dispatch.call = none := by
        simp only [Dispatch.step, Option.bind_some]
        repeat' split
        all_goals rfl
      rw [hnone]
      exact .refl
    | checkBoot r =>
      have hnone : (Dispatch.step limits f a (.checkBoot r)).2.bind Dispatch.call = none := by
        simp only [Dispatch.step, Option.bind_some]
        split <;> rfl
      rw [hnone]
      exact .refl
    | decode r =>
      simp only [Dispatch.step, Option.bind_some]
      split
      · rename_i request _
        exact .single (.start f request)
      · exact .refl
      · exact .refl
    | operate r call =>
      -- the one step in which the coordinator moves
      have hnext : (Dispatch.step limits f a (.operate r call)).2.bind Dispatch.call =
          (Call.step f a call).2 := by
        simp only [Dispatch.step, Option.bind_some]
        split <;> (rename_i hcall; rw [hcall]; rfl)
      rw [hnext]
      exact .single (.move f a call)
    | inspect r flow => exact local_inspect limits r flow
    | readBack r reply => exact .refl
    | respond response => exact .refl
  restarts s s' h := h

/-! ### Connections over dispatches -/

/-- What follows a frame is a fresh dispatch or none. -/
theorem Serving.received_inner (config : ServerConfig) (session : Session) (frame : Frame) :
    (received config session frame).inner = none ∨
      ∃ r, (received config session frame).inner = some (Dispatch.begin r) := by
  unfold received
  split
  · exact .inl rfl
  · exact .inl rfl
  · exact .inl rfl
  · exact .inr ⟨_, rfl⟩

theorem Serving.responded_inner (session : Session) (sent : Bool) (after : After) :
    (responded session sent after).inner = none := by
  cases after <;> cases sent <;> rfl

theorem Serving.stopped_inner (session : Option Session) :
    (stopped session).bind Serving.inner = none := by
  cases session <;> rfl

/-- The threads of the server are callers of its control plane. -/
theorem server_refines (config : ServerConfig) :
    Refines (server config) (control config.limits) Server.fabric Serving.inner where
  begins s r := by cases r <;> exact .refl
  steps s a k := by
    change ReflTransGen (Local (control config.limits)) (s.fabric, k.inner)
      ((Serving.step config s a k).1.fabric, (Serving.step config s a k).2.bind Serving.inner)
    cases k with
    | receive session =>
      -- a frame may begin a dispatch
      simp only [Serving.step, Option.bind_some]
      split
      · exact .refl
      · rename_i frame _
        rcases Serving.received_inner config session frame with hnone | ⟨r, hsome⟩
        · rw [hnone]
          exact .refl
        · rw [hsome]
          exact .single (.start s.fabric r)
    | dispatch session requestId request d =>
      have hnext : (Serving.step config s a (.dispatch session requestId request d)).2.bind
          Serving.inner = (Dispatch.step config.limits s.fabric a.fabric d).2 := by
        cases d with
        | inspect r flow =>
          obtain ⟨d, hd⟩ := Dispatch.inspect_some (f := s.fabric) (a := a.fabric) config.limits
            r flow
          simp only [Serving.step, hd, Option.bind_some]
          rfl
        | _ => rfl
      rw [hnext]
      exact .single (.move s.fabric a.fabric d)
    | start =>
      simp only [Serving.step]
      split <;> exact .refl
    | accept =>
      simp only [Serving.step]
      split <;> exact .refl
    | refused =>
      simp only [Serving.step]
      split <;> exact .refl
    | enlist i =>
      simp only [Serving.step]
      split <;> exact .refl
    | idle =>
      simp only [Serving.step]
      split <;> exact .refl
    | begin =>
      simp only [Serving.step]
      split <;> exact .refl
    | respond session requestId fault response after =>
      simp only [Serving.step, Option.bind_some, Serving.responded_inner]
      exact .refl
    | stop session =>
      simp only [Serving.step]
      split
      · rw [Serving.stopped_inner]
        exact .refl
      · exact .refl
    | closeConnections todo session =>
      cases todo with
      | nil =>
        simp only [Serving.step, Serving.stopped_inner]
        exact .refl
      | cons i rest => exact .refl
    | _ => exact .refl
  restarts s s' h := h.elim

/-- Whatever is sent to a server over any number of connections, its coordinator is where its
own callers could have brought it within one incarnation, and so is each operation a dispatch
has in progress. -/
theorem served_reachable (config : ServerConfig) {f : Fabric} {n : ℕ}
    {c : Config Server Serving}
    (h : Run (server config) anyStep (.idle (.initial f)) n c) :
    ∃ m w, Run coordinator withinIncarnation (.idle f) m w ∧ w.shared = c.shared.fabric ∧
      ∀ i session requestId request r call,
        c.calls i = some (.dispatch session requestId request (.operate r call)) →
        w.calls i = some call := by
  obtain ⟨m, hm⟩ := (server_refines config).run_within (h.within fun _ _ hr => hr)
  obtain ⟨m', hm'⟩ := (control_refines config.limits).run_within hm
  refine ⟨m', _, hm', rfl, ?_⟩
  intro i session requestId request r call hi
  simp only [Config.project, hi]
  rfl

namespace Scenario

/-- A peer that has introduced itself and asked for a new epoch. -/
def advancingPeer : ControlClient :=
  ((client.sendHello [97] 200).2.sendRequest .advanceEpoch []
    { epoch := started.shared.epoch.value } 200).2

/-- The steps of a thread of a server that such a peer connects to. -/
def serves (thread n : ℕ) : List (Action ServerRequest ServerAnswers) :=
  List.replicate n (.move thread
    { fabric := answers, accepted := some advancingPeer.connection.outgoing, room := 200 })

/-- The peer is accepted and served as far as the new epoch. -/
def servedAdvance : List (Action ServerRequest ServerAnswers) :=
  .start 0 .start :: serves 0 1 ++ .start 0 .run :: serves 0 3 ++ .start 1 .serve :: serves 1 13

end Scenario

set_option maxRecDepth 20000 in
/-- A peer moved the epoch, and so could a caller of the coordinator. -/
theorem served_reachable_advance :
    ∃ m w, Run coordinator withinIncarnation Scenario.started m w ∧
      w.shared.epoch.value = Scenario.started.shared.epoch.value + 1 := by
  obtain ⟨n, hn⟩ := (server {}).run_exec (.idle (.initial Scenario.started.shared))
    Scenario.servedAdvance
  have hadvanced : ((server {}).exec (.idle (.initial Scenario.started.shared))
      Scenario.servedAdvance).shared.fabric.epoch.value =
        Scenario.started.shared.epoch.value + 1 := by decide +kernel
  obtain ⟨m, w, hm, hshared, -⟩ := served_reachable {} (hn.mono fun _ _ _ => trivial)
  exact ⟨m, w, hm, (congrArg (fun f : Fabric => f.epoch.value) hshared).trans hadvanced⟩

end Pacing
