import PacingFabric.Model.Server

/-!
# The pool of connections

The server counts the connections it has admitted and serves each of them on a thread of its
own. The count is what bounds the pool, and `run` returns once it is back at zero.

## Main definitions

* `Serving.owns`, `Serving.admitted`: the connection a thread handles, and whether the pool
  counts it.
* `Serving.Handles`: what a step does to the pool.

## Main results

* `Serving.step_handles`: every step of a thread is one of these.
* `pool_consistent`: over every run the pool holds at most as many connections as configured,
  each of them handled by exactly one thread.
* `run_drained`: when `run` is about to return, no connection is served any more.
-/

namespace Pacing

open Interleaving

namespace Serving

/-- The connection a thread handles. -/
def owns : Serving → Option ℕ
  | .enlist i | .spawn i | .discard i => some i
  | .receive session | .welcomeEpoch session _ | .welcomeBoot session _ _
  | .welcomeRunning session _ _ _ | .dispatch session _ _ _ | .respond session _ _ _ _
  | .finish session | .leave session => some session.connection
  | .stop session | .closeListener _ session | .closeConnections _ session =>
    session.map Session.connection
  | .start | .accept | .refused | .idle | .closeRun | .begin => none

/-- The pool counts the connection the thread handles. -/
def admitted : Serving → Bool
  | .enlist _ | .discard _ => false
  | _ => true

/-- The parts of the server that the pool consists of are the same. -/
def SamePool (s s' : Server) : Prop :=
  s'.connections = s.connections ∧ s'.active = s.active ∧ s'.spawned = s.spawned ∧
    s'.accepted = s.accepted

/-- What a step of a thread does to the pool. -/
inductive Handles (config : ServerConfig) (s : Server) : Serving → Server → Option Serving → Prop
  | goes {k s' next} (same : SamePool s s') (owns : next.bind Serving.owns = k.owns)
      (admitted : ∀ k', next = some k' → k'.owns ≠ none → k'.admitted = k.admitted) :
      Handles config s k s' next
  | accepts {s'} (accepted : s'.accepted = s.accepted + 1)
      (same : SamePool s { s' with accepted := s.accepted }) :
      Handles config s .accept s' (some (.enlist s.accepted))
  | admits {i s'} (running : s.stopping = false) (room : s.active < config.maxConnections.toNat)
      (connections : s'.connections = s.connections ++ [i]) (active : s'.active = s.active + 1)
      (spawned : s'.spawned = s.spawned) (accepted : s'.accepted = s.accepted) :
      Handles config s (.enlist i) s' (some (.spawn i))
  | spawns {i s'} (spawned : s'.spawned = s.spawned ++ [i])
      (same : SamePool s { s' with spawned := s.spawned }) :
      Handles config s (.spawn i) s' (some .accept)
  | discards {i s'} (same : SamePool s s') : Handles config s (.discard i) s' (some .accept)
  | begins {i s'} (spawned : s.spawned = i :: s'.spawned)
      (same : SamePool s { s' with spawned := s.spawned }) :
      Handles config s .begin s' (some (.receive { connection := i }))
  | leaves {session s'} (connections : s'.connections = s.connections.erase session.connection)
      (active : s'.active = s.active - 1) (spawned : s'.spawned = s.spawned)
      (accepted : s'.accepted = s.accepted) : Handles config s (.leave session) s' none

variable {config : ServerConfig} {s : Server} {a : ServerAnswers}

theorem received_owns (session : Session) (frame : Frame) :
    (received config session frame).owns = some session.connection ∧
      (received config session frame).admitted = true := by
  unfold received
  split <;> exact ⟨rfl, rfl⟩

theorem responded_owns (session : Session) (sent : Bool) (after : After) :
    (responded session sent after).owns = some session.connection ∧
      (responded session sent after).admitted = true := by
  cases after <;> cases sent <;> exact ⟨rfl, rfl⟩

/-- A thread that goes on with its connection, the pool being the same. -/
theorem Handles.on {k k' : Serving} {s' : Server} (same : SamePool s s') (howns : k'.owns = k.owns)
    (hadmitted : k'.admitted = k.admitted) : Handles config s k s' (some k') :=
  .goes same howns fun _ h _ => Option.some.inj h ▸ hadmitted

theorem Handles.stopped (session : Option Session) {k : Serving} {s' : Server}
    (same : SamePool s s') (howns : k.owns = session.map Session.connection)
    (hadmitted : k.admitted = true) : Handles config s k s' (stopped session) := by
  cases session with
  | none => exact .goes same howns.symm fun _ h _ => by cases h
  | some session => exact .on same howns.symm hadmitted.symm

/-- Every step of a thread is one of these. -/
theorem step_handles (k : Serving) :
    Handles config s k (step config s a k).1 (step config s a k).2 := by
  have hsame : SamePool s s := ⟨rfl, rfl, rfl, rfl⟩
  cases k with
  | start =>
    simp only [step]
    split <;> exact .goes ⟨rfl, rfl, rfl, rfl⟩ rfl fun _ h _ => by cases h
  | accept =>
    simp only [step]
    split
    · exact .accepts rfl ⟨rfl, rfl, rfl, rfl⟩
    · exact .on hsame rfl rfl
  | refused =>
    simp only [step]
    split <;> exact .on hsame rfl rfl
  | enlist i =>
    simp only [step]
    split
    · rename_i hroom
      simp only [Bool.and_eq_true, Bool.not_eq_true', decide_eq_true_eq] at hroom
      exact .admits hroom.1 hroom.2 rfl rfl rfl rfl
    · exact .on hsame rfl rfl
  | spawn i => exact .spawns rfl ⟨rfl, rfl, rfl, rfl⟩
  | discard i => exact .discards ⟨rfl, rfl, rfl, rfl⟩
  | idle =>
    simp only [step]
    split <;> exact .on hsame rfl rfl
  | closeRun => exact .goes ⟨rfl, rfl, rfl, rfl⟩ rfl fun _ h _ => by cases h
  | begin =>
    simp only [step]
    split
    · exact .goes hsame rfl fun _ h _ => by cases h
    · rename_i i rest hspawned
      exact .begins hspawned ⟨rfl, rfl, rfl, rfl⟩
  | receive session =>
    simp only [step]
    split
    · exact .on ⟨rfl, rfl, rfl, rfl⟩ rfl rfl
    · rename_i frame _
      exact .on ⟨rfl, rfl, rfl, rfl⟩ (received_owns session frame).1 (received_owns session frame).2
  | dispatch session requestId request d =>
    simp only [step]
    split <;> exact .on ⟨rfl, rfl, rfl, rfl⟩ rfl rfl
  | respond session requestId fault response after =>
    obtain ⟨howns, hadmitted⟩ := responded_owns session
      ((s.sockets session.connection).sendResponse config.limits requestId fault response
        a.room).1.isOk after
    exact .on ⟨rfl, rfl, rfl, rfl⟩ howns hadmitted
  | leave session => exact .leaves rfl rfl rfl rfl
  | stop session =>
    simp only [step]
    split
    · exact .stopped session hsame rfl rfl
    · exact .on ⟨rfl, rfl, rfl, rfl⟩ rfl rfl
  | closeConnections todo session =>
    cases todo with
    | nil => exact .stopped session hsame rfl rfl
    | cons i rest => exact .on ⟨rfl, rfl, rfl, rfl⟩ rfl rfl
  | _ => exact .on ⟨rfl, rfl, rfl, rfl⟩ rfl rfl

end Serving

/-! ### The invariant -/

/-- The count is that of the connections in the pool, which were all accepted; those that wait
for their thread are among them. -/
structure Server.Pooled (config : ServerConfig) (s : Server) : Prop where
  active : s.active = s.connections.length
  bounded : s.active ≤ config.maxConnections.toNat
  nodup : s.connections.Nodup
  spawned : s.spawned.Nodup
  waiting : ∀ i ∈ s.spawned, i ∈ s.connections
  accepted : ∀ i ∈ s.connections, i < s.accepted

/-- The connection of a thread was accepted, waits for no other thread, and is in the pool once
it is admitted. -/
structure Serving.Held (s : Server) (k : Serving) : Prop where
  accepted : ∀ i, k.owns = some i → i < s.accepted
  taken : ∀ i, k.owns = some i → i ∉ s.spawned
  counted : ∀ i, k.owns = some i → (i ∈ s.connections ↔ k.admitted = true)

section
variable {config : ServerConfig} {s s' : Server} {k l : Serving} {next : Option Serving}

theorem Server.Pooled.congr (h : s.Pooled config) (same : Serving.SamePool s s') :
    s'.Pooled config := by
  obtain ⟨hconnections, hactive, hspawned, haccepted⟩ := same
  refine ⟨?_, ?_, ?_, ?_, ?_, ?_⟩
  · rw [hactive, hconnections]
    exact h.active
  · rw [hactive]
    exact h.bounded
  · rw [hconnections]
    exact h.nodup
  · rw [hspawned]
    exact h.spawned
  · rw [hspawned, hconnections]
    exact h.waiting
  · rw [hconnections, haccepted]
    exact h.accepted

theorem Serving.Held.congr (h : k.Held s) (same : SamePool s s') (howns : l.owns = k.owns)
    (hadmitted : k.owns ≠ none → l.admitted = k.admitted) : l.Held s' := by
  obtain ⟨hconnections, -, hspawned, haccepted⟩ := same
  refine ⟨fun i hi => ?_, fun i hi => ?_, fun i hi => ?_⟩ <;> rw [howns] at hi
  · rw [haccepted]
    exact h.accepted i hi
  · rw [hspawned]
    exact h.taken i hi
  · rw [hconnections, hadmitted (by rw [hi]; exact Option.some_ne_none i)]
    exact h.counted i hi

theorem Serving.Held.of_none (h : k.owns = none) : k.Held s := by
  refine ⟨fun i hi => ?_, fun i hi => ?_, fun i hi => ?_⟩
  all_goals
    rw [h] at hi
    cases hi

theorem Serving.Held.of_some {i : ℕ} (h : k.owns = some i) (haccepted : i < s.accepted)
    (htaken : i ∉ s.spawned) (hcounted : i ∈ s.connections ↔ k.admitted = true) : k.Held s := by
  refine ⟨fun j hj => ?_, fun j hj => ?_, fun j hj => ?_⟩
  all_goals
    obtain rfl : i = j := Option.some.inj (h.symm.trans hj)
    assumption

/-- A step keeps the pool consistent and holds the connection it goes on with. -/
theorem Serving.Handles.locally (h : Handles config s k s' next) (hs : s.Pooled config)
    (hk : k.Held s) : s'.Pooled config ∧ ∀ k', next = some k' → k'.Held s' := by
  cases h with
  | goes same howns hadmitted =>
    refine ⟨hs.congr same, ?_⟩
    rintro k' rfl
    exact hk.congr same howns fun hne =>
      hadmitted k' rfl (by rwa [show k'.owns = k.owns from howns])
  | accepts haccepted same =>
    have hfresh : s.accepted ∉ s.connections := fun hmem => Nat.lt_irrefl _ (hs.accepted _ hmem)
    obtain ⟨hconnections, hactive, hspawned, -⟩ := same
    dsimp only at hconnections hactive hspawned
    refine ⟨⟨?_, ?_, ?_, ?_, ?_, fun i hi => ?_⟩, ?_⟩
    · rw [hactive, hconnections]
      exact hs.active
    · rw [hactive]
      exact hs.bounded
    · rw [hconnections]
      exact hs.nodup
    · rw [hspawned]
      exact hs.spawned
    · rw [hspawned, hconnections]
      exact hs.waiting
    · rw [hconnections] at hi
      rw [haccepted]
      exact Nat.lt_succ_of_lt (hs.accepted i hi)
    · rintro k' ⟨⟩
      refine .of_some rfl (by rw [haccepted]; exact Nat.lt_succ_self _) ?_ ?_
      · rw [hspawned]
        exact fun hmem => hfresh (hs.waiting _ hmem)
      · rw [hconnections]
        exact iff_of_false hfresh Bool.false_ne_true
  | @admits i _ hrunning hroom hconnections hactive hspawned haccepted =>
    have hout : i ∉ s.connections := fun hmem => Bool.false_ne_true ((hk.counted i rfl).1 hmem)
    refine ⟨⟨?_, ?_, ?_, ?_, fun j hj => ?_, fun j hj => ?_⟩, ?_⟩
    · rw [hactive, hconnections, List.length_append, hs.active]
      rfl
    · rw [hactive]
      exact hroom
    · rw [hconnections]
      exact List.nodup_append.2 ⟨hs.nodup, List.nodup_singleton i, fun x hx y hy => by
        rintro rfl
        exact hout (List.mem_singleton.1 hy ▸ hx)⟩
    · rw [hspawned]
      exact hs.spawned
    · rw [hspawned] at hj
      rw [hconnections]
      exact List.mem_append_left _ (hs.waiting j hj)
    · rw [hconnections] at hj
      rw [haccepted]
      rcases List.mem_append.1 hj with hj | hj
      · exact hs.accepted j hj
      · exact List.mem_singleton.1 hj ▸ hk.accepted i rfl
    · rintro k' ⟨⟩
      refine .of_some rfl (by rw [haccepted]; exact hk.accepted i rfl) ?_ ?_
      · rw [hspawned]
        exact hk.taken i rfl
      · rw [hconnections]
        exact iff_of_true (List.mem_append_right _ (List.mem_singleton_self i)) rfl
  | @spawns i _ hspawned same =>
    obtain ⟨hconnections, hactive, -, haccepted⟩ := same
    dsimp only at hconnections hactive haccepted
    refine ⟨⟨?_, ?_, ?_, ?_, fun j hj => ?_, ?_⟩, ?_⟩
    · rw [hactive, hconnections]
      exact hs.active
    · rw [hactive]
      exact hs.bounded
    · rw [hconnections]
      exact hs.nodup
    · rw [hspawned]
      exact List.nodup_append.2 ⟨hs.spawned, List.nodup_singleton i, fun x hx y hy => by
        rintro rfl
        exact hk.taken i rfl (List.mem_singleton.1 hy ▸ hx)⟩
    · rw [hspawned] at hj
      rw [hconnections]
      rcases List.mem_append.1 hj with hj | hj
      · exact hs.waiting j hj
      · exact List.mem_singleton.1 hj ▸ (hk.counted i rfl).2 rfl
    · rw [hconnections, haccepted]
      exact hs.accepted
    · rintro k' ⟨⟩
      exact .of_none rfl
  | discards same =>
    refine ⟨hs.congr same, ?_⟩
    rintro k' ⟨⟩
    exact .of_none rfl
  | @begins i _ hspawned same =>
    obtain ⟨hconnections, hactive, -, haccepted⟩ := same
    dsimp only at hconnections hactive haccepted
    have hnodup := hs.spawned
    rw [hspawned, List.nodup_cons] at hnodup
    have hwaits : ∀ j ∈ i :: s'.spawned, j ∈ s.connections := hspawned ▸ hs.waiting
    refine ⟨⟨?_, ?_, ?_, hnodup.2, fun j hj => ?_, ?_⟩, ?_⟩
    · rw [hactive, hconnections]
      exact hs.active
    · rw [hactive]
      exact hs.bounded
    · rw [hconnections]
      exact hs.nodup
    · rw [hconnections]
      exact hwaits j (List.mem_cons_of_mem i hj)
    · rw [hconnections, haccepted]
      exact hs.accepted
    · rintro k' ⟨⟩
      have hmem := hwaits i List.mem_cons_self
      refine .of_some rfl (by rw [haccepted]; exact hs.accepted i hmem) hnodup.1 ?_
      rw [hconnections]
      exact iff_of_true hmem rfl
  | @leaves session _ hconnections hactive hspawned haccepted =>
    have hmem : session.connection ∈ s.connections := (hk.counted _ rfl).2 rfl
    refine ⟨⟨?_, ?_, ?_, ?_, fun j hj => ?_, fun j hj => ?_⟩, fun k' hk' => by cases hk'⟩
    · rw [hactive, hconnections, List.length_erase_of_mem hmem, hs.active]
    · rw [hactive]
      exact (Nat.sub_le ..).trans hs.bounded
    · rw [hconnections]
      exact hs.nodup.erase _
    · rw [hspawned]
      exact hs.spawned
    · rw [hspawned] at hj
      rw [hconnections]
      refine (List.mem_erase_of_ne ?_).2 (hs.waiting j hj)
      rintro rfl
      exact hk.taken _ rfl hj
    · rw [hconnections] at hj
      rw [haccepted]
      exact hs.accepted j (List.mem_of_mem_erase hj)

/-- A step of another thread leaves a connection with the thread that handles it. -/
theorem Serving.Handles.apart (h : Handles config s k s' next) (hl : l.Held s)
    (hapart : ∀ i, k.owns = some i → l.owns ≠ some i) :
    l.Held s' ∧ ∀ k', next = some k' → ∀ i, k'.owns = some i → l.owns ≠ some i := by
  cases h with
  | goes same howns _ =>
    refine ⟨hl.congr same rfl fun _ => rfl, ?_⟩
    rintro k' rfl i hi
    exact hapart i ((show k'.owns = k.owns from howns) ▸ hi)
  | accepts haccepted same =>
    obtain ⟨hconnections, -, hspawned, -⟩ := same
    dsimp only at hconnections hspawned
    refine ⟨⟨fun i hi => ?_, fun i hi => ?_, fun i hi => ?_⟩, ?_⟩
    · rw [haccepted]
      exact Nat.lt_succ_of_lt (hl.accepted i hi)
    · rw [hspawned]
      exact hl.taken i hi
    · rw [hconnections]
      exact hl.counted i hi
    · rintro k' ⟨⟩ i hi hown
      obtain rfl := Option.some.inj hi
      exact Nat.lt_irrefl _ (hl.accepted _ hown)
  | @admits i _ _ _ hconnections _ hspawned haccepted =>
    refine ⟨⟨fun j hj => ?_, fun j hj => ?_, fun j hj => ?_⟩, ?_⟩
    · rw [haccepted]
      exact hl.accepted j hj
    · rw [hspawned]
      exact hl.taken j hj
    · have hne : j ≠ i := by
        rintro rfl
        exact hapart j rfl hj
      rw [hconnections, List.mem_append, List.mem_singleton, or_iff_left hne]
      exact hl.counted j hj
    · rintro k' ⟨⟩
      exact hapart
  | @spawns i _ hspawned same =>
    obtain ⟨hconnections, -, -, haccepted⟩ := same
    dsimp only at hconnections haccepted
    refine ⟨⟨fun j hj => ?_, fun j hj hmem => ?_, fun j hj => ?_⟩, ?_⟩
    · rw [haccepted]
      exact hl.accepted j hj
    · rw [hspawned] at hmem
      rcases List.mem_append.1 hmem with hmem | hmem
      · exact hl.taken j hj hmem
      · exact hapart i rfl (List.mem_singleton.1 hmem ▸ hj)
    · rw [hconnections]
      exact hl.counted j hj
    · rintro k' ⟨⟩ i hi
      cases hi
  | discards same =>
    refine ⟨hl.congr same rfl fun _ => rfl, ?_⟩
    rintro k' ⟨⟩ i hi
    cases hi
  | @begins i _ hspawned same =>
    obtain ⟨hconnections, -, -, haccepted⟩ := same
    dsimp only at hconnections haccepted
    have htaken : ∀ j, l.owns = some j → j ∉ i :: s'.spawned := hspawned ▸ hl.taken
    refine ⟨⟨fun j hj => ?_, fun j hj hmem => ?_, fun j hj => ?_⟩, ?_⟩
    · rw [haccepted]
      exact hl.accepted j hj
    · exact htaken j hj (List.mem_cons_of_mem i hmem)
    · rw [hconnections]
      exact hl.counted j hj
    · rintro k' ⟨⟩ j hj hown
      obtain rfl := Option.some.inj hj
      exact htaken _ hown List.mem_cons_self
  | @leaves session _ hconnections _ hspawned haccepted =>
    refine ⟨⟨fun j hj => ?_, fun j hj => ?_, fun j hj => ?_⟩, fun k' hk' => by cases hk'⟩
    · rw [haccepted]
      exact hl.accepted j hj
    · rw [hspawned]
      exact hl.taken j hj
    · have hne : j ≠ session.connection := by
        rintro rfl
        exact hapart _ rfl hj
      rw [hconnections, List.mem_erase_of_ne hne]
      exact hl.counted j hj

end

/-! ### Every interleaving -/

/-- The pool, what each thread holds of it, and that no two threads handle one connection. -/
def pooled (config : ServerConfig) : Outline Server Serving where
  shared := Server.Pooled config
  assertion s k := k.Held s
  apart k l := ∀ i, k.owns = some i → l.owns ≠ some i

theorem Serving.owns_ofRequest (r : ServerRequest) : (ofRequest r).owns = none := by
  cases r <;> rfl

theorem pooled_stable (config : ServerConfig) :
    (pooled config).Stable (server config) anyStep where
  begins c i r _ _ _ := by
    have hnone : ((server config).begin r).owns = none := Serving.owns_ofRequest r
    refine ⟨.of_none hnone, fun j l _ => ⟨fun x hx => ?_, fun x _ hx => ?_⟩⟩
    all_goals
      rw [hnone] at hx
      cases hx
  locally c i k a hc _ here :=
    (Serving.step_handles k).locally hc.shared (hc.assertion i k here)
  interference c i k a j l hc _ here hji hl := by
    have hstep : Serving.Handles config c.shared k _ _ := Serving.step_handles (a := a) k
    obtain ⟨hheld, hapart⟩ := hstep.apart (hc.assertion j l hl) (hc.apart i j k l hji.symm here hl)
    exact ⟨hheld, fun k' hk' => ⟨hapart k' hk', fun x hx hown => hapart k' hk' x hown hx⟩⟩
  restarts _ _ _ _ h := h.elim

/-- Every connection in the pool waits for its thread or is handled by one. -/
def Server.Covered (c : Config Server Serving) : Prop :=
  ∀ i ∈ c.shared.connections, i ∈ c.shared.spawned ∨ ∃ j k, c.calls j = some k ∧ k.owns = some i

/-- A step leaves no connection of the pool without its thread. -/
theorem Serving.Handles.covers {config : ServerConfig} {s s' : Server} {k : Serving}
    {next : Option Serving} (h : Handles config s k s' next) (hs : s.Pooled config)
    (hk : k.Held s) {i : ℕ} (hi : i ∈ s'.connections) (hthread : k.owns = some i ∨
      i ∈ s.spawned ∨ i ∉ s.connections) :
    i ∈ s'.spawned ∨ ∃ k', next = some k' ∧ k'.owns = some i := by
  cases h with
  | goes same howns _ =>
    obtain ⟨hconnections, -, hspawned, -⟩ := same
    rcases hthread with hown | hwaits | hout
    · rw [← howns] at hown
      obtain ⟨k', rfl, hk'⟩ := Option.bind_eq_some_iff.1 hown
      exact .inr ⟨k', rfl, hk'⟩
    · exact .inl (hspawned ▸ hwaits)
    · exact absurd (hconnections ▸ hi) hout
  | accepts _ same =>
    obtain ⟨hconnections, -, hspawned, -⟩ := same
    dsimp only at hconnections hspawned
    rcases hthread with hown | hwaits | hout
    · cases hown
    · exact .inl (hspawned ▸ hwaits)
    · exact absurd (hconnections ▸ hi) hout
  | @admits j _ _ _ hconnections _ hspawned _ =>
    rcases hthread with hown | hwaits | hout
    · exact .inr ⟨_, rfl, hown⟩
    · exact .inl (hspawned ▸ hwaits)
    · rw [hconnections] at hi
      rcases List.mem_append.1 hi with hi | hi
      · exact absurd hi hout
      · exact .inr ⟨_, rfl, congrArg some (List.mem_singleton.1 hi).symm⟩
  | @spawns j _ hspawned same =>
    rcases hthread with hown | hwaits | hout
    · obtain rfl := Option.some.inj hown
      exact .inl (hspawned ▸ List.mem_append_right _ (List.mem_singleton_self _))
    · exact .inl (hspawned ▸ List.mem_append_left _ hwaits)
    · exact absurd (same.1 ▸ hi) hout
  | discards same =>
    rcases hthread with hown | hwaits | hout
    · obtain rfl := Option.some.inj hown
      exact absurd ((hk.counted _ rfl).1 (same.1 ▸ hi)) Bool.false_ne_true
    · exact .inl (same.2.2.1 ▸ hwaits)
    · exact absurd (same.1 ▸ hi) hout
  | @begins j _ hspawned same =>
    rcases hthread with hown | hwaits | hout
    · cases hown
    · rw [hspawned] at hwaits
      rcases List.mem_cons.1 hwaits with rfl | hwaits
      · exact .inr ⟨_, rfl, rfl⟩
      · exact .inl hwaits
    · exact absurd (same.1 ▸ hi) hout
  | @leaves session _ hconnections _ hspawned _ =>
    rcases hthread with hown | hwaits | hout
    · obtain rfl := Option.some.inj hown
      rw [hconnections] at hi
      exact absurd rfl ((hs.nodup.mem_erase_iff.1 hi).1)
    · exact .inl (hspawned ▸ hwaits)
    · rw [hconnections] at hi
      exact absurd (List.mem_of_mem_erase hi) hout

theorem Server.Covered.step {config : ServerConfig} {c c' : Config Server Serving}
    {e : Event Serving ServerRequest ServerAnswers} (h : Covered c)
    (hc : (pooled config).Holds c) (hs : Step (server config) c e c') : Covered c' := by
  cases hs with
  | @start t r free =>
    intro i hi
    rcases h i hi with hwaits | ⟨j, k, hk, hown⟩
    · exact .inl hwaits
    · have hne : j ≠ t := by
        rintro rfl
        rw [free] at hk
        cases hk
      exact .inr ⟨j, k, (Function.update_of_ne hne ..).trans hk, hown⟩
  | @move t k a here =>
    intro i hi
    have hstep : Serving.Handles config c.shared k _ _ := Serving.step_handles (a := a) k
    -- the connection is with the thread that steps, or with none, or with another one
    by_cases hother : ∃ j l, j ≠ t ∧ c.calls j = some l ∧ l.owns = some i
    · obtain ⟨j, l, hj, hl, hown⟩ := hother
      exact .inr ⟨j, l, (Function.update_of_ne hj ..).trans hl, hown⟩
    · have hthread : k.owns = some i ∨ i ∈ c.shared.spawned ∨ i ∉ c.shared.connections := by
        by_cases hmem : i ∈ c.shared.connections
        · rcases h i hmem with hwaits | ⟨j, l, hl, hown⟩
          · exact .inr (.inl hwaits)
          · have hj : j = t := by_contra fun hj => hother ⟨j, l, hj, hl, hown⟩
            subst hj
            exact .inl (Option.some.inj (hl.symm.trans here) ▸ hown)
        · exact .inr (.inr hmem)
      rcases hstep.covers hc.shared (hc.assertion t k here) hi hthread with
        hwaits | ⟨k', hk', hown⟩
      · exact .inl hwaits
      · exact .inr ⟨t, k', (Function.update_self ..).trans hk', hown⟩
  | restart h => exact h.elim

theorem Server.pooled_initial (config : ServerConfig) (f : Fabric) :
    (pooled config).Holds (.idle (.initial f)) ∧ Covered (.idle (.initial f)) := by
  refine ⟨Outline.holds_idle ⟨rfl, Nat.zero_le _, List.nodup_nil, List.nodup_nil, ?_, ?_⟩, ?_⟩
  all_goals
    intro i hi
    cases hi

theorem pooled_of_run {config : ServerConfig} {f : Fabric} {n : ℕ} {c : Config Server Serving}
    (h : Run (server config) anyStep (.idle (.initial f)) n c) :
    (pooled config).Holds c ∧ Server.Covered c := by
  refine h.invariant (I := fun c => (pooled config).Holds c ∧ Server.Covered c)
    (Server.pooled_initial config f) ?_
  rintro c e c' ⟨hholds, hcovered⟩ hok hs
  exact ⟨(pooled_stable config).holds hholds (.succ .zero hok hs), hcovered.step hholds hs⟩

/-- Over every run of a server, whatever its peers send and whichever threads stop it: the pool
never holds more connections than configured, and each of them waits for its thread or is
handled by exactly one. -/
theorem pool_consistent {config : ServerConfig} {f : Fabric} {n : ℕ} {c : Config Server Serving}
    (h : Run (server config) anyStep (.idle (.initial f)) n c) :
    c.shared.active = c.shared.connections.length ∧
      c.shared.active ≤ config.maxConnections.toNat ∧ c.shared.connections.Nodup ∧
      ∀ i ∈ c.shared.connections,
        (i ∈ c.shared.spawned ∧ ∀ j k, c.calls j = some k → k.owns ≠ some i) ∨
        (i ∉ c.shared.spawned ∧ ∃! j, ∃ k, c.calls j = some k ∧ k.owns = some i) := by
  obtain ⟨hholds, hcovered⟩ := pooled_of_run h
  refine ⟨hholds.shared.active, hholds.shared.bounded, hholds.shared.nodup, fun i hi => ?_⟩
  by_cases hwaits : i ∈ c.shared.spawned
  · exact .inl ⟨hwaits, fun j k hk hown => (hholds.assertion j k hk).taken i hown hwaits⟩
  · obtain ⟨j, k, hk, hown⟩ := (hcovered i hi).resolve_left hwaits
    refine .inr ⟨hwaits, j, ⟨k, hk, hown⟩, ?_⟩
    rintro j' ⟨k', hk', hown'⟩
    by_contra hne
    exact hholds.apart j' j k' k hne hk' hk i hown' hown

namespace Scenario

/-- A server with one connection, served by thread 1. -/
def oneServed : List (Action ServerRequest ServerAnswers) :=
  [.start 0 .start, .move 0 {}, .start 0 .run, .move 0 { accepted := some [] }, .move 0 {},
   .move 0 {}, .start 1 .serve, .move 1 {}]

/-- The peer closes, another thread stops the server, and `run` leaves its loop. -/
def servedAndStopped : List (Action ServerRequest ServerAnswers) :=
  oneServed ++ List.replicate 3 (.move 1 {}) ++ .start 2 .stop :: List.replicate 3 (.move 2 {}) ++
    List.replicate 3 (.move 0 {})

/-- Where a schedule leads a server over a coordinator that was not started. -/
def serverAfter (schedule : List (Action ServerRequest ServerAnswers)) : Config Server Serving :=
  (server {}).exec (.idle (.initial (Fabric.construct {} {}))) schedule

end Scenario

/-- One connection, one thread. -/
theorem pool_consistent_one :
    (Scenario.serverAfter Scenario.oneServed).shared.connections = [0] ∧
      (Scenario.serverAfter Scenario.oneServed).shared.active ≤ 64 ∧
      ∃! j, ∃ k, (Scenario.serverAfter Scenario.oneServed).calls j = some k ∧
        k.owns = some 0 := by
  obtain ⟨n, hn⟩ := (server {}).run_exec (.idle (.initial (Fabric.construct {} {})))
    Scenario.oneServed
  have hone : (Scenario.serverAfter Scenario.oneServed).shared.connections = [0] := by
    decide +kernel
  have hspawned : (Scenario.serverAfter Scenario.oneServed).shared.spawned = [] := by
    decide +kernel
  have hrun : Run (server {}) anyStep _ n _ := hn.mono fun _ _ _ => trivial
  obtain ⟨-, hbounded, -, hthreads⟩ := pool_consistent hrun
  rcases hthreads 0 (List.mem_of_mem_head? (congrArg List.head? hone)) with
    ⟨hwaits, -⟩ | ⟨-, hthread⟩
  · change 0 ∈ (Scenario.serverAfter Scenario.oneServed).shared.spawned at hwaits
    rw [hspawned] at hwaits
    cases hwaits
  · exact ⟨hone, hbounded, hthread⟩

/-! ### The end of `run` -/

namespace Serving

variable {config : ServerConfig} {s : Server} {a : ServerAnswers} {k : Serving}

/-- Once the server is stopping, it stays so. -/
theorem step_stopping (h : s.stopping = true) : (step config s a k).1.stopping = true := by
  cases k with
  | closeConnections todo session => cases todo <;> exact h
  | _ =>
    simp only [step]
    repeat' split
    all_goals exact h

/-- A stopping server admits no connection. -/
theorem Handles.stays_empty {s' : Server} {next : Option Serving}
    (h : Handles config s k s' next) (hstopping : s.stopping = true) (hactive : s.active = 0) :
    s'.active = 0 := by
  cases h with
  | goes same _ _ => exact same.2.1.trans hactive
  | accepts _ same => exact same.2.1.trans hactive
  | admits running => rw [hstopping] at running; cases running
  | spawns _ same => exact same.2.1.trans hactive
  | discards same => exact same.2.1.trans hactive
  | begins _ same => exact same.2.1.trans hactive
  | leaves _ active => rw [active, hactive]

/-- `run` leaves its loop when the server stops, and waits until the pool is empty. -/
structure Ending (s : Server) (k : Serving) : Prop where
  stopping : k = .idle ∨ k = .closeRun → s.stopping = true
  empty : k = .closeRun → s.active = 0

theorem Ending.of_ne (hidle : k ≠ .idle) (hclose : k ≠ .closeRun) : k.Ending s :=
  ⟨fun h => h.elim (fun h => absurd h hidle) fun h => absurd h hclose, fun h => absurd h hclose⟩

theorem Ending.of_owns {i : ℕ} (h : k.owns = some i) : k.Ending s :=
  .of_ne (fun hk => by rw [hk] at h; cases h) fun hk => by rw [hk] at h; cases h

/-- A thread gets to the end of `run` over the tests of its loop only. -/
theorem step_ending {k' : Serving} (h : k.Ending s)
    (hk' : (step config s a k).2 = some k') : k'.Ending (step config s a k).1 := by
  cases k with
  | refused =>
    simp only [step] at hk' ⊢
    split at hk'
    · rename_i hstopping
      obtain rfl := Option.some.inj hk'
      exact ⟨fun _ => hstopping, fun h => by cases h⟩
    · exact Option.some.inj hk' ▸ .of_ne (fun h => by cases h) fun h => by cases h
  | idle =>
    simp only [step] at hk' ⊢
    have hstopping := h.stopping (.inl rfl)
    split at hk'
    · rename_i hactive
      exact ⟨fun _ => hstopping, fun _ => hactive⟩
    · exact ⟨fun _ => hstopping, fun hclose => by
        rw [← Option.some.inj hk'] at hclose
        cases hclose⟩
  | receive session =>
    simp only [step] at hk'
    split at hk'
    · exact Option.some.inj hk' ▸ .of_owns rfl
    · exact Option.some.inj hk' ▸ .of_owns (received_owns session _).1
  | respond session requestId fault response after =>
    exact Option.some.inj hk' ▸ .of_owns (responded_owns session _ after).1
  | dispatch session requestId request d =>
    simp only [step] at hk'
    split at hk' <;> exact Option.some.inj hk' ▸ .of_owns rfl
  | stop session =>
    cases session with
    | none =>
      simp only [step] at hk'
      split at hk'
      · cases hk'
      · exact Option.some.inj hk' ▸ .of_ne (fun h => by cases h) fun h => by cases h
    | some session =>
      simp only [step] at hk'
      split at hk' <;> exact Option.some.inj hk' ▸ .of_owns rfl
  | closeConnections todo session =>
    cases todo with
    | nil =>
      cases session with
      | none => cases hk'
      | some session => exact Option.some.inj hk' ▸ .of_owns rfl
    | cons i rest => exact Option.some.inj hk' ▸ .of_ne (fun h => by cases h) fun h => by cases h
  | _ =>
    simp only [step] at hk'
    repeat' split at hk'
    all_goals first
      | exact Option.some.inj hk' ▸ .of_ne (fun h => by cases h) fun h => by cases h
      | cases hk'

theorem Ending.other {l : Serving} (h : l.Ending s) : l.Ending (step config s a k).1 where
  stopping hl := step_stopping (h.stopping hl)
  empty hl := (step_handles k).stays_empty (h.stopping (.inr hl)) (h.empty hl)

end Serving

/-- What `run` has seen at the end of its loop still holds. -/
def ending : Outline Server Serving where
  shared _ := True
  assertion s k := k.Ending s
  apart _ _ := True

theorem ending_stable (config : ServerConfig) : ending.Stable (server config) anyStep where
  begins c i r _ _ _ := by
    refine ⟨?_, fun _ _ _ => ⟨trivial, trivial⟩⟩
    cases r <;> exact .of_ne (fun h => by cases h) fun h => by cases h
  locally c i k a hc _ here :=
    ⟨trivial, fun k' hk' => Serving.step_ending (hc.assertion i k here) hk'⟩
  interference c i k a j l hc _ _ _ hl :=
    ⟨(hc.assertion j l hl).other, fun _ _ => ⟨trivial, trivial⟩⟩
  restarts _ _ _ _ h := h.elim

/-- When `run` is about to return, the pool is empty and no thread handles a connection of it. -/
theorem run_drained {config : ServerConfig} {f : Fabric} {n : ℕ} {c : Config Server Serving}
    (h : Run (server config) anyStep (.idle (.initial f)) n c) {t : ℕ}
    (ht : c.calls t = some .closeRun) :
    c.shared.stopping = true ∧ c.shared.connections = [] ∧ c.shared.spawned = [] ∧
      ∀ j k i, c.calls j = some k → k.owns = some i → k.admitted = false := by
  obtain ⟨hholds, -⟩ := pooled_of_run h
  have hending : ending.Holds c := (ending_stable config).holds
    (Outline.holds_idle trivial) h
  have hend := hending.assertion t _ ht
  have hempty : c.shared.connections = [] :=
    List.eq_nil_of_length_eq_zero (hholds.shared.active.symm.trans (hend.empty rfl))
  refine ⟨hend.stopping (.inr rfl), hempty, ?_, fun j k i hk hown => ?_⟩
  · refine List.eq_nil_iff_forall_not_mem.2 fun i hi => ?_
    have hmem := hholds.shared.waiting i hi
    rw [hempty] at hmem
    cases hmem
  · have hcounted := (hholds.assertion j k hk).counted i hown
    rw [hempty] at hcounted
    simpa using hcounted

namespace Scenario

/-- The thread is at the end of `run`. -/
def leavesRun (c : Config Server Serving) (thread : ℕ) : Bool :=
  match c.calls thread with
  | some .closeRun => true
  | _ => false

theorem of_leavesRun {c : Config Server Serving} {thread : ℕ} (h : leavesRun c thread = true) :
    c.calls thread = some .closeRun := by
  unfold leavesRun at h
  split at h
  · assumption
  · cases h

end Scenario

/-- A server that was stopped once its only connection had ended. -/
theorem run_drained_stopped :
    (Scenario.serverAfter Scenario.servedAndStopped).calls 0 = some .closeRun ∧
      (Scenario.serverAfter Scenario.servedAndStopped).shared.connections = [] := by
  obtain ⟨n, hn⟩ := (server {}).run_exec (.idle (.initial (Fabric.construct {} {})))
    Scenario.servedAndStopped
  have hrun : Run (server {}) anyStep _ n _ := hn.mono fun _ _ _ => trivial
  have hleaves : Scenario.leavesRun (Scenario.serverAfter Scenario.servedAndStopped) 0 = true := by
    decide +kernel
  have hend := Scenario.of_leavesRun hleaves
  exact ⟨hend, (run_drained hrun hend).2.1⟩

end Pacing
