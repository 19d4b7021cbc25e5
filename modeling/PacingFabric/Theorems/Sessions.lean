import PacingFabric.Theorems.Pool
import PacingFabric.Theorems.Protocol

/-!
# The sessions of the server

What goes over one connection while any number of threads serve the others and may close this
one. The server answers what it was sent: every reply carries the id of a frame it received, no
frame is answered twice, replies keep the order of the frames, and nothing is dispatched that
was not received from a peer that had introduced itself.

## Main definitions

* `Exchange`: what has come in and gone out over a connection, in frames.
* `Serving.Answers`: what the thread that handles it still owes.

## Main results

* `replies_paired`: over every run of a server.
-/

namespace Pacing

open Interleaving

namespace FramedConnection

variable {limits : Limits} {c c' : FramedConnection} {f : Frame}

theorem not_open_close : ¬ c.close.Open := fun h => Bool.false_ne_true h.valid

theorem not_open_of_poisoned (h : c.poisoned = true) : ¬ c.Open := fun hopen => by
  rw [hopen.poisoned] at h
  cases h

/-- A connection that is not open takes nothing. -/
theorem send_shut (h : ¬ c.Open) (room : ℕ) : (c.send f limits room).2 = c := by
  unfold send
  split
  · rfl
  split
  · rfl
  rename_i hpoisoned hvalid
  exact absurd ⟨by simpa using hvalid, by simpa [poisoned] using hpoisoned⟩ h

/-- A connection that is not open gives nothing. -/
theorem receive_shut (h : ¬ c.Open) : ∃ status, c.receive limits = (.error status, c) := by
  unfold receive
  split
  · exact ⟨_, rfl⟩
  split
  · exact ⟨_, rfl⟩
  rename_i hpoisoned hvalid
  exact absurd ⟨by simpa using hvalid, by simpa [poisoned] using hpoisoned⟩ h

theorem recvExact_outgoing (n : ℕ) : (c.recvExact n).2.outgoing = c.outgoing := by
  unfold recvExact
  split <;> rfl

theorem fail_outgoing (reason : Status) : (c.fail reason).2.outgoing = c.outgoing :=
  (poison_keeps reason).2

/-- Receiving sends nothing. -/
theorem receive_outgoing : (c.receive limits).2.outgoing = c.outgoing := by
  unfold receive
  split
  · rfl
  split
  · rfl
  have hheader := c.recvExact_outgoing frameHeaderBytes
  generalize c.recvExact frameHeaderBytes = out at hheader
  obtain ⟨header, c₁⟩ := out
  cases header with
  | none => exact (fail_outgoing _).trans hheader
  | some header =>
    dsimp only
    split
    · exact (fail_outgoing _).trans hheader
    split
    · exact (fail_outgoing _).trans hheader
    split
    · exact (fail_outgoing _).trans hheader
    split
    · exact (fail_outgoing _).trans hheader
    have hpayload := c₁.recvExact_outgoing (DurableFile.field header 16 4)
    generalize c₁.recvExact (DurableFile.field header 16 4) = out at hpayload
    obtain ⟨payload, c₂⟩ := out
    cases payload with
    | none => exact ((fail_outgoing _).trans hpayload).trans hheader
    | some payload =>
      dsimp only
      split
      · exact ((fail_outgoing _).trans hpayload).trans hheader
      · exact hpayload.trans hheader

/-- A connection after part of a frame was sent over it: it is of no use any more. -/
structure Broken (c : FramedConnection) (f : Frame) (c' : FramedConnection) : Prop where
  shut : ¬ c'.Open
  part : ∃ part, part <+: f.wire ∧ c'.outgoing = c.outgoing ++ part

/-- A frame goes out whole, or not at all, or the connection breaks over it. -/
theorem send_sends (room : ℕ) :
    (c.send f limits room).2 = c ∨
      (c.send f limits room).2 = { c with outgoing := c.outgoing ++ f.wire } ∨
      c.Broken f (c.send f limits room).2 := by
  by_cases hopen : c.Open
  · by_cases hfits : f.Fits limits
    · right
      unfold send
      rw [if_neg (by simp [hopen.poisoned]), if_neg (by simp [hopen.valid]),
        if_neg (Nat.not_lt.2 hfits), hfits.narrow]
      simp only [sendAll]
      split
      · rename_i hheader
        obtain ⟨-, rfl⟩ := Prod.mk.inj hheader
        exact .inr ⟨not_open_of_poisoned (poison_poisoned _), _,
          (List.take_prefix _ _).trans (List.prefix_append _ _), (poison_keeps _).2⟩
      · rename_i hheader
        obtain ⟨hroom, rfl⟩ := Prod.mk.inj hheader
        rw [List.take_of_length_le (of_decide_eq_true hroom)]
        split
        · rename_i hpayload
          obtain ⟨-, rfl⟩ := Prod.mk.inj hpayload
          exact .inr ⟨not_open_of_poisoned (poison_poisoned _), _,
            (List.prefix_append_right_inj _).2 (List.take_prefix _ _),
            (poison_keeps _).2.trans (List.append_assoc _ _ _)⟩
        · rename_i hpayload
          obtain ⟨hleft, rfl⟩ := Prod.mk.inj hpayload
          left
          rw [List.take_of_length_le (of_decide_eq_true hleft), List.append_assoc]
          rfl
    · left
      unfold send
      rw [if_neg (by simp [hopen.poisoned]), if_neg (by simp [hopen.valid]),
        if_pos (Nat.lt_of_not_le hfits)]
  · exact .inl (send_shut hopen room)

/-- A response goes out as one frame under the id of its request, if it goes out. -/
theorem sendResponse_sends (requestId : UInt64) (fault : Bool) (response : ControlResponse)
    (room : ℕ) :
    (c.sendResponse limits requestId fault response room).2 = c ∨
      ∃ frame : Frame, frame.requestId = requestId ∧
        (frame.type = .response ∨ frame.type = .fault) ∧
        ((c.sendResponse limits requestId fault response room).2 =
            { c with outgoing := c.outgoing ++ frame.wire } ∨
          c.Broken frame (c.sendResponse limits requestId fault response room).2) := by
  unfold sendResponse responseFrame
  split
  · exact .inl rfl
  · rename_i frame hframe
    split at hframe
    · cases hframe
    · obtain rfl := Except.ok.inj hframe
      refine (send_sends room).imp_right fun h => ⟨_, rfl, ?_, h⟩
      cases fault
      · exact .inl rfl
      · exact .inr rfl

end FramedConnection

/-! ### What goes over a connection -/

/-- The frames that have come in over a connection and those that have gone out, since it was
as `before`. -/
structure Exchange (before now : FramedConnection) (asked answered : List Frame) : Prop where
  taken : asked.flatMap Frame.wire <+: before.incoming
  left : now.Open → before.incoming = asked.flatMap Frame.wire ++ now.incoming
  sent : now.outgoing <+: before.outgoing ++ answered.flatMap Frame.wire
  whole : now.Open → now.outgoing = before.outgoing ++ answered.flatMap Frame.wire
  replies : ∀ f ∈ answered, f.type = .response ∨ f.type = .fault

namespace Exchange

variable {before now now' : FramedConnection} {asked answered : List Frame} {f : Frame}

theorem refl (c : FramedConnection) : Exchange c c [] [] where
  taken := List.nil_prefix
  left _ := rfl
  sent := List.prefix_append _ _
  whole _ := (List.append_nil _).symm
  replies f hf := by cases hf

/-- A connection that is not open any more. -/
theorem shut (h : Exchange before now asked answered) (hshut : ¬ now'.Open)
    (hout : now'.outgoing = now.outgoing) : Exchange before now' asked answered where
  taken := h.taken
  left hopen := absurd hopen hshut
  sent := hout ▸ h.sent
  whole hopen := absurd hopen hshut
  replies := h.replies

theorem received (h : Exchange before now asked answered) (hopen : now.Open)
    (hin : now.incoming = f.wire ++ now'.incoming)
    (hnow : now' = { now with incoming := now'.incoming }) :
    Exchange before now' (asked ++ [f]) answered := by
  have hleft : before.incoming = (asked ++ [f]).flatMap Frame.wire ++ now'.incoming := by
    rw [h.left hopen, hin, List.flatMap_append, List.flatMap_singleton, List.append_assoc]
  have hout : now'.outgoing = now.outgoing := by rw [hnow]
  exact ⟨⟨_, hleft.symm⟩, fun _ => hleft, hout ▸ h.sent, fun _ => hout ▸ h.whole hopen, h.replies⟩

theorem replied (h : Exchange before now asked answered) (hopen : now.Open)
    (hf : f.type = .response ∨ f.type = .fault)
    (hnow : now' = { now with outgoing := now.outgoing ++ f.wire } ∨ now.Broken f now') :
    Exchange before now' asked (answered ++ [f]) := by
  have hwhole : now.outgoing ++ f.wire =
      before.outgoing ++ (answered ++ [f]).flatMap Frame.wire := by
    rw [h.whole hopen, List.flatMap_append, List.flatMap_singleton, List.append_assoc]
  have hreplies : ∀ g ∈ answered ++ [f], g.type = .response ∨ g.type = .fault := by
    intro g hg
    rcases List.mem_append.1 hg with hg | hg
    · exact h.replies g hg
    · exact List.mem_singleton.1 hg ▸ hf
  rcases hnow with rfl | ⟨hshut, part, hpart, hout⟩
  · exact ⟨h.taken, fun _ => h.left hopen, ⟨[], (List.append_nil _).trans hwhole⟩, fun _ => hwhole,
      hreplies⟩
  · refine ⟨h.taken, fun hopen => absurd hopen hshut, ?_, fun hopen => absurd hopen hshut, hreplies⟩
    rw [hout, ← hwhole]
    exact (List.prefix_append_right_inj _).2 hpart

end Exchange

/-! ### What a thread owes -/

/-- The id of the frame a thread is about to answer. -/
def Serving.pending : Serving → List UInt64
  | .welcomeEpoch _ requestId | .welcomeBoot _ requestId _ | .welcomeRunning _ requestId _ _
  | .dispatch _ requestId _ _ | .respond _ requestId _ _ _ => [requestId]
  | _ => []

/-- The thread serves a peer that has introduced itself. -/
def Serving.introduced : Serving → Bool
  | .receive session | .welcomeEpoch session _ | .welcomeBoot session _ _
  | .welcomeRunning session _ _ _ | .respond session _ _ _ _ => session.established
  | .dispatch _ _ _ _ => true
  | _ => false

/-- The ids of frames, in order. -/
def ids (frames : List Frame) : List UInt64 := frames.map Frame.requestId

theorem ids_concat (frames : List Frame) (f : Frame) :
    ids (frames ++ [f]) = ids frames ++ [f.requestId] := by simp [ids]

/-- What the thread that handles a connection has received over it and still owes. -/
structure Serving.Answers (limits : Limits) (asked answered : List Frame) (k : Serving) : Prop where
  owed : (ids answered ++ k.pending).Sublist (ids asked)
  greeted : k.introduced = true →
    ∃ hello ∈ asked, ∃ agentName claimed, handle limits false hello = .welcome agentName claimed
  asks : ∀ session requestId r d, k = .dispatch session requestId r d →
    ∃ f ∈ asked, f.requestId = requestId ∧ handle limits true f = .dispatch r

namespace Serving

variable {limits : Limits} {asked answered : List Frame} {k k' : Serving}

theorem Answers.ids (h : k.Answers limits asked answered) :
    (Pacing.ids answered).Sublist (Pacing.ids asked) :=
  (List.sublist_append_left _ _).trans h.owed

/-- A thread that owes nothing and has been told nothing. -/
theorem Answers.quiet (h : (Pacing.ids answered).Sublist (Pacing.ids asked))
    (hpending : k.pending = []) (hintroduced : k.introduced = false) :
    k.Answers limits asked answered where
  owed := by rwa [hpending, List.append_nil]
  greeted h := by
    rw [hintroduced] at h
    cases h
  asks session requestId r d hk := by
    rw [hk] at hintroduced
    cases hintroduced

/-- A thread that goes on to answer the same frame. -/
theorem Answers.on (h : k.Answers limits asked answered) (hpending : k'.pending = k.pending)
    (hintroduced : k'.introduced = true → k.introduced = true)
    (hasks : ∀ session requestId r d, k' = .dispatch session requestId r d →
      ∃ d', k = .dispatch session requestId r d') : k'.Answers limits asked answered where
  owed := hpending ▸ h.owed
  greeted hk := h.greeted (hintroduced hk)
  asks session requestId r d hk := by
    obtain ⟨d', hd'⟩ := hasks session requestId r d hk
    exact h.asks session requestId r d' hd'

end Serving

theorem handle_welcome {limits : Limits} {established : Bool} {f : Frame} {agentName : Bytes}
    {claimed : CallerStamp} (h : handle limits established f = .welcome agentName claimed) :
    handle limits false f = .welcome agentName claimed := by
  unfold handle at h ⊢
  split at h
  · cases h
  · exact h
  · split at h
    · cases h
    · split at h
      · cases h
      · split at h <;> cases h
  · cases h

theorem handle_dispatch {limits : Limits} {established : Bool} {f : Frame} {r : ControlRequest}
    (h : handle limits established f = .dispatch r) : established = true := by
  unfold handle at h
  split at h
  · cases h
  · split at h
    · split at h <;> cases h
    · cases h
  · cases established
    · cases h
    · rfl
  · cases h

/-! ### Steps -/

namespace Server

variable {s : Server} {i j : ℕ} {c : FramedConnection}

theorem setSocket_same : (s.setSocket i c).sockets i = c := Function.update_self ..

theorem setSocket_other (h : i ≠ j) : (s.setSocket j c).sockets i = s.sockets i :=
  Function.update_of_ne h ..

theorem closeSocket_sockets (s : Server) (i j : ℕ) :
    (s.closeSocket j).sockets i = s.sockets i ∨
      (s.closeSocket j).sockets i = (s.sockets i).close := by
  by_cases h : i = j
  · subst h
    exact .inr setSocket_same
  · exact .inl (setSocket_other h)

end Server

namespace Serving

variable {config : ServerConfig} {s s' : Server} {a : ServerAnswers} {k : Serving}
  {next : Option Serving} {i : ℕ} {before : FramedConnection} {asked answered : List Frame}

/-- A thread leaves a connection as it is, or closes it, unless it receives or responds on it. -/
theorem step_sockets (k : Serving) (hi : i < s.accepted)
    (hreceive : ∀ session, k = .receive session → session.connection ≠ i)
    (hrespond : ∀ session requestId fault response after,
      k = .respond session requestId fault response after → session.connection ≠ i) :
    (step config s a k).1.sockets i = s.sockets i ∨
      (step config s a k).1.sockets i = (s.sockets i).close := by
  cases k with
  | start =>
    simp only [step]
    split <;> exact .inl rfl
  | accept =>
    simp only [step]
    split
    · exact .inl (Server.setSocket_other hi.ne)
    · exact .inl rfl
  | enlist =>
    simp only [step]
    split <;> exact .inl rfl
  | discard j => exact s.closeSocket_sockets i j
  | begin =>
    simp only [step]
    split <;> exact .inl rfl
  | receive session => exact .inl (Server.setSocket_other (hreceive session rfl).symm)
  | respond session requestId fault response after =>
    exact .inl (Server.setSocket_other (hrespond _ _ _ _ _ rfl).symm)
  | finish session => exact s.closeSocket_sockets i _
  | stop session =>
    simp only [step]
    split <;> exact .inl rfl
  | closeConnections todo session =>
    cases todo with
    | nil => exact .inl rfl
    | cons j rest => exact s.closeSocket_sockets i j
  | _ => exact .inl rfl

theorem kept (h : Exchange before (s.sockets i) asked answered)
    (hkept : s'.sockets i = s.sockets i ∨ s'.sockets i = (s.sockets i).close) :
    Exchange before (s'.sockets i) asked answered := by
  rcases hkept with hkept | hkept
  · rwa [hkept]
  · rw [hkept]
    exact h.shut FramedConnection.not_open_close rfl

/-- A connection gets a new thread only when that thread begins to serve it. -/
theorem Handles.enters (h : Handles config s k s' next) (hk : k.owns ≠ some i)
    (hi : i < s.accepted) {k' : Serving} (hnext : next = some k') (howns : k'.owns = some i) :
    k' = .receive { connection := i } := by
  cases h with
  | goes same hown =>
    subst hnext
    exact absurd (hown.symm.trans howns) hk
  | accepts =>
    obtain rfl := Option.some.inj hnext
    exact absurd (Option.some.inj howns) hi.ne'
  | admits =>
    obtain rfl := Option.some.inj hnext
    exact absurd howns hk
  | spawns =>
    obtain rfl := Option.some.inj hnext
    cases howns
  | discards =>
    obtain rfl := Option.some.inj hnext
    cases howns
  | begins =>
    obtain rfl := Option.some.inj hnext
    obtain rfl := Option.some.inj howns
    rfl
  | leaves => cases hnext

theorem Handles.accepted_le (h : Handles config s k s' next) : s.accepted ≤ s'.accepted := by
  cases h with
  | accepts haccepted => exact haccepted ▸ Nat.le_succ _
  | goes same | spawns _ same | discards same | begins _ same => exact same.2.2.2.ge
  | admits _ _ _ _ _ haccepted | leaves _ _ _ haccepted => exact haccepted.ge

/-- What a step makes of a connection and of the thread that handles it. -/
def Continues (limits : Limits) (before now : FramedConnection) (asked answered : List Frame)
    (next : Option Serving) : Prop :=
  Exchange before now asked answered ∧ (ids answered).Sublist (ids asked) ∧
    ∀ k', next = some k' → k'.Answers limits asked answered

/-- A step that neither receives nor responds, after which nothing is owed. -/
theorem continues_quiet (hex : Exchange before (s.sockets i) asked answered)
    (hk : k.Answers config.limits asked answered)
    (hkept : s'.sockets i = s.sockets i ∨ s'.sockets i = (s.sockets i).close)
    (hnext : ∀ k', next = some k' → k'.pending = [] ∧ k'.introduced = false) :
    Continues config.limits before (s'.sockets i) asked answered next :=
  ⟨kept hex hkept, hk.ids, fun k' hk' => .quiet hk.ids (hnext k' hk').1 (hnext k' hk').2⟩

/-- The thread that handles a connection receives on it. -/
theorem continues_receive (session : Session)
    (hex : Exchange before (s.sockets session.connection) asked answered)
    (hk : (receive session).Answers config.limits asked answered) :
    ∃ asked', Continues config.limits before
      ((step config s a (.receive session)).1.sockets session.connection) asked' answered
      (step config s a (.receive session)).2 := by
  simp only [step, Server.setSocket_same]
  by_cases hopen : (s.sockets session.connection).Open
  · cases hout : (s.sockets session.connection).receive config.limits with
    | mk outcome c' =>
    cases outcome with
    | error status =>
      have hshut : ¬ c'.Open := by
        have hpoisoned := FramedConnection.poisoned_of_receive hopen (congrArg Prod.fst hout)
        rw [hout] at hpoisoned
        exact FramedConnection.not_open_of_poisoned hpoisoned
      have hout' : c'.outgoing = (s.sockets session.connection).outgoing := by
        have hsame : ((s.sockets session.connection).receive config.limits).2.outgoing = _ :=
          FramedConnection.receive_outgoing
        rwa [hout] at hsame
      refine ⟨asked, hex.shut hshut hout', hk.ids, ?_⟩
      rintro k' ⟨⟩
      exact .quiet hk.ids rfl rfl
    | ok frame =>
      obtain ⟨-, hin, hnow⟩ := FramedConnection.of_receive hopen hout
      have hids : (ids answered ++ [frame.requestId]).Sublist (ids (asked ++ [frame])) := by
        rw [ids_concat]
        exact hk.ids.append (List.Sublist.refl _)
      have hsub := (List.sublist_append_left (ids answered) [frame.requestId]).trans hids
      refine ⟨asked ++ [frame], hex.received hopen hin hnow, hsub, ?_⟩
      have hgreeted : session.established = true → ∃ hello ∈ asked ++ [frame], ∃ agentName claimed,
          handle config.limits false hello = .welcome agentName claimed := fun h =>
        (hk.greeted h).imp fun hello hh => ⟨List.mem_append_left _ hh.1, hh.2⟩
      have hlast : frame ∈ asked ++ [frame] := List.mem_append_right _ List.mem_cons_self
      intro k' hk'
      obtain rfl : received config session frame = k' := Option.some.inj hk'
      unfold received
      split
      · exact .quiet hsub rfl rfl
      · exact ⟨hids, hgreeted, fun _ _ _ _ h => by cases h⟩
      · rename_i agentName claimed hwelcome
        exact ⟨hids, fun _ => ⟨frame, hlast, agentName, claimed, handle_welcome hwelcome⟩,
          fun _ _ _ _ h => by cases h⟩
      · rename_i request hdispatch
        have hestablished := handle_dispatch hdispatch
        rw [hestablished] at hdispatch
        refine ⟨hids, fun _ => hgreeted hestablished, ?_⟩
        rintro _ _ _ _ ⟨⟩
        exact ⟨frame, hlast, rfl, hdispatch⟩
  · have hshut : ∃ status, (s.sockets session.connection).receive config.limits =
        (.error status, _) := FramedConnection.receive_shut hopen
    obtain ⟨status, hshut⟩ := hshut
    rw [hshut]
    refine ⟨asked, hex, hk.ids, ?_⟩
    rintro k' ⟨⟩
    exact .quiet hk.ids rfl rfl

theorem responded_owes (session : Session) (sent : Bool) (after : After) :
    (responded session sent after).pending = [] ∧
      ((responded session sent after).introduced = true → session.established = true) ∧
      ∀ session' requestId r d,
        responded session sent after ≠ .dispatch session' requestId r d := by
  have hnext : responded session sent after = .receive session ∨
      responded session sent after = .finish session ∨
      responded session sent after = .stop (some session) := by
    cases after <;> cases sent <;> simp [responded]
  rcases hnext with hnext | hnext | hnext <;> rw [hnext]
  · exact ⟨rfl, id, fun _ _ _ _ h => by cases h⟩
  · exact ⟨rfl, (fun h => by cases h), fun _ _ _ _ h => by cases h⟩
  · exact ⟨rfl, (fun h => by cases h), fun _ _ _ _ h => by cases h⟩

/-- The thread that handles a connection responds on it. -/
theorem continues_respond (session : Session) (requestId : UInt64) (fault : Bool)
    (response : ControlResponse) (after : After)
    (hex : Exchange before (s.sockets session.connection) asked answered)
    (hk : (respond session requestId fault response after).Answers config.limits asked answered) :
    ∃ answered', Continues config.limits before
      ((step config s a (.respond session requestId fault response after)).1.sockets
        session.connection) asked answered'
      (step config s a (.respond session requestId fault response after)).2 := by
  simp only [step, Server.setSocket_same]
  have howed := responded_owes session
    ((s.sockets session.connection).sendResponse config.limits requestId fault response
      a.room).1.isOk after
  generalize responded session _ after = k' at howed
  obtain ⟨hpending, hintroduced, hne⟩ := howed
  -- what is owed after the response: nothing
  have hnext : ∀ frames, (ids frames).Sublist (ids asked) → ∀ x, some k' = some x →
      x.Answers config.limits asked frames := by
    rintro frames hframes x ⟨⟩
    refine ⟨by rwa [hpending, List.append_nil], fun h => hk.greeted (hintroduced h), ?_⟩
    exact fun session' requestId' r d h => absurd h (hne session' requestId' r d)
  by_cases hopen : (s.sockets session.connection).Open
  · have hsends := @FramedConnection.sendResponse_sends config.limits
      (s.sockets session.connection) requestId fault response a.room
    rcases hsends with hsame | ⟨frame, hid, htype, hsent⟩
    · rw [hsame]
      exact ⟨answered, hex, hk.ids, hnext answered hk.ids⟩
    · have hids : (ids (answered ++ [frame])).Sublist (ids asked) := by
        rw [ids_concat, hid]
        exact hk.owed
      exact ⟨answered ++ [frame], hex.replied hopen htype hsent, hids, hnext _ hids⟩
  · have hsame : ((s.sockets session.connection).sendResponse config.limits requestId fault
        response a.room).2 = s.sockets session.connection := by
      unfold FramedConnection.sendResponse
      split
      · rfl
      · exact FramedConnection.send_shut hopen _
    rw [hsame]
    exact ⟨answered, hex, hk.ids, hnext answered hk.ids⟩

/-- A thread that neither receives nor responds on its connection owes nothing for it. -/
theorem quiet_after {k' : Serving} (hquiet : k.pending = [])
    (hreceive : ∀ session, k ≠ .receive session) (hown : k.owns ≠ none)
    (hnext : (step config s a k).2 = some k') :
    k'.pending = [] ∧ k'.introduced = false := by
  cases k with
  | start | accept | refused | idle | closeRun | begin => exact absurd rfl hown
  | enlist i =>
    simp only [step] at hnext
    split at hnext <;> (obtain rfl := Option.some.inj hnext; exact ⟨rfl, rfl⟩)
  | stop session =>
    simp only [step] at hnext
    split at hnext
    · cases session <;> cases hnext
      exact ⟨rfl, rfl⟩
    · obtain rfl := Option.some.inj hnext
      exact ⟨rfl, rfl⟩
  | closeConnections todo session =>
    cases todo with
    | nil =>
      cases session <;> cases hnext
      exact ⟨rfl, rfl⟩
    | cons j rest =>
      obtain rfl := Option.some.inj hnext
      exact ⟨rfl, rfl⟩
  | leave => cases hnext
  | spawn | discard | finish | closeListener =>
    obtain rfl := Option.some.inj hnext
    exact ⟨rfl, rfl⟩
  | receive session => exact absurd rfl (hreceive session)
  | dispatch | respond | welcomeEpoch | welcomeBoot | welcomeRunning => cases hquiet

/-- A step of the thread that handles a connection. -/
theorem step_continues (hown : k.owns = some i) (hi : i < s.accepted)
    (hex : Exchange before (s.sockets i) asked answered)
    (hk : k.Answers config.limits asked answered) :
    ∃ asked' answered', Continues config.limits before ((step config s a k).1.sockets i) asked'
      answered' (step config s a k).2 := by
  cases k with
  | receive session =>
    obtain rfl := Option.some.inj hown
    obtain ⟨asked', hcontinues⟩ := continues_receive (a := a) session hex hk
    exact ⟨asked', answered, hcontinues⟩
  | respond session requestId fault response after =>
    obtain rfl := Option.some.inj hown
    exact ⟨asked, continues_respond session requestId fault response after hex hk⟩
  | welcomeEpoch | welcomeBoot | welcomeRunning =>
    refine ⟨asked, answered, hex, hk.ids, ?_⟩
    rintro k' ⟨⟩
    exact hk.on rfl id fun _ _ _ _ h => by cases h
  | dispatch session requestId request d =>
    simp only [step]
    refine ⟨asked, answered, hex, hk.ids, ?_⟩
    rintro k' ⟨⟩
    split
    · exact hk.on rfl (fun _ => rfl) fun _ _ _ _ h => by cases h
    · refine hk.on rfl id ?_
      rintro _ _ _ _ ⟨⟩
      exact ⟨_, rfl⟩
    · exact .quiet hk.ids rfl rfl
  | start | accept | refused | idle | closeRun | begin => cases hown
  | enlist | spawn | discard | finish | leave | stop | closeListener | closeConnections =>
    refine ⟨asked, answered, continues_quiet hex hk (step_sockets _ hi ?_ ?_) ?_⟩
    · rintro _ ⟨⟩
    · rintro _ _ _ _ _ ⟨⟩
    · exact fun k' hk' => quiet_after rfl (fun _ h => by cases h) (by rw [hown]; simp) hk'

end Serving

/-- Whichever thread handles a connection, it has been asked what it answers. -/
def Server.Conversed (config : ServerConfig) (before : FramedConnection) (i : ℕ)
    (c : Config Server Serving) : Prop :=
  i < c.shared.accepted ∧ ∃ asked answered, Exchange before (c.shared.sockets i) asked answered ∧
    (ids answered).Sublist (ids asked) ∧ ∀ j k, c.calls j = some k → k.owns = some i →
      k.Answers config.limits asked answered

theorem Server.Conversed.step {config : ServerConfig} {before : FramedConnection} {i : ℕ}
    {c c' : Config Server Serving} {e : Event Serving ServerRequest ServerAnswers}
    (h : Conversed config before i c) (hholds : (pooled config).Holds c)
    (hs : Step (server config) c e c') : Conversed config before i c' := by
  obtain ⟨hi, asked, answered, hex, hids, hthreads⟩ := h
  cases hs with
  | @start t r free =>
    refine ⟨hi, asked, answered, hex, hids, fun j k hk hown => ?_⟩
    change Function.update c.calls t (some (Serving.ofRequest r)) j = some k at hk
    by_cases hj : j = t
    · subst hj
      rw [Function.update_self] at hk
      obtain rfl := Option.some.inj hk
      rw [Serving.owns_ofRequest] at hown
      cases hown
    · rw [Function.update_of_ne hj] at hk
      exact hthreads j k hk hown
  | @move t k a here =>
    have hstep : Serving.Handles config c.shared k _ _ := Serving.step_handles (a := a) k
    have haccepted := hi.trans_le hstep.accepted_le
    by_cases hown : k.owns = some i
    · obtain ⟨asked', answered', hex', hids', hnext⟩ :=
        Serving.step_continues (a := a) hown hi hex (hthreads t k here hown)
      refine ⟨haccepted, asked', answered', hex', hids', fun j l hl hown' => ?_⟩
      change Function.update c.calls t (Serving.step config c.shared a k).2 j = some l at hl
      by_cases hj : j = t
      · subst hj
        rw [Function.update_self] at hl
        exact hnext l hl
      · rw [Function.update_of_ne hj] at hl
        exact absurd hown' (hholds.apart t j k l (Ne.symm hj) here hl i hown)
    · refine ⟨haccepted, asked, answered, Serving.kept hex (Serving.step_sockets k hi ?_ ?_), hids,
        fun j l hl hown' => ?_⟩
      · rintro session rfl h
        exact hown (congrArg some h)
      · rintro session _ _ _ _ rfl h
        exact hown (congrArg some h)
      · change Function.update c.calls t (Serving.step config c.shared a k).2 j = some l at hl
        by_cases hj : j = t
        · subst hj
          rw [Function.update_self] at hl
          obtain rfl := hstep.enters hown hi hl hown'
          exact .quiet hids rfl rfl
        · rw [Function.update_of_ne hj] at hl
          exact hthreads j l hl hown'
  | restart h => exact h.elim

/-- Over every run of a server from the moment a connection waits for its thread, whatever
comes in over it and whatever happens to the others: what goes out are replies to frames that
came in, each answered at most once and in their order, and what is dispatched came in from a
peer that had introduced itself. -/
theorem replies_paired {config : ServerConfig} {f : Fabric} {m : ℕ} {c₀ : Config Server Serving}
    (h₀ : Run (server config) anyStep (.idle (.initial f)) m c₀) {i : ℕ}
    (hi : i ∈ c₀.shared.spawned) {n : ℕ} {c : Config Server Serving}
    (h : Run (server config) anyStep c₀ n c) :
    ∃ asked answered : List Frame,
      asked.flatMap Frame.wire <+: (c₀.shared.sockets i).incoming ∧
      (c.shared.sockets i).outgoing <+:
        (c₀.shared.sockets i).outgoing ++ answered.flatMap Frame.wire ∧
      (∀ f ∈ answered, f.type = .response ∨ f.type = .fault) ∧
      (ids answered).Sublist (ids asked) ∧
      ∀ t session requestId r d, c.calls t = some (.dispatch session requestId r d) →
        session.connection = i →
        (∃ f ∈ asked, f.requestId = requestId ∧ handle config.limits true f = .dispatch r) ∧
        ∃ hello ∈ asked, ∃ agentName claimed,
          handle config.limits false hello = .welcome agentName claimed := by
  obtain ⟨hholds, -⟩ := pooled_of_run h₀
  have haccepted : i < c₀.shared.accepted :=
    hholds.shared.accepted i (hholds.shared.waiting i hi)
  -- nothing has come in or gone out so far, and no thread has the connection
  have hfirst : Server.Conversed config (c₀.shared.sockets i) i c₀ :=
    ⟨haccepted, [], [], .refl _, List.Sublist.refl _,
      fun j k hk hown => absurd hi ((hholds.assertion j k hk).taken i hown)⟩
  have hlast : (pooled config).Holds c ∧ Server.Conversed config (c₀.shared.sockets i) i c := by
    refine h.invariant (I := fun c => (pooled config).Holds c ∧
      Server.Conversed config (c₀.shared.sockets i) i c) ⟨hholds, hfirst⟩ ?_
    rintro c e c' ⟨hholds, hconversed⟩ hok hs
    exact ⟨(pooled_stable config).holds hholds (.succ .zero hok hs), hconversed.step hholds hs⟩
  obtain ⟨-, -, asked, answered, hex, hids, hthreads⟩ := hlast
  refine ⟨asked, answered, hex.taken, hex.sent, hex.replies, hids, ?_⟩
  rintro t session requestId r d hd rfl
  have hanswers := hthreads t _ hd rfl
  exact ⟨hanswers.asks _ _ _ _ rfl, hanswers.greeted rfl⟩

namespace Scenario

/-- Steps of a thread of a server that a peer connects to that introduces itself. -/
def greets (thread n : ℕ) : List (Action ServerRequest ServerAnswers) :=
  List.replicate n (.move thread { accepted := some greeting.connection.outgoing, room := 200 })

/-- The peer is accepted and its thread created. -/
def accepting : Config Server Serving :=
  (server {}).exec (.idle (.initial (Fabric.construct {} {})))
    (.start 0 .start :: greets 0 1 ++ .start 0 .run :: greets 0 3)

/-- The peer is welcomed. -/
def welcomes : Config Server Serving :=
  (server {}).exec accepting (.start 1 .serve :: greets 1 6)

end Scenario

set_option maxRecDepth 20000 in
/-- A hello and its welcome. -/
theorem replies_paired_welcome :
    ∃ asked answered : List Frame,
      asked.flatMap Frame.wire <+: (Scenario.accepting.shared.sockets 0).incoming ∧
      (Scenario.welcomes.shared.sockets 0).outgoing <+:
        (Scenario.accepting.shared.sockets 0).outgoing ++ answered.flatMap Frame.wire ∧
      (ids answered).Sublist (ids asked) ∧
      (Scenario.accepting.shared.sockets 0).outgoing.length <
        (Scenario.welcomes.shared.sockets 0).outgoing.length := by
  obtain ⟨m, hm⟩ := (server {}).run_exec (.idle (.initial (Fabric.construct {} {})))
    (.start 0 .start :: Scenario.greets 0 1 ++ .start 0 .run :: Scenario.greets 0 3)
  obtain ⟨n, hn⟩ := (server {}).run_exec Scenario.accepting
    (.start 1 .serve :: Scenario.greets 1 6)
  have hwaits : 0 ∈ Scenario.accepting.shared.spawned := by decide +kernel
  have hout : (Scenario.accepting.shared.sockets 0).outgoing.length <
      (Scenario.welcomes.shared.sockets 0).outgoing.length := by decide +kernel
  have hrun : Run (server {}) anyStep _ m Scenario.accepting := hm.mono fun _ _ _ => trivial
  have hrun' : Run (server {}) anyStep Scenario.accepting n Scenario.welcomes :=
    hn.mono fun _ _ _ => trivial
  obtain ⟨asked, answered, htaken, hsent, -, hids, -⟩ := replies_paired hrun hwaits hrun'
  exact ⟨asked, answered, htaken, hsent, hids, hout⟩

end Pacing
