import PacingFabric.Model.Protocol

/-!
# The control server

`ControlServer` accepts connections and serves each of them on a detached thread. One thread
accepts, any number serve, and any of them may stop the server; the sections under the lock of
the pool, the calls on a socket and the steps of a dispatch interleave. A connection is the
index it was accepted under, so that its socket can be closed by another thread. Each call on
a socket is one step: a close that comes in the middle of one counts as coming before it.
-/

namespace Pacing

/-- `ControlServer::Config`, as far as it is read. -/
structure ServerConfig where
  limits : Limits := {}
  maxConnections : UInt32 := 64

/-- The server and the coordinator behind it. `accepted` is the number of sockets handed out,
and `spawned` holds the threads that were created and have not run yet. -/
structure Server where
  fabric : Fabric
  listening : Bool := false
  started : Bool := false
  stopping : Bool := false
  connections : List ℕ := []
  active : ℕ := 0
  accepted : ℕ := 0
  sockets : ℕ → FramedConnection := fun _ => { incoming := [], valid := false }
  spawned : List ℕ := []

namespace Server

def setSocket (s : Server) (i : ℕ) (c : FramedConnection) : Server :=
  { s with sockets := Function.update s.sockets i c }

def closeSocket (s : Server) (i : ℕ) : Server := s.setSocket i (s.sockets i).close

end Server

/-- `ConnectionState`, with the connection it is about. -/
structure Session where
  connection : ℕ
  established : Bool := false
  claimed : CallerStamp := {}
  agentName : Bytes := []

/-- What `serve` does once a response is sent. -/
inductive After
  | proceed
  | require
  | finish
  | stop
  deriving DecidableEq, Repr

/-- Why a thread enters the server. -/
inductive ServerRequest
  | start
  | run
  | serve
  | stop

/-- A thread of the server, by the step it takes next. -/
inductive Serving
  | start
  | accept
  | refused
  | enlist (connection : ℕ)
  | spawn (connection : ℕ)
  | discard (connection : ℕ)
  | idle
  | closeRun
  | begin
  | receive (session : Session)
  | welcomeEpoch (session : Session) (requestId : UInt64)
  | welcomeBoot (session : Session) (requestId : UInt64) (epoch : Epoch)
  | welcomeRunning (session : Session) (requestId : UInt64) (epoch : Epoch) (boot : BootId)
  | dispatch (session : Session) (requestId : UInt64) (request : ControlRequest) (d : Dispatch)
  | respond (session : Session) (requestId : UInt64) (fault : Bool) (response : ControlResponse)
      (after : After)
  | finish (session : Session)
  | leave (session : Session)
  | stop (session : Option Session)
  | closeListener (todo : List ℕ) (session : Option Session)
  | closeConnections (todo : List ℕ) (session : Option Session)

/-- The answers of the environment to one step: those of the coordinator's, whether the
listener could be opened, the bytes the peer of an accepted connection will send, and how much
the socket takes. -/
structure ServerAnswers where
  fabric : Answers := {}
  listens : Bool := true
  accepted : Option Bytes := none
  room : ℕ := 0

namespace Serving

def ofRequest : ServerRequest → Serving
  | .start => .start
  | .run => .accept
  | .serve => .begin
  | .stop => .stop none

/-- A response that reports a failure is a fault. -/
def answer (session : Session) (requestId : UInt64) (response : ControlResponse)
    (after : After) : Serving :=
  .respond session requestId (response.code != .ok) response after

/-- What follows the receipt of a frame. -/
def received (config : ServerConfig) (session : Session) (frame : Frame) : Serving :=
  match handle config.limits session.established frame with
  | .finish => .finish session
  | .refuse response last =>
    .respond session frame.requestId true response (if last then .finish else .proceed)
  | .welcome agentName claimed =>
    .welcomeEpoch { session with established := true, claimed, agentName } frame.requestId
  | .dispatch request => .dispatch session frame.requestId request (Dispatch.begin request)

/-- What follows a response, from whether it was sent. -/
def responded (session : Session) (sent : Bool) : After → Serving
  | .proceed => .receive session
  | .require => if sent then .receive session else .finish session
  | .finish => .finish session
  | .stop => if sent then .stop (some session) else .finish session

/-- The end of `stop`: back in `serve`, or returned. -/
def stopped : Option Session → Option Serving
  | some session => some (.finish session)
  | none => none

/-- One step of a thread. -/
def step (config : ServerConfig) (s : Server) (a : ServerAnswers) :
    Serving → Server × Option Serving
  | .start =>
    if s.started then (s, none)
    else ({ s with listening := a.listens, started := a.listens }, none)
  | .accept =>
    match s.listening, a.accepted with
    | true, some incoming =>
      ({ s.setSocket s.accepted (.adopt incoming) with accepted := s.accepted + 1 },
        some (.enlist s.accepted))
    | _, _ => (s, some .refused)
  | .refused => (s, some (if s.stopping then .idle else .accept))
  | .enlist i =>
    if !s.stopping && decide (s.active < config.maxConnections.toNat) then
      ({ s with connections := s.connections ++ [i], active := s.active + 1 }, some (.spawn i))
    else (s, some (.discard i))
  | .spawn i => ({ s with spawned := s.spawned ++ [i] }, some .accept)
  | .discard i => (s.closeSocket i, some .accept)
  | .idle => (s, some (if s.active = 0 then .closeRun else .idle))
  | .closeRun => ({ s with listening := false }, none)
  | .begin =>
    match s.spawned with
    | [] => (s, none)
    | i :: rest => ({ s with spawned := rest }, some (.receive { connection := i }))
  | .receive session =>
    let (outcome, connection) := (s.sockets session.connection).receive config.limits
    (s.setSocket session.connection connection, some (
      match outcome with
      | .error _ => .finish session
      | .ok frame => received config session frame))
  | .welcomeEpoch session requestId =>
    (s, some (.welcomeBoot session requestId s.fabric.epoch))
  | .welcomeBoot session requestId epoch =>
    (s, some (.welcomeRunning session requestId epoch s.fabric.boot))
  | .welcomeRunning session requestId epoch boot =>
    let response := welcomeResponse epoch boot s.fabric.running
    (s, some (answer session requestId response
      (if response.code = .ok then .require else .finish)))
  | .dispatch session requestId request d =>
    let (fabric, next) := Dispatch.step config.limits s.fabric a.fabric d
    ({ s with fabric }, some (
      match d, next with
      | .respond response, _ =>
        answer session requestId response (if request.op = .stop then .stop else .require)
      | _, some d => .dispatch session requestId request d
      | _, none => .finish session))
  | .respond session requestId fault response after =>
    let (status, connection) := (s.sockets session.connection).sendResponse config.limits
      requestId fault response a.room
    (s.setSocket session.connection connection, some (responded session status.isOk after))
  | .finish session => (s.closeSocket session.connection, some (.leave session))
  | .leave session =>
    ({ s with active := s.active - 1,
              connections := s.connections.erase session.connection }, none)
  | .stop session =>
    if s.stopping then (s, stopped session)
    else ({ s with stopping := true }, some (.closeListener s.connections session))
  | .closeListener todo session =>
    ({ s with listening := false }, some (.closeConnections todo session))
  | .closeConnections [] session => (s, stopped session)
  | .closeConnections (i :: todo) session =>
    (s.closeSocket i, some (.closeConnections todo session))

end Serving

/-- The server and its threads. -/
def server (config : ServerConfig) :
    Interleaving.Program Server Serving ServerRequest ServerAnswers where
  begin := Serving.ofRequest
  step := Serving.step config
  restarts _ _ := False

/-- A server that has not been started, over a coordinator. -/
def Server.initial (f : Fabric) : Server := { fabric := f }

end Pacing
