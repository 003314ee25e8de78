import R2000Driver.HttpGet
import R2000Driver.Lists
import R2000Driver.Runs

/-!
# Asynchronous commands

The state that the asynchronous commands of one `R2000` share: the queue of
the worker, the cached endpoints, the operations pending on the resolver and
on the socket, the two deadlines, and the callbacks made so far. Jobs and
completion handlers are atomic; the network, the clock and the callbacks act
through the events of `step` in any order.

An operation carries the command that started it and, for the statements only,
its own deadline and whether `cancelPendingCommands` or the destructor ran
while it was outstanding. `disturbed` marks a connection whose socket was
closed by the start of another one.
-/

namespace R2000Driver.AsyncCommands
open Http

structure Command where
  id : ℕ
  timeout : ℕ
  deriving DecidableEq, Repr

abbrev Endpoint := ℕ

inductive Resolved
  | success (first : Endpoint) (rest : List Endpoint)
  | failed
  | aborted
  deriving DecidableEq, Repr

def Resolved.results : Resolved → List Endpoint
  | success first rest => first :: rest
  | failed => []
  | aborted => []

structure Resolution where
  command : Command
  completion : Option Resolved
  deadline : ℕ
  cancelled : Bool
  deriving DecidableEq, Repr

inductive Connected
  | success
  | failed
  | aborted
  deriving DecidableEq, Repr

structure Connection where
  command : Command
  endpoints : List Endpoint
  completion : Option Connected
  deadline : ℕ
  cancelled : Bool
  disturbed : Bool
  deriving DecidableEq, Repr

def Connection.active (c : Connection) : Bool :=
  c.completion == none || c.completion == some .success

structure Timer where
  expiry : ℕ
  waiting : ℕ
  ready : ℕ
  deriving DecidableEq, Repr

/-- Cancellation completes the waits, as the expiry does. -/
def Timer.cancel (t : Timer) : Timer := ⟨t.expiry, 0, t.ready + t.waiting⟩

def Timer.schedule (t : Timer) (expiry : ℕ) : Timer := ⟨expiry, 1, t.ready + t.waiting⟩

structure Call where
  id : ℕ
  result : RequestResult
  deadlinePassed : Bool
  cancelled : Bool
  disturbed : Bool
  deriving DecidableEq, Repr

structure Behaviour where
  firstThrows : Bool
  secondThrows : Bool
  deriving DecidableEq, Repr

structure State where
  now : ℕ
  accepted : ℕ
  jobs : List Command
  deviceEndpoints : Option (List Endpoint)
  resolutions : List Resolution
  connections : List Connection
  resolverDeadline : Timer
  socketDeadline : Timer
  ioServiceRuns : Bool
  calls : List Call
  succeeded : List (List Endpoint)
  deriving DecidableEq, Repr

namespace State

def init : State where
  now := 0
  accepted := 0
  jobs := []
  deviceEndpoints := none
  resolutions := []
  connections := []
  resolverDeadline := ⟨0, 0, 0⟩
  socketDeadline := ⟨0, 0, 0⟩
  ioServiceRuns := true
  calls := []
  succeeded := []

def cancelResolver (s : State) : State :=
  { s with resolutions := s.resolutions.map fun r =>
      if r.completion = none then { r with completion := some .aborted } else r }

def closeSocket (s : State) : State :=
  { s with connections := s.connections.map fun c =>
      if c.completion = none then { c with completion := some .aborted } else c }

/-- The connections whose socket the next closure takes away. -/
def disturbConnections (s : State) : State :=
  { s with connections := s.connections.map fun c => if c.active then { c with disturbed := true } else c }

def markCancelled (s : State) : State :=
  { s with
    resolutions := s.resolutions.map fun r => { r with cancelled := true }
    connections := s.connections.map fun c => { c with cancelled := true } }

def cancelPendingCommands (s : State) : State := s.markCancelled.cancelResolver.closeSocket

/-- An exception that leaves a handler ends the thread of the io service. -/
def escape (s : State) (throws : Bool) : State :=
  { s with ioServiceRuns := s.ioServiceRuns && !throws }

def invoke (s : State) (call : Call) (throws : Bool) : State :=
  ({ s with calls := s.calls ++ [call] }).escape throws

/-- The branch of `onEndpointResolutionAttemptCompleted` without an error. -/
def startConnection (s : State) (command : Command) (endpoints : List Endpoint) : State :=
  let s := ({ s with resolverDeadline := s.resolverDeadline.cancel }).disturbConnections.closeSocket
  { s with
    connections := s.connections ++
      [⟨command, endpoints, none, s.now + command.timeout, false, false⟩]
    socketDeadline := s.socketDeadline.schedule (s.now + command.timeout) }

def onEndpointResolutionAttemptCompleted (s : State) (r : Resolution) (completion : Resolved)
    (throws : Bool) : State :=
  let call result := Call.mk r.command.id result (r.deadline ≤ s.now) r.cancelled false
  match completion with
  | .success first rest => s.startConnection r.command (first :: rest)
  | .aborted => ({ s with resolverDeadline := s.resolverDeadline.cancel }).invoke (call .timeout) throws
  | .failed => ({ s with resolverDeadline := s.resolverDeadline.cancel }).invoke (call .failed) throws

def asyncWorkerJob (s : State) (command : Command) : State :=
  match s.deviceEndpoints with
  | some endpoints => s.startConnection command endpoints
  | none =>
    { s with
      resolutions := s.resolutions ++ [⟨command, none, s.now + command.timeout, false⟩]
      resolverDeadline := s.resolverDeadline.schedule (s.now + command.timeout) }

def resolverHandler (s : State) (r : Resolution) (completion : Resolved) (throws : Bool) : State :=
  ({ s with deviceEndpoints := some completion.results }).onEndpointResolutionAttemptCompleted r
    completion throws

def onSocketConnectionAttemptCompleted (s : State) (c : Connection) (completion : Connected)
    (answer : Except String RequestResult) (behaviour : Behaviour) : State :=
  let call result := Call.mk c.command.id result (c.deadline ≤ s.now) c.cancelled c.disturbed
  let s := { s with socketDeadline := s.socketDeadline.cancel }
  match completion with
  | .success =>
    match answer with
    | .ok result =>
      -- The call stands inside the `try`: what it throws leads to a second one.
      if behaviour.firstThrows then
        (s.invoke (call result) false).invoke (call .failed) behaviour.secondThrows
      else s.invoke (call result) false
    | .error _ => s.invoke (call .failed) behaviour.firstThrows
  | .aborted => s.invoke (call .timeout) behaviour.firstThrows
  | .failed => s.invoke (call .failed) behaviour.firstThrows

def onEndpointResolutionDeadlineReached (s : State) : State :=
  if s.resolverDeadline.expiry ≤ s.now then s.cancelResolver else s

def onSocketConnectionDeadlineReached (s : State) : State :=
  if s.socketDeadline.expiry ≤ s.now then s.closeSocket else s

end State

inductive Event
  | submit (timeout : ℕ)
  | runJob
  | tick (duration : ℕ)
  | resolve (index : ℕ) (result : Option (Endpoint × List Endpoint))
  | connect (index : ℕ) (result : Connected)
  | resolverHandler (index : ℕ) (throws : Bool)
  | connectionHandler (index : ℕ) (answer : Except String RequestResult) (behaviour : Behaviour)
  | resolverTimerExpires
  | socketTimerExpires
  | resolverTimerHandler
  | socketTimerHandler
  | cancelPendingCommands
  /-- The destructor cancels the deadlines and the commands, then stops the io service. -/
  | destroy
  | stop
  deriving DecidableEq

open State

def resolvedOf : Option (Endpoint × List Endpoint) → Resolved
  | some (first, rest) => .success first rest
  | none => .failed

def step (s : State) : Event → Option State
  | .submit timeout =>
    some { s with accepted := s.accepted + 1, jobs := s.jobs ++ [⟨s.accepted, timeout⟩] }
  | .runJob =>
    match s.jobs with
    | [] => none
    | command :: jobs => some ({ s with jobs := jobs }.asyncWorkerJob command)
  | .tick duration => some { s with now := s.now + duration }
  | .resolve index result =>
    match s.resolutions[index]? with
    | some r =>
      if r.completion = none then
        some { s with
          resolutions := s.resolutions.set index { r with completion := some (resolvedOf result) }
          succeeded := s.succeeded ++ (result.map fun e => e.1 :: e.2).toList }
      else none
    | none => none
  | .connect index result =>
    match s.connections[index]? with
    | some c =>
      -- Only an endpoint can be connected to, and only a closure aborts.
      if c.completion = none ∧ result ≠ .aborted ∧ (result = .success → c.endpoints ≠ []) then
        some { s with connections := s.connections.set index { c with completion := some result } }
      else none
    | none => none
  | .resolverHandler index throws =>
    match s.resolutions[index]? with
    | some ⟨command, some completion, deadline, cancelled⟩ =>
      if s.ioServiceRuns then
        some ({ s with resolutions := s.resolutions.eraseIdx index }.resolverHandler
          ⟨command, some completion, deadline, cancelled⟩ completion throws)
      else none
    | _ => none
  | .connectionHandler index answer behaviour =>
    match s.connections[index]? with
    | some ⟨command, endpoints, some completion, deadline, cancelled, disturbed⟩ =>
      if s.ioServiceRuns then
        some ({ s with connections := s.connections.eraseIdx index }.onSocketConnectionAttemptCompleted
          ⟨command, endpoints, some completion, deadline, cancelled, disturbed⟩ completion answer
          behaviour)
      else none
    | _ => none
  | .resolverTimerExpires =>
    if s.resolverDeadline.expiry ≤ s.now then
      some { s with resolverDeadline := s.resolverDeadline.cancel }
    else none
  | .socketTimerExpires =>
    if s.socketDeadline.expiry ≤ s.now then
      some { s with socketDeadline := s.socketDeadline.cancel }
    else none
  | .resolverTimerHandler =>
    if s.ioServiceRuns ∧ 0 < s.resolverDeadline.ready then
      some { s with resolverDeadline := { s.resolverDeadline with
        ready := s.resolverDeadline.ready - 1 } }.onEndpointResolutionDeadlineReached
    else none
  | .socketTimerHandler =>
    if s.ioServiceRuns ∧ 0 < s.socketDeadline.ready then
      some { s with socketDeadline := { s.socketDeadline with
        ready := s.socketDeadline.ready - 1 } }.onSocketConnectionDeadlineReached
    else none
  | .cancelPendingCommands => some s.cancelPendingCommands
  | .destroy =>
    some { s with
      resolverDeadline := s.resolverDeadline.cancel
      socketDeadline := s.socketDeadline.cancel }.cancelPendingCommands
  | .stop => some { s with ioServiceRuns := false }

/-- What the handler of a connection passes to the callback, call by call. -/
def callResults (completion : Connected) (answer : Except String RequestResult)
    (behaviour : Behaviour) : List RequestResult :=
  match completion, answer with
  | .success, .ok result => if behaviour.firstThrows then [result, .failed] else [result]
  | .success, .error _ => [.failed]
  | .aborted, _ => [.timeout]
  | .failed, _ => [.failed]

def failureResult : Resolved → RequestResult
  | .aborted => .timeout
  | _ => .failed

inductive Acts (s : State) : Event → State → Prop
  | submit (timeout : ℕ) : Acts s (.submit timeout)
      { s with accepted := s.accepted + 1, jobs := s.jobs ++ [⟨s.accepted, timeout⟩] }
  | reuse {command : Command} {jobs : List Command} {endpoints : List Endpoint}
      (hjobs : s.jobs = command :: jobs) (hcache : s.deviceEndpoints = some endpoints) :
      Acts s .runJob ({ s with jobs := jobs }.startConnection command endpoints)
  | query {command : Command} {jobs : List Command} (hjobs : s.jobs = command :: jobs)
      (hcache : s.deviceEndpoints = none) : Acts s .runJob { s with
        jobs := jobs
        resolutions := s.resolutions ++ [⟨command, none, s.now + command.timeout, false⟩]
        resolverDeadline := s.resolverDeadline.schedule (s.now + command.timeout) }
  | tick (duration : ℕ) : Acts s (.tick duration) { s with now := s.now + duration }
  | resolve {index : ℕ} {r : Resolution} (result : Option (Endpoint × List Endpoint))
      (hget : s.resolutions[index]? = some r) (hpending : r.completion = none) :
      Acts s (.resolve index result) { s with
        resolutions := s.resolutions.set index { r with completion := some (resolvedOf result) }
        succeeded := s.succeeded ++ (result.map fun e => e.1 :: e.2).toList }
  | connect {index : ℕ} {c : Connection} {result : Connected}
      (hget : s.connections[index]? = some c) (hpending : c.completion = none)
      (hresult : result ≠ .aborted) : Acts s (.connect index result)
        { s with connections := s.connections.set index { c with completion := some result } }
  | resolved {index : ℕ} {r : Resolution} {first : Endpoint} {rest : List Endpoint} (throws : Bool)
      (hget : s.resolutions[index]? = some r) (hdone : r.completion = some (.success first rest)) :
      Acts s (.resolverHandler index throws) ({ s with
        resolutions := s.resolutions.eraseIdx index
        deviceEndpoints := some (first :: rest) }.startConnection r.command (first :: rest))
  | unresolved {index : ℕ} {r : Resolution} {completion : Resolved} (throws : Bool)
      (hget : s.resolutions[index]? = some r) (hdone : r.completion = some completion)
      (hresults : completion.results = []) : Acts s (.resolverHandler index throws) { s with
        resolutions := s.resolutions.eraseIdx index
        deviceEndpoints := some []
        resolverDeadline := s.resolverDeadline.cancel
        calls := s.calls ++
          [⟨r.command.id, failureResult completion, r.deadline ≤ s.now, r.cancelled, false⟩]
        ioServiceRuns := s.ioServiceRuns && !throws }
  | connectionHandler {index : ℕ} {c : Connection} {completion : Connected}
      (answer : Except String RequestResult) (behaviour : Behaviour) (runs : Bool)
      (hget : s.connections[index]? = some c) (hdone : c.completion = some completion) :
      Acts s (.connectionHandler index answer behaviour) { s with
        connections := s.connections.eraseIdx index
        socketDeadline := s.socketDeadline.cancel
        calls := s.calls ++ (callResults completion answer behaviour).map fun result =>
          ⟨c.command.id, result, c.deadline ≤ s.now, c.cancelled, c.disturbed⟩
        ioServiceRuns := runs }
  | resolverTimerExpires :
      Acts s .resolverTimerExpires { s with resolverDeadline := s.resolverDeadline.cancel }
  | socketTimerExpires :
      Acts s .socketTimerExpires { s with socketDeadline := s.socketDeadline.cancel }
  | resolverTimeout (ready : ℕ) (hexpired : s.resolverDeadline.expiry ≤ s.now) :
      Acts s .resolverTimerHandler
        { s with resolverDeadline := { s.resolverDeadline with ready := ready } }.cancelResolver
  | resolverWait (ready : ℕ) (hwait : s.now < s.resolverDeadline.expiry) :
      Acts s .resolverTimerHandler
        { s with resolverDeadline := { s.resolverDeadline with ready := ready } }
  | socketTimeout (ready : ℕ) (hexpired : s.socketDeadline.expiry ≤ s.now) :
      Acts s .socketTimerHandler
        { s with socketDeadline := { s.socketDeadline with ready := ready } }.closeSocket
  | socketWait (ready : ℕ) (hwait : s.now < s.socketDeadline.expiry) :
      Acts s .socketTimerHandler
        { s with socketDeadline := { s.socketDeadline with ready := ready } }
  | cancelPendingCommands : Acts s .cancelPendingCommands s.cancelPendingCommands
  | destroy : Acts s .destroy { s with
      resolverDeadline := s.resolverDeadline.cancel
      socketDeadline := s.socketDeadline.cancel }.cancelPendingCommands
  | stop : Acts s .stop { s with ioServiceRuns := false }

theorem asyncWorkerJob_of_some {s : State} {command : Command} {endpoints : List Endpoint}
    (h : s.deviceEndpoints = some endpoints) :
    s.asyncWorkerJob command = s.startConnection command endpoints := by
  simp only [asyncWorkerJob, h]

theorem asyncWorkerJob_of_none {s : State} {command : Command} (h : s.deviceEndpoints = none) :
    s.asyncWorkerJob command = { s with
      resolutions := s.resolutions ++ [⟨command, none, s.now + command.timeout, false⟩]
      resolverDeadline := s.resolverDeadline.schedule (s.now + command.timeout) } := by
  simp only [asyncWorkerJob, h]

theorem onSocketConnectionAttemptCompleted_eq (s : State) (c : Connection) (completion : Connected)
    (answer : Except String RequestResult) (behaviour : Behaviour) :
    ∃ runs, s.onSocketConnectionAttemptCompleted c completion answer behaviour =
      { s with
        socketDeadline := s.socketDeadline.cancel
        calls := s.calls ++ (callResults completion answer behaviour).map fun result =>
          ⟨c.command.id, result, c.deadline ≤ s.now, c.cancelled, c.disturbed⟩
        ioServiceRuns := runs } := by
  cases completion with
  | failed => exact ⟨_, rfl⟩
  | aborted => exact ⟨_, rfl⟩
  | success =>
    cases answer with
    | error what => exact ⟨_, rfl⟩
    | ok result =>
      simp only [onSocketConnectionAttemptCompleted, callResults]
      split_ifs
      · refine ⟨((s.ioServiceRuns && !false) && !behaviour.secondThrows), ?_⟩
        simp [invoke, escape]
      · exact ⟨_, rfl⟩

theorem acts_of_step {s s' : State} {e : Event} (h : step s e = some s') : Acts s e s' := by
  cases e with
  | submit timeout =>
    cases h
    exact .submit timeout
  | runJob =>
    cases hjobs : s.jobs with
    | nil => simp [step, hjobs] at h
    | cons command jobs =>
      simp only [step, hjobs, Option.some.injEq] at h
      cases hcache : s.deviceEndpoints with
      | some endpoints =>
        rw [asyncWorkerJob_of_some (s := { s with jobs := jobs }) hcache] at h
        exact h ▸ .reuse hjobs hcache
      | none =>
        rw [asyncWorkerJob_of_none (s := { s with jobs := jobs }) hcache] at h
        exact h ▸ .query hjobs hcache
  | tick duration =>
    cases h
    exact .tick duration
  | resolve index result =>
    cases hget : s.resolutions[index]? with
    | none => simp [step, hget] at h
    | some r =>
      simp only [step, hget, Option.ite_none_right_eq_some, Option.some.injEq] at h
      exact h.2 ▸ .resolve result hget h.1
  | connect index result =>
    cases hget : s.connections[index]? with
    | none => simp [step, hget] at h
    | some c =>
      simp only [step, hget, Option.ite_none_right_eq_some, Option.some.injEq] at h
      exact h.2 ▸ .connect hget h.1.1 h.1.2.1
  | resolverHandler index throws =>
    cases hget : s.resolutions[index]? with
    | none => simp [step, hget] at h
    | some r =>
      obtain ⟨command, completion, deadline, cancelled⟩ := r
      cases completion with
      | none => simp [step, hget] at h
      | some completion =>
        simp only [step, hget, Option.ite_none_right_eq_some, Option.some.injEq] at h
        cases completion with
        | success first rest => exact h.2 ▸ .resolved throws hget rfl
        | failed => exact h.2 ▸ .unresolved throws hget rfl rfl
        | aborted => exact h.2 ▸ .unresolved throws hget rfl rfl
  | connectionHandler index answer behaviour =>
    cases hget : s.connections[index]? with
    | none => simp [step, hget] at h
    | some c =>
      obtain ⟨command, endpoints, completion, deadline, cancelled, disturbed⟩ := c
      cases completion with
      | none => simp [step, hget] at h
      | some completion =>
        simp only [step, hget, Option.ite_none_right_eq_some, Option.some.injEq] at h
        obtain ⟨runs, heq⟩ := onSocketConnectionAttemptCompleted_eq
          { s with connections := s.connections.eraseIdx index }
          ⟨command, endpoints, some completion, deadline, cancelled, disturbed⟩ completion answer
          behaviour
        rw [heq] at h
        exact h.2 ▸ .connectionHandler answer behaviour runs hget rfl
  | resolverTimerExpires =>
    simp only [step, Option.ite_none_right_eq_some, Option.some.injEq] at h
    exact h.2 ▸ .resolverTimerExpires
  | socketTimerExpires =>
    simp only [step, Option.ite_none_right_eq_some, Option.some.injEq] at h
    exact h.2 ▸ .socketTimerExpires
  | resolverTimerHandler =>
    simp only [step, Option.ite_none_right_eq_some, Option.some.injEq,
      onEndpointResolutionDeadlineReached] at h
    obtain ⟨-, rfl⟩ := h
    split_ifs with hexpired
    · exact .resolverTimeout _ hexpired
    · exact .resolverWait _ (not_le.mp hexpired)
  | socketTimerHandler =>
    simp only [step, Option.ite_none_right_eq_some, Option.some.injEq,
      onSocketConnectionDeadlineReached] at h
    obtain ⟨-, rfl⟩ := h
    split_ifs with hexpired
    · exact .socketTimeout _ hexpired
    · exact .socketWait _ (not_le.mp hexpired)
  | cancelPendingCommands =>
    cases h
    exact .cancelPendingCommands
  | destroy =>
    cases h
    exact .destroy
  | stop =>
    cases h
    exact .stop

namespace State

theorem mem_closeSocket {s : State} {c : Connection} (hc : c ∈ s.closeSocket.connections) :
    (c ∈ s.connections ∧ c.completion ≠ none) ∨
      ∃ c' ∈ s.connections, c'.completion = none ∧ c = { c' with completion := some .aborted } := by
  obtain ⟨c', hc', rfl⟩ := List.mem_map.mp hc
  split_ifs with hpending
  · exact Or.inr ⟨c', hc', hpending, rfl⟩
  · exact Or.inl ⟨hc', hpending⟩

theorem mem_cancelResolver {s : State} {r : Resolution} (hr : r ∈ s.cancelResolver.resolutions) :
    (r ∈ s.resolutions ∧ r.completion ≠ none) ∨
      ∃ r' ∈ s.resolutions, r'.completion = none ∧ r = { r' with completion := some .aborted } := by
  obtain ⟨r', hr', rfl⟩ := List.mem_map.mp hr
  split_ifs with hpending
  · exact Or.inr ⟨r', hr', hpending, rfl⟩
  · exact Or.inl ⟨hr', hpending⟩

theorem mem_cancelPendingCommands_connections {s : State} {c : Connection}
    (hc : c ∈ s.cancelPendingCommands.connections) :
    c.completion ≠ none ∧ c.cancelled = true ∧ ∃ c' ∈ s.connections, c.disturbed = c'.disturbed := by
  rcases mem_closeSocket hc with ⟨hc, hdone⟩ | ⟨c', hc', -, rfl⟩
  · obtain ⟨c', hc', rfl⟩ := List.mem_map.mp hc
    exact ⟨hdone, rfl, c', hc', rfl⟩
  · obtain ⟨c'', hc'', rfl⟩ := List.mem_map.mp hc'
    exact ⟨nofun, rfl, c'', hc'', rfl⟩

theorem mem_cancelPendingCommands_resolutions {s : State} {r : Resolution}
    (hr : r ∈ s.cancelPendingCommands.resolutions) : r.completion ≠ none ∧ r.cancelled = true := by
  have hr : r ∈ s.markCancelled.cancelResolver.resolutions := hr
  rcases mem_cancelResolver hr with ⟨hr, hdone⟩ | ⟨r', hr', -, rfl⟩
  · obtain ⟨r', hr', rfl⟩ := List.mem_map.mp hr
    exact ⟨hdone, rfl⟩
  · obtain ⟨r'', hr'', rfl⟩ := List.mem_map.mp hr'
    exact ⟨nofun, rfl⟩

end State
end R2000Driver.AsyncCommands
