import R2000Driver.AsyncCommands

/-!
# Interference between commands

All commands share one socket, one resolver and one timer for each. A command
keeps to itself as long as no connection is started over another one, no expiry
of the resolver's timer finds a resolution that has time left, and the device
does not answer with the status of a timeout.
-/

namespace R2000Driver.AsyncCommands
open Http Runs

/-- Timeouts and abortions are due to the own deadline or to a cancellation, and no connection
lost its socket to another command. -/
structure NoInterference (s : State) : Prop where
  calls : ∀ call ∈ s.calls, call.disturbed = false ∧
    (call.result = .timeout → call.deadlinePassed = true ∨ call.cancelled = true)
  resolutions : ∀ r ∈ s.resolutions,
    r.completion = some .aborted → r.deadline ≤ s.now ∨ r.cancelled = true
  connections : ∀ c ∈ s.connections, c.disturbed = false ∧
    (c.completion = some .aborted → c.deadline ≤ s.now ∨ c.cancelled = true)

structure Timed (s : State) : Prop where
  connecting : ∀ c ∈ s.connections, c.completion = none → c.deadline = s.socketDeadline.expiry
  resolving : ∀ r ∈ s.resolutions, r.completion = none → r.cancelled = false

namespace State

theorem startConnection_of_idle {s : State} (h : ∀ c ∈ s.connections, ¬ c.active = true)
    (command : Command) (endpoints : List Endpoint) :
    (s.startConnection command endpoints).connections =
      s.connections ++ [⟨command, endpoints, none, s.now + command.timeout, false, false⟩] := by
  have hdisturb : s.connections.map (fun c => if c.active then { c with disturbed := true } else c) =
      s.connections := by
    conv_rhs => rw [← List.map_id s.connections]
    exact List.map_congr_left fun c hc => if_neg (h c hc)
  have hclose : s.connections.map (fun c =>
      if c.completion = none then { c with completion := some .aborted } else c) = s.connections := by
    conv_rhs => rw [← List.map_id s.connections]
    refine List.map_congr_left fun c hc => if_neg fun hpending => h c hc ?_
    simp [Connection.active, hpending]
  change (s.connections.map _).map _ ++ _ = _
  rw [hdisturb, hclose]
  rfl

end State

open State

theorem Timed.startConnection {s : State} (hs : Timed s) (command : Command)
    (endpoints : List Endpoint) : Timed (s.startConnection command endpoints) := by
  refine ⟨fun c hc hpending => ?_, hs.resolving⟩
  rcases List.mem_append.mp hc with hc | hc
  · rcases mem_closeSocket hc with ⟨-, hdone⟩ | ⟨c', -, -, rfl⟩
    · exact absurd hpending hdone
    · simp at hpending
  · obtain rfl := List.mem_singleton.mp hc
    rfl

theorem NoInterference.startConnection {s : State} (hs : NoInterference s)
    (hidle : ∀ c ∈ s.connections, ¬ c.active = true) (command : Command)
    (endpoints : List Endpoint) : NoInterference (s.startConnection command endpoints) := by
  refine ⟨hs.calls, hs.resolutions, fun c hc => ?_⟩
  rw [startConnection_of_idle hidle] at hc
  rcases List.mem_append.mp hc with hc | hc
  · exact hs.connections c hc
  · obtain rfl := List.mem_singleton.mp hc
    exact ⟨rfl, nofun⟩

theorem NoInterference.closeSocket {s : State} (hs : NoInterference s)
    (hexpired : ∀ c ∈ s.connections, c.completion = none → c.deadline ≤ s.now) :
    NoInterference s.closeSocket := by
  refine ⟨hs.calls, hs.resolutions, fun c hc => ?_⟩
  rcases mem_closeSocket hc with ⟨hc, -⟩ | ⟨c', hc', hpending, rfl⟩
  · exact hs.connections c hc
  · exact ⟨(hs.connections c' hc').1, fun _ => Or.inl (hexpired c' hc' hpending)⟩

theorem NoInterference.cancelResolver {s : State} (hs : NoInterference s)
    (hexpired : ∀ r ∈ s.resolutions, r.completion = none → r.deadline ≤ s.now) :
    NoInterference s.cancelResolver := by
  refine ⟨hs.calls, fun r hr haborted => ?_, hs.connections⟩
  rcases mem_cancelResolver hr with ⟨hr, -⟩ | ⟨r', hr', hpending, rfl⟩
  · exact hs.resolutions r hr haborted
  · exact Or.inl (hexpired r' hr' hpending)

theorem NoInterference.cancelPendingCommands {s : State} (hs : NoInterference s) :
    NoInterference s.cancelPendingCommands := by
  refine ⟨hs.calls, fun r hr _ => Or.inr (mem_cancelPendingCommands_resolutions hr).2, fun c hc => ?_⟩
  obtain ⟨-, hcancelled, c', hc', hdisturbed⟩ := mem_cancelPendingCommands_connections hc
  exact ⟨hdisturbed.trans (hs.connections c' hc').1, fun _ => Or.inr hcancelled⟩

end R2000Driver.AsyncCommands
