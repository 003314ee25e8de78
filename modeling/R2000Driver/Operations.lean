import R2000Driver.CommandCallbacks

/-!
# The operations that the io service holds

An operation is outstanding until its handler has run. The handler of a
completed operation stays enabled whatever else happens meanwhile, and what it
will do, for which command and whether an exception leaves it, is settled when
it is entered (`Keeps.handled`).
-/

namespace R2000Driver.AsyncCommands
open Http State

def ofNetwork : Event → Bool
  | .tick _ => true
  | .resolve _ _ => true
  | .connect _ _ => true
  | .resolverTimerExpires => true
  | .socketTimerExpires => true
  | _ => false

def ofHandler : Event → Bool
  | .resolverHandler _ _ => true
  | .connectionHandler _ _ _ => true
  | .resolverTimerHandler => true
  | .socketTimerHandler => true
  | _ => false

theorem not_ofHandler_of_ofNetwork {e : Event} (h : ofNetwork e = true) : ofHandler e = false := by
  cases e with
  | tick duration => rfl
  | resolve index result => rfl
  | connect index result => rfl
  | resolverTimerExpires => rfl
  | socketTimerExpires => rfl
  | _ => cases h

namespace State

/-- The operations and the completed waits that the io service still holds. -/
def outstanding (s : State) : ℕ :=
  s.resolutions.length + s.connections.length +
    (s.resolverDeadline.waiting + s.resolverDeadline.ready) +
    (s.socketDeadline.waiting + s.socketDeadline.ready)

end State

structure Handled where
  command : Option ℕ
  throws : Bool
  deriving DecidableEq, Repr

def lastThrows : Connected → Except String RequestResult → Behaviour → Bool
  | .success, .ok _, behaviour => behaviour.firstThrows && behaviour.secondThrows
  | _, _, behaviour => behaviour.firstThrows

def State.handled (s : State) : Event → Option Handled
  | .resolverHandler index throws =>
    s.resolutions[index]?.bind fun r => r.completion.map fun completion =>
      ⟨some r.command.id, completion.results.isEmpty && throws⟩
  | .connectionHandler index answer behaviour =>
    s.connections[index]?.bind fun c => c.completion.map fun completion =>
      ⟨some c.command.id, lastThrows completion answer behaviour⟩
  | .resolverTimerHandler => if 0 < s.resolverDeadline.ready then some ⟨none, false⟩ else none
  | .socketTimerHandler => if 0 < s.socketDeadline.ready then some ⟨none, false⟩ else none
  | _ => none

variable {s s' : State}

theorem ofHandler_of_handled {e : Event} {handler : Handled} (h : s.handled e = some handler) :
    ofHandler e = true := by
  cases e with
  | resolverHandler index throws => rfl
  | connectionHandler index answer behaviour => rfl
  | resolverTimerHandler => rfl
  | socketTimerHandler => rfl
  | _ => cases h

structure Effect (s : State) (handler : Handled) (s' : State) : Prop where
  ioServiceRuns : s'.ioServiceRuns = !handler.throws
  calls : ∃ made, s'.calls = s.calls ++ made ∧ ∀ call ∈ made, handler.command = some call.id

theorem exists_step_of_handled {e : Event} {handler : Handled} (h : s.handled e = some handler)
    (hruns : s.ioServiceRuns = true) : ∃ s', step s e = some s' ∧ Effect s handler s' := by
  have hnone : ∀ {t : State}, t.calls = s.calls → t.ioServiceRuns = s.ioServiceRuns →
      handler.throws = false → Effect s handler t := by
    intro t hcalls hsame hthrows
    refine ⟨?_, [], by simp [hcalls], nofun⟩
    rw [hsame, hruns, hthrows]
    rfl
  cases e with
  | resolverHandler index throws =>
    obtain ⟨⟨command, done, deadline, cancelled⟩, hget, h⟩ := Option.bind_eq_some_iff.mp h
    obtain ⟨completion, hdone, rfl⟩ := Option.map_eq_some_iff.mp h
    cases hdone
    refine ⟨_, by rw [step, hget]; exact if_pos hruns, ?_⟩
    cases completion with
    | success first rest => exact hnone rfl rfl rfl
    | failed =>
      refine ⟨by simp [resolverHandler, onEndpointResolutionAttemptCompleted, invoke, escape, hruns,
        Resolved.results], _, rfl, ?_⟩
      intro call hcall
      rw [List.mem_singleton.mp hcall]
    | aborted =>
      refine ⟨by simp [resolverHandler, onEndpointResolutionAttemptCompleted, invoke, escape, hruns,
        Resolved.results], _, rfl, ?_⟩
      intro call hcall
      rw [List.mem_singleton.mp hcall]
  | connectionHandler index answer behaviour =>
    obtain ⟨⟨command, endpoints, done, deadline, cancelled, disturbed⟩, hget, h⟩ :=
      Option.bind_eq_some_iff.mp h
    obtain ⟨completion, hdone, rfl⟩ := Option.map_eq_some_iff.mp h
    cases hdone
    refine ⟨_, by rw [step, hget]; exact if_pos hruns, ?_, ?_⟩
    · cases completion with
      | success =>
        cases answer with
        | ok result =>
          cases hfirst : behaviour.firstThrows <;>
            simp [onSocketConnectionAttemptCompleted, invoke, escape, hruns, lastThrows, hfirst]
        | error what => simp [onSocketConnectionAttemptCompleted, invoke, escape, hruns, lastThrows]
      | failed => simp [onSocketConnectionAttemptCompleted, invoke, escape, hruns, lastThrows]
      | aborted => simp [onSocketConnectionAttemptCompleted, invoke, escape, hruns, lastThrows]
    · obtain ⟨runs, heq⟩ := onSocketConnectionAttemptCompleted_eq
        { s with connections := s.connections.eraseIdx index }
        ⟨command, endpoints, some completion, deadline, cancelled, disturbed⟩ completion answer
        behaviour
      rw [heq]
      refine ⟨_, rfl, fun call hcall => ?_⟩
      obtain ⟨result, -, rfl⟩ := List.mem_map.mp hcall
      rfl
  | resolverTimerHandler =>
    obtain ⟨hready, hhandler⟩ := Option.ite_none_right_eq_some.mp h
    cases hhandler
    refine ⟨_, if_pos ⟨hruns, hready⟩, hnone ?_ ?_ rfl⟩ <;>
      · unfold onEndpointResolutionDeadlineReached
        split_ifs <;> rfl
  | socketTimerHandler =>
    obtain ⟨hready, hhandler⟩ := Option.ite_none_right_eq_some.mp h
    cases hhandler
    refine ⟨_, if_pos ⟨hruns, hready⟩, hnone ?_ ?_ rfl⟩ <;>
      · unfold onSocketConnectionDeadlineReached
        split_ifs <;> rfl
  | _ => cases h

/-- The completed operations and the completed waits are still there. -/
structure Keeps (s s' : State) : Prop where
  resolutions : ∀ {index : ℕ} {r : Resolution}, s.resolutions[index]? = some r → r.completion ≠ none →
    ∃ r' : Resolution, s'.resolutions[index]? = some r' ∧ r'.command = r.command ∧ r'.completion = r.completion
  connections : ∀ {index : ℕ} {c : Connection}, s.connections[index]? = some c → c.completion ≠ none →
    ∃ c' : Connection, s'.connections[index]? = some c' ∧ c'.command = c.command ∧ c'.completion = c.completion
  resolverReady : s.resolverDeadline.ready ≤ s'.resolverDeadline.ready
  socketReady : s.socketDeadline.ready ≤ s'.socketDeadline.ready

theorem Keeps.handled (hs : Keeps s s') {e : Event} {handler : Handled}
    (h : s.handled e = some handler) : s'.handled e = some handler := by
  cases e with
  | resolverHandler index throws =>
    obtain ⟨r, hget, h⟩ := Option.bind_eq_some_iff.mp h
    obtain ⟨completion, hdone, rfl⟩ := Option.map_eq_some_iff.mp h
    obtain ⟨r', hget', hcommand, hcompletion⟩ := hs.resolutions hget (by simp [hdone])
    simp [State.handled, hget', hcommand, hcompletion, hdone]
  | connectionHandler index answer behaviour =>
    obtain ⟨c, hget, h⟩ := Option.bind_eq_some_iff.mp h
    obtain ⟨completion, hdone, rfl⟩ := Option.map_eq_some_iff.mp h
    obtain ⟨c', hget', hcommand, hcompletion⟩ := hs.connections hget (by simp [hdone])
    simp [State.handled, hget', hcommand, hcompletion, hdone]
  | resolverTimerHandler =>
    obtain ⟨hready, hhandler⟩ := Option.ite_none_right_eq_some.mp h
    cases hhandler
    exact if_pos (hready.trans_le hs.resolverReady)
  | socketTimerHandler =>
    obtain ⟨hready, hhandler⟩ := Option.ite_none_right_eq_some.mp h
    cases hhandler
    exact if_pos (hready.trans_le hs.socketReady)
  | _ => cases h

theorem keeps_of_map {s s' : State} {f : Resolution → Resolution} {g : Connection → Connection}
    (hresolutions : s'.resolutions = s.resolutions.map f)
    (hconnections : s'.connections = s.connections.map g)
    (hf : ∀ r, r.completion ≠ none → (f r).command = r.command ∧ (f r).completion = r.completion)
    (hg : ∀ c, c.completion ≠ none → (g c).command = c.command ∧ (g c).completion = c.completion)
    (hresolver : s.resolverDeadline.ready ≤ s'.resolverDeadline.ready)
    (hsocket : s.socketDeadline.ready ≤ s'.socketDeadline.ready) : Keeps s s' where
  resolutions {_ r} hget hdone :=
    ⟨f r, by rw [hresolutions, List.getElem?_map, hget]; rfl, hf r hdone⟩
  connections {_ c} hget hdone :=
    ⟨g c, by rw [hconnections, List.getElem?_map, hget]; rfl, hg c hdone⟩
  resolverReady := hresolver
  socketReady := hsocket

theorem keeps_of_eq {s s' : State} (hresolutions : s'.resolutions = s.resolutions)
    (hconnections : s'.connections = s.connections)
    (hresolver : s.resolverDeadline.ready ≤ s'.resolverDeadline.ready)
    (hsocket : s.socketDeadline.ready ≤ s'.socketDeadline.ready) : Keeps s s' where
  resolutions hget _ := ⟨_, hresolutions ▸ hget, rfl, rfl⟩
  connections hget _ := ⟨_, hconnections ▸ hget, rfl, rfl⟩
  resolverReady := hresolver
  socketReady := hsocket

theorem keeps_startConnection (s : State) (command : Command) (endpoints : List Endpoint) :
    Keeps s (s.startConnection command endpoints) where
  resolutions hget _ := ⟨_, hget, rfl, rfl⟩
  connections {_ c} hget hdone := by
    have hlt := (List.getElem?_eq_some_iff.mp hget).1
    refine ⟨if c.active then { c with disturbed := true } else c, ?_, ?_⟩
    · simp only [startConnection, closeSocket, disturbConnections]
      rw [List.getElem?_append_left (by simpa using hlt)]
      simp only [List.getElem?_map, hget, Option.map_some]
      split_ifs <;> simp_all
    · split_ifs <;> exact ⟨rfl, rfl⟩
  resolverReady := Nat.le_add_right _ _
  socketReady := Nat.le_add_right _ _

theorem keeps_cancelPendingCommands (s : State) : Keeps s s.cancelPendingCommands :=
  keeps_of_map (f := fun r => if r.completion = none then
      { r with cancelled := true, completion := some .aborted } else { r with cancelled := true })
    (g := fun c => if c.completion = none then
      { c with cancelled := true, completion := some .aborted } else { c with cancelled := true })
    (by simp [cancelPendingCommands, markCancelled, cancelResolver, closeSocket, Function.comp_def])
    (by simp [cancelPendingCommands, markCancelled, cancelResolver, closeSocket, Function.comp_def])
    (fun r hr => by simp [hr]) (fun c hc => by simp [hc]) (Nat.le_refl _) (Nat.le_refl _)

theorem keeps_step {e : Event} (he : ofHandler e = false) (h : step s e = some s') : Keeps s s' := by
  cases acts_of_step h with
  | submit timeout => exact keeps_of_eq rfl rfl le_rfl le_rfl
  | reuse hjobs hcache =>
    obtain ⟨hresolutions, hconnections, hresolver, hsocket⟩ := keeps_startConnection _ _ _
    exact ⟨hresolutions, hconnections, hresolver, hsocket⟩
  | query hjobs hcache =>
    refine ⟨fun hget _ => ⟨_, ?_, rfl, rfl⟩, fun hget _ => ⟨_, hget, rfl, rfl⟩,
      Nat.le_add_right _ _, Nat.le_refl _⟩
    rw [List.getElem?_append_left (List.getElem?_eq_some_iff.mp hget).1]
    exact hget
  | tick duration => exact keeps_of_eq rfl rfl le_rfl le_rfl
  | @resolve index r result hget hpending =>
    refine ⟨fun ht hdone => ⟨_, ?_, rfl, rfl⟩, fun hget _ => ⟨_, hget, rfl, rfl⟩,
      Nat.le_refl _, Nat.le_refl _⟩
    rw [List.getElem?_set_ne ?_]
    · exact ht
    · rintro rfl
      cases hget.symm.trans ht
      exact hdone hpending
  | @connect index c result hget hpending hresult =>
    refine ⟨fun hget _ => ⟨_, hget, rfl, rfl⟩, fun ht hdone => ⟨_, ?_, rfl, rfl⟩,
      Nat.le_refl _, Nat.le_refl _⟩
    rw [List.getElem?_set_ne ?_]
    · exact ht
    · rintro rfl
      cases hget.symm.trans ht
      exact hdone hpending
  | resolverTimerExpires =>
    exact keeps_of_eq rfl rfl (Nat.le_add_right _ _) le_rfl
  | socketTimerExpires =>
    exact keeps_of_eq rfl rfl le_rfl (Nat.le_add_right _ _)
  | cancelPendingCommands => exact keeps_cancelPendingCommands s
  | destroy =>
    obtain ⟨hresolutions, hconnections, -, -⟩ := keeps_cancelPendingCommands s
    exact ⟨hresolutions, hconnections, Nat.le_add_right _ _, Nat.le_add_right _ _⟩
  | stop => exact keeps_of_eq rfl rfl le_rfl le_rfl
  | _ => cases he

theorem outstanding_startConnection (s : State) (command : Command) (endpoints : List Endpoint) :
    (s.startConnection command endpoints).outstanding = s.outstanding + 2 := by
  simp only [outstanding, startConnection, closeSocket, disturbConnections, Timer.cancel,
    Timer.schedule, List.length_append, List.length_map, List.length_singleton]
  omega

theorem outstanding_cancelPendingCommands (s : State) :
    s.cancelPendingCommands.outstanding = s.outstanding := by
  simp [outstanding, cancelPendingCommands, markCancelled, cancelResolver, closeSocket]

theorem places_step {e : Event} (h : step s e = some s') (id : ℕ) : s.places id ≤ s'.places id := by
  cases acts_of_step h with
  | submit timeout =>
    simp only [places, resolvingIds, connectingIds, calledIds, List.map_append, List.count_append]
    omega
  | reuse hjobs hcache =>
    rw [places_startConnection]
    simp only [places, resolvingIds, connectingIds, calledIds, hjobs, List.map_cons, List.count_cons,
      beq_iff_eq]
    omega
  | query hjobs hcache =>
    simp only [places, resolvingIds, connectingIds, calledIds, hjobs, List.map_append, List.map_cons,
      List.map_nil, List.count_append, List.count_cons, List.count_nil, beq_iff_eq]
    omega
  | resolve result hget hpending =>
    simp only [places, resolvingIds]
    rw [map_set_of_eq _ hget (by rfl)]
    rfl
  | connect hget hpending hresult =>
    simp only [places, connectingIds]
    rw [map_set_of_eq _ hget (by rfl)]
    rfl
  | resolved throws hget hdone =>
    have hcount := count_eraseIdx (fun r : Resolution => r.command.id) hget id
    rw [places_startConnection]
    simp only [places, resolvingIds, connectingIds, calledIds, hcount]
    omega
  | unresolved throws hget hdone hresults =>
    have hcount := count_eraseIdx (fun r : Resolution => r.command.id) hget id
    simp only [places, resolvingIds, connectingIds, calledIds, hcount, List.map_append, List.map_cons,
      List.map_nil, List.count_append, List.count_singleton, beq_iff_eq]
    omega
  | @connectionHandler index c completion answer behaviour runs hget hdone =>
    have hcount := count_eraseIdx (fun c : Connection => c.command.id) hget id
    have hcalled : ∃ first rest, callResults completion answer behaviour = first :: rest := by
      unfold callResults
      split
      · split_ifs <;> exact ⟨_, _, rfl⟩
      all_goals exact ⟨_, _, rfl⟩
    obtain ⟨first, rest, hresults⟩ := hcalled
    simp only [places, resolvingIds, connectingIds, calledIds, hcount, hresults, List.map_append,
      List.map_cons, List.count_append, List.count_cons, beq_iff_eq]
    omega
  | resolverTimeout ready hexpired => exact (places_cancelResolver _ id).ge
  | socketTimeout ready hexpired => exact (places_closeSocket _ id).ge
  | cancelPendingCommands => exact (places_cancelPendingCommands _ id).ge
  | destroy => exact (places_cancelPendingCommands _ id).ge
  | _ => exact le_rfl

theorem mem_places_of_accepted {events : List Event} (h : Runs.exec step init events = some s)
    {id : ℕ} (hid : id < s.accepted) : id ∈ s.jobs.map Command.id ∨ id ∈ s.resolvingIds ∨
      id ∈ s.connectingIds ∨ id ∈ s.calledIds := by
  have hplaces : ∀ id < s.accepted, 0 < s.places id := by
    refine Runs.exec_keeps (P := fun t => ∀ id < t.accepted, 0 < t.places id)
      (fun t e t' hstep ht id hid => ?_) h nofun
    by_cases hsubmit : ∃ timeout, e = .submit timeout
    · obtain ⟨timeout, rfl⟩ := hsubmit
      rcases Nat.lt_succ_iff_lt_or_eq.mp (show id < t.accepted + 1 by cases hstep; exact hid)
        with hlt | rfl
      · exact (ht id hlt).trans_le (places_step hstep id)
      · cases hstep
        simp only [places, List.map_append, List.map_cons, List.count_append, List.count_cons_self]
        omega
    · have haccepted : t'.accepted = t.accepted := by
        cases acts_of_step hstep with
        | submit timeout => exact absurd ⟨timeout, rfl⟩ hsubmit
        | _ => rfl
      exact (ht id (haccepted ▸ hid)).trans_le (places_step hstep id)
  have hpos := hplaces id hid
  simp only [← List.count_pos_iff]
  simp only [places] at hpos
  omega

theorem outstanding_runJob (h : step s .runJob = some s') : s'.outstanding = s.outstanding + 2 := by
  cases acts_of_step h with
  | reuse hjobs hcache => exact outstanding_startConnection _ _ _
  | query hjobs hcache =>
    simp only [outstanding, Timer.schedule, List.length_append, List.length_singleton]
    omega

theorem outstanding_network {e : Event} (he : ofNetwork e = true)
    (h : step s e = some s') : s'.outstanding = s.outstanding := by
  cases acts_of_step h with
  | tick duration => rfl
  | resolve result hget hpending => simp [outstanding]
  | connect hget hpending hresult => simp [outstanding]
  | resolverTimerExpires =>
    simp only [outstanding, Timer.cancel]
    omega
  | socketTimerExpires =>
    simp only [outstanding, Timer.cancel]
    omega
  | _ => cases he

theorem outstanding_handler {e : Event} (he : ofHandler e = true)
    (h : step s e = some s') :
    0 < s.outstanding ∧ (s'.outstanding + 1 = s.outstanding ∨ s'.outstanding = s.outstanding + 1) := by
  have herase : ∀ {A : Type} {l : List A} {index : ℕ} {a : A}, l[index]? = some a →
      (l.eraseIdx index).length + 1 = l.length := by
    intro A l index a hget
    obtain ⟨hlt, -⟩ := List.getElem?_eq_some_iff.mp hget
    rw [List.length_eraseIdx_of_lt hlt]
    omega
  cases e with
  | resolverHandler index throws =>
    cases acts_of_step h with
    | resolved _ hget hdone =>
      have hlength := herase hget
      rw [outstanding_startConnection]
      simp only [outstanding]
      omega
    | unresolved _ hget hdone hresults =>
      have hlength := herase hget
      simp only [outstanding, Timer.cancel]
      omega
  | connectionHandler index answer behaviour =>
    cases acts_of_step h with
    | connectionHandler _ _ _ hget hdone =>
      have hlength := herase hget
      simp only [outstanding, Timer.cancel]
      omega
  | resolverTimerHandler =>
    obtain ⟨⟨-, hready⟩, h⟩ := Option.ite_none_right_eq_some.mp h
    cases h
    unfold onEndpointResolutionDeadlineReached
    split_ifs <;> simp only [outstanding, cancelResolver, List.length_map] <;> omega
  | socketTimerHandler =>
    obtain ⟨⟨-, hready⟩, h⟩ := Option.ite_none_right_eq_some.mp h
    cases h
    unfold onSocketConnectionDeadlineReached
    split_ifs <;> simp only [outstanding, closeSocket, List.length_map] <;> omega
  | _ => cases he

theorem jobs_runJob (h : step s .runJob = some s') :
    s'.jobs.length + 1 = s.jobs.length ∧ s'.accepted = s.accepted := by
  cases acts_of_step h with
  | reuse hjobs hcache =>
    rw [hjobs]
    exact ⟨rfl, rfl⟩
  | query hjobs hcache =>
    rw [hjobs]
    exact ⟨rfl, rfl⟩

theorem jobs_step {e : Event} (h : step s e = some s') (hrun : e ≠ .runJob)
    (hsubmit : ∀ timeout, e ≠ .submit timeout) : s'.jobs = s.jobs ∧ s'.accepted = s.accepted := by
  cases acts_of_step h with
  | submit timeout => exact absurd rfl (hsubmit timeout)
  | reuse _ _ => exact absurd rfl hrun
  | query _ _ => exact absurd rfl hrun
  | _ => exact ⟨rfl, rfl⟩

theorem ioServiceRuns_step {e : Event} (h : step s e = some s') (he : ofHandler e = false)
    (hstop : e ≠ .stop) : s'.ioServiceRuns = s.ioServiceRuns := by
  cases acts_of_step h with
  | stop => exact absurd rfl hstop
  | resolved => cases he
  | unresolved => cases he
  | connectionHandler => cases he
  | _ => rfl

end R2000Driver.AsyncCommands
