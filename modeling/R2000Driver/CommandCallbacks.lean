import R2000Driver.AsyncCommands

/-!
# One callback for each accepted command

A command is in one place at a time: the queue of the worker, the resolver,
the socket, or the callbacks made. Every handler moves it from one place to
the next, except the connection handler on an answer whose callback throws: it
makes a second call.
-/

namespace R2000Driver.AsyncCommands
open Http Runs

namespace State

def resolvingIds (s : State) : List ℕ := s.resolutions.map fun r => r.command.id

def connectingIds (s : State) : List ℕ := s.connections.map fun c => c.command.id

def calledIds (s : State) : List ℕ := s.calls.map Call.id

def places (s : State) (id : ℕ) : ℕ :=
  (s.jobs.map Command.id).count id + s.resolvingIds.count id + s.connectingIds.count id +
    s.calledIds.count id

@[simp] theorem resolvingIds_cancelResolver (s : State) :
    s.cancelResolver.resolvingIds = s.resolvingIds := by
  simp only [resolvingIds, cancelResolver, List.map_map]
  apply List.map_congr_left
  intro r _
  simp only [Function.comp_apply]
  split_ifs <;> rfl

@[simp] theorem connectingIds_closeSocket (s : State) :
    s.closeSocket.connectingIds = s.connectingIds := by
  simp only [connectingIds, closeSocket, List.map_map]
  apply List.map_congr_left
  intro c _
  simp only [Function.comp_apply]
  split_ifs <;> rfl

@[simp] theorem connectingIds_disturbConnections (s : State) :
    s.disturbConnections.connectingIds = s.connectingIds := by
  simp only [connectingIds, disturbConnections, List.map_map]
  apply List.map_congr_left
  intro c _
  simp only [Function.comp_apply]
  split_ifs <;> rfl

theorem places_cancelResolver (s : State) (id : ℕ) : s.cancelResolver.places id = s.places id := by
  rw [places, resolvingIds_cancelResolver]
  rfl

theorem places_closeSocket (s : State) (id : ℕ) : s.closeSocket.places id = s.places id := by
  rw [places, connectingIds_closeSocket]
  rfl

theorem places_cancelPendingCommands (s : State) (id : ℕ) :
    s.cancelPendingCommands.places id = s.places id := by
  rw [cancelPendingCommands, places_closeSocket, places_cancelResolver]
  simp [places, markCancelled, resolvingIds, connectingIds, calledIds, Function.comp_def]

theorem places_startConnection (s : State) (command : Command) (endpoints : List Endpoint) (id : ℕ) :
    (s.startConnection command endpoints).places id =
      s.places id + if command.id = id then 1 else 0 := by
  have hids : ({ s with
      resolverDeadline := s.resolverDeadline.cancel }).disturbConnections.closeSocket.connectingIds =
      s.connectingIds := by
    rw [connectingIds_closeSocket, connectingIds_disturbConnections]
    rfl
  have hconnecting : (s.startConnection command endpoints).connectingIds =
      s.connectingIds ++ [command.id] := by
    rw [← hids]
    exact List.map_append
  rw [places, hconnecting, List.count_append, List.count_singleton]
  change (s.jobs.map Command.id).count id + s.resolvingIds.count id + _ + s.calledIds.count id = _
  simp only [places, beq_iff_eq]
  omega

end State

open State

/-- The handler of a made connection calls the callback with an answer, and it throws. -/
def CallsTwice (s : State) : Event → Prop
  | .connectionHandler index (.ok _) behaviour =>
    behaviour.firstThrows = true ∧
      ∃ c, s.connections[index]? = some c ∧ c.completion = some .success
  | _ => False

theorem callResults_eq_singleton {completion : Connected} {answer : Except String RequestResult}
    {behaviour : Behaviour} (h : ¬ (completion = .success ∧ (∃ result, answer = .ok result) ∧
      behaviour.firstThrows = true)) :
    ∃ result, callResults completion answer behaviour = [result] := by
  cases completion with
  | failed => exact ⟨_, rfl⟩
  | aborted => exact ⟨_, rfl⟩
  | success =>
    cases answer with
    | error what => exact ⟨_, rfl⟩
    | ok result => exact ⟨result, if_neg fun hthrows => h ⟨rfl, ⟨result, rfl⟩, hthrows⟩⟩

def InOnePlace (s : State) : Prop := ∀ id, s.places id = if id < s.accepted then 1 else 0

theorem inOnePlace_init : InOnePlace init := fun _ => rfl

theorem InOnePlace.of_places {s s' : State} (hs : InOnePlace s) (haccepted : s'.accepted = s.accepted)
    (hplaces : ∀ id, s'.places id = s.places id) : InOnePlace s' := by
  intro id
  rw [hplaces, haccepted]
  exact hs id

theorem inOnePlace_step {s s' : State} {e : Event} (h : step s e = some s')
    (honce : ¬ CallsTwice s e) (hs : InOnePlace s) : InOnePlace s' := by
  cases acts_of_step h with
  | submit timeout =>
    intro id
    have hid := hs id
    simp only [places, resolvingIds, connectingIds, calledIds, List.map_append, List.map_cons,
      List.map_nil, List.count_append, List.count_singleton, beq_iff_eq] at hid ⊢
    split_ifs at hid ⊢ <;> omega
  | reuse hjobs hcache =>
    refine hs.of_places rfl fun id => ?_
    rw [places_startConnection]
    simp only [places, resolvingIds, connectingIds, calledIds, hjobs, List.map_cons, List.count_cons,
      beq_iff_eq]
    omega
  | query hjobs hcache =>
    refine hs.of_places rfl fun id => ?_
    simp only [places, resolvingIds, connectingIds, calledIds, hjobs, List.map_append, List.map_cons,
      List.map_nil, List.count_append, List.count_cons, List.count_nil, beq_iff_eq]
    omega
  | tick duration => exact hs
  | resolve result hget hpending =>
    refine hs.of_places rfl fun id => ?_
    simp only [places, resolvingIds]
    rw [map_set_of_eq _ hget (by rfl)]
    rfl
  | connect hget hpending hresult =>
    refine hs.of_places rfl fun id => ?_
    simp only [places, connectingIds]
    rw [map_set_of_eq _ hget (by rfl)]
    rfl
  | resolved throws hget hdone =>
    refine hs.of_places rfl fun id => ?_
    have hcount := count_eraseIdx (fun r : Resolution => r.command.id) hget id
    rw [places_startConnection]
    simp only [places, resolvingIds, connectingIds, calledIds, hcount]
    omega
  | unresolved throws hget hdone hresults =>
    refine hs.of_places rfl fun id => ?_
    have hcount := count_eraseIdx (fun r : Resolution => r.command.id) hget id
    simp only [places, resolvingIds, connectingIds, calledIds, hcount, List.map_append, List.map_cons,
      List.map_nil, List.count_append, List.count_singleton, beq_iff_eq]
    omega
  | @connectionHandler index c completion answer behaviour runs hget hdone =>
    refine hs.of_places rfl fun id => ?_
    have hone : ∃ result, callResults completion answer behaviour = [result] := by
      apply callResults_eq_singleton
      rintro ⟨rfl, ⟨result, rfl⟩, hthrows⟩
      exact honce ⟨hthrows, c, hget, hdone⟩
    obtain ⟨result, hone⟩ := hone
    have hcount := count_eraseIdx (fun c : Connection => c.command.id) hget id
    simp only [places, resolvingIds, connectingIds, calledIds, hcount, hone, List.map_append,
      List.map_cons, List.map_nil, List.count_append, List.count_singleton, beq_iff_eq]
    omega
  | resolverTimerExpires => exact hs
  | socketTimerExpires => exact hs
  | resolverTimeout ready hexpired => exact hs.of_places rfl fun id => places_cancelResolver _ id
  | resolverWait ready hwait => exact hs
  | socketTimeout ready hexpired => exact hs.of_places rfl fun id => places_closeSocket _ id
  | socketWait ready hwait => exact hs
  | cancelPendingCommands => exact hs.of_places rfl fun id => places_cancelPendingCommands _ id
  | destroy => exact hs.of_places rfl fun id => places_cancelPendingCommands _ id
  | stop => exact hs

theorem calls_step {s s' : State} {e : Event} (h : step s e = some s') : s.calls <+: s'.calls := by
  cases acts_of_step h with
  | unresolved throws hget hdone hresults => exact List.prefix_append _ _
  | connectionHandler answer behaviour runs hget hdone => exact List.prefix_append _ _
  | _ => exact List.prefix_rfl

theorem count_calledIds_step {s s' : State} {e : Event} {id n : ℕ} (h : step s e = some s')
    (hn : n ≤ s.calledIds.count id) : n ≤ s'.calledIds.count id :=
  hn.trans (((calls_step h).map Call.id).sublist.count_le id)

theorem two_le_of_callsTwice {s s' : State} {e : Event} (h : step s e = some s')
    (htwice : CallsTwice s e) : ∃ id, 2 ≤ s'.calledIds.count id := by
  cases acts_of_step h with
  | @connectionHandler index c completion answer behaviour runs hget hdone =>
    cases answer with
    | error what => exact htwice.elim
    | ok result =>
      obtain ⟨hthrows, c', hget', hdone'⟩ := htwice
      obtain rfl : c = c' := Option.some.inj (hget.symm.trans hget')
      obtain rfl : completion = .success := Option.some.inj (hdone.symm.trans hdone')
      refine ⟨c.command.id, ?_⟩
      simp only [callResults, if_pos hthrows, calledIds, List.map_append, List.map_cons, List.map_nil,
        List.count_append, List.count_cons_self, List.count_nil]
      omega
  | _ => exact htwice.elim

def State.Quiet (s : State) : Prop :=
  s.jobs = [] ∧ s.resolutions = [] ∧ s.connections = [] ∧ s.resolverDeadline.waiting = 0 ∧
    s.resolverDeadline.ready = 0 ∧ s.socketDeadline.waiting = 0 ∧ s.socketDeadline.ready = 0

theorem InOnePlace.count_le_one {s : State} (hs : InOnePlace s) (id : ℕ) :
    s.calledIds.count id ≤ 1 := by
  have hid := hs id
  simp only [places] at hid
  split_ifs at hid <;> omega

theorem InOnePlace.count_of_quiet {s : State} (hs : InOnePlace s) (hquiet : s.Quiet) {id : ℕ}
    (hid : id < s.accepted) : s.calledIds.count id = 1 := by
  have hone := hs id
  obtain ⟨hjobs, hresolutions, hconnections, -⟩ := hquiet
  simpa [places, resolvingIds, connectingIds, hjobs, hresolutions, hconnections, hid] using hone

/-- One callback for each accepted command, in the runs without a callback that throws at the
answer of its command. -/
theorem one_callback_iff {events : List Event} {s : State} (h : exec step init events = some s) :
    ((∀ id, s.calledIds.count id ≤ 1) ∧
      (s.Quiet → ∀ id < s.accepted, s.calledIds.count id = 1)) ↔
      Meets step (fun s e => ¬ CallsTwice s e) init events := by
  constructor
  · rintro ⟨hle, -⟩
    by_contra hnot
    obtain ⟨es, e, fs, mid, next, rfl, hes, hmeets, hbreak, hstep, hfs⟩ := exists_break h hnot
    obtain ⟨id, htwo⟩ := two_le_of_callsTwice hstep (not_not.mp hbreak)
    have hlast : 2 ≤ s.calledIds.count id :=
      exec_keeps (fun _ _ _ hstep hn => count_calledIds_step hstep hn) hfs htwo
    have hone := hle id
    omega
  · intro hmeets
    have hs : InOnePlace s :=
      exec_meets (fun _ _ _ hstep honce hs => inOnePlace_step hstep honce hs) h hmeets inOnePlace_init
    exact ⟨hs.count_le_one, fun hquiet id hid => hs.count_of_quiet hquiet hid⟩

def answeredRun (behaviour : Behaviour) : List Event :=
  [.submit 100, .runJob, .resolve 0 (some (1, [])), .resolverHandler 0 false, .connect 0 .success,
    .connectionHandler 0 (.ok .success) behaviour, .resolverTimerHandler, .socketTimerHandler]

theorem one_callback_iff_answered : ∃ s, exec step init (answeredRun ⟨false, false⟩) = some s ∧
    (((∀ id, s.calledIds.count id ≤ 1) ∧
      (s.Quiet → ∀ id < s.accepted, s.calledIds.count id = 1)) ↔
      Meets step (fun s e => ¬ CallsTwice s e) init (answeredRun ⟨false, false⟩)) :=
  ⟨_, rfl, one_callback_iff rfl⟩

theorem throwing_callback_called_twice :
    ¬ ∀ events s, exec step init events = some s → (∀ id, s.calledIds.count id ≤ 1) ∧
      (s.Quiet → ∀ id < s.accepted, s.calledIds.count id = 1) := by
  intro h
  have hone := (h (answeredRun ⟨true, false⟩) _ rfl).1 0
  exact absurd hone (by decide)

end R2000Driver.AsyncCommands
