import R2000Driver.CommandCallbacks

/-!
# The endpoint cache

`deviceEndpoints` is written by the handler of a resolution before the handler
looks at the error. The cache stays good, and what a command does stays what it
does on a fresh `R2000`, exactly in the runs in which no failed or aborted
resolution is handled.
-/

namespace R2000Driver.AsyncCommands
open Http Runs

namespace State

/-- The same operations and clock, without a trace of what happened before. -/
def fresh (s : State) : State := { s with deviceEndpoints := none, calls := [], succeeded := [] }

def after (s t : State) : State :=
  { t with calls := s.calls ++ t.calls, succeeded := s.succeeded ++ t.succeeded }

theorem after_fresh {s : State} (h : s.deviceEndpoints = none) : s.after s.fresh = s := by
  obtain ⟨now, accepted, jobs, cache, resolutions, connections, _, _, runs, calls, succeeded⟩ := s
  obtain rfl : cache = none := h
  simp [after, fresh]

variable (p : State)

theorem after_invoke (s : State) (call : Call) (throws : Bool) :
    (p.after s).invoke call throws = p.after (s.invoke call throws) := by
  simp [after, invoke, escape]

theorem after_asyncWorkerJob (s : State) (command : Command) :
    (p.after s).asyncWorkerJob command = p.after (s.asyncWorkerJob command) := by
  have hcache : (p.after s).deviceEndpoints = s.deviceEndpoints := rfl
  unfold asyncWorkerJob
  rw [hcache]
  cases s.deviceEndpoints <;> rfl

theorem after_resolverHandler (s : State) (r : Resolution) (completion : Resolved) (throws : Bool) :
    (p.after s).resolverHandler r completion throws =
      p.after (s.resolverHandler r completion throws) := by
  cases completion with
  | success first rest => rfl
  | failed =>
    simp only [resolverHandler, onEndpointResolutionAttemptCompleted, ← after_invoke]
    rfl
  | aborted =>
    simp only [resolverHandler, onEndpointResolutionAttemptCompleted, ← after_invoke]
    rfl

theorem after_onSocketConnectionAttemptCompleted (s : State) (c : Connection)
    (completion : Connected) (answer : Except String RequestResult) (behaviour : Behaviour) :
    (p.after s).onSocketConnectionAttemptCompleted c completion answer behaviour =
      p.after (s.onSocketConnectionAttemptCompleted c completion answer behaviour) := by
  cases completion with
  | failed =>
    simp only [onSocketConnectionAttemptCompleted, ← after_invoke]
    rfl
  | aborted =>
    simp only [onSocketConnectionAttemptCompleted, ← after_invoke]
    rfl
  | success =>
    cases answer with
    | error what =>
      simp only [onSocketConnectionAttemptCompleted, ← after_invoke]
      rfl
    | ok result =>
      simp only [onSocketConnectionAttemptCompleted]
      split_ifs <;> simp only [← after_invoke] <;> rfl

theorem after_onEndpointResolutionDeadlineReached (s : State) :
    (p.after s).onEndpointResolutionDeadlineReached =
      p.after s.onEndpointResolutionDeadlineReached := by
  change (if s.resolverDeadline.expiry ≤ s.now then _ else _) = _
  unfold onEndpointResolutionDeadlineReached
  split_ifs <;> rfl

theorem after_onSocketConnectionDeadlineReached (s : State) :
    (p.after s).onSocketConnectionDeadlineReached = p.after s.onSocketConnectionDeadlineReached := by
  change (if s.socketDeadline.expiry ≤ s.now then _ else _) = _
  unfold onSocketConnectionDeadlineReached
  split_ifs <;> rfl

end State

open State

theorem step_after (p s : State) (e : Event) : step (p.after s) e = (step s e).map p.after := by
  cases e with
  | submit timeout => rfl
  | runJob =>
    have hjobs : (p.after s).jobs = s.jobs := rfl
    cases h : s.jobs with
    | nil => simp [step, hjobs, h]
    | cons command jobs =>
      simp only [step, hjobs, h, Option.map_some, ← after_asyncWorkerJob]
      rfl
  | tick duration => rfl
  | resolve index result =>
    have hresolutions : (p.after s).resolutions = s.resolutions := rfl
    cases h : s.resolutions[index]? with
    | none => simp [step, hresolutions, h]
    | some r =>
      simp only [step, hresolutions, h]
      split_ifs
      · simp [after]
      · rfl
  | connect index result =>
    have hconnections : (p.after s).connections = s.connections := rfl
    cases h : s.connections[index]? with
    | none => simp [step, hconnections, h]
    | some c =>
      simp only [step, hconnections, h]
      split_ifs <;> rfl
  | resolverHandler index throws =>
    have hresolutions : (p.after s).resolutions = s.resolutions := rfl
    have hruns : (p.after s).ioServiceRuns = s.ioServiceRuns := rfl
    rcases h : s.resolutions[index]? with _ | ⟨command, _ | completion, deadline, cancelled⟩
    · simp [step, hresolutions, h]
    · simp [step, hresolutions, h]
    · simp only [step, hresolutions, h, hruns]
      split_ifs
      · simp only [Option.map_some, ← after_resolverHandler]
        rfl
      · rfl
  | connectionHandler index answer behaviour =>
    have hconnections : (p.after s).connections = s.connections := rfl
    have hruns : (p.after s).ioServiceRuns = s.ioServiceRuns := rfl
    rcases h : s.connections[index]? with
      _ | ⟨command, endpoints, _ | completion, deadline, cancelled, disturbed⟩
    · simp [step, hconnections, h]
    · simp [step, hconnections, h]
    · simp only [step, hconnections, h, hruns]
      split_ifs
      · simp only [Option.map_some, ← after_onSocketConnectionAttemptCompleted]
        rfl
      · rfl
  | resolverTimerExpires =>
    change (if s.resolverDeadline.expiry ≤ s.now then _ else _) = _
    simp only [step]
    split_ifs <;> rfl
  | socketTimerExpires =>
    change (if s.socketDeadline.expiry ≤ s.now then _ else _) = _
    simp only [step]
    split_ifs <;> rfl
  | resolverTimerHandler =>
    change (if s.ioServiceRuns ∧ 0 < s.resolverDeadline.ready then _ else _) = _
    simp only [step]
    split_ifs
    · rw [Option.map_some, ← after_onEndpointResolutionDeadlineReached]
      rfl
    · rfl
  | socketTimerHandler =>
    change (if s.ioServiceRuns ∧ 0 < s.socketDeadline.ready then _ else _) = _
    simp only [step]
    split_ifs
    · rw [Option.map_some, ← after_onSocketConnectionDeadlineReached]
      rfl
    · rfl
  | cancelPendingCommands => rfl
  | destroy => rfl
  | stop => rfl

theorem exec_after (p s : State) (events : List Event) :
    exec step (p.after s) events = (exec step s events).map p.after := by
  induction events generalizing s with
  | nil => rfl
  | cons e events ih =>
    simp only [exec, step_after]
    cases step s e with
    | none => rfl
    | some next => exact ih next

def CacheGood (s : State) : Prop :=
  ∀ endpoints, s.deviceEndpoints = some endpoints → endpoints ∈ s.succeeded

structure Recorded (s : State) : Prop where
  nonempty : [] ∉ s.succeeded
  resolved : ∀ r ∈ s.resolutions, ∀ first rest,
    r.completion = some (.success first rest) → first :: rest ∈ s.succeeded

theorem recorded_init : Recorded init := ⟨List.not_mem_nil, fun _ hr => absurd hr List.not_mem_nil⟩

theorem Recorded.cancelResolver {s : State} (hs : Recorded s) : Recorded s.cancelResolver := by
  refine ⟨hs.nonempty, fun r hr first rest hdone => ?_⟩
  rcases mem_cancelResolver hr with ⟨hr, -⟩ | ⟨r', -, -, rfl⟩
  · exact hs.resolved r hr first rest hdone
  · simp at hdone

theorem Recorded.cancelPendingCommands {s : State} (hs : Recorded s) :
    Recorded s.cancelPendingCommands := by
  have hmarked : Recorded s.markCancelled := by
    refine ⟨hs.nonempty, fun r hr first rest hdone => ?_⟩
    obtain ⟨r', hr', rfl⟩ := List.mem_map.mp hr
    exact hs.resolved r' hr' first rest hdone
  exact ⟨hs.nonempty, hmarked.cancelResolver.resolved⟩

theorem Recorded.erase {s : State} (hs : Recorded s) (index : ℕ) :
    Recorded { s with resolutions := s.resolutions.eraseIdx index } :=
  ⟨hs.nonempty, fun r hr => hs.resolved r (List.eraseIdx_subset hr)⟩

theorem recorded_step {s s' : State} {e : Event} (h : step s e = some s') (hs : Recorded s) :
    Recorded s' := by
  cases acts_of_step h with
  | query hjobs hcache =>
    refine ⟨hs.nonempty, fun r hr first rest hdone => ?_⟩
    rcases List.mem_append.mp hr with hr | hr
    · exact hs.resolved r hr first rest hdone
    · obtain rfl := List.mem_singleton.mp hr
      simp at hdone
  | resolve result hget hpending =>
    constructor
    · simp only [List.mem_append, not_or]
      refine ⟨hs.nonempty, ?_⟩
      cases result <;> simp
    · intro r hr first rest hdone
      apply List.mem_append.mpr
      rcases List.mem_or_eq_of_mem_set hr with hr | rfl
      · exact Or.inl (hs.resolved r hr first rest hdone)
      · cases result with
        | none => simp [resolvedOf] at hdone
        | some e =>
          right
          simp only [resolvedOf, Option.some.injEq, Resolved.success.injEq] at hdone
          simp [hdone]
  | resolved throws hget hdone => exact ⟨hs.nonempty, (hs.erase _).resolved⟩
  | unresolved throws hget hdone hresults => exact ⟨hs.nonempty, (hs.erase _).resolved⟩
  | resolverTimeout ready hexpired => exact ⟨hs.nonempty, hs.cancelResolver.resolved⟩
  | cancelPendingCommands => exact hs.cancelPendingCommands
  | destroy => exact ⟨hs.nonempty, hs.cancelPendingCommands.resolved⟩
  | _ => exact ⟨hs.nonempty, hs.resolved⟩

def HandlesFailure (s : State) : Event → Prop
  | .resolverHandler index _ =>
    ∃ r completion, s.resolutions[index]? = some r ∧ r.completion = some completion ∧
      completion.results = []
  | _ => False

theorem cacheGood_step {s s' : State} {e : Event} (h : step s e = some s')
    (hsound : ¬ HandlesFailure s e) (hrecorded : Recorded s) (hs : CacheGood s) : CacheGood s' := by
  cases acts_of_step h with
  | resolve result hget hpending =>
    exact fun endpoints hcache => List.mem_append_left _ (hs endpoints hcache)
  | @resolved index r first rest throws hget hdone =>
    intro endpoints hcache
    obtain rfl : first :: rest = endpoints := Option.some.inj hcache
    exact hrecorded.resolved r (List.mem_of_getElem? hget) first rest hdone
  | unresolved throws hget hdone hresults => exact absurd ⟨_, _, hget, hdone, hresults⟩ hsound
  | _ => exact hs

theorem not_cacheGood_of_handlesFailure {s s' : State} {e : Event} (h : step s e = some s')
    (hfailure : HandlesFailure s e) (hrecorded : Recorded s) : ¬ CacheGood s' := by
  cases acts_of_step h with
  | unresolved throws hget hdone hresults => exact fun hs => hrecorded.nonempty (hs [] rfl)
  | @resolved index r first rest throws hget hdone =>
    obtain ⟨r', completion, hget', hdone', hresults⟩ := hfailure
    obtain rfl : r = r' := Option.some.inj (hget.symm.trans hget')
    obtain rfl : Resolved.success first rest = completion := Option.some.inj (hdone.symm.trans hdone')
    cases hresults
  | _ => exact hfailure.elim

/-- No failed resolution shows: while none has succeeded, the next command is resolved, and what
follows is what follows on a fresh `R2000`. -/
structure NoTrace (s : State) : Prop where
  cache : CacheGood s
  resolves : s.succeeded = [] → ∀ command jobs, s.jobs = command :: jobs →
    ∃ s', step s .runJob = some s' ∧ s'.resolutions =
      s.resolutions ++ [⟨command, none, s.now + command.timeout, false⟩]
  asFresh : s.succeeded = [] → ∀ events,
    exec step s events = (exec step s.fresh events).map s.after

theorem CacheGood.noTrace {s : State} (hs : CacheGood s) : NoTrace s := by
  have hcache : s.succeeded = [] → s.deviceEndpoints = none := by
    intro hnone
    cases h : s.deviceEndpoints with
    | none => rfl
    | some endpoints =>
      have hmem := hs endpoints h
      simp [hnone] at hmem
  refine ⟨hs, fun hnone command jobs hjobs => ?_, fun hnone events => ?_⟩
  · refine ⟨{ s with jobs := jobs }.asyncWorkerJob command, ?_, ?_⟩
    · simp only [step, hjobs]
    · rw [asyncWorkerJob_of_none (s := { s with jobs := jobs }) (hcache hnone)]
  · rw [← exec_after, after_fresh (hcache hnone)]

theorem noTrace_init : NoTrace init := CacheGood.noTrace nofun

/-- A failed resolution leaves no trace in a run exactly when the run handles none. -/
theorem no_trace_iff {events : List Event} {s : State} (h : exec step init events = some s) :
    Always step NoTrace init events ↔ Meets step (fun s e => ¬ HandlesFailure s e) init events := by
  apply always_iff (I := Recorded) _ _ _ h recorded_init noTrace_init
  · exact fun s e s' hstep hs => recorded_step hstep hs
  · intro s e s' hstep hsound hrecorded hs
    exact (cacheGood_step hstep hsound hrecorded hs.cache).noTrace
  · intro s e s' hstep hfailure hrecorded _ hs
    exact not_cacheGood_of_handlesFailure hstep hfailure hrecorded hs.cache

def unresolvedRun (result : Option (Endpoint × List Endpoint)) : List Event :=
  [.submit 100, .runJob, .resolve 0 result, .resolverHandler 0 false, .submit 100]

theorem no_trace_iff_resolved : ∃ s, exec step init (unresolvedRun (some (1, []))) = some s ∧
    (Always step NoTrace init (unresolvedRun (some (1, []))) ↔
      Meets step (fun s e => ¬ HandlesFailure s e) init (unresolvedRun (some (1, [])))) :=
  ⟨_, rfl, no_trace_iff rfl⟩

theorem failed_resolution_leaves_trace :
    ¬ ∀ events s, exec step init events = some s → NoTrace s := by
  intro h
  have hgood := (h (unresolvedRun none) _ rfl).cache [] rfl
  exact absurd hgood (by decide)

end R2000Driver.AsyncCommands
