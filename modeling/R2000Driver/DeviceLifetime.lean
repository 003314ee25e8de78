import R2000Driver.IoServiceTask
import R2000Driver.Operations
import R2000Driver.WorkerShutdown

/-!
# The life of a device

The worker, the operations of the commands and the thread of the io service of
one `R2000`, from its construction to the end of its destructor. A job of the
worker posts the operations of its command and then notifies the thread. The
thread enters a handler and leaves it; in between the other threads go on, and
what the handler does is done when it leaves. The destructor cancels, sets the
flag, stops the io service, notifies and waits for the thread; the members are
destroyed behind it, first the worker. The stop lets no further handler begin;
the one that is executing goes on to its callback.

The jobs of the worker do not throw. A callback that throws ends the thread.
-/

namespace R2000Driver.DeviceLifetime
open Runs
open AsyncCommands (Handled ofNetwork ofHandler not_ofHandler_of_ofNetwork)

def maxJob : UInt32 := 4294967295

inductive Control
  | loopTest
  | inLoop
  | ended
  deriving DecidableEq, Repr

inductive Destructor
  | alive
  | cancelled
  | flagged
  | stopped
  | notified
  | joined
  deriving DecidableEq, Repr

structure State where
  worker : WorkerShutdown.State
  commands : AsyncCommands.State
  io : IoServiceTask.State
  control : Control
  handling : Option AsyncCommands.Event
  destructor : Destructor
  deriving DecidableEq

def init : State where
  worker := WorkerShutdown.init
  commands := AsyncCommands.State.init
  io := IoServiceTask.init
  control := .loopTest
  handling := none
  destructor := .alive

def State.Interrupted (s : State) : Prop := s.destructor ≠ .alive ∧ s.destructor ≠ .cancelled

/-- The io service has been stopped. Where the thread resets it behind that, it finds the flag. -/
def State.Stopped (s : State) : Prop := s.Interrupted ∧ s.destructor ≠ .flagged

instance (s : State) : Decidable s.Interrupted :=
  inferInstanceAs (Decidable (s.destructor ≠ .alive ∧ s.destructor ≠ .cancelled))

instance (s : State) : Decidable s.Stopped :=
  inferInstanceAs (Decidable (s.Interrupted ∧ s.destructor ≠ .flagged))

def State.underWay (s : State) : Option Handled := s.handling.bind s.commands.handled

def State.calling (s : State) : Option ℕ := s.underWay.bind Handled.command

/-- The steps of the worker that are its own: a push comes with its command, and a job with its
operations. -/
def ofWorker : WorkerShutdown.Event → Bool
  | .worker .pushJob => false
  | .worker (.invoke _) => false
  | .store => false
  | .notify => false
  | .join => false
  | _ => true

def ofWorkerDestructor : WorkerShutdown.Event → Bool
  | .store => true
  | .notify => true
  | .join => true
  | _ => false

inductive Event
  | submit (timeout : ℕ)
  | worker (e : WorkerShutdown.Event)
  | post
  | finishJob
  | network (e : AsyncCommands.Event)
  | enter (e : AsyncCommands.Event)
  | leave
  | loopTest
  | runReturns
  | wait
  | wake
  | reset
  | cancelPendingCommands
  | destroy
  | store
  | stop
  | notify
  | join
  deriving DecidableEq

def InJob (worker : WorkerShutdown.State) : Prop :=
  worker.control = .batch ∧ worker.worker.phase = .executing ∧ worker.worker.localJobQueue ≠ []

instance (worker : WorkerShutdown.State) : Decidable (InJob worker) :=
  inferInstanceAs (Decidable (worker.control = .batch ∧ worker.worker.phase = .executing ∧
    worker.worker.localJobQueue ≠ []))

def step (s : State) : Event → Option State
  | .submit timeout =>
    if s.destructor = .alive then
      (WorkerShutdown.step maxJob s.worker (.worker .pushJob)).bind fun worker =>
        if s.worker.worker.jobs.length ≤ maxJob.toNat then
          (AsyncCommands.step s.commands (.submit timeout)).bind fun commands =>
            (IoServiceTask.step s.io .accept).map fun io =>
              { s with worker := worker, commands := commands, io := io }
        else some { s with worker := worker }
    else none
  | .worker e =>
    if ofWorker e ∨ (ofWorkerDestructor e ∧ s.destructor = .joined) then
      (WorkerShutdown.step maxJob s.worker e).map fun worker => { s with worker := worker }
    else none
  | .post =>
    if InJob s.worker then
      (AsyncCommands.step s.commands .runJob).bind fun commands =>
        (IoServiceTask.step s.io (.post (commands.outstanding - s.commands.outstanding))).map
          fun io => { s with commands := commands, io := io }
    else none
  | .finishJob =>
    (IoServiceTask.step s.io .notify).bind fun io =>
      (WorkerShutdown.step maxJob s.worker (.worker (.invoke false))).map fun worker =>
        { s with worker := worker, io := io }
  | .network e =>
    if ofNetwork e then
      (AsyncCommands.step s.commands e).map fun commands => { s with commands := commands }
    else none
  | .enter e =>
    if s.control = .inLoop ∧ s.io.phase = .running ∧ s.handling = none ∧ ¬ s.Stopped ∧
        s.commands.ioServiceRuns ∧ (s.commands.handled e).isSome then
      some { s with handling := some e }
    else none
  | .leave =>
    s.handling.bind fun e => (AsyncCommands.step s.commands e).bind fun commands =>
      -- What the handler posts, and whether an exception leaves it.
      (IoServiceTask.step s.io (.handle (commands.outstanding + 1 - s.commands.outstanding)
        (!commands.ioServiceRuns))).map fun io =>
          -- A stop that came meanwhile reaches the handlers from here on.
          { s with
            commands := if s.Stopped then { commands with ioServiceRuns := false } else commands
            io := io
            handling := none }
  | .loopTest =>
    if s.control = .loopTest then
      some { s with control := if s.Interrupted then .ended else .inLoop }
    else none
  | .runReturns =>
    if s.control = .inLoop ∧ s.handling = none then
      if s.Stopped then
        if s.io.phase = .running then
          some { s with io := { s.io with phase := .returned, postedSinceReturn := 0 } }
        else none
      else (IoServiceTask.step s.io .runReturns).map fun io => { s with io := io }
    else none
  | .wait =>
    if s.control = .inLoop then (IoServiceTask.step s.io .wait).map fun io => { s with io := io }
    else none
  | .wake =>
    if s.control = .inLoop then (IoServiceTask.step s.io .wake).map fun io => { s with io := io }
    else none
  | .reset =>
    if s.control = .inLoop then
      (IoServiceTask.step s.io .reset).map fun io => { s with io := io, control := .loopTest }
    else none
  | .cancelPendingCommands =>
    if s.destructor = .alive then
      some { s with commands := s.commands.cancelPendingCommands }
    else none
  | .destroy =>
    if s.destructor = .alive then
      (AsyncCommands.step s.commands .destroy).map fun commands =>
        { s with commands := commands, destructor := .cancelled }
    else none
  | .store => if s.destructor = .cancelled then some { s with destructor := .flagged } else none
  | .stop =>
    if s.destructor = .flagged then
      if s.handling = none then
        (AsyncCommands.step s.commands .stop).map fun commands =>
          { s with commands := commands, destructor := .stopped }
      else some { s with destructor := .stopped }
    else none
  | .notify =>
    if s.destructor = .stopped then
      some { s with
        io := { s.io with ioServiceTaskCv := s.io.ioServiceTaskCv.announce.notify }
        destructor := .notified }
    else none
  | .join =>
    if s.destructor = .notified ∧ (s.control = .ended ∨ s.io.phase = .ended) then
      some { s with destructor := .joined }
    else none

inductive Steps (s : State) : Event → State → Prop
  | submit {timeout worker commands io} : s.destructor = .alive →
      WorkerShutdown.step maxJob s.worker (.worker .pushJob) = some worker →
      s.worker.worker.jobs.length ≤ maxJob.toNat →
      AsyncCommands.step s.commands (.submit timeout) = some commands →
      IoServiceTask.step s.io .accept = some io →
      Steps s (.submit timeout) { s with worker := worker, commands := commands, io := io }
  | refuse {timeout worker} : s.destructor = .alive →
      WorkerShutdown.step maxJob s.worker (.worker .pushJob) = some worker →
      ¬ s.worker.worker.jobs.length ≤ maxJob.toNat →
      Steps s (.submit timeout) { s with worker := worker }
  | worker {e worker} : (ofWorker e = true ∨ (ofWorkerDestructor e = true ∧ s.destructor = .joined)) →
      WorkerShutdown.step maxJob s.worker e = some worker →
      Steps s (.worker e) { s with worker := worker }
  | post {commands io} : InJob s.worker → AsyncCommands.step s.commands .runJob = some commands →
      IoServiceTask.step s.io (.post (commands.outstanding - s.commands.outstanding)) = some io →
      Steps s .post { s with commands := commands, io := io }
  | finishJob {worker io} : IoServiceTask.step s.io .notify = some io →
      WorkerShutdown.step maxJob s.worker (.worker (.invoke false)) = some worker →
      Steps s .finishJob { s with worker := worker, io := io }
  | network {e commands} : ofNetwork e = true → AsyncCommands.step s.commands e = some commands →
      Steps s (.network e) { s with commands := commands }
  | enter {e handler} : s.control = .inLoop → s.io.phase = .running → s.handling = none →
      ¬ s.Stopped → s.commands.ioServiceRuns = true → s.commands.handled e = some handler →
      Steps s (.enter e) { s with handling := some e }
  | leave {e commands io} : s.handling = some e → ¬ s.Stopped →
      AsyncCommands.step s.commands e = some commands →
      IoServiceTask.step s.io (.handle (commands.outstanding + 1 - s.commands.outstanding)
        (!commands.ioServiceRuns)) = some io →
      Steps s .leave { s with commands := commands, io := io, handling := none }
  | leaveStopped {e commands io} : s.handling = some e → s.Stopped →
      AsyncCommands.step s.commands e = some commands →
      IoServiceTask.step s.io (.handle (commands.outstanding + 1 - s.commands.outstanding)
        (!commands.ioServiceRuns)) = some io →
      Steps s .leave { s with
        commands := { commands with ioServiceRuns := false }, io := io, handling := none }
  | loopTest : s.control = .loopTest →
      Steps s .loopTest { s with control := if s.Interrupted then .ended else .inLoop }
  | runReturns {io} : s.control = .inLoop → s.handling = none → ¬ s.Stopped →
      IoServiceTask.step s.io .runReturns = some io → Steps s .runReturns { s with io := io }
  | runStopped : s.control = .inLoop → s.handling = none → s.Stopped → s.io.phase = .running →
      Steps s .runReturns { s with io := { s.io with phase := .returned, postedSinceReturn := 0 } }
  | wait {io} : s.control = .inLoop → IoServiceTask.step s.io .wait = some io →
      Steps s .wait { s with io := io }
  | wake {io} : s.control = .inLoop → IoServiceTask.step s.io .wake = some io →
      Steps s .wake { s with io := io }
  | reset {io} : s.control = .inLoop → IoServiceTask.step s.io .reset = some io →
      Steps s .reset { s with io := io, control := .loopTest }
  | cancelPendingCommands : s.destructor = .alive →
      Steps s .cancelPendingCommands { s with commands := s.commands.cancelPendingCommands }
  | destroy {commands} : s.destructor = .alive →
      AsyncCommands.step s.commands .destroy = some commands →
      Steps s .destroy { s with commands := commands, destructor := .cancelled }
  | store : s.destructor = .cancelled → Steps s .store { s with destructor := .flagged }
  | stop {commands} : s.destructor = .flagged → s.handling = none →
      AsyncCommands.step s.commands .stop = some commands →
      Steps s .stop { s with commands := commands, destructor := .stopped }
  | stopInHandler : s.destructor = .flagged → s.handling ≠ none →
      Steps s .stop { s with destructor := .stopped }
  | notify : s.destructor = .stopped → Steps s .notify { s with
      io := { s.io with ioServiceTaskCv := s.io.ioServiceTaskCv.announce.notify }
      destructor := .notified }
  | join : s.destructor = .notified → s.control = .ended ∨ s.io.phase = .ended →
      Steps s .join { s with destructor := .joined }

variable {s s' : State}

theorem steps_of_step {e : Event} (h : step s e = some s') : Steps s e s' := by
  cases e with
  | submit timeout =>
    obtain ⟨halive, h⟩ := Option.ite_none_right_eq_some.mp h
    obtain ⟨worker, hworker, h⟩ := Option.bind_eq_some_iff.mp h
    split_ifs at h with hroom
    · obtain ⟨commands, hcommands, h⟩ := Option.bind_eq_some_iff.mp h
      obtain ⟨io, hio, rfl⟩ := Option.map_eq_some_iff.mp h
      exact .submit halive hworker hroom hcommands hio
    · cases h
      exact .refuse halive hworker hroom
  | worker e =>
    obtain ⟨hallowed, h⟩ := Option.ite_none_right_eq_some.mp h
    obtain ⟨worker, hworker, rfl⟩ := Option.map_eq_some_iff.mp h
    exact .worker hallowed hworker
  | post =>
    obtain ⟨hjob, h⟩ := Option.ite_none_right_eq_some.mp h
    obtain ⟨commands, hcommands, h⟩ := Option.bind_eq_some_iff.mp h
    obtain ⟨io, hio, rfl⟩ := Option.map_eq_some_iff.mp h
    exact .post hjob hcommands hio
  | finishJob =>
    obtain ⟨io, hio, h⟩ := Option.bind_eq_some_iff.mp h
    obtain ⟨worker, hworker, rfl⟩ := Option.map_eq_some_iff.mp h
    exact .finishJob hio hworker
  | network e =>
    obtain ⟨hnetwork, h⟩ := Option.ite_none_right_eq_some.mp h
    obtain ⟨commands, hcommands, rfl⟩ := Option.map_eq_some_iff.mp h
    exact .network hnetwork hcommands
  | enter e =>
    obtain ⟨⟨hcontrol, hphase, hnone, hstopped, hruns, hhandled⟩, h⟩ :=
      Option.ite_none_right_eq_some.mp h
    obtain ⟨handler, hhandler⟩ := Option.isSome_iff_exists.mp hhandled
    cases h
    exact .enter hcontrol hphase hnone hstopped hruns hhandler
  | leave =>
    rw [step] at h
    obtain ⟨e, hhandling, h⟩ := Option.bind_eq_some_iff.mp h
    obtain ⟨commands, hcommands, h⟩ := Option.bind_eq_some_iff.mp h
    obtain ⟨io, hio, rfl⟩ := Option.map_eq_some_iff.mp h
    by_cases hstopped : s.Stopped
    · rw [if_pos hstopped]
      exact .leaveStopped hhandling hstopped hcommands hio
    · rw [if_neg hstopped]
      exact .leave hhandling hstopped hcommands hio
  | loopTest =>
    obtain ⟨hcontrol, h⟩ := Option.ite_none_right_eq_some.mp h
    cases h
    exact .loopTest hcontrol
  | runReturns =>
    obtain ⟨⟨hcontrol, hnone⟩, h⟩ := Option.ite_none_right_eq_some.mp h
    split_ifs at h with hstopped hphase
    · cases h
      exact .runStopped hcontrol hnone hstopped hphase
    · obtain ⟨io, hio, rfl⟩ := Option.map_eq_some_iff.mp h
      exact .runReturns hcontrol hnone hstopped hio
  | wait =>
    obtain ⟨hcontrol, h⟩ := Option.ite_none_right_eq_some.mp h
    obtain ⟨io, hio, rfl⟩ := Option.map_eq_some_iff.mp h
    exact .wait hcontrol hio
  | wake =>
    obtain ⟨hcontrol, h⟩ := Option.ite_none_right_eq_some.mp h
    obtain ⟨io, hio, rfl⟩ := Option.map_eq_some_iff.mp h
    exact .wake hcontrol hio
  | reset =>
    obtain ⟨hcontrol, h⟩ := Option.ite_none_right_eq_some.mp h
    obtain ⟨io, hio, rfl⟩ := Option.map_eq_some_iff.mp h
    exact .reset hcontrol hio
  | cancelPendingCommands =>
    obtain ⟨halive, h⟩ := Option.ite_none_right_eq_some.mp h
    cases h
    exact .cancelPendingCommands halive
  | destroy =>
    obtain ⟨halive, h⟩ := Option.ite_none_right_eq_some.mp h
    obtain ⟨commands, hcommands, rfl⟩ := Option.map_eq_some_iff.mp h
    exact .destroy halive hcommands
  | store =>
    obtain ⟨hcancelled, h⟩ := Option.ite_none_right_eq_some.mp h
    cases h
    exact .store hcancelled
  | stop =>
    obtain ⟨hflagged, h⟩ := Option.ite_none_right_eq_some.mp h
    split_ifs at h with hnone
    · obtain ⟨commands, hcommands, rfl⟩ := Option.map_eq_some_iff.mp h
      exact .stop hflagged hnone hcommands
    · cases h
      exact .stopInHandler hflagged hnone
  | notify =>
    obtain ⟨hstopped, h⟩ := Option.ite_none_right_eq_some.mp h
    cases h
    exact .notify hstopped
  | join =>
    obtain ⟨⟨hnotified, hended⟩, h⟩ := Option.ite_none_right_eq_some.mp h
    cases h
    exact .join hnotified hended

theorem stopped_of (h : s.destructor = .stopped ∨ s.destructor = .notified ∨ s.destructor = .joined) :
    s.Stopped := by
  rcases h with h | h | h <;> simp [State.Stopped, State.Interrupted, h]

theorem exec_commands {events : List Event} (h : exec step s events = some s') :
    ∃ es, exec AsyncCommands.step s.commands es = some s'.commands := by
  refine exec_part State.commands (fun _ _ _ hstep => ?_) h
  cases steps_of_step hstep with
  | submit _ _ _ hcommands _ => exact ⟨_, exec_single hcommands⟩
  | post _ hcommands _ => exact ⟨_, exec_single hcommands⟩
  | network _ hcommands => exact ⟨_, exec_single hcommands⟩
  | leave _ _ hcommands _ => exact ⟨_, exec_single hcommands⟩
  | leaveStopped _ _ hcommands _ => exact ⟨[_, .stop], exec_cons.mpr ⟨_, hcommands, rfl⟩⟩
  | cancelPendingCommands _ => exact ⟨[.cancelPendingCommands], rfl⟩
  | destroy _ hcommands => exact ⟨_, exec_single hcommands⟩
  | stop _ _ hcommands => exact ⟨_, exec_single hcommands⟩
  | _ => exact ⟨[], rfl⟩

theorem exec_worker {events : List Event} (h : exec step s events = some s') :
    ∃ es, exec (WorkerShutdown.step maxJob) s.worker es = some s'.worker := by
  refine exec_part State.worker (fun _ _ _ hstep => ?_) h
  cases steps_of_step hstep with
  | submit _ hworker _ _ _ => exact ⟨_, exec_single hworker⟩
  | refuse _ hworker _ => exact ⟨_, exec_single hworker⟩
  | worker _ hworker => exact ⟨_, exec_single hworker⟩
  | finishJob _ hworker => exact ⟨_, exec_single hworker⟩
  | _ => exact ⟨[], rfl⟩

theorem io_of_step {e : Event} (h : step s e = some s') (hstopped : ¬ s'.Stopped) :
    ¬ s.Stopped ∧ ∃ es, exec IoServiceTask.step s.io es = some s'.io := by
  cases steps_of_step h with
  | submit _ _ _ _ hio => exact ⟨hstopped, _, exec_single hio⟩
  | post _ _ hio => exact ⟨hstopped, _, exec_single hio⟩
  | finishJob hio _ => exact ⟨hstopped, _, exec_single hio⟩
  | leave _ _ _ hio => exact ⟨hstopped, _, exec_single hio⟩
  | leaveStopped _ hstop _ _ => exact absurd hstop hstopped
  | runReturns _ _ _ hio => exact ⟨hstopped, _, exec_single hio⟩
  | runStopped _ _ hstop _ => exact absurd hstop hstopped
  | wait _ hio => exact ⟨hstopped, _, exec_single hio⟩
  | wake _ hio => exact ⟨hstopped, _, exec_single hio⟩
  | reset _ hio => exact ⟨hstopped, _, exec_single hio⟩
  | destroy halive _ => exact ⟨fun hs => hs.1.1 halive, [], rfl⟩
  | store hcancelled => exact ⟨fun hs => hs.1.2 hcancelled, [], rfl⟩
  | stop _ _ _ => exact absurd (stopped_of (Or.inl rfl)) hstopped
  | stopInHandler _ _ => exact absurd (stopped_of (Or.inl rfl)) hstopped
  | notify _ => exact absurd (stopped_of (Or.inr (Or.inl rfl))) hstopped
  | join _ _ => exact absurd (stopped_of (Or.inr (Or.inr rfl))) hstopped
  | _ => exact ⟨hstopped, [], rfl⟩

theorem exec_io {events : List Event} (h : exec step init events = some s)
    (hstopped : ¬ s.Stopped) :
    ∃ es, exec IoServiceTask.step IoServiceTask.init es = some s.io := by
  refine exec_keeps (P := fun t => ¬ t.Stopped →
    ∃ es, exec IoServiceTask.step IoServiceTask.init es = some t.io) (fun t e t' hstep ht => ?_) h
    (fun _ => ⟨[], rfl⟩) hstopped
  intro hstopped'
  obtain ⟨hstopped, fs, hfs⟩ := io_of_step hstep hstopped'
  obtain ⟨es, hes⟩ := ht hstopped
  exact ⟨es ++ fs, exec_append.mpr ⟨_, hes, hfs⟩⟩

structure Entered (s : State) (e : AsyncCommands.Event) : Prop where
  control : s.control = .inLoop
  phase : s.io.phase = .running
  ioServiceRuns : s.commands.ioServiceRuns = true
  handled : ∃ handler, s.commands.handled e = some handler

def Handling (s : State) : Prop := ∀ e, s.handling = some e → Entered s e

theorem entered_step {e : Event} (h : step s e = some s') (he : e ≠ .leave)
    (hs : Handling s) {f : AsyncCommands.Event} (hf : s.handling = some f) :
    s'.handling = some f ∧ Entered s' f ∧ s'.underWay = s.underWay := by
  obtain ⟨hcontrol, hphase, hruns, handler, hhandler⟩ := hs f hf
  have hof : ∀ {t : State}, t.handling = s.handling → t.control = s.control →
      t.io.phase = s.io.phase → t.commands.ioServiceRuns = s.commands.ioServiceRuns →
      AsyncCommands.Keeps s.commands t.commands →
      t.handling = some f ∧ Entered t f ∧ t.underWay = s.underWay := by
    intro t hhandling hcontrol' hphase' hruns' hkeeps
    have hhandler' := hkeeps.handled hhandler
    refine ⟨hhandling.trans hf, ⟨hcontrol'.trans hcontrol, hphase'.trans hphase,
      hruns'.trans hruns, handler, hhandler'⟩, ?_⟩
    rw [State.underWay, State.underWay, hhandling, hf, Option.bind_some, Option.bind_some, hhandler,
      hhandler']
  have hsame : AsyncCommands.Keeps s.commands s.commands :=
    AsyncCommands.keeps_of_eq rfl rfl le_rfl le_rfl
  have hcommands : ∀ {g commands}, ofHandler g = false → g ≠ .stop →
      AsyncCommands.step s.commands g = some commands →
      commands.ioServiceRuns = s.commands.ioServiceRuns ∧
        AsyncCommands.Keeps s.commands commands := fun hg hstop hstep =>
    ⟨AsyncCommands.ioServiceRuns_step hstep hg hstop, AsyncCommands.keeps_step hg hstep⟩
  cases steps_of_step h with
  | submit _ _ _ hstep hio =>
    cases hio
    obtain ⟨hruns', hkeeps⟩ := hcommands rfl (by simp) hstep
    exact hof rfl rfl rfl hruns' hkeeps
  | post _ hstep hio =>
    obtain ⟨-, hio⟩ := Option.ite_none_right_eq_some.mp hio
    cases hio
    obtain ⟨hruns', hkeeps⟩ := hcommands rfl (by simp) hstep
    exact hof rfl rfl rfl hruns' hkeeps
  | finishJob hio _ =>
    obtain ⟨-, hio⟩ := Option.ite_none_right_eq_some.mp hio
    cases hio
    exact hof rfl rfl rfl rfl hsame
  | network hnetwork hstep =>
    obtain ⟨hruns', hkeeps⟩ := hcommands (not_ofHandler_of_ofNetwork hnetwork)
      (by rintro rfl; cases hnetwork) hstep
    exact hof rfl rfl rfl hruns' hkeeps
  | enter _ _ hnone _ _ _ => cases hnone.symm.trans hf
  | leave _ _ _ _ => exact absurd rfl he
  | leaveStopped _ _ _ _ => exact absurd rfl he
  | loopTest htest => cases htest.symm.trans hcontrol
  | runReturns _ hnone _ _ => cases hnone.symm.trans hf
  | runStopped _ hnone _ _ => cases hnone.symm.trans hf
  | wait _ hio =>
    obtain ⟨hreturned, -⟩ := Option.ite_none_right_eq_some.mp hio
    cases hreturned.symm.trans hphase
  | wake _ hio =>
    obtain ⟨hwaiting, -⟩ := Option.ite_none_right_eq_some.mp hio
    cases hwaiting.symm.trans hphase
  | reset _ hio =>
    obtain ⟨⟨hwaiting, -⟩, -⟩ := Option.ite_none_right_eq_some.mp hio
    cases hwaiting.symm.trans hphase
  | cancelPendingCommands _ =>
    exact hof rfl rfl rfl rfl (AsyncCommands.keeps_cancelPendingCommands s.commands)
  | destroy _ hstep =>
    obtain ⟨hruns', hkeeps⟩ := hcommands rfl (by simp) hstep
    exact hof rfl rfl rfl hruns' hkeeps
  | stop _ hnone _ => cases hnone.symm.trans hf
  | _ => exact hof rfl rfl rfl rfl hsame

theorem handling_step {e : Event} (h : step s e = some s') (hs : Handling s) : Handling s' := by
  intro f hf
  cases hhandling : s.handling with
  | some g =>
    by_cases he : e = .leave
    · subst he
      cases steps_of_step h with
      | leave _ _ _ _ => cases hf
      | leaveStopped _ _ _ _ => cases hf
    · obtain ⟨hkept, hentered, -⟩ := entered_step h he hs hhandling
      cases hkept.symm.trans hf
      exact hentered
  | none =>
    cases steps_of_step h with
    | enter hcontrol hphase _ _ hruns hhandler =>
      cases hf
      exact ⟨hcontrol, hphase, hruns, _, hhandler⟩
    | leave _ _ _ _ => cases hf
    | leaveStopped _ _ _ _ => cases hf
    | _ => cases hhandling.symm.trans hf

theorem of_ofWorker {worker worker' : WorkerShutdown.State} {e : WorkerShutdown.Event}
    (he : ofWorker e = true ∨ ofWorkerDestructor e = true)
    (h : WorkerShutdown.step maxJob worker e = some worker') (hkept : WorkerShutdown.Kept worker) :
    worker'.worker.accepted = worker.worker.accepted ∧ (InJob worker → InJob worker') ∧
      (worker'.owner ≠ .joined → worker.owner ≠ .joined ∧
        worker'.worker.localJobQueue.length + worker'.worker.jobs.length =
          worker.worker.localJobQueue.length + worker.worker.jobs.length) ∧
      (ofWorker e = true → worker'.owner = worker.owner) := by
  have hout : ∀ {P : Prop}, worker.control ≠ .batch → InJob worker → P :=
    fun hne hjob => absurd hjob.1 hne
  cases e with
  | worker e =>
    obtain ⟨next, hallows, hnext, rfl⟩ := WorkerShutdown.worker_of_step h
    cases e with
    | pushJob => simp [ofWorker, ofWorkerDestructor] at he
    | invoke throws => simp [ofWorker, ofWorkerDestructor] at he
    | notify =>
      obtain ⟨-, hnext⟩ := Option.ite_none_right_eq_some.mp hnext
      cases hnext
      exact ⟨rfl, id, fun hne => ⟨hne, rfl⟩, fun _ => rfl⟩
    | testPredicate =>
      obtain ⟨-, hnext⟩ := Option.ite_none_right_eq_some.mp hnext
      cases hnext
      exact ⟨rfl, hout (by simp [hallows.1]), fun hne => ⟨hne, rfl⟩, fun _ => rfl⟩
    | swap =>
      obtain ⟨hphase, hnext⟩ := Option.ite_none_right_eq_some.mp hnext
      cases hnext
      refine ⟨rfl, fun hjob => ?_, fun hne => ⟨hne, ?_⟩, fun _ => rfl⟩
      · cases hphase.symm.trans hjob.2.1
      · obtain ⟨hordered, -⟩ := hkept.running hne
        simp [hordered.localJobQueue_nil hphase nofun nofun]
    | loop =>
      obtain ⟨⟨-, hlocal⟩, hnext⟩ := Option.ite_none_right_eq_some.mp hnext
      cases hnext
      exact ⟨rfl, fun hjob => absurd hlocal hjob.2.2, fun hne => ⟨hne, rfl⟩, fun _ => rfl⟩
    | _ =>
      obtain ⟨-, hnext⟩ := Option.ite_none_right_eq_some.mp hnext
      cases hnext
      have hcontrol : worker.control = .waiting := hallows
      exact ⟨rfl, hout (by simp [hcontrol]), fun hne => ⟨hne, rfl⟩, fun _ => rfl⟩
  | loopTest =>
    obtain ⟨htest, h⟩ := Option.ite_none_right_eq_some.mp h
    cases h
    exact ⟨rfl, hout (by simp [htest]), fun hne => ⟨hne, rfl⟩, fun _ => rfl⟩
  | interrupted =>
    obtain ⟨⟨hwaiting, -⟩, h⟩ := Option.ite_none_right_eq_some.mp h
    cases h
    exact ⟨rfl, hout (by simp [hwaiting]), fun hne => ⟨hne, rfl⟩, fun _ => rfl⟩
  | flagTest =>
    obtain ⟨htest, h⟩ := Option.ite_none_right_eq_some.mp h
    cases h
    exact ⟨rfl, hout (by simp [htest]), fun hne => ⟨hne, rfl⟩, fun _ => rfl⟩
  | store =>
    obtain ⟨halive, h⟩ := Option.ite_none_right_eq_some.mp h
    cases h
    exact ⟨rfl, id, fun _ => ⟨by simp [halive], rfl⟩, nofun⟩
  | notify =>
    obtain ⟨hflagged, h⟩ := Option.ite_none_right_eq_some.mp h
    cases h
    exact ⟨rfl, id, fun _ => ⟨by simp [hflagged], rfl⟩, nofun⟩
  | join =>
    obtain ⟨⟨-, hended⟩, h⟩ := Option.ite_none_right_eq_some.mp h
    cases h
    exact ⟨rfl, hout (by simp [hended]), fun hne => absurd rfl hne, nofun⟩

/-- The io service holds the operations of the commands, and the queue of the worker their jobs. -/
structure Coupled (s : State) : Prop where
  work : s.io.work = s.commands.outstanding
  queued : s.io.queued = s.commands.jobs.length
  accepted : s.commands.accepted = s.worker.worker.accepted.length
  jobs : s.worker.owner ≠ .joined → s.commands.jobs.length + s.io.notifying.toNat =
    s.worker.worker.localJobQueue.length + s.worker.worker.jobs.length
  inJob : s.io.notifying = true → InJob s.worker
  runs : ¬ s.Stopped → (s.commands.ioServiceRuns = true ↔ s.io.phase ≠ .ended)
  owner : s.destructor ≠ .joined → s.worker.owner = .alive
  kept : WorkerShutdown.Kept s.worker

theorem coupled_init : Coupled init where
  work := rfl
  queued := rfl
  accepted := rfl
  jobs _ := rfl
  inJob := nofun
  runs _ := by decide
  owner _ := rfl
  kept := WorkerShutdown.kept_init

theorem Coupled.of_thread (hs : Coupled s) {io : IoServiceTask.State} {control : Control}
    {handling : Option AsyncCommands.Event}
    (hwork : io.work = s.io.work) (hqueued : io.queued = s.io.queued)
    (hnotifying : io.notifying = s.io.notifying) (hended : io.phase = .ended ↔ s.io.phase = .ended) :
    Coupled { s with io := io, control := control, handling := handling } where
  work := hwork.trans hs.work
  queued := hqueued.trans hs.queued
  accepted := hs.accepted
  jobs hne := hnotifying ▸ hs.jobs hne
  inJob hn := hs.inJob (hnotifying ▸ hn)
  runs hstopped := (hs.runs hstopped).trans (not_congr hended).symm
  owner := hs.owner
  kept := hs.kept

theorem Coupled.of_destructor (hs : Coupled s) {commands : AsyncCommands.State}
    {destructor : Destructor} (houtstanding : commands.outstanding = s.commands.outstanding)
    (hjobs : commands.jobs = s.commands.jobs) (haccepted : commands.accepted = s.commands.accepted)
    (hruns : ¬ State.Stopped { s with destructor := destructor } →
      ¬ s.Stopped ∧ commands.ioServiceRuns = s.commands.ioServiceRuns)
    (howner : destructor ≠ .joined → s.destructor ≠ .joined ∨ s.worker.owner = .alive) :
    Coupled { s with commands := commands, destructor := destructor } where
  work := hs.work.trans houtstanding.symm
  queued := by rw [hs.queued, hjobs]
  accepted := haccepted.trans hs.accepted
  jobs hne := by
    rw [hjobs]
    exact hs.jobs hne
  inJob := hs.inJob
  runs hstopped := by
    obtain ⟨hbefore, hsame⟩ := hruns hstopped
    rw [hsame]
    exact hs.runs hbefore
  owner hne := (howner hne).elim hs.owner id
  kept := hs.kept

theorem Coupled.of_handler (hs : Coupled s) {e : AsyncCommands.Event}
    {commands commands' : AsyncCommands.State} {io : IoServiceTask.State} (he : ofHandler e = true)
    (hcommands : AsyncCommands.step s.commands e = some commands)
    (hio : IoServiceTask.step s.io (.handle (commands.outstanding + 1 - s.commands.outstanding)
      (!commands.ioServiceRuns)) = some io)
    (houtstanding : commands'.outstanding = commands.outstanding)
    (hjobs : commands'.jobs = commands.jobs) (haccepted : commands'.accepted = commands.accepted)
    (hruns : ¬ s.Stopped → commands' = commands) :
    Coupled { s with commands := commands', io := io, handling := none } := by
  obtain ⟨⟨hphase, -⟩, hio⟩ := Option.ite_none_right_eq_some.mp hio
  cases hio
  obtain ⟨hsameJobs, hsameAccepted⟩ := AsyncCommands.jobs_step hcommands (by rintro rfl; cases he)
    (by rintro timeout rfl; cases he)
  obtain ⟨hpos, hposted⟩ := AsyncCommands.outstanding_handler he hcommands
  rw [hsameJobs] at hjobs
  constructor
  · simp only [hs.work, houtstanding]
    omega
  · simp only [hs.queued, hjobs]
  · exact (haccepted.trans hsameAccepted).trans hs.accepted
  · simp only [hjobs]
    exact hs.jobs
  · exact hs.inJob
  · intro hstopped
    rw [hruns hstopped]
    simp only [Bool.not_eq_true', ne_eq]
    split_ifs with hends <;> simp [hends]
  · exact hs.owner
  · exact hs.kept

theorem Coupled.submit (hs : Coupled s) {timeout : ℕ} {worker : WorkerShutdown.State}
    {commands : AsyncCommands.State} {io : IoServiceTask.State}
    (hworker : WorkerShutdown.step maxJob s.worker (.worker .pushJob) = some worker)
    (hroom : s.worker.worker.jobs.length ≤ maxJob.toNat)
    (hcommands : AsyncCommands.step s.commands (.submit timeout) = some commands)
    (hio : IoServiceTask.step s.io .accept = some io) :
    Coupled { s with worker := worker, commands := commands, io := io } := by
  have hkept := WorkerShutdown.kept_step hworker hs.kept
  obtain ⟨next, -, hnext, rfl⟩ := WorkerShutdown.worker_of_step hworker
  cases hnext
  cases hcommands
  cases hio
  have hpush : Worker.pushJob maxJob s.worker.worker = { s.worker.worker with
      jobs := s.worker.worker.jobs ++ [s.worker.worker.calls]
      jobQueueCondition := s.worker.worker.jobQueueCondition.announce
      calls := s.worker.worker.calls + 1
      accepted := s.worker.worker.accepted ++ [s.worker.worker.calls] } := if_pos hroom
  constructor
  · exact hs.work
  · simp [hs.queued]
  · simp [hs.accepted, hpush]
  · intro hne
    have hjobs := hs.jobs hne
    simp only [hpush, List.length_append, List.length_singleton]
    omega
  · intro hn
    obtain ⟨hcontrol, hphase, hlocal⟩ := hs.inJob hn
    simp only [InJob, hpush]
    exact ⟨hcontrol, hphase, hlocal⟩
  · exact hs.runs
  · exact hs.owner
  · exact hkept

theorem Coupled.refuse (hs : Coupled s) {worker : WorkerShutdown.State}
    (hworker : WorkerShutdown.step maxJob s.worker (.worker .pushJob) = some worker)
    (hroom : ¬ s.worker.worker.jobs.length ≤ maxJob.toNat) : Coupled { s with worker := worker } := by
  have hkept := WorkerShutdown.kept_step hworker hs.kept
  obtain ⟨next, -, hnext, rfl⟩ := WorkerShutdown.worker_of_step hworker
  cases hnext
  have hpush : Worker.pushJob maxJob s.worker.worker = { s.worker.worker with
      calls := s.worker.worker.calls + 1
      refused := s.worker.worker.refused ++ [s.worker.worker.calls] } := if_neg hroom
  constructor
  · exact hs.work
  · exact hs.queued
  · simp only [hpush, hs.accepted]
  · simp only [hpush]
    exact hs.jobs
  · simp only [InJob, hpush]
    exact hs.inJob
  · exact hs.runs
  · exact hs.owner
  · exact hkept

theorem Coupled.of_worker (hs : Coupled s) {e : WorkerShutdown.Event} {worker : WorkerShutdown.State}
    (he : ofWorker e = true ∨ (ofWorkerDestructor e = true ∧ s.destructor = .joined))
    (hworker : WorkerShutdown.step maxJob s.worker e = some worker) :
    Coupled { s with worker := worker } := by
  obtain ⟨haccepted, hjob, hjobs, howner⟩ := of_ofWorker (he.imp id And.left) hworker hs.kept
  constructor
  · exact hs.work
  · exact hs.queued
  · rw [haccepted]
    exact hs.accepted
  · intro hne
    obtain ⟨hne', hlength⟩ := hjobs hne
    exact (hs.jobs hne').trans hlength.symm
  · exact fun hn => hjob (hs.inJob hn)
  · exact hs.runs
  · intro hne
    rcases he with he | ⟨-, hjoined⟩
    · exact (howner he).trans (hs.owner hne)
    · exact absurd hjoined hne
  · exact WorkerShutdown.kept_step hworker hs.kept

theorem Coupled.post (hs : Coupled s) {commands : AsyncCommands.State} {io : IoServiceTask.State}
    (hjob : InJob s.worker) (hcommands : AsyncCommands.step s.commands .runJob = some commands)
    (hio : IoServiceTask.step s.io (.post (commands.outstanding - s.commands.outstanding)) = some io) :
    Coupled { s with commands := commands, io := io } := by
  obtain ⟨⟨-, hnotifying⟩, hio⟩ := Option.ite_none_right_eq_some.mp hio
  cases hio
  have houtstanding := AsyncCommands.outstanding_runJob hcommands
  obtain ⟨hlength, haccepted⟩ := AsyncCommands.jobs_runJob hcommands
  have hruns := AsyncCommands.ioServiceRuns_step hcommands rfl (by simp)
  constructor
  · simp only [hs.work]
    omega
  · simp only [hs.queued]
    omega
  · exact haccepted.trans hs.accepted
  · intro hne
    have hjobs := hs.jobs hne
    rw [hnotifying] at hjobs
    simp only [Bool.toNat_true, Bool.toNat_false] at hjobs ⊢
    omega
  · exact fun _ => hjob
  · rw [hruns]
    exact hs.runs
  · exact hs.owner
  · exact hs.kept

theorem Coupled.finishJob (hs : Coupled s) {worker : WorkerShutdown.State}
    {io : IoServiceTask.State} (hio : IoServiceTask.step s.io .notify = some io)
    (hworker : WorkerShutdown.step maxJob s.worker (.worker (.invoke false)) = some worker) :
    Coupled { s with worker := worker, io := io } := by
  have hkept := WorkerShutdown.kept_step hworker hs.kept
  obtain ⟨hnotifying, hio⟩ := Option.ite_none_right_eq_some.mp hio
  cases hio
  obtain ⟨next, -, hnext, rfl⟩ := WorkerShutdown.worker_of_step hworker
  obtain ⟨job, rest, hlocal, -, rfl⟩ := Worker.step_invoke hnext
  constructor
  · exact hs.work
  · exact hs.queued
  · exact hs.accepted
  · intro hne
    have hjobs := hs.jobs hne
    rw [hnotifying, hlocal, List.length_cons] at hjobs
    simp only [Bool.toNat_true, Bool.toNat_false] at hjobs ⊢
    omega
  · simp
  · exact hs.runs
  · exact hs.owner
  · exact hkept

theorem coupled_step {e : Event} (h : step s e = some s') (hhandling : Handling s) (hs : Coupled s) :
    Coupled s' := by
  have hof : ∀ {f}, s.handling = some f → ofHandler f = true := fun hf =>
    AsyncCommands.ofHandler_of_handled (hhandling _ hf).handled.choose_spec
  cases steps_of_step h with
  | submit _ hworker hroom hcommands hio => exact hs.submit hworker hroom hcommands hio
  | refuse _ hworker hroom => exact hs.refuse hworker hroom
  | worker he hworker => exact hs.of_worker he hworker
  | post hjob hcommands hio => exact hs.post hjob hcommands hio
  | finishJob hio hworker => exact hs.finishJob hio hworker
  | network he hcommands =>
    obtain ⟨hjobs, haccepted⟩ := AsyncCommands.jobs_step hcommands (by rintro rfl; cases he)
      (by rintro timeout rfl; cases he)
    have hruns := AsyncCommands.ioServiceRuns_step hcommands (not_ofHandler_of_ofNetwork he)
      (by rintro rfl; cases he)
    exact hs.of_destructor (AsyncCommands.outstanding_network he hcommands) hjobs haccepted
      (fun hstopped => ⟨hstopped, hruns⟩) Or.inl
  | enter _ _ _ _ _ _ => exact hs.of_thread rfl rfl rfl Iff.rfl
  | leave hf hstopped hcommands hio =>
    exact hs.of_handler (hof hf) hcommands hio rfl rfl rfl fun _ => rfl
  | leaveStopped hf hstopped hcommands hio =>
    exact hs.of_handler (hof hf) hcommands hio rfl rfl rfl fun h => absurd hstopped h
  | loopTest _ => exact hs.of_thread rfl rfl rfl Iff.rfl
  | runReturns _ _ _ hio =>
    obtain ⟨⟨hphase, -⟩, hio⟩ := Option.ite_none_right_eq_some.mp hio
    cases hio
    exact hs.of_thread rfl rfl rfl (by simp [hphase])
  | runStopped _ _ _ hphase => exact hs.of_thread rfl rfl rfl (by simp [hphase])
  | wait _ hio =>
    obtain ⟨hphase, hio⟩ := Option.ite_none_right_eq_some.mp hio
    cases hio
    exact hs.of_thread rfl rfl rfl (by simp [hphase])
  | wake _ hio =>
    obtain ⟨hphase, hio⟩ := Option.ite_none_right_eq_some.mp hio
    cases hio
    exact hs.of_thread rfl rfl rfl Iff.rfl
  | reset _ hio =>
    obtain ⟨⟨hphase, -⟩, hio⟩ := Option.ite_none_right_eq_some.mp hio
    cases hio
    exact hs.of_thread rfl rfl rfl (by simp [hphase])
  | cancelPendingCommands halive =>
    exact hs.of_destructor (AsyncCommands.outstanding_cancelPendingCommands _) rfl rfl
      (fun hstopped => ⟨hstopped, rfl⟩) Or.inl
  | destroy halive hcommands =>
    cases hcommands
    refine hs.of_destructor ?_ rfl rfl (fun _ => ⟨fun hs => hs.1.1 halive, rfl⟩)
      fun _ => Or.inl (by simp [halive])
    rw [AsyncCommands.outstanding_cancelPendingCommands]
    simp only [AsyncCommands.State.outstanding, AsyncCommands.Timer.cancel]
    omega
  | store hcancelled =>
    exact hs.of_destructor rfl rfl rfl (fun _ => ⟨fun hs => hs.1.2 hcancelled, rfl⟩)
      fun _ => Or.inl (by simp [hcancelled])
  | stop hflagged _ hcommands =>
    cases hcommands
    exact hs.of_destructor rfl rfl rfl (fun h => absurd (stopped_of (Or.inl rfl)) h)
      fun _ => Or.inl (by simp [hflagged])
  | stopInHandler hflagged _ =>
    exact hs.of_destructor rfl rfl rfl (fun h => absurd (stopped_of (Or.inl rfl)) h)
      fun _ => Or.inl (by simp [hflagged])
  | notify hstopped =>
    exact ⟨hs.work, hs.queued, hs.accepted, hs.jobs, hs.inJob,
      fun h => absurd (stopped_of (Or.inr (Or.inl rfl))) h, fun _ => hs.owner (by simp [hstopped]), hs.kept⟩
  | join hnotified _ =>
    exact hs.of_destructor rfl rfl rfl (fun h => absurd (stopped_of (Or.inr (Or.inr rfl))) h)
      (by simp)

theorem exec_handling {events : List Event} (h : exec step init events = some s) : Handling s :=
  exec_keeps (fun _ _ _ hstep hs => handling_step hstep hs) h nofun

theorem exec_coupled {events : List Event} (h : exec step init events = some s) : Coupled s := by
  have hboth : Handling s ∧ Coupled s := exec_keeps (P := fun t => Handling t ∧ Coupled t)
    (fun _ _ _ hstep ht => ⟨handling_step hstep ht.1, coupled_step hstep ht.1 ht.2⟩) h
    ⟨nofun, coupled_init⟩
  exact hboth.2

/-- The parts of a device run as the worker, the commands and the thread of the io service do by
themselves, and agree on what is to be done. -/
theorem parts_agree {events : List Event} (h : exec step init events = some s) :
    (∃ es, exec AsyncCommands.step AsyncCommands.State.init es = some s.commands) ∧
    (∃ es, exec (WorkerShutdown.step maxJob) WorkerShutdown.init es = some s.worker) ∧
    (¬ s.Stopped → ∃ es, exec IoServiceTask.step IoServiceTask.init es = some s.io) ∧
    s.io.work = s.commands.outstanding ∧ s.io.queued = s.commands.jobs.length ∧
    s.commands.accepted = s.worker.worker.accepted.length ∧
    (s.worker.owner ≠ .joined → s.commands.jobs.length + s.io.notifying.toNat =
      s.worker.worker.localJobQueue.length + s.worker.worker.jobs.length) := by
  have hs := exec_coupled h
  exact ⟨exec_commands h, exec_worker h, exec_io h, hs.work, hs.queued, hs.accepted, hs.jobs⟩

theorem stopped_step {e : Event} (h : step s e = some s') (hs : s.Stopped) : s'.Stopped := by
  cases steps_of_step h with
  | submit halive _ _ _ _ => exact absurd halive hs.1.1
  | refuse halive _ _ => exact absurd halive hs.1.1
  | cancelPendingCommands halive => exact absurd halive hs.1.1
  | destroy halive _ => exact absurd halive hs.1.1
  | store hcancelled => exact absurd hcancelled hs.1.2
  | stop hflagged _ _ => exact absurd hflagged hs.2
  | stopInHandler hflagged _ => exact absurd hflagged hs.2
  | notify _ => exact stopped_of (Or.inr (Or.inl rfl))
  | join _ _ => exact stopped_of (Or.inr (Or.inr rfl))
  | _ => exact hs

theorem underWay_of_none (h : s.handling = none) : s.underWay = none := by
  rw [State.underWay, h]
  rfl

theorem calls_step {e : Event} (h : step s e = some s') (he : e ≠ .leave) :
    s'.commands.calls = s.commands.calls := by
  cases steps_of_step h with
  | submit _ _ _ hcommands _ =>
    cases hcommands
    rfl
  | post _ hcommands _ =>
    cases AsyncCommands.acts_of_step hcommands with
    | reuse _ _ => rfl
    | query _ _ => rfl
  | network hnetwork hcommands =>
    cases AsyncCommands.acts_of_step hcommands with
    | unresolved _ _ _ _ => cases hnetwork
    | connectionHandler _ _ _ _ _ => cases hnetwork
    | _ => rfl
  | leave _ _ _ _ => exact absurd rfl he
  | leaveStopped _ _ _ _ => exact absurd rfl he
  | destroy _ hcommands =>
    cases hcommands
    rfl
  | stop _ _ hcommands =>
    cases hcommands
    rfl
  | _ => rfl

structure Left (s : State) (handler : Handled) (s' : State) : Prop where
  handling : s'.handling = none
  control : s'.control = s.control
  destructor : s'.destructor = s.destructor
  worker : s'.worker = s.worker
  notifying : s'.io.notifying = s.io.notifying
  phase : s'.io.phase = if handler.throws then .ended else .running
  calls : ∃ made, s'.commands.calls = s.commands.calls ++ made ∧
    ∀ call ∈ made, handler.command = some call.id

theorem left_of_step (h : step s .leave = some s') (hs : Handling s) :
    ∃ handler, s.underWay = some handler ∧ Left s handler s' := by
  have hof : ∀ {e commands io}, s.handling = some e →
      AsyncCommands.step s.commands e = some commands →
      IoServiceTask.step s.io (.handle (commands.outstanding + 1 - s.commands.outstanding)
        (!commands.ioServiceRuns)) = some io →
      ∃ handler, s.underWay = some handler ∧ Left s handler
        { s with commands := commands, io := io, handling := none } := by
    intro e commands io hhandling hcommands hio
    obtain ⟨-, -, hruns, handler, hhandler⟩ := hs e hhandling
    obtain ⟨commands', hstep, heffect⟩ := AsyncCommands.exists_step_of_handled hhandler hruns
    obtain rfl : commands' = commands := Option.some.inj (hstep.symm.trans hcommands)
    obtain ⟨-, hio⟩ := Option.ite_none_right_eq_some.mp hio
    cases hio
    refine ⟨handler, ?_, rfl, rfl, rfl, rfl, rfl, ?_, heffect.calls⟩
    · rw [State.underWay, hhandling, Option.bind_some, hhandler]
    · simp only [heffect.ioServiceRuns, Bool.not_not]
  cases steps_of_step h with
  | leave hhandling _ hcommands hio => exact hof hhandling hcommands hio
  | leaveStopped hhandling _ hcommands hio =>
    obtain ⟨handler, hunderWay, hleft⟩ := hof hhandling hcommands hio
    exact ⟨handler, hunderWay, rfl, rfl, rfl, rfl, hleft.notifying, hleft.phase, hleft.calls⟩

theorem underWay_step {e : Event} (h : step s e = some s') (he : e ≠ .leave) (hs : Handling s)
    (hstopped : s.Stopped) : s'.underWay = s.underWay := by
  cases hf : s.handling with
  | some f =>
    obtain ⟨-, -, hunderWay⟩ := entered_step h he hs hf
    exact hunderWay
  | none =>
    have hnone : s'.handling = none := by
      cases steps_of_step h with
      | enter _ _ _ hrunning _ _ => exact absurd hstopped hrunning
      | leave _ _ _ _ => rfl
      | leaveStopped _ _ _ _ => rfl
      | _ => exact hf
    rw [underWay_of_none hnone, underWay_of_none hf]

structure Behind (mid s : State) : Prop where
  stopped : s.Stopped
  handling : Handling s
  calling : s.calling = none ∨ s.calling = mid.calling
  calls : ∃ made, s.commands.calls = mid.commands.calls ++ made ∧
    ∀ call ∈ made, mid.calling = some call.id

theorem behind_step {mid : State} {e : Event} (h : step s e = some s') (hs : Behind mid s) :
    Behind mid s' := by
  obtain ⟨hstopped, hhandling, hcalling, made, hcalls, hmade⟩ := hs
  have hstopped' := stopped_step h hstopped
  have hhandling' := handling_step h hhandling
  by_cases he : e = .leave
  · subst he
    obtain ⟨handler, hunderWay, hleft⟩ := left_of_step h hhandling
    obtain ⟨more, hmore, hids⟩ := hleft.calls
    refine ⟨hstopped', hhandling', Or.inl ?_, made ++ more, ?_, ?_⟩
    · rw [State.calling, underWay_of_none hleft.handling]
      rfl
    · rw [hmore, hcalls, List.append_assoc]
    · intro call hcall
      rcases List.mem_append.mp hcall with hcall | hcall
      · exact hmade call hcall
      · have hid : s.calling = some call.id := by
          rw [State.calling, hunderWay, Option.bind_some]
          exact hids call hcall
        rcases hcalling with hnone | hsame
        · cases hnone.symm.trans hid
        · exact hsame ▸ hid
  · refine ⟨hstopped', hhandling', ?_, made, (calls_step h he).trans hcalls, hmade⟩
    rw [State.calling, underWay_step h he hhandling hstopped]
    exact hcalling

/-- Once the destructor has stopped the io service only the handler that was executing still calls
the callback of its command, and every other command without a callback waits in the queue of the
worker, at the resolver or at the socket for good. -/
theorem only_handler_calls_behind_stop {mid : State} {es fs : List Event}
    (hes : exec step init es = some mid) (hstopped : mid.Stopped) (hfs : exec step mid fs = some s) :
    (∃ made, s.commands.calls = mid.commands.calls ++ made ∧
      ∀ call ∈ made, mid.calling = some call.id) ∧
    ∀ id < s.commands.accepted, id ∈ mid.commands.calledIds ∨ mid.calling = some id ∨
      id ∈ s.commands.jobs.map AsyncCommands.Command.id ∨
        id ∈ s.commands.resolvingIds ∨ id ∈ s.commands.connectingIds := by
  have hmid : Behind mid mid := ⟨hstopped, exec_handling hes, Or.inr rfl, [], by simp, nofun⟩
  have hs : Behind mid s := exec_keeps (fun _ _ _ hstep ht => behind_step hstep ht) hfs hmid
  obtain ⟨made, hcalls, hmade⟩ := hs.calls
  refine ⟨⟨made, hcalls, hmade⟩, fun id hid => ?_⟩
  obtain ⟨events, hcommands⟩ := exec_commands (exec_append.mpr ⟨mid, hes, hfs⟩)
  rcases AsyncCommands.mem_places_of_accepted hcommands hid with hjobs | hresolving | hconnecting | hid
  · exact Or.inr (Or.inr (Or.inl hjobs))
  · exact Or.inr (Or.inr (Or.inr (Or.inl hresolving)))
  · exact Or.inr (Or.inr (Or.inr (Or.inr hconnecting)))
  · rw [AsyncCommands.State.calledIds, hcalls, List.map_append] at hid
    rcases List.mem_append.mp hid with hid | hid
    · exact Or.inl hid
    · obtain ⟨call, hcall, rfl⟩ := List.mem_map.mp hid
      exact Or.inr (Or.inl (hmade call hcall))

def stoppedRun : List Event :=
  [.submit 100, .worker (.worker .notify), .worker .loopTest, .worker (.worker .testPredicate),
    .worker .flagTest, .worker (.worker .swap), .post, .finishJob, .loopTest,
    .network (.resolve 0 (some (1, []))), .enter (.resolverHandler 0 false), .leave,
    .network (.connect 0 .success), .submit 100,
    .enter (.connectionHandler 0 (.ok .success) ⟨false, false⟩), .destroy, .store, .stop]

def laterRun : List Event := [.leave, .runReturns, .wait, .notify, .reset, .loopTest, .join]

theorem laterRun_happens : ∃ s, exec step init (stoppedRun ++ laterRun) = some s :=
  Option.isSome_iff_exists.mp (by decide)

theorem parts_agree_laterRun : ∃ s, exec step init (stoppedRun ++ laterRun) = some s ∧
    (∃ es, exec AsyncCommands.step AsyncCommands.State.init es = some s.commands) ∧
    (∃ es, exec (WorkerShutdown.step maxJob) WorkerShutdown.init es = some s.worker) ∧
    (¬ s.Stopped → ∃ es, exec IoServiceTask.step IoServiceTask.init es = some s.io) ∧
    s.io.work = s.commands.outstanding ∧ s.io.queued = s.commands.jobs.length ∧
    s.commands.accepted = s.worker.worker.accepted.length ∧
    (s.worker.owner ≠ .joined → s.commands.jobs.length + s.io.notifying.toNat =
      s.worker.worker.localJobQueue.length + s.worker.worker.jobs.length) := by
  obtain ⟨s, hs⟩ := laterRun_happens
  exact ⟨s, hs, parts_agree hs⟩

theorem only_handler_calls_behind_stop_laterRun : ∃ mid s, exec step init stoppedRun = some mid ∧
    exec step mid laterRun = some s ∧ mid.commands.calledIds = [] ∧ s.commands.calledIds = [0] ∧
    (∃ made, s.commands.calls = mid.commands.calls ++ made ∧
      ∀ call ∈ made, mid.calling = some call.id) ∧
    ∀ id < s.commands.accepted, id ∈ mid.commands.calledIds ∨ mid.calling = some id ∨
      id ∈ s.commands.jobs.map AsyncCommands.Command.id ∨
        id ∈ s.commands.resolvingIds ∨ id ∈ s.commands.connectingIds := by
  obtain ⟨s, hs⟩ := laterRun_happens
  obtain ⟨mid, hes, hfs⟩ := exec_append.mp hs
  have hstopped : ∀ mid ∈ exec step init stoppedRun,
      mid.Stopped ∧ mid.commands.calledIds = [] := by decide
  have hcalled : ∀ s ∈ exec step init (stoppedRun ++ laterRun), s.commands.calledIds = [0] := by
    decide
  obtain ⟨hmid, hnone⟩ := hstopped mid hes
  exact ⟨mid, s, hes, hfs, hnone, hcalled s hs, only_handler_calls_behind_stop hes hmid hfs⟩

end R2000Driver.DeviceLifetime
