import R2000Driver.DeviceLifetime

/-!
# When the destructor of a device returns

The thread of the io service waits without a predicate, so that it sleeps
through the notification of the destructor where `run` returns behind the stop.
Then only the notification of a job can still wake it.
-/

namespace R2000Driver.DeviceLifetime
open Runs ConditionVariable
open AsyncCommands (Handled)

structure Unthrown (worker : WorkerShutdown.State) : Prop where
  consistent : WorkerShutdown.Consistent worker
  executing : worker.worker.phase = .executing → worker.control = .batch
  foundJobs : worker.worker.phase = .foundJobs → worker.owner ≠ .joined → worker.worker.jobs ≠ []
  phase : worker.worker.phase ≠ .ended
  ended : worker.control = .ended → worker.Interrupted

theorem unthrown_init : Unthrown WorkerShutdown.init where
  consistent := WorkerShutdown.consistent_init
  executing := nofun
  foundJobs := nofun
  phase := nofun
  ended := nofun

theorem unthrown_worker {worker worker' : WorkerShutdown.State} {e : Worker.Event}
    (h : WorkerShutdown.step maxJob worker (.worker e) = some worker') (he : e ≠ .invoke true)
    (hs : Unthrown worker) : Unthrown worker' := by
  have hconsistent := WorkerShutdown.consistent_step h hs.consistent
  obtain ⟨next, hallows, hnext, rfl⟩ := WorkerShutdown.worker_of_step h
  cases e with
  | pushJob =>
    cases hnext
    revert hconsistent
    unfold Worker.pushJob
    split_ifs
    · exact fun hconsistent => ⟨hconsistent, hs.executing, fun _ _ => by simp, hs.phase, hs.ended⟩
    · exact fun hconsistent => ⟨hconsistent, hs.executing, hs.foundJobs, hs.phase, hs.ended⟩
  | notify =>
    obtain ⟨-, hnext⟩ := Option.ite_none_right_eq_some.mp hnext
    cases hnext
    exact ⟨hconsistent, hs.executing, hs.foundJobs, hs.phase, hs.ended⟩
  | testPredicate =>
    obtain ⟨-, hnext⟩ := Option.ite_none_right_eq_some.mp hnext
    cases hnext
    by_cases hjobs : worker.worker.jobs = []
    · refine ⟨hconsistent, ?_, ?_, ?_, ?_⟩ <;>
        simp [hjobs, WorkerShutdown.Control.after, hallows.1]
    · refine ⟨hconsistent, ?_, ?_, ?_, ?_⟩ <;> simp [hjobs, WorkerShutdown.Control.after]
  | wait =>
    obtain ⟨-, hnext⟩ := Option.ite_none_right_eq_some.mp hnext
    cases hnext
    exact ⟨hconsistent, by simp, by simp, by simp, hs.ended⟩
  | wake =>
    obtain ⟨-, hnext⟩ := Option.ite_none_right_eq_some.mp hnext
    cases hnext
    exact ⟨hconsistent, hs.executing, hs.foundJobs, hs.phase, hs.ended⟩
  | resume =>
    obtain ⟨-, hnext⟩ := Option.ite_none_right_eq_some.mp hnext
    cases hnext
    exact ⟨hconsistent, by simp, by simp, by simp, hs.ended⟩
  | swap =>
    obtain ⟨-, hnext⟩ := Option.ite_none_right_eq_some.mp hnext
    cases hnext
    exact ⟨hconsistent, fun _ => hallows, by simp, by simp, hs.ended⟩
  | invoke throws =>
    obtain ⟨job, rest, -, -, rfl⟩ := Worker.step_invoke hnext
    cases throws with
    | true => exact absurd rfl he
    | false => exact ⟨hconsistent, fun _ => hallows, by simp, by simp, hs.ended⟩
  | loop =>
    obtain ⟨-, hnext⟩ := Option.ite_none_right_eq_some.mp hnext
    cases hnext
    exact ⟨hconsistent, by simp, by simp, by simp, by simp [WorkerShutdown.Control.after]⟩

theorem unthrown_step {worker worker' : WorkerShutdown.State} {e : WorkerShutdown.Event}
    (h : WorkerShutdown.step maxJob worker e = some worker') (he : e ≠ .worker (.invoke true))
    (hs : Unthrown worker) : Unthrown worker' := by
  have hconsistent := WorkerShutdown.consistent_step h hs.consistent
  have hbatch : worker.control ≠ .batch → worker.worker.phase ≠ .executing :=
    fun hne hphase => hne (hs.executing hphase)
  cases e with
  | worker e => exact unthrown_worker h (fun heq => he (heq ▸ rfl)) hs
  | loopTest =>
    obtain ⟨htest, h⟩ := Option.ite_none_right_eq_some.mp h
    cases h
    refine ⟨hconsistent, fun hphase => absurd hphase (hbatch (by simp [htest])), hs.foundJobs,
      hs.phase, ?_⟩
    by_cases hflag : worker.Interrupted
    · exact fun _ => hflag
    · simp [hflag]
  | interrupted =>
    obtain ⟨⟨hwaiting, -⟩, h⟩ := Option.ite_none_right_eq_some.mp h
    cases h
    exact ⟨hconsistent, fun hphase => absurd hphase (hbatch (by simp [hwaiting])), hs.foundJobs,
      hs.phase, nofun⟩
  | flagTest =>
    obtain ⟨htest, h⟩ := Option.ite_none_right_eq_some.mp h
    cases h
    refine ⟨hconsistent, fun hphase => absurd hphase (hbatch (by simp [htest])), hs.foundJobs,
      hs.phase, ?_⟩
    by_cases hflag : worker.Interrupted
    · exact fun _ => hflag
    · simp [hflag]
  | store =>
    obtain ⟨halive, h⟩ := Option.ite_none_right_eq_some.mp h
    cases h
    exact ⟨hconsistent, hs.executing, fun hphase _ => hs.foundJobs hphase (by simp [halive]),
      hs.phase, fun _ => nofun⟩
  | notify =>
    obtain ⟨hflagged, h⟩ := Option.ite_none_right_eq_some.mp h
    cases h
    exact ⟨hconsistent, hs.executing, fun hphase _ => hs.foundJobs hphase (by simp [hflagged]),
      hs.phase, fun _ => nofun⟩
  | join =>
    obtain ⟨⟨-, hended⟩, h⟩ := Option.ite_none_right_eq_some.mp h
    cases h
    exact ⟨hconsistent, fun hphase => absurd hphase (hbatch (by simp [hended])),
      fun _ hne => absurd rfl hne, hs.phase, fun _ => nofun⟩

variable {s s' : State}

structure Ready (s : State) : Prop where
  handling : Handling s
  coupled : Coupled s
  worker : Unthrown s.worker
  blocked : s.io.ioServiceTaskCv.blocked = true → s.io.phase = .inWait
  loopTest : s.control = .loopTest → s.io.phase = .running

theorem ready_init : Ready init where
  handling := nofun
  coupled := coupled_init
  worker := unthrown_init
  blocked := nofun
  loopTest _ := rfl

theorem unthrown_of_step {e : Event} (h : step s e = some s') (hs : Unthrown s.worker) :
    Unthrown s'.worker := by
  cases steps_of_step h with
  | submit _ hworker _ _ _ => exact unthrown_step hworker nofun hs
  | refuse _ hworker _ => exact unthrown_step hworker nofun hs
  | worker he hworker =>
    refine unthrown_step hworker ?_ hs
    rintro rfl
    rcases he with he | ⟨he, -⟩ <;> cases he
  | finishJob _ hworker => exact unthrown_step hworker (by simp) hs
  | _ => exact hs

theorem ready_step {e : Event} (h : step s e = some s') (hs : Ready s) : Ready s' := by
  have hhandling := handling_step h hs.handling
  have hcoupled := coupled_step h hs.handling hs.coupled
  have hworker := unthrown_of_step h hs.worker
  obtain ⟨hentered, -, -, hblocked, hloop⟩ := hs
  cases steps_of_step h with
  | submit _ _ _ _ hio =>
    cases hio
    exact ⟨hhandling, hcoupled, hworker, hblocked, hloop⟩
  | post _ _ hio =>
    obtain ⟨-, hio⟩ := Option.ite_none_right_eq_some.mp hio
    cases hio
    exact ⟨hhandling, hcoupled, hworker, hblocked, hloop⟩
  | finishJob hio _ =>
    obtain ⟨-, hio⟩ := Option.ite_none_right_eq_some.mp hio
    cases hio
    exact ⟨hhandling, hcoupled, hworker, nofun, hloop⟩
  | leave hf _ _ hio =>
    obtain ⟨⟨hphase, -⟩, hio⟩ := Option.ite_none_right_eq_some.mp hio
    cases hio
    refine ⟨hhandling, hcoupled, hworker, fun hb => ?_, fun hc => ?_⟩
    · cases hphase.symm.trans (hblocked hb)
    · cases (hentered _ hf).control.symm.trans hc
  | leaveStopped hf _ _ hio =>
    obtain ⟨⟨hphase, -⟩, hio⟩ := Option.ite_none_right_eq_some.mp hio
    cases hio
    refine ⟨hhandling, hcoupled, hworker, fun hb => ?_, fun hc => ?_⟩
    · cases hphase.symm.trans (hblocked hb)
    · cases (hentered _ hf).control.symm.trans hc
  | loopTest htest =>
    refine ⟨hhandling, hcoupled, hworker, hblocked, ?_⟩
    split_ifs <;> nofun
  | runReturns hcontrol _ _ hio =>
    obtain ⟨⟨hphase, -⟩, hio⟩ := Option.ite_none_right_eq_some.mp hio
    cases hio
    refine ⟨hhandling, hcoupled, hworker, fun hb => ?_, fun hc => ?_⟩
    · cases hphase.symm.trans (hblocked hb)
    · cases hcontrol.symm.trans hc
  | runStopped hcontrol _ _ hphase =>
    refine ⟨hhandling, hcoupled, hworker, fun hb => ?_, fun hc => ?_⟩
    · cases hphase.symm.trans (hblocked hb)
    · cases hcontrol.symm.trans hc
  | wait hcontrol hio =>
    obtain ⟨-, hio⟩ := Option.ite_none_right_eq_some.mp hio
    cases hio
    refine ⟨hhandling, hcoupled, hworker, fun _ => rfl, fun hc => ?_⟩
    cases hcontrol.symm.trans hc
  | wake _ hio =>
    obtain ⟨-, hio⟩ := Option.ite_none_right_eq_some.mp hio
    cases hio
    exact ⟨hhandling, hcoupled, hworker, nofun, hloop⟩
  | reset _ hio =>
    obtain ⟨⟨-, hunblocked⟩, hio⟩ := Option.ite_none_right_eq_some.mp hio
    cases hio
    refine ⟨hhandling, hcoupled, hworker, fun hb => ?_, fun _ => rfl⟩
    cases hunblocked.symm.trans hb
  | notify _ => exact ⟨hhandling, hcoupled, hworker, nofun, hloop⟩
  | _ => exact ⟨hhandling, hcoupled, hworker, hblocked, hloop⟩

theorem exec_ready {events : List Event} (h : exec step init events = some s) : Ready s :=
  exec_keeps (fun _ _ _ hstep hs => ready_step hstep hs) h ready_init

/-- All steps but the wake-ups that nobody causes and further commands. -/
def Event.Own : Event → Prop
  | .submit _ => False
  | .wake => False
  | .worker (.worker .wake) => False
  | _ => True

def WorkerAsleep (worker : WorkerShutdown.State) : Prop :=
  worker.control = .waiting ∧ worker.worker.jobQueueCondition.toNotify = 0 ∧
    (worker.worker.phase = .foundEmpty ∨
      (worker.worker.phase = .inWait ∧ worker.worker.jobQueueCondition.blocked = true))

def State.throws (s : State) : Bool := s.underWay.any Handled.throws

/-- The thread of the io service is blocked or on its way there, with no test of the flag before. -/
def IoWaits (s : State) : Prop :=
  s.control = .inLoop ∧ ((s.io.phase = .running ∧ s.throws = false) ∨ s.io.phase = .returned ∨
    (s.io.phase = .inWait ∧ s.io.ioServiceTaskCv.blocked = true))

def NoJob (s : State) : Prop :=
  s.io.notifying = false ∧ s.worker.worker.localJobQueue = [] ∧
    (s.worker.worker.jobs = [] ∨ WorkerAsleep s.worker)

def Doomed (s : State) : Prop :=
  (s.destructor = .notified ∧ IoWaits s ∧ NoJob s) ∨
    (s.destructor = .joined ∧ WorkerShutdown.Doomed s.worker)

theorem noJob_worker {worker' : WorkerShutdown.State} {e : WorkerShutdown.Event}
    (he : ofWorker e = true) (hwake : e ≠ .worker .wake)
    (h : WorkerShutdown.step maxJob s.worker e = some worker') (hs : Ready s)
    (halive : s.worker.owner = .alive) (hjob : NoJob s) : NoJob { s with worker := worker' } := by
  obtain ⟨hnotifying, hlocal, hjobs⟩ := hjob
  cases e with
  | worker e =>
    obtain ⟨next, hallows, hnext, rfl⟩ := WorkerShutdown.worker_of_step h
    cases e with
    | pushJob => cases he
    | invoke throws => cases he
    | wake => exact absurd rfl hwake
    | notify =>
      obtain ⟨hpos, hnext⟩ := Option.ite_none_right_eq_some.mp hnext
      cases hnext
      refine ⟨hnotifying, hlocal, Or.inl (hjobs.resolve_right fun hasleep => ?_)⟩
      exact absurd hasleep.2.1 (Nat.pos_iff_ne_zero.mp hpos)
    | testPredicate =>
      obtain ⟨hphase, hnext⟩ := Option.ite_none_right_eq_some.mp hnext
      cases hnext
      refine ⟨hnotifying, hlocal, Or.inl (hjobs.resolve_right ?_)⟩
      rintro ⟨-, -, hfound | ⟨hfound, -⟩⟩ <;> cases hphase.symm.trans hfound
    | wait =>
      obtain ⟨-, hnext⟩ := Option.ite_none_right_eq_some.mp hnext
      cases hnext
      refine ⟨hnotifying, hlocal, hjobs.imp id fun hasleep => ?_⟩
      exact ⟨hasleep.1, hasleep.2.1, Or.inr ⟨rfl, rfl⟩⟩
    | resume =>
      obtain ⟨⟨hphase, hunblocked⟩, hnext⟩ := Option.ite_none_right_eq_some.mp hnext
      cases hnext
      refine ⟨hnotifying, hlocal, Or.inl (hjobs.resolve_right ?_)⟩
      rintro ⟨-, -, hfound | ⟨-, hblocked⟩⟩
      · cases hphase.symm.trans hfound
      · cases hunblocked.symm.trans hblocked
    | swap =>
      obtain ⟨hphase, hnext⟩ := Option.ite_none_right_eq_some.mp hnext
      cases hnext
      have hcontrol : s.worker.control = .batch := hallows
      refine absurd (hjobs.resolve_right fun hasleep => ?_)
        (hs.worker.foundJobs hphase (by simp [halive]))
      cases hcontrol.symm.trans hasleep.1
    | loop =>
      obtain ⟨-, hnext⟩ := Option.ite_none_right_eq_some.mp hnext
      cases hnext
      have hcontrol : s.worker.control = .batch := hallows
      refine ⟨hnotifying, hlocal, Or.inl (hjobs.resolve_right fun hasleep => ?_)⟩
      cases hcontrol.symm.trans hasleep.1
  | loopTest =>
    obtain ⟨htest, h⟩ := Option.ite_none_right_eq_some.mp h
    cases h
    refine ⟨hnotifying, hlocal, Or.inl (hjobs.resolve_right fun hasleep => ?_)⟩
    cases htest.symm.trans hasleep.1
  | interrupted =>
    obtain ⟨⟨-, -, -, hflag⟩, -⟩ := Option.ite_none_right_eq_some.mp h
    exact absurd halive hflag
  | flagTest =>
    obtain ⟨htest, h⟩ := Option.ite_none_right_eq_some.mp h
    cases h
    refine ⟨hnotifying, hlocal, Or.inl (hjobs.resolve_right fun hasleep => ?_)⟩
    cases htest.symm.trans hasleep.1
  | store => cases he
  | notify => cases he
  | join => cases he

theorem throws_of_none (h : s.handling = none) : s.throws = false := by
  rw [State.throws, underWay_of_none h]
  rfl

theorem Left.ioWaits {handler : Handled} (hleft : Left s handler s')
    (hunderWay : s.underWay = some handler) (hs : Handling s) (hwaits : IoWaits s) : IoWaits s' := by
  refine ⟨hleft.control.trans hwaits.1, Or.inl ⟨?_, throws_of_none hleft.handling⟩⟩
  obtain ⟨e, hhandling, -⟩ := Option.bind_eq_some_iff.mp hunderWay
  have hphase := (hs e hhandling).phase
  rcases hwaits.2 with ⟨-, hthrows⟩ | hreturned | ⟨hinWait, -⟩
  · rw [State.throws, hunderWay] at hthrows
    have hthrows : handler.throws = false := hthrows
    rw [hleft.phase, hthrows]
    rfl
  · cases hphase.symm.trans hreturned
  · cases hphase.symm.trans hinWait

theorem Left.noJob {handler : Handled} (hleft : Left s handler s') (hjob : NoJob s) : NoJob s' := by
  rw [NoJob, hleft.notifying, hleft.worker]
  exact hjob

theorem not_inJob_of_doomed {worker : WorkerShutdown.State} (h : WorkerShutdown.Doomed worker) :
    worker.control ≠ .batch := by
  obtain ⟨-, hcontrol, -⟩ := h
  simp [hcontrol]

theorem doomed_step {e : Event} (hown : e.Own) (h : step s e = some s') (hs : Ready s)
    (hdoomed : Doomed s) : Doomed s' := by
  rcases hdoomed with ⟨hnotified, hwaits, hjob⟩ | ⟨hjoined, hworker⟩
  · have hstopped : s.Stopped := by simp [State.Stopped, State.Interrupted, hnotified]
    cases steps_of_step h with
    | submit _ _ _ _ _ => exact hown.elim
    | refuse _ _ _ => exact hown.elim
    | @worker e worker he hworker =>
      have he : ofWorker e = true := by simpa [hnotified] using he
      have halive : s.worker.owner = .alive := hs.coupled.owner (by simp [hnotified])
      refine Or.inl ⟨hnotified, hwaits, noJob_worker he ?_ hworker hs halive hjob⟩
      rintro rfl
      exact hown
    | post hinJob _ _ => exact absurd hjob.2.1 hinJob.2.2
    | finishJob hio _ =>
      obtain ⟨hnotifying, -⟩ := Option.ite_none_right_eq_some.mp hio
      cases hnotifying.symm.trans hjob.1
    | network _ _ =>
      refine Or.inl ⟨hnotified, ⟨hwaits.1, hwaits.2.imp_left fun hrunning => ⟨hrunning.1, ?_⟩⟩, hjob⟩
      rw [State.throws, underWay_step h (by simp) hs.handling hstopped]
      exact hrunning.2
    | enter _ _ _ hruns _ _ => exact absurd hstopped hruns
    | leave _ hruns _ _ => exact absurd hstopped hruns
    | leaveStopped hhandling _ _ _ =>
      obtain ⟨handler, hunderWay, hleft⟩ := left_of_step h hs.handling
      exact Or.inl ⟨hleft.destructor.trans hnotified, hleft.ioWaits hunderWay hs.handling hwaits,
        hleft.noJob hjob⟩
    | loopTest htest => cases htest.symm.trans hwaits.1
    | runReturns _ _ hruns _ => exact absurd hstopped hruns
    | runStopped _ _ _ _ => exact Or.inl ⟨hnotified, ⟨hwaits.1, Or.inr (Or.inl rfl)⟩, hjob⟩
    | wait _ hio =>
      obtain ⟨-, hio⟩ := Option.ite_none_right_eq_some.mp hio
      cases hio
      exact Or.inl ⟨hnotified, ⟨hwaits.1, Or.inr (Or.inr ⟨rfl, rfl⟩)⟩, hjob⟩
    | wake _ _ => exact hown.elim
    | reset _ hio =>
      obtain ⟨⟨hphase, hunblocked⟩, -⟩ := Option.ite_none_right_eq_some.mp hio
      rcases hwaits.2 with ⟨hrunning, -⟩ | hreturned | ⟨-, hblocked⟩
      · cases hphase.symm.trans hrunning
      · cases hphase.symm.trans hreturned
      · cases hunblocked.symm.trans hblocked
    | join _ hended =>
      rcases hended with hended | hended
      · cases hended.symm.trans hwaits.1
      · rcases hwaits.2 with ⟨hrunning, -⟩ | hreturned | ⟨hinWait, -⟩
        · cases hended.symm.trans hrunning
        · cases hended.symm.trans hreturned
        · cases hended.symm.trans hinWait
    | cancelPendingCommands halive => cases hnotified.symm.trans halive
    | destroy halive _ => cases hnotified.symm.trans halive
    | store hcancelled => cases hnotified.symm.trans hcancelled
    | stop hflagged _ _ => cases hnotified.symm.trans hflagged
    | stopInHandler hflagged _ => cases hnotified.symm.trans hflagged
    | notify hstopped => cases hnotified.symm.trans hstopped
  · cases steps_of_step h with
    | submit _ _ _ _ _ => exact hown.elim
    | refuse _ _ _ => exact hown.elim
    | @worker e worker he hstep =>
      refine Or.inr ⟨hjoined, WorkerShutdown.doomed_step ?_ hstep hworker⟩
      cases e with
      | worker e =>
        cases e with
        | pushJob => simp [ofWorker, ofWorkerDestructor] at he
        | wake => exact hown.elim
        | _ => trivial
      | _ => trivial
    | post hinJob _ _ => exact absurd hinJob.1 (not_inJob_of_doomed hworker)
    | finishJob _ hstep =>
      obtain ⟨-, hbatch, -⟩ := WorkerShutdown.worker_of_step hstep
      exact absurd hbatch (not_inJob_of_doomed hworker)
    | cancelPendingCommands halive => cases hjoined.symm.trans halive
    | destroy halive _ => cases hjoined.symm.trans halive
    | store hcancelled => cases hjoined.symm.trans hcancelled
    | stop hflagged _ _ => cases hjoined.symm.trans hflagged
    | stopInHandler hflagged _ => cases hjoined.symm.trans hflagged
    | notify hstopped => cases hjoined.symm.trans hstopped
    | join hnotified _ => cases hjoined.symm.trans hnotified
    | _ => exact Or.inr ⟨hjoined, hworker⟩

def Destructor.rank : Destructor → ℕ
  | alive => 6
  | cancelled => 5
  | flagged => 4
  | stopped => 3
  | notified => 2
  | joined => 1

def ioRank (handling : Option AsyncCommands.Event) (control : Control) (io : IoServiceTask.State) : ℕ :=
  match control with
  | .ended => 0
  | .loopTest => 1
  | .inLoop =>
    match io.phase with
    | .ended => 0
    | .inWait => if io.ioServiceTaskCv.blocked then 3 else 2
    | .returned => 4
    | .running => if handling = none then 5 else 6

def jobRank (worker : WorkerShutdown.State) (notifying : Bool) : ℕ :=
  if notifying then 0
  else
    match worker.control with
    | .ended => 0
    | .batch =>
      match worker.worker.phase with
      | .executing => if worker.worker.localJobQueue = [] then 9 else 1
      | _ => 2
    | .flagTest => 3
    | .waiting =>
      match worker.worker.phase with
      | .foundEmpty => 7
      | .inWait => if worker.worker.jobQueueCondition.blocked then 6 else 5
      | _ => 4
    | .loopTest => 8

theorem jobRank_le (worker : WorkerShutdown.State) (notifying : Bool) :
    jobRank worker notifying ≤ 9 := by
  unfold jobRank
  repeat' split
  all_goals omega

def State.rank (s : State) : ℕ :=
  100 * s.destructor.rank + 10 * ioRank s.handling s.control s.io + jobRank s.worker s.io.notifying

theorem rank_lt_of_destructor (hdestructor : s'.destructor.rank < s.destructor.rank)
    (hio : ioRank s'.handling s'.control s'.io ≤ ioRank s.handling s.control s.io) : s'.rank < s.rank := by
  have hjob := jobRank_le s'.worker s'.io.notifying
  simp only [State.rank]
  omega

theorem rank_lt_of_io (hdestructor : s'.destructor = s.destructor)
    (hio : ioRank s'.handling s'.control s'.io < ioRank s.handling s.control s.io) : s'.rank < s.rank := by
  have hjob := jobRank_le s'.worker s'.io.notifying
  simp only [State.rank, hdestructor]
  omega

theorem rank_lt_of_job (hdestructor : s'.destructor = s.destructor) (hcontrol : s'.control = s.control)
    (hhandling : s'.handling = s.handling) (hio : s'.io = s.io)
    (hjob : jobRank s'.worker s.io.notifying < jobRank s.worker s.io.notifying) :
    s'.rank < s.rank := by
  simp only [State.rank, hdestructor, hcontrol, hhandling, hio]
  omega

theorem ioRank_notify_le (handling : Option AsyncCommands.Event) (control : Control)
    (io : IoServiceTask.State) :
    ioRank handling control { io with ioServiceTaskCv := io.ioServiceTaskCv.announce.notify } ≤
      ioRank handling control io := by
  cases control with
  | inLoop =>
    cases hphase : io.phase with
    | inWait =>
      simp only [ioRank, hphase, ConditionVariable.notify]
      split_ifs <;> simp_all
    | _ => simp [ioRank, hphase]
  | _ => exact le_rfl

def Nearer (s : State) : Prop :=
  ∃ e s', Event.Own e ∧ step s e = some s' ∧ ¬ Doomed s' ∧ s'.rank < s.rank

theorem not_doomed_of_destructor (hnotified : s.destructor ≠ .notified)
    (hjoined : s.destructor ≠ .joined) : ¬ Doomed s := by
  rintro (⟨h, -⟩ | ⟨h, -⟩)
  · exact hnotified h
  · exact hjoined h

theorem not_doomed_of_job (hnotified : s.destructor = .notified) (hjob : ¬ NoJob s) : ¬ Doomed s := by
  rintro (⟨-, -, h⟩ | ⟨h, -⟩)
  · exact hjob h
  · cases hnotified.symm.trans h

theorem not_doomed_of_io (hnotified : s.destructor = .notified) (hio : ¬ IoWaits s) : ¬ Doomed s := by
  rintro (⟨-, h, -⟩ | ⟨h, -⟩)
  · exact hio h
  · cases hnotified.symm.trans h

theorem exists_leave (hs : Ready s) {e : AsyncCommands.Event} (hhandling : s.handling = some e) :
    ∃ s' handler, step s .leave = some s' ∧ s.underWay = some handler ∧ Left s handler s' := by
  obtain ⟨hcontrol, hphase, hruns, handler, hhandler⟩ := hs.handling e hhandling
  obtain ⟨commands, hcommands, -⟩ := AsyncCommands.exists_step_of_handled hhandler hruns
  have hwork : 0 < s.io.work := by
    rw [hs.coupled.work]
    exact (AsyncCommands.outstanding_handler (AsyncCommands.ofHandler_of_handled hhandler) hcommands).1
  have hstep : ∃ s', step s .leave = some s' := by
    simp [step, hhandling, hcommands, IoServiceTask.step, hphase, hwork]
  obtain ⟨s', hs'⟩ := hstep
  obtain ⟨handler, hunderWay, hleft⟩ := left_of_step hs' hs.handling
  exact ⟨s', handler, hs', hunderWay, hleft⟩

theorem Left.rank_lt {handler : Handled} (hleft : Left s handler s')
    (hunderWay : s.underWay = some handler) (hs : Handling s) : s'.rank < s.rank := by
  obtain ⟨e, hhandling, -⟩ := Option.bind_eq_some_iff.mp hunderWay
  obtain ⟨hcontrol, hphase, -, -⟩ := hs e hhandling
  refine rank_lt_of_io hleft.destructor ?_
  cases hthrows : handler.throws <;>
    simp [ioRank, hleft.control, hcontrol, hleft.phase, hphase, hleft.handling, hhandling, hthrows]

theorem nearer_of_onItsWay (hs : Ready s) (hstopped : s.Stopped) (hcontrol : s.control = .inLoop)
    (hphase : s.io.phase = .running ∨ s.io.phase = .returned)
    (hnot : ∀ s' : State, s'.destructor = s.destructor → s'.worker = s.worker →
      s'.io.notifying = s.io.notifying → ¬ Doomed s') : Nearer s := by
  rcases hphase with hphase | hphase
  · cases hhandling : s.handling with
    | some e =>
      obtain ⟨s', handler, hstep, hunderWay, hleft⟩ := exists_leave hs hhandling
      exact ⟨.leave, s', trivial, hstep, hnot s' hleft.destructor hleft.worker hleft.notifying,
        hleft.rank_lt hunderWay hs.handling⟩
    | none =>
      refine ⟨.runReturns, { s with io := { s.io with phase := .returned, postedSinceReturn := 0 } },
        trivial, ?_, hnot _ rfl rfl rfl, ?_⟩
      · simp [step, hcontrol, hhandling, hstopped, hphase]
      · exact rank_lt_of_io rfl (by simp [ioRank, hcontrol, hhandling, hphase])
  · refine ⟨.wait, { s with io := { s.io with
      phase := .inWait, ioServiceTaskCv := s.io.ioServiceTaskCv.block } }, trivial, ?_,
      hnot _ rfl rfl rfl, ?_⟩
    · simp [step, IoServiceTask.step, hcontrol, hphase]
    · exact rank_lt_of_io rfl (by simp [ioRank, hcontrol, hphase, block])

theorem nearer_of_worker (e : WorkerShutdown.Event) (worker : WorkerShutdown.State)
    (he : ofWorker e = true) (hwake : e ≠ .worker .wake)
    (hworker : WorkerShutdown.step maxJob s.worker e = some worker)
    (hnot : ¬ Doomed { s with worker := worker })
    (hlt : jobRank worker s.io.notifying < jobRank s.worker s.io.notifying) : Nearer s := by
  refine ⟨.worker e, { s with worker := worker }, ?_, ?_, hnot, rank_lt_of_job rfl rfl rfl rfl hlt⟩
  · cases e with
    | worker e =>
      cases e with
      | wake => exact absurd rfl hwake
      | _ => trivial
    | _ => trivial
  · simp [step, he, hworker]

theorem nearer_of_jobs (hs : Ready s) (hnotified : s.destructor = .notified)
    (hnotifying : s.io.notifying = false) (hlocal : s.worker.worker.localJobQueue = [])
    (hjobs : s.worker.worker.jobs ≠ []) (hawake : ¬ WorkerAsleep s.worker) : Nearer s := by
  have halive : s.worker.owner = .alive := hs.coupled.owner (by simp [hnotified])
  have hflag : ¬ s.worker.Interrupted := not_not.mpr halive
  have hnot : ∀ worker : WorkerShutdown.State, worker.worker.jobs ≠ [] → ¬ WorkerAsleep worker →
      ¬ Doomed { s with worker := worker } := fun worker hjobs hawake =>
    not_doomed_of_job hnotified fun hjob => hjob.2.2.elim hjobs hawake
  cases hcontrol : s.worker.control with
  | ended => exact absurd (hs.worker.ended hcontrol) hflag
  | loopTest =>
    have hphase := hs.worker.consistent.loopTest hcontrol
    refine nearer_of_worker .loopTest { s.worker with control := .waiting } rfl
      (by simp) ?_ (hnot _ hjobs ?_) ?_
    · simp [WorkerShutdown.step, hcontrol, hflag]
    · simp [WorkerAsleep, hphase]
    · simp [jobRank, hnotifying, hcontrol, hphase]
  | flagTest =>
    have hphase := (hs.worker.consistent.flagTest hcontrol).resolve_right fun h => hflag h.2
    refine nearer_of_worker .flagTest { s.worker with control := .batch } rfl
      (by simp) ?_ (hnot _ hjobs (by simp [WorkerAsleep])) ?_
    · simp [WorkerShutdown.step, hcontrol, hflag]
    · simp [jobRank, hnotifying, hcontrol, hphase]
  | batch =>
    rcases hs.worker.consistent.batch hcontrol with hphase | hphase
    · refine nearer_of_worker (.worker .swap) { s.worker with worker :=
        { s.worker.worker with phase := .executing, jobs := [], localJobQueue := s.worker.worker.jobs } }
        rfl (by simp) ?_ (not_doomed_of_job hnotified fun hjob => hjobs hjob.2.1) ?_
      · simp [WorkerShutdown.step, WorkerShutdown.State.Allows, Worker.step,
          WorkerShutdown.Control.after, hcontrol, hphase]
      · simp [jobRank, hnotifying, hcontrol, hphase, hjobs]
    · refine nearer_of_worker (.worker .loop) { s.worker with
        worker := { s.worker.worker with phase := .looping }, control := .loopTest } rfl (by simp) ?_
        (hnot _ hjobs (by simp [WorkerAsleep])) ?_
      · simp [WorkerShutdown.step, WorkerShutdown.State.Allows, Worker.step,
          WorkerShutdown.Control.after, hcontrol, hphase, hlocal]
      · simp [jobRank, hnotifying, hcontrol, hphase, hlocal]
  | waiting =>
    rcases hs.worker.consistent.waiting hcontrol with hphase | hphase | hphase
    · refine nearer_of_worker (.worker .testPredicate) { s.worker with
        worker := { s.worker.worker with phase := .foundJobs }, control := .flagTest } rfl (by simp) ?_
        (hnot _ hjobs (by simp [WorkerAsleep])) ?_
      · simp [WorkerShutdown.step, WorkerShutdown.State.Allows, Worker.step,
          WorkerShutdown.Control.after, hcontrol, hphase, hjobs]
      · simp [jobRank, hnotifying, hcontrol, hphase]
    · have hpos : s.worker.worker.jobQueueCondition.toNotify ≠ 0 := fun hzero =>
        hawake ⟨hcontrol, hzero, Or.inl hphase⟩
      refine nearer_of_worker (.worker .wait) { s.worker with worker :=
        { s.worker.worker with
          phase := .inWait, jobQueueCondition := s.worker.worker.jobQueueCondition.block } } rfl
        (by simp) ?_ (hnot _ hjobs fun hasleep => hpos hasleep.2.1) ?_
      · simp [WorkerShutdown.step, WorkerShutdown.State.Allows, Worker.step,
          WorkerShutdown.Control.after, hcontrol, hphase]
      · simp [jobRank, hnotifying, hcontrol, hphase, block]
    · by_cases hblocked : s.worker.worker.jobQueueCondition.blocked = true
      · have hpos : 0 < s.worker.worker.jobQueueCondition.toNotify :=
          Nat.pos_iff_ne_zero.mpr fun hzero => hawake ⟨hcontrol, hzero, Or.inr ⟨hphase, hblocked⟩⟩
        refine nearer_of_worker (.worker .notify) { s.worker with worker :=
          { s.worker.worker with jobQueueCondition := s.worker.worker.jobQueueCondition.notify } }
          rfl (by simp) ?_ (hnot _ hjobs ?_) ?_
        · simp [WorkerShutdown.step, WorkerShutdown.State.Allows,
            WorkerShutdown.State.pushNotifications, Worker.step, WorkerShutdown.Control.after, halive,
            hpos]
        · simp [WorkerAsleep, hphase, ConditionVariable.notify]
        · simp [jobRank, hnotifying, hcontrol, hphase, hblocked, ConditionVariable.notify]
      · rw [Bool.not_eq_true] at hblocked
        refine nearer_of_worker (.worker .resume) { s.worker with worker :=
          { s.worker.worker with phase := .looping } } rfl (by simp) ?_
          (hnot _ hjobs (by simp [WorkerAsleep])) ?_
        · simp [WorkerShutdown.step, WorkerShutdown.State.Allows, Worker.step,
            WorkerShutdown.Control.after, hcontrol, hphase, hblocked]
        · simp [jobRank, hnotifying, hcontrol, hphase, hblocked]

theorem inJob_of_localJobQueue (hs : Ready s) (howner : s.worker.owner ≠ .joined)
    (hlocal : s.worker.worker.localJobQueue ≠ []) : InJob s.worker := by
  obtain ⟨hordered, -⟩ := hs.coupled.kept.running howner
  have hphase : s.worker.worker.phase = .executing := by
    by_contra hne
    exact hlocal (hordered.localJobQueue hne hs.worker.phase)
  exact ⟨hs.worker.executing hphase, hphase, hlocal⟩

theorem exists_post (hs : Ready s) (howner : s.worker.owner ≠ .joined) (hjob : InJob s.worker)
    (hnotifying : s.io.notifying = false) : ∃ commands io, io.notifying = true ∧
      io.phase = s.io.phase ∧ io.ioServiceTaskCv = s.io.ioServiceTaskCv ∧
      step s .post = some { s with commands := commands, io := io } := by
  have hlength := hs.coupled.jobs howner
  have hlocal := List.length_pos_iff.mpr hjob.2.2
  rw [hnotifying, Bool.toNat_false, Nat.add_zero] at hlength
  obtain ⟨command, rest, hjobs⟩ := List.exists_cons_of_length_pos
    (show 0 < s.commands.jobs.length by omega)
  have hqueued : 0 < s.io.queued := by
    rw [hs.coupled.queued, hjobs]
    exact Nat.succ_pos _
  let commands := ({ s.commands with jobs := rest } : AsyncCommands.State).asyncWorkerJob command
  have hcommands : AsyncCommands.step s.commands .runJob = some commands := by
    rw [AsyncCommands.step, hjobs]
  obtain ⟨io, hio, hposted, hphase, hcv⟩ : ∃ io : IoServiceTask.State,
      IoServiceTask.step s.io (.post (commands.outstanding - s.commands.outstanding)) = some io ∧
        io.notifying = true ∧ io.phase = s.io.phase ∧
        io.ioServiceTaskCv = s.io.ioServiceTaskCv :=
    ⟨_, if_pos ⟨hqueued, hnotifying⟩, rfl, rfl, rfl⟩
  refine ⟨commands, io, hposted, hphase, hcv, ?_⟩
  simp only [step, if_pos hjob, hcommands, Option.bind_some, hio, Option.map_some]

theorem exists_finishJob (hs : Ready s) (hnotifying : s.io.notifying = true) :
    ∃ worker, WorkerShutdown.step maxJob s.worker (.worker (.invoke false)) = some worker ∧
      step s .finishJob = some { s with
        worker := worker
        io := { s.io with notifying := false, ioServiceTaskCv := s.io.ioServiceTaskCv.notify } } := by
  obtain ⟨hcontrol, hphase, hlocal⟩ := hs.coupled.inJob hnotifying
  obtain ⟨job, rest, hcons⟩ := List.exists_cons_of_ne_nil hlocal
  have hworker : WorkerShutdown.step maxJob s.worker (.worker (.invoke false)) =
      some { s.worker with worker := { s.worker.worker with
        localJobQueue := rest, executed := s.worker.worker.executed ++ [job] } } := by
    simp [WorkerShutdown.step, WorkerShutdown.State.Allows, Worker.step,
      WorkerShutdown.Control.after, hcontrol, hphase, hcons]
  exact ⟨_, hworker, by simp [step, IoServiceTask.step, hnotifying, hworker]⟩

theorem nearer_of_blocked (hs : Ready s) (hnotified : s.destructor = .notified)
    (hcontrol : s.control = .inLoop) (hphase : s.io.phase = .inWait)
    (hblocked : s.io.ioServiceTaskCv.blocked = true) (hjob : ¬ NoJob s) : Nearer s := by
  have halive : s.worker.owner = .alive := hs.coupled.owner (by simp [hnotified])
  cases hnotifying : s.io.notifying with
  | true =>
    obtain ⟨worker, -, hstep⟩ := exists_finishJob hs hnotifying
    refine ⟨.finishJob, _, trivial, hstep, not_doomed_of_io hnotified ?_, rank_lt_of_io rfl ?_⟩
    · simp [IoWaits, hphase, ConditionVariable.notify]
    · simp [ioRank, hcontrol, hphase, hblocked, ConditionVariable.notify]
  | false =>
    by_cases hlocal : s.worker.worker.localJobQueue = []
    · obtain ⟨hjobs, hawake⟩ := not_or.mp fun hnone => hjob ⟨hnotifying, hlocal, hnone⟩
      exact nearer_of_jobs hs hnotified hnotifying hlocal hjobs hawake
    · have hinJob := inJob_of_localJobQueue hs (by simp [halive]) hlocal
      obtain ⟨commands, io, hposted, hioPhase, hcv, hstep⟩ :=
        exists_post hs (by simp [halive]) hinJob hnotifying
      refine ⟨.post, _, trivial, hstep, not_doomed_of_job hnotified fun hnone => ?_, ?_⟩
      · cases hposted.symm.trans hnone.1
      · simp [State.rank, ioRank, jobRank, hioPhase, hcv, hposted, hnotifying, hinJob.1, hinJob.2.1,
          hlocal]

theorem nearer_of_notDoomed (hs : Ready s) (hdoomed : ¬ Doomed s) (hjoined : s.destructor ≠ .joined) :
    Nearer s := by
  have hlower : ∀ {s' : State}, s'.destructor.rank < s.destructor.rank → s'.control = s.control →
      s'.handling = s.handling → s'.io = s.io → s'.rank < s.rank :=
    fun hdestructor hcontrol hhandling hio =>
      rank_lt_of_destructor hdestructor (by rw [hcontrol, hhandling, hio])
  cases hdestructor : s.destructor with
  | joined => exact absurd hdestructor hjoined
  | alive =>
    refine ⟨.destroy, _, trivial, if_pos hdestructor, not_doomed_of_destructor nofun nofun,
      hlower ?_ rfl rfl rfl⟩
    simp [hdestructor, Destructor.rank]
  | cancelled =>
    refine ⟨.store, _, trivial, if_pos hdestructor, not_doomed_of_destructor nofun nofun,
      hlower ?_ rfl rfl rfl⟩
    simp [hdestructor, Destructor.rank]
  | flagged =>
    obtain ⟨commands, hstep⟩ : ∃ commands, step s .stop =
        some { s with commands := commands, destructor := .stopped } := by
      by_cases hnone : s.handling = none
      · exact ⟨_, (if_pos hdestructor).trans (if_pos hnone)⟩
      · exact ⟨_, (if_pos hdestructor).trans (if_neg hnone)⟩
    refine ⟨.stop, _, trivial, hstep, not_doomed_of_destructor nofun nofun, hlower ?_ rfl rfl rfl⟩
    simp [hdestructor, Destructor.rank]
  | stopped =>
    have hstopped : s.Stopped := by simp [State.Stopped, State.Interrupted, hdestructor]
    by_cases hway : s.control = .inLoop ∧ (s.io.phase = .running ∨ s.io.phase = .returned)
    · refine nearer_of_onItsWay hs hstopped hway.1 hway.2 fun s' hsame _ _ => ?_
      exact not_doomed_of_destructor (by simp [hsame, hdestructor]) (by simp [hsame, hdestructor])
    · refine ⟨.notify, _, trivial, if_pos hdestructor, not_doomed_of_io rfl ?_, ?_⟩
      · rintro ⟨hcontrol, ⟨hrunning, -⟩ | hreturned | ⟨-, hblocked⟩⟩
        · exact hway ⟨hcontrol, Or.inl hrunning⟩
        · exact hway ⟨hcontrol, Or.inr hreturned⟩
        · cases hblocked
      · exact rank_lt_of_destructor (by simp [hdestructor, Destructor.rank])
          (ioRank_notify_le s.handling s.control s.io)
  | notified =>
    have hstopped : s.Stopped := by simp [State.Stopped, State.Interrupted, hdestructor]
    have hjoin : s.control = .ended ∨ s.io.phase = .ended → Nearer s := by
      intro hended
      refine ⟨.join, { s with destructor := .joined }, trivial, if_pos ⟨hdestructor, hended⟩, ?_,
        hlower (by simp [hdestructor, Destructor.rank]) rfl rfl rfl⟩
      have halive : s.worker.owner = .alive := hs.coupled.owner hjoined
      rintro (⟨h, -⟩ | ⟨-, h, -⟩)
      · cases h
      · cases halive.symm.trans h
    have hof : ∀ {s' : State}, s'.worker = s.worker → s'.io.notifying = s.io.notifying → NoJob s' →
        NoJob s := by
      intro s' hworker hio hnone
      rw [NoJob, ← hworker, ← hio]
      exact hnone
    have hjob : IoWaits s → ¬ NoJob s := fun hwaits hnone =>
      hdoomed (Or.inl ⟨hdestructor, hwaits, hnone⟩)
    cases hcontrol : s.control with
    | ended => exact hjoin (Or.inl hcontrol)
    | loopTest =>
      have hflag : s.Interrupted := hstopped.1
      refine ⟨.loopTest, { s with control := .ended }, trivial, ?_,
        not_doomed_of_io hdestructor (by simp [IoWaits]), rank_lt_of_io rfl (by simp [ioRank, hcontrol])⟩
      simp [step, hcontrol, hflag]
    | inLoop =>
      cases hphase : s.io.phase with
      | ended => exact hjoin (Or.inr hphase)
      | running =>
        by_cases hthrows : s.throws = true
        · -- the exception ends the thread
          obtain ⟨handler, hunderWay, hthrows⟩ := (Option.any_eq_true _ _).mp hthrows
          obtain ⟨e, hhandling, -⟩ := Option.bind_eq_some_iff.mp hunderWay
          obtain ⟨s', handler', hstep, hunderWay', hleft⟩ := exists_leave hs hhandling
          obtain rfl : handler' = handler := Option.some.inj (hunderWay'.symm.trans hunderWay)
          have hended : s'.io.phase = .ended := by rw [hleft.phase, if_pos hthrows]
          refine ⟨.leave, s', trivial, hstep,
            not_doomed_of_io (hleft.destructor.trans hdestructor) ?_,
            hleft.rank_lt hunderWay hs.handling⟩
          simp [IoWaits, hended]
        · have hnot := hjob ⟨hcontrol, Or.inl ⟨hphase, Bool.eq_false_iff.mpr hthrows⟩⟩
          exact nearer_of_onItsWay hs hstopped hcontrol (Or.inl hphase) fun s' hsame hworker hio =>
            not_doomed_of_job (hsame.trans hdestructor) fun hnone => hnot (hof hworker hio hnone)
      | returned =>
        have hnot := hjob ⟨hcontrol, Or.inr (Or.inl hphase)⟩
        exact nearer_of_onItsWay hs hstopped hcontrol (Or.inr hphase) fun s' hsame hworker hio =>
          not_doomed_of_job (hsame.trans hdestructor) fun hnone => hnot (hof hworker hio hnone)
      | inWait =>
        by_cases hblocked : s.io.ioServiceTaskCv.blocked = true
        · exact nearer_of_blocked hs hdestructor hcontrol hphase hblocked
            (hjob ⟨hcontrol, Or.inr (Or.inr ⟨hphase, hblocked⟩)⟩)
        · rw [Bool.not_eq_true] at hblocked
          refine ⟨.reset, { s with io := { s.io with phase := .running }, control := .loopTest },
            trivial, ?_, not_doomed_of_io hdestructor (by simp [IoWaits]), rank_lt_of_io rfl ?_⟩
          · simp [step, IoServiceTask.step, hcontrol, hphase, hblocked]
          · simp [ioRank, hcontrol, hphase, hblocked]

def State.workerRank (s : State) : ℕ := 2 * s.worker.rank + if s.io.notifying then 0 else 1

theorem workerNearer (hs : Ready s) (hjoined : s.destructor = .joined) (hdoomed : ¬ Doomed s)
    (howner : s.worker.owner ≠ .joined) : ∃ e s', Event.Own e ∧ step s e = some s' ∧
      (s'.destructor = .joined ∧ ¬ Doomed s') ∧ s'.workerRank < s.workerRank := by
  have hworker : ¬ WorkerShutdown.Doomed s.worker := fun h => hdoomed (Or.inr ⟨hjoined, h⟩)
  have hnot : ∀ {s' : State}, s'.destructor = .joined → ¬ WorkerShutdown.Doomed s'.worker →
      s'.destructor = .joined ∧ ¬ Doomed s' := by
    rintro s' hjoined' hworker'
    refine ⟨hjoined', ?_⟩
    rintro (⟨h, -⟩ | ⟨-, h⟩)
    · cases hjoined'.symm.trans h
    · exact hworker' h
  cases hnotifying : s.io.notifying with
  | true =>
    obtain ⟨worker, hstep, hfinish⟩ := exists_finishJob hs hnotifying
    obtain ⟨hcontrol, hphase, -⟩ := hs.coupled.inJob hnotifying
    obtain ⟨next, -, hnext, rfl⟩ := WorkerShutdown.worker_of_step hstep
    obtain ⟨job, rest, hlocal, -, rfl⟩ := Worker.step_invoke hnext
    refine ⟨.finishJob, _, trivial, hfinish, hnot hjoined ?_, ?_⟩
    · simp [WorkerShutdown.Doomed, WorkerShutdown.Control.after, hcontrol]
    · simp [State.workerRank, WorkerShutdown.State.rank, WorkerShutdown.State.threadRank,
        WorkerShutdown.Control.after, hnotifying, hcontrol, hphase, hlocal]
      omega
  | false =>
    by_cases hinJob : InJob s.worker
    · obtain ⟨commands, io, hposted, -, -, hstep⟩ := exists_post hs howner hinJob hnotifying
      refine ⟨.post, _, trivial, hstep, hnot hjoined hworker, ?_⟩
      simp [State.workerRank, hposted, hnotifying]
    · have hnearer : WorkerShutdown.Nearer maxJob s.worker :=
        WorkerShutdown.nearer_of_notDoomed hs.worker.consistent hworker howner
      obtain ⟨e, worker, hown, hstep, hworker', hlt⟩ := hnearer
      have hinvoke : ∀ throws, e ≠ .worker (.invoke throws) := by
        rintro throws rfl
        obtain ⟨next, hallows, hnext, -⟩ := WorkerShutdown.worker_of_step hstep
        obtain ⟨job, rest, hlocal, hphase, -⟩ := Worker.step_invoke hnext
        exact hinJob ⟨hallows, hphase, by simp [hlocal]⟩
      refine ⟨.worker e, { s with worker := worker }, ?_, ?_, hnot hjoined hworker', ?_⟩
      · cases e with
        | worker e =>
          cases e with
          | wake => exact hown.elim
          | _ => trivial
        | _ => trivial
      · have he : ofWorker e = true ∨ (ofWorkerDestructor e = true ∧ s.destructor = .joined) := by
          cases e with
          | worker e =>
            cases e with
            | pushJob => exact hown.elim
            | invoke throws => exact absurd rfl (hinvoke throws)
            | _ => exact Or.inl rfl
          | store => exact Or.inr ⟨rfl, hjoined⟩
          | notify => exact Or.inr ⟨rfl, hjoined⟩
          | join => exact Or.inr ⟨rfl, hjoined⟩
          | _ => exact Or.inl rfl
        rw [step, if_pos he, hstep]
        rfl
      · simp only [State.workerRank]
        omega

/-- The destructor can return by the steps of the device itself from every state that is not
doomed, and from no other. -/
theorem device_destructor_returns_iff {events : List Event} (h : exec step init events = some s) :
    (∃ es s', (∀ e ∈ es, Event.Own e) ∧ exec step s es = some s' ∧ s'.worker.owner = .joined) ↔
      ¬ Doomed s := by
  have hs := exec_ready h
  constructor
  · rintro ⟨es, s', hown, hes, howner⟩ hdoomed
    obtain ⟨hready, hdoomed'⟩ : Ready s' ∧ Doomed s' := exec_meets
      (P := fun t => Ready t ∧ Doomed t)
      (fun _ _ _ hstep he ht => ⟨ready_step hstep ht.1, doomed_step he hstep ht.1 ht.2⟩) hes
      (meets_of_forall_mem hown) ⟨hs, hdoomed⟩
    rcases hdoomed' with ⟨hnotified, -⟩ | ⟨-, hworker, -⟩
    · cases howner.symm.trans (hready.coupled.owner (by simp [hnotified]))
    · cases howner.symm.trans hworker
  · intro hdoomed
    have hthread : ∀ t, (Ready t ∧ ¬ Doomed t) → ¬ t.destructor = .joined → ∃ e t', Event.Own e ∧
        step t e = some t' ∧ (Ready t' ∧ ¬ Doomed t') ∧ t'.rank < t.rank := by
      rintro t ⟨ht, hdoomed⟩ hnot
      obtain ⟨e, t', hown, hstep, hdoomed', hlt⟩ := nearer_of_notDoomed ht hdoomed hnot
      exact ⟨e, t', hown, hstep, ⟨ready_step hstep ht, hdoomed'⟩, hlt⟩
    have hworker : ∀ t, (Ready t ∧ t.destructor = .joined ∧ ¬ Doomed t) → ¬ t.worker.owner = .joined →
        ∃ e t', Event.Own e ∧ step t e = some t' ∧
          (Ready t' ∧ t'.destructor = .joined ∧ ¬ Doomed t') ∧ t'.workerRank < t.workerRank := by
      rintro t ⟨ht, hjoined, hdoomed⟩ hnot
      obtain ⟨e, t', hown, hstep, hdoomed', hlt⟩ := workerNearer ht hjoined hdoomed hnot
      exact ⟨e, t', hown, hstep, ⟨ready_step hstep ht, hdoomed'⟩, hlt⟩
    obtain ⟨es, mid, hes, hmid, ⟨hready, hmidDoomed⟩, hjoined⟩ :=
      exists_exec_of_decreasing State.rank hthread ⟨hs, hdoomed⟩
    obtain ⟨fs, s', hfs, hs', -, howner⟩ :=
      exists_exec_of_decreasing State.workerRank hworker ⟨hready, hjoined, hmidDoomed⟩
    refine ⟨es ++ fs, s', fun e he => ?_, exec_append.mpr ⟨mid, hmid, hs'⟩, howner⟩
    exact (List.mem_append.mp he).elim (hes e) (hfs e)

def lostNotification : List Event :=
  [.submit 100, .worker (.worker .notify), .worker .loopTest, .worker (.worker .testPredicate),
    .worker .flagTest, .worker (.worker .swap), .post, .finishJob, .loopTest,
    .network (.resolve 0 (some (1, []))), .enter (.resolverHandler 0 false), .leave, .destroy, .store,
    .stop, .notify, .runReturns]

theorem device_destructor_returns_iff_lostNotification :
    ∃ s, exec step init lostNotification = some s ∧ Doomed s ∧
      ((∃ es s', (∀ e ∈ es, Event.Own e) ∧ exec step s es = some s' ∧ s'.worker.owner = .joined) ↔
        ¬ Doomed s) := by
  obtain ⟨s, hs⟩ : ∃ s, exec step init lostNotification = some s :=
    Option.isSome_iff_exists.mp (by decide)
  have hend : ∀ s ∈ exec step init lostNotification, s.destructor = .notified ∧
      s.control = .inLoop ∧ s.io.phase = .returned ∧ s.io.notifying = false ∧
      s.worker.worker.localJobQueue = [] ∧ s.worker.worker.jobs = [] := by decide
  obtain ⟨hnotified, hcontrol, hphase, hnotifying, hlocal, hjobs⟩ := hend s hs
  have hdoomed : Doomed s := Or.inl ⟨hnotified, ⟨hcontrol, Or.inr (Or.inl hphase)⟩, hnotifying,
    hlocal, Or.inl hjobs⟩
  exact ⟨s, hs, hdoomed, device_destructor_returns_iff hs⟩

end R2000Driver.DeviceLifetime
