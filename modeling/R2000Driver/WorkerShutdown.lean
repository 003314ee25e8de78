import R2000Driver.Worker

/-!
# The end of the worker

The worker beside its destructor, which sets the flag, notifies, waits for the
thread and clears the queue. The thread reads the flag in the test of its loop,
in the predicate of its wait and behind the wait. None of this is under a lock.

`dropped` keeps the jobs that the destructor clears and is read by the
statements only.
-/

namespace R2000Driver.WorkerShutdown
open ConditionVariable Runs

inductive Control
  | loopTest
  | waiting
  | flagTest
  | batch
  | ended
  deriving DecidableEq, Repr

inductive Owner
  | alive
  | flagged
  | notified
  | joined
  deriving DecidableEq, Repr

structure State where
  worker : Worker.State
  control : Control
  owner : Owner
  dropped : List ℕ
  deriving DecidableEq, Repr

def init : State where
  worker := Worker.init
  control := .loopTest
  owner := .alive
  dropped := []

inductive Event
  | worker (e : Worker.Event)
  | loopTest
  | interrupted
  | flagTest
  | store
  | notify
  | join
  deriving DecidableEq, Repr

def State.Interrupted (s : State) : Prop := s.owner ≠ .alive

instance (s : State) : Decidable s.Interrupted := inferInstanceAs (Decidable (s.owner ≠ .alive))

def State.pushNotifications (s : State) : ℕ :=
  s.worker.jobQueueCondition.toNotify - if s.owner = .flagged then 1 else 0

def State.Allows (s : State) : Worker.Event → Prop
  | .pushJob => s.owner ≠ .joined
  | .notify => s.owner ≠ .joined ∧ 0 < s.pushNotifications
  | .testPredicate => s.control = .waiting ∧ ¬ (s.Interrupted ∧ s.worker.jobs = [])
  | .wait => s.control = .waiting
  | .wake => s.control = .waiting
  | .resume => s.control = .waiting
  | .swap => s.control = .batch
  | .invoke _ => s.control = .batch
  | .loop => s.control = .batch

instance (s : State) : DecidablePred s.Allows
  | .pushJob => inferInstanceAs (Decidable (s.owner ≠ .joined))
  | .notify => inferInstanceAs (Decidable (s.owner ≠ .joined ∧ 0 < s.pushNotifications))
  | .testPredicate =>
    inferInstanceAs (Decidable (s.control = .waiting ∧ ¬ (s.Interrupted ∧ s.worker.jobs = [])))
  | .wait => inferInstanceAs (Decidable (s.control = .waiting))
  | .wake => inferInstanceAs (Decidable (s.control = .waiting))
  | .resume => inferInstanceAs (Decidable (s.control = .waiting))
  | .swap => inferInstanceAs (Decidable (s.control = .batch))
  | .invoke _ => inferInstanceAs (Decidable (s.control = .batch))
  | .loop => inferInstanceAs (Decidable (s.control = .batch))

def Control.after (control : Control) (worker : Worker.State) : Worker.Event → Control
  | .testPredicate => if worker.jobs = [] then control else .flagTest
  | .invoke throws => if throws then .ended else control
  | .loop => .loopTest
  | _ => control

def step (maxJob : UInt32) (s : State) : Event → Option State
  | .worker e =>
    if s.Allows e then
      (Worker.step maxJob s.worker e).map fun worker =>
        { s with worker := worker, control := s.control.after s.worker e }
    else none
  | .loopTest =>
    if s.control = .loopTest then
      some { s with control := if s.Interrupted then .ended else .waiting }
    else none
  | .interrupted =>
    if s.control = .waiting ∧ s.worker.phase = .looping ∧ s.worker.jobs = [] ∧ s.Interrupted then
      some { s with control := .flagTest }
    else none
  | .flagTest =>
    if s.control = .flagTest then
      some { s with control := if s.Interrupted then .ended else .batch }
    else none
  | .store =>
    if s.owner = .alive then
      some { s with
        owner := .flagged
        worker := { s.worker with jobQueueCondition := s.worker.jobQueueCondition.announce } }
    else none
  | .notify =>
    if s.owner = .flagged then
      some { s with
        owner := .notified
        worker := { s.worker with jobQueueCondition := s.worker.jobQueueCondition.notify } }
    else none
  | .join =>
    if s.owner = .notified ∧ s.control = .ended then
      some { s with
        owner := .joined
        worker := { s.worker with localJobQueue := [], jobs := [] }
        dropped := s.worker.localJobQueue ++ s.worker.jobs }
    else none

variable {maxJob : UInt32} {s s' : State}

theorem worker_of_step {e : Worker.Event} (h : step maxJob s (.worker e) = some s') :
    ∃ worker, s.Allows e ∧ Worker.step maxJob s.worker e = some worker ∧
      s' = { s with worker := worker, control := s.control.after s.worker e } := by
  obtain ⟨hallows, hrest⟩ := Option.ite_none_right_eq_some.mp h
  obtain ⟨worker, hworker, rfl⟩ := Option.map_eq_some_iff.mp hrest
  exact ⟨worker, hallows, hworker, rfl⟩

/-- Before the destructor the worker runs as one that nothing interrupts. -/
theorem exec_worker {events : List Event} (h : exec (step maxJob) init events = some s)
    (halive : s.owner = .alive) :
    ∃ es, exec (Worker.step maxJob) Worker.init es = some s.worker := by
  refine exec_keeps (P := fun t => t.owner = .alive →
    ∃ es, exec (Worker.step maxJob) Worker.init es = some t.worker) (fun t e t' hstep ht => ?_) h
    (fun _ => ⟨[], rfl⟩) halive
  cases e with
  | worker e =>
    obtain ⟨worker, -, hworker, rfl⟩ := worker_of_step hstep
    intro halive
    obtain ⟨es, hes⟩ := ht halive
    exact ⟨es ++ [e], exec_append.mpr ⟨_, hes, exec_single hworker⟩⟩
  | store =>
    obtain ⟨-, ht'⟩ := Option.ite_none_right_eq_some.mp hstep
    cases ht'
    nofun
  | notify =>
    obtain ⟨-, ht'⟩ := Option.ite_none_right_eq_some.mp hstep
    cases ht'
    nofun
  | join =>
    obtain ⟨-, ht'⟩ := Option.ite_none_right_eq_some.mp hstep
    cases ht'
    nofun
  | _ =>
    obtain ⟨-, ht'⟩ := Option.ite_none_right_eq_some.mp hstep
    cases ht'
    exact ht

structure Kept (s : State) : Prop where
  running : s.owner ≠ .joined → Worker.Ordered s.worker ∧ s.dropped = []
  joined : s.owner = .joined → s.control = .ended ∧ s.worker.localJobQueue = [] ∧ s.worker.jobs = []
  accepted : s.worker.accepted =
    s.worker.executed ++ s.worker.localJobQueue ++ s.worker.jobs ++ s.dropped
  increasing : s.worker.accepted.Pairwise (· < ·)

theorem kept_of_ordered (hs : Worker.Ordered s.worker) (hdropped : s.dropped = [])
    (howner : s.owner ≠ .joined) : Kept s where
  running _ := ⟨hs, hdropped⟩
  joined h := absurd h howner
  accepted := by rw [hdropped, List.append_nil, hs.accepted]
  increasing := hs.increasing

theorem owner_ne_of_allows {e : Worker.Event} (hs : Kept s) (h : s.Allows e) : s.owner ≠ .joined := by
  have hended : s.owner = .joined → s.control = .ended := fun howner => (hs.joined howner).1
  intro howner
  have hcontrol := hended howner
  cases e with
  | pushJob => exact h howner
  | notify => exact h.1 howner
  | testPredicate => cases hcontrol.symm.trans h.1
  | _ => cases hcontrol.symm.trans h

theorem kept_step {e : Event} (h : step maxJob s e = some s') (hs : Kept s) : Kept s' := by
  have hcontrol : ∀ control, s.control ≠ .ended → Kept { s with control := control } := by
    intro control hne
    exact ⟨hs.running, fun hjoined => absurd (hs.joined hjoined).1 hne, hs.accepted, hs.increasing⟩
  cases e with
  | worker e =>
    obtain ⟨worker, hallows, hworker, rfl⟩ := worker_of_step h
    have howner := owner_ne_of_allows hs hallows
    obtain ⟨hordered, hdropped⟩ := hs.running howner
    exact kept_of_ordered (Worker.ordered_step hworker hordered) hdropped howner
  | loopTest =>
    obtain ⟨htest, hs'⟩ := Option.ite_none_right_eq_some.mp h
    cases hs'
    exact hcontrol _ (by simp [htest])
  | interrupted =>
    obtain ⟨⟨hwaiting, -⟩, hs'⟩ := Option.ite_none_right_eq_some.mp h
    cases hs'
    exact hcontrol _ (by simp [hwaiting])
  | flagTest =>
    obtain ⟨htest, hs'⟩ := Option.ite_none_right_eq_some.mp h
    cases hs'
    exact hcontrol _ (by simp [htest])
  | store =>
    obtain ⟨halive, hs'⟩ := Option.ite_none_right_eq_some.mp h
    cases hs'
    obtain ⟨hordered, hdropped⟩ := hs.running (by simp [halive])
    exact kept_of_ordered { hordered with blocked := hordered.blocked } hdropped nofun
  | notify =>
    obtain ⟨hflagged, hs'⟩ := Option.ite_none_right_eq_some.mp h
    cases hs'
    obtain ⟨hordered, hdropped⟩ := hs.running (by simp [hflagged])
    exact kept_of_ordered { hordered with blocked := nofun } hdropped nofun
  | join =>
    obtain ⟨⟨hnotified, hended⟩, hs'⟩ := Option.ite_none_right_eq_some.mp h
    cases hs'
    obtain ⟨hordered, hdropped⟩ := hs.running (by simp [hnotified])
    refine ⟨fun hne => absurd rfl hne, fun _ => ⟨hended, rfl, rfl⟩, ?_, hordered.increasing⟩
    simp [hordered.accepted]

theorem kept_init : Kept init := kept_of_ordered Worker.ordered_init rfl nofun

/-- Every accepted job has been executed, is waiting, or was dropped by the destructor: in this
order, each once, and without the waiting ones behind the destructor. -/
theorem jobs_executed_or_dropped {events : List Event} (h : exec (step maxJob) init events = some s) :
    s.worker.accepted =
        s.worker.executed ++ s.worker.localJobQueue ++ s.worker.jobs ++ s.dropped ∧
      s.worker.accepted.Nodup ∧
      (s.owner ≠ .joined → s.dropped = []) ∧
      (s.owner = .joined → s.worker.accepted = s.worker.executed ++ s.dropped) := by
  have hs : Kept s := exec_keeps (fun _ _ _ hstep hs => kept_step hstep hs) h kept_init
  refine ⟨hs.accepted, hs.increasing.imp fun hlt => Nat.ne_of_lt hlt, ?_, ?_⟩
  · exact fun howner => (hs.running howner).2
  · intro hjoined
    obtain ⟨-, hlocal, hjobs⟩ := hs.joined hjoined
    simpa [hlocal, hjobs] using hs.accepted

def secondJobRun : List Event :=
  [.worker .pushJob, .worker .notify, .loopTest, .worker .testPredicate, .flagTest, .worker .swap,
    .worker .pushJob, .store]

def endingRun : List Event := [.notify, .worker (.invoke false), .worker .loop, .loopTest, .join]

theorem endingRun_happens : ∃ s, exec (step 5) init (secondJobRun ++ endingRun) = some s :=
  Option.isSome_iff_exists.mp (by decide)

theorem jobs_executed_or_dropped_secondJob : ∃ s,
    exec (step 5) init (secondJobRun ++ endingRun) = some s ∧
      s.worker.accepted =
          s.worker.executed ++ s.worker.localJobQueue ++ s.worker.jobs ++ s.dropped ∧
        s.worker.accepted.Nodup ∧
        (s.owner ≠ .joined → s.dropped = []) ∧
        (s.owner = .joined → s.worker.accepted = s.worker.executed ++ s.dropped) := by
  obtain ⟨s, hs⟩ := endingRun_happens
  exact ⟨s, hs, jobs_executed_or_dropped hs⟩

structure Consistent (s : State) : Prop where
  loopTest : s.control = .loopTest → s.worker.phase = .looping
  waiting : s.control = .waiting →
    s.worker.phase = .looping ∨ s.worker.phase = .foundEmpty ∨ s.worker.phase = .inWait
  batch : s.control = .batch → s.worker.phase = .foundJobs ∨ s.worker.phase = .executing
  flagTest : s.control = .flagTest →
    s.worker.phase = .foundJobs ∨ (s.worker.phase = .looping ∧ s.Interrupted)
  blocked : s.worker.jobQueueCondition.blocked = true → s.worker.phase = .inWait
  flagged : s.owner = .flagged → 0 < s.worker.jobQueueCondition.toNotify

theorem consistent_init : Consistent init := by
  constructor <;> simp [init, Worker.init, ConditionVariable.init]

theorem consistent_worker {e : Worker.Event} (h : step maxJob s (.worker e) = some s')
    (hs : Consistent s) : Consistent s' := by
  obtain ⟨hloop, hwaiting, hbatch, htest, hblocked, hflagged⟩ := hs
  obtain ⟨worker, hallows, hworker, rfl⟩ := worker_of_step h
  cases e with
  | pushJob =>
    cases hworker
    unfold Worker.pushJob
    split_ifs
    · exact ⟨hloop, hwaiting, hbatch, htest, hblocked, fun _ => Nat.succ_pos _⟩
    · exact ⟨hloop, hwaiting, hbatch, htest, hblocked, hflagged⟩
  | notify =>
    obtain ⟨-, hworker⟩ := Option.ite_none_right_eq_some.mp hworker
    cases hworker
    refine ⟨hloop, hwaiting, hbatch, htest, nofun, fun hf => ?_⟩
    have hpush : 0 < s.pushNotifications := hallows.2
    rw [State.pushNotifications, if_pos hf] at hpush
    exact hpush
  | testPredicate =>
    obtain ⟨hphase, hworker⟩ := Option.ite_none_right_eq_some.mp hworker
    cases hworker
    have hawake : s.worker.jobQueueCondition.blocked ≠ true := fun hb => by
      cases hphase.symm.trans (hblocked hb)
    by_cases hjobs : s.worker.jobs = []
    · constructor <;> simp [Control.after, hjobs, hallows.1, hawake]
      exact hflagged
    · constructor <;> simp [Control.after, hjobs, hawake]
      exact hflagged
  | wait =>
    obtain ⟨-, hworker⟩ := Option.ite_none_right_eq_some.mp hworker
    cases hworker
    have hcontrol : s.control = .waiting := hallows
    constructor <;> simp [Control.after, hcontrol, block]
    exact hflagged
  | wake =>
    obtain ⟨-, hworker⟩ := Option.ite_none_right_eq_some.mp hworker
    cases hworker
    exact ⟨hloop, hwaiting, hbatch, htest, nofun, hflagged⟩
  | resume =>
    obtain ⟨⟨-, hunblocked⟩, hworker⟩ := Option.ite_none_right_eq_some.mp hworker
    cases hworker
    have hcontrol : s.control = .waiting := hallows
    constructor <;> simp [Control.after, hcontrol, hunblocked]
    exact hflagged
  | swap =>
    obtain ⟨hphase, hworker⟩ := Option.ite_none_right_eq_some.mp hworker
    cases hworker
    have hcontrol : s.control = .batch := hallows
    have hawake : s.worker.jobQueueCondition.blocked ≠ true := fun hb => by
      cases hphase.symm.trans (hblocked hb)
    constructor <;> simp [Control.after, hcontrol, hawake]
    exact hflagged
  | invoke throws =>
    obtain ⟨job, rest, -, hphase, rfl⟩ := Worker.step_invoke hworker
    have hcontrol : s.control = .batch := hallows
    have hawake : s.worker.jobQueueCondition.blocked ≠ true := fun hb => by
      cases hphase.symm.trans (hblocked hb)
    cases throws <;> constructor <;> simp [Control.after, hcontrol, hawake] <;> exact hflagged
  | loop =>
    obtain ⟨⟨hphase, -⟩, hworker⟩ := Option.ite_none_right_eq_some.mp hworker
    cases hworker
    have hawake : s.worker.jobQueueCondition.blocked ≠ true := fun hb => by
      cases hphase.symm.trans (hblocked hb)
    constructor <;> simp [Control.after, hawake]
    exact hflagged

theorem consistent_step {e : Event} (h : step maxJob s e = some s') (hs : Consistent s) :
    Consistent s' := by
  obtain ⟨hloop, hwaiting, hbatch, htest, hblocked, hflagged⟩ := hs
  cases e with
  | worker e => exact consistent_worker h ⟨hloop, hwaiting, hbatch, htest, hblocked, hflagged⟩
  | loopTest =>
    obtain ⟨hcontrol, hs'⟩ := Option.ite_none_right_eq_some.mp h
    cases hs'
    have hphase := hloop hcontrol
    refine ⟨?_, fun _ => Or.inl hphase, ?_, ?_, hblocked, hflagged⟩ <;> split_ifs <;> nofun
  | interrupted =>
    obtain ⟨⟨-, hphase, -, hflag⟩, hs'⟩ := Option.ite_none_right_eq_some.mp h
    cases hs'
    exact ⟨nofun, nofun, nofun, fun _ => Or.inr ⟨hphase, hflag⟩, hblocked, hflagged⟩
  | flagTest =>
    obtain ⟨hcontrol, hs'⟩ := Option.ite_none_right_eq_some.mp h
    cases hs'
    split_ifs with hflag
    · exact ⟨nofun, nofun, nofun, nofun, hblocked, hflagged⟩
    · have hphase := (htest hcontrol).resolve_right fun hexit => hflag hexit.2
      exact ⟨nofun, nofun, fun _ => Or.inl hphase, nofun, hblocked, hflagged⟩
  | store =>
    obtain ⟨halive, hs'⟩ := Option.ite_none_right_eq_some.mp h
    cases hs'
    refine ⟨hloop, hwaiting, hbatch, fun hcontrol => ?_, hblocked, fun _ => Nat.succ_pos _⟩
    exact Or.inl ((htest hcontrol).resolve_right fun hexit => hexit.2 halive)
  | notify =>
    obtain ⟨hf, hs'⟩ := Option.ite_none_right_eq_some.mp h
    cases hs'
    refine ⟨hloop, hwaiting, hbatch, fun hcontrol => ?_, nofun, nofun⟩
    exact (htest hcontrol).imp id fun hexit => ⟨hexit.1, nofun⟩
  | join =>
    obtain ⟨⟨-, hended⟩, hs'⟩ := Option.ite_none_right_eq_some.mp h
    cases hs'
    refine ⟨?_, ?_, ?_, ?_, hblocked, nofun⟩ <;> simp [hended]

theorem exec_consistent {events : List Event} (h : exec (step maxJob) init events = some s) :
    Consistent s :=
  exec_keeps (fun _ _ _ hstep hs => consistent_step hstep hs) h consistent_init

def State.batch (s : State) : List ℕ := if s.control = .batch then s.worker.localJobQueue else []

structure Finishing (jobs : List ℕ) (s : State) : Prop where
  interrupted : s.Interrupted
  swapped : s.control = .batch → s.worker.phase = .executing
  executed : s.worker.executed ++ s.batch <+: jobs

theorem finishing_step {jobs : List ℕ} {e : Event} (h : step maxJob s e = some s')
    (hs : Finishing jobs s) : Finishing jobs s' := by
  obtain ⟨hinterrupted, hswapped, hexecuted⟩ := hs
  have hended : s.worker.executed <+: jobs := (List.prefix_append _ _).trans hexecuted
  cases e with
  | worker e =>
    obtain ⟨worker, hallows, hworker, rfl⟩ := worker_of_step h
    cases e with
    | pushJob =>
      cases hworker
      unfold Worker.pushJob
      split_ifs <;> exact ⟨hinterrupted, hswapped, hexecuted⟩
    | notify =>
      obtain ⟨-, hworker⟩ := Option.ite_none_right_eq_some.mp hworker
      cases hworker
      exact ⟨hinterrupted, hswapped, hexecuted⟩
    | testPredicate =>
      obtain ⟨-, hworker⟩ := Option.ite_none_right_eq_some.mp hworker
      cases hworker
      have hcontrol : s.control.after s.worker .testPredicate ≠ .batch := by
        rw [Control.after, hallows.1]
        split_ifs <;> nofun
      refine ⟨hinterrupted, fun hbatch => absurd hbatch hcontrol, ?_⟩
      simpa only [State.batch, if_neg hcontrol, List.append_nil] using hended
    | wait =>
      obtain ⟨-, hworker⟩ := Option.ite_none_right_eq_some.mp hworker
      cases hworker
      have hcontrol : s.control = .waiting := hallows
      exact ⟨hinterrupted, by simp [Control.after, hcontrol],
        by simpa [State.batch, Control.after, hcontrol] using hended⟩
    | wake =>
      obtain ⟨-, hworker⟩ := Option.ite_none_right_eq_some.mp hworker
      cases hworker
      exact ⟨hinterrupted, hswapped, hexecuted⟩
    | resume =>
      obtain ⟨-, hworker⟩ := Option.ite_none_right_eq_some.mp hworker
      cases hworker
      have hcontrol : s.control = .waiting := hallows
      exact ⟨hinterrupted, by simp [Control.after, hcontrol],
        by simpa [State.batch, Control.after, hcontrol] using hended⟩
    | swap =>
      obtain ⟨hphase, -⟩ := Option.ite_none_right_eq_some.mp hworker
      cases hphase.symm.trans (hswapped hallows)
    | invoke throws =>
      obtain ⟨job, rest, hlocal, hphase, rfl⟩ := Worker.step_invoke hworker
      have hcontrol : s.control = .batch := hallows
      have hbatch : s.batch = job :: rest := by rw [State.batch, if_pos hcontrol, hlocal]
      rw [hbatch] at hexecuted
      cases throws with
      | false =>
        refine ⟨hinterrupted, fun _ => rfl, ?_⟩
        simpa [State.batch, Control.after, hcontrol] using hexecuted
      | true =>
        refine ⟨hinterrupted, nofun, ?_⟩
        have hjob : s.worker.executed ++ [job] <+: s.worker.executed ++ job :: rest :=
          List.prefix_append_right_inj _ |>.mpr ⟨rest, rfl⟩
        simpa [State.batch, Control.after] using hjob.trans hexecuted
    | loop =>
      obtain ⟨-, hworker⟩ := Option.ite_none_right_eq_some.mp hworker
      cases hworker
      exact ⟨hinterrupted, nofun, by simpa [State.batch, Control.after] using hended⟩
  | loopTest =>
    obtain ⟨-, hs'⟩ := Option.ite_none_right_eq_some.mp h
    cases hs'
    rw [if_pos hinterrupted]
    exact ⟨hinterrupted, nofun, by simpa [State.batch] using hended⟩
  | interrupted =>
    obtain ⟨-, hs'⟩ := Option.ite_none_right_eq_some.mp h
    cases hs'
    exact ⟨hinterrupted, nofun, by simpa [State.batch] using hended⟩
  | flagTest =>
    obtain ⟨-, hs'⟩ := Option.ite_none_right_eq_some.mp h
    cases hs'
    rw [if_pos hinterrupted]
    exact ⟨hinterrupted, nofun, by simpa [State.batch] using hended⟩
  | store =>
    obtain ⟨halive, -⟩ := Option.ite_none_right_eq_some.mp h
    exact absurd halive hinterrupted
  | notify =>
    obtain ⟨-, hs'⟩ := Option.ite_none_right_eq_some.mp h
    cases hs'
    exact ⟨nofun, hswapped, hexecuted⟩
  | join =>
    obtain ⟨⟨-, hcontrol⟩, hs'⟩ := Option.ite_none_right_eq_some.mp h
    cases hs'
    refine ⟨nofun, by simp [hcontrol], ?_⟩
    simpa [State.batch, hcontrol] using hended

theorem executed_of_finishing {mid : State} {fs : List Event}
    (hfs : exec (step maxJob) mid fs = some s) (hflag : mid.Interrupted)
    (hswapped : mid.control = .batch → mid.worker.phase = .executing) :
    s.worker.executed <+: mid.worker.executed ++ mid.batch := by
  have hs : Finishing (mid.worker.executed ++ mid.batch) s :=
    exec_keeps (fun _ _ _ hstep hs => finishing_step hstep hs) hfs
      ⟨hflag, hswapped, List.prefix_rfl⟩
  exact (List.prefix_append _ _).trans hs.executed

structure BeforeSwap (s : State) : Prop where
  interrupted : s.Interrupted
  control : s.control = .batch
  phase : s.worker.phase = .foundJobs

theorem beforeSwap_step {e : Event} (h : step maxJob s e = some s') (hne : e ≠ .worker .swap)
    (hs : BeforeSwap s) :
    BeforeSwap s' ∧ s'.worker.executed = s.worker.executed := by
  obtain ⟨hinterrupted, hcontrol, hphase⟩ := hs
  cases e with
  | worker e =>
    obtain ⟨worker, hallows, hworker, rfl⟩ := worker_of_step h
    cases e with
    | pushJob =>
      cases hworker
      unfold Worker.pushJob
      split_ifs <;> exact ⟨⟨hinterrupted, hcontrol, hphase⟩, rfl⟩
    | notify =>
      obtain ⟨-, hworker⟩ := Option.ite_none_right_eq_some.mp hworker
      cases hworker
      exact ⟨⟨hinterrupted, hcontrol, hphase⟩, rfl⟩
    | swap => exact absurd rfl hne
    | invoke throws =>
      obtain ⟨job, rest, -, hexecuting, -⟩ := Worker.step_invoke hworker
      cases hphase.symm.trans hexecuting
    | loop =>
      obtain ⟨⟨hexecuting, -⟩, -⟩ := Option.ite_none_right_eq_some.mp hworker
      cases hphase.symm.trans hexecuting
    | testPredicate => cases hcontrol.symm.trans hallows.1
    | _ => cases hcontrol.symm.trans hallows
  | loopTest =>
    obtain ⟨htest, -⟩ := Option.ite_none_right_eq_some.mp h
    cases hcontrol.symm.trans htest
  | interrupted =>
    obtain ⟨⟨hwaiting, -⟩, -⟩ := Option.ite_none_right_eq_some.mp h
    cases hcontrol.symm.trans hwaiting
  | flagTest =>
    obtain ⟨htest, -⟩ := Option.ite_none_right_eq_some.mp h
    cases hcontrol.symm.trans htest
  | store =>
    obtain ⟨halive, -⟩ := Option.ite_none_right_eq_some.mp h
    exact absurd halive hinterrupted
  | notify =>
    obtain ⟨-, hs'⟩ := Option.ite_none_right_eq_some.mp h
    cases hs'
    exact ⟨⟨nofun, hcontrol, hphase⟩, rfl⟩
  | join =>
    obtain ⟨⟨-, hended⟩, -⟩ := Option.ite_none_right_eq_some.mp h
    cases hcontrol.symm.trans hended

theorem exec_beforeSwap {mid : State} {fs : List Event} (hfs : exec (step maxJob) mid fs = some s)
    (hne : .worker .swap ∉ fs) (hmid : BeforeSwap mid) :
    BeforeSwap s ∧ s.worker.executed = mid.worker.executed := by
  refine exec_meets (P := fun t => BeforeSwap t ∧ t.worker.executed = mid.worker.executed)
    (fun _ _ _ hstep hswap ht => ?_) hfs
    (meets_of_forall_mem (D := fun e => e ≠ .worker .swap) fun e he heq => hne (heq ▸ he))
    ⟨hmid, rfl⟩
  obtain ⟨hbefore, hexecuted⟩ := beforeSwap_step hstep hswap ht.1
  exact ⟨hbefore, hexecuted.trans ht.2⟩

/-- Behind the flag the thread ends the batch that it has and executes no other job, unless it had
found no flag behind its wait: then it still takes the queue, once. -/
theorem only_batch_behind_flag {mid : State} {es fs : List Event}
    (hes : exec (step maxJob) init es = some mid) (hfs : exec (step maxJob) mid fs = some s)
    (hflag : mid.Interrupted) : s.worker.executed <+: mid.worker.executed ++ mid.batch ∨
      (mid.control = .batch ∧ mid.worker.phase = .foundJobs ∧ ∃ gs hs t,
        fs = gs ++ .worker .swap :: hs ∧ exec (step maxJob) mid gs = some t ∧
        t.worker.executed = mid.worker.executed ∧
        s.worker.executed <+: mid.worker.executed ++ t.worker.jobs) := by
  by_cases hbefore : mid.control = .batch ∧ mid.worker.phase = .foundJobs
  swap
  · refine Or.inl (executed_of_finishing hfs hflag fun hbatch => ?_)
    exact ((exec_consistent hes).batch hbatch).resolve_left fun hphase => hbefore ⟨hbatch, hphase⟩
  have hmid : BeforeSwap mid := ⟨hflag, hbefore.1, hbefore.2⟩
  by_cases hswap : .worker .swap ∈ fs
  · obtain ⟨gs, hs, rfl, hne⟩ := List.eq_append_cons_of_mem hswap
    obtain ⟨t, hgs, hrest⟩ := exec_append.mp hfs
    obtain ⟨next, hnext, hhs⟩ := exec_cons.mp hrest
    obtain ⟨ht, hexecuted⟩ := exec_beforeSwap hgs hne hmid
    refine Or.inr ⟨hbefore.1, hbefore.2, gs, hs, t, rfl, hgs, hexecuted, ?_⟩
    obtain ⟨worker, -, hworker, rfl⟩ := worker_of_step hnext
    obtain ⟨-, hworker⟩ := Option.ite_none_right_eq_some.mp hworker
    cases hworker
    have hprefix := executed_of_finishing hhs ht.interrupted fun _ => rfl
    simpa [State.batch, Control.after, ht.control, hexecuted] using hprefix
  · left
    rw [(exec_beforeSwap hfs hswap hmid).2]
    exact List.prefix_append _ _

theorem only_batch_behind_flag_secondJob : ∃ mid s, exec (step 5) init secondJobRun = some mid ∧
    exec (step 5) mid endingRun = some s ∧
      (s.worker.executed <+: mid.worker.executed ++ mid.batch ∨
        (mid.control = .batch ∧ mid.worker.phase = .foundJobs ∧ ∃ gs hs t,
          endingRun = gs ++ .worker .swap :: hs ∧ exec (step 5) mid gs = some t ∧
          t.worker.executed = mid.worker.executed ∧
          s.worker.executed <+: mid.worker.executed ++ t.worker.jobs)) := by
  obtain ⟨s, hs⟩ := endingRun_happens
  obtain ⟨mid, hes, hfs⟩ := exec_append.mp hs
  have hflag : ∀ mid ∈ exec (step 5) init secondJobRun, mid.Interrupted := by decide
  exact ⟨mid, s, hes, hfs, only_batch_behind_flag hes hfs (hflag mid hes)⟩

/-- The steps of the thread and of the destructor, and the notifications of earlier pushes. -/
def Event.Own : Event → Prop
  | .worker .pushJob => False
  | .worker .wake => False
  | _ => True

/-- The thread sleeps, or is about to, behind all notifications. -/
def Doomed (s : State) : Prop :=
  s.owner = .notified ∧ s.control = .waiting ∧ s.worker.jobQueueCondition.toNotify = 0 ∧
    (s.worker.phase = .foundEmpty ∨
      (s.worker.phase = .inWait ∧ s.worker.jobQueueCondition.blocked = true))

theorem doomed_step {e : Event} (hown : e.Own) (h : step maxJob s e = some s') (hs : Doomed s) :
    Doomed s' := by
  obtain ⟨howner, hcontrol, htoNotify, hphase⟩ := hs
  have hlooping : s.worker.phase ≠ .looping := by
    rcases hphase with hphase | ⟨hphase, -⟩ <;> simp [hphase]
  cases e with
  | worker e =>
    obtain ⟨worker, hallows, hworker, rfl⟩ := worker_of_step h
    cases e with
    | pushJob => exact hown.elim
    | wake => exact hown.elim
    | notify =>
      obtain ⟨hpos, -⟩ := Option.ite_none_right_eq_some.mp hworker
      exact absurd htoNotify (Nat.pos_iff_ne_zero.mp hpos)
    | testPredicate =>
      obtain ⟨htest, -⟩ := Option.ite_none_right_eq_some.mp hworker
      exact absurd htest hlooping
    | wait =>
      obtain ⟨-, hworker⟩ := Option.ite_none_right_eq_some.mp hworker
      cases hworker
      exact ⟨howner, hcontrol, htoNotify, Or.inr ⟨rfl, rfl⟩⟩
    | resume =>
      obtain ⟨⟨hinWait, hunblocked⟩, -⟩ := Option.ite_none_right_eq_some.mp hworker
      rcases hphase with hphase | ⟨-, hblocked⟩
      · cases hphase.symm.trans hinWait
      · cases hblocked.symm.trans hunblocked
    | _ => cases hcontrol.symm.trans hallows
  | loopTest =>
    obtain ⟨htest, -⟩ := Option.ite_none_right_eq_some.mp h
    cases hcontrol.symm.trans htest
  | interrupted =>
    obtain ⟨⟨-, htest, -⟩, -⟩ := Option.ite_none_right_eq_some.mp h
    exact absurd htest hlooping
  | flagTest =>
    obtain ⟨htest, -⟩ := Option.ite_none_right_eq_some.mp h
    cases hcontrol.symm.trans htest
  | store =>
    obtain ⟨halive, -⟩ := Option.ite_none_right_eq_some.mp h
    cases howner.symm.trans halive
  | notify =>
    obtain ⟨hflagged, -⟩ := Option.ite_none_right_eq_some.mp h
    cases howner.symm.trans hflagged
  | join =>
    obtain ⟨⟨-, hended⟩, -⟩ := Option.ite_none_right_eq_some.mp h
    cases hcontrol.symm.trans hended

def Owner.rank : Owner → ℕ
  | alive => 3
  | flagged => 2
  | notified => 1
  | joined => 0

def State.threadRank (s : State) : ℕ :=
  match s.control with
  | .ended => 0
  | .loopTest => 1
  | .flagTest => 1
  | .waiting =>
    match s.worker.phase with
    | .foundEmpty => 5
    | .inWait => if s.worker.jobQueueCondition.blocked then 4 else 3
    | _ => 2
  | .batch =>
    match s.worker.phase with
    | .foundJobs => s.worker.jobs.length + 3
    | _ => s.worker.localJobQueue.length + 2

def State.rank (s : State) : ℕ := s.owner.rank + s.threadRank

def Nearer (maxJob : UInt32) (s : State) : Prop :=
  ∃ e s', Event.Own e ∧ step maxJob s e = some s' ∧ ¬ Doomed s' ∧ s'.rank < s.rank

theorem threadRank_notify_le (s : State) (owner : Owner) : State.threadRank { s with
    owner := owner
    worker := { s.worker with jobQueueCondition := s.worker.jobQueueCondition.notify } } ≤
    s.threadRank := by
  unfold State.threadRank
  cases s.control with
  | waiting =>
    cases s.worker.phase with
    | inWait =>
      change 3 ≤ if s.worker.jobQueueCondition.blocked then 4 else 3
      split_ifs <;> omega
    | _ => exact Nat.le_refl _
  | _ => exact Nat.le_refl _

theorem nearer_of_flagged (hs : Consistent s) (hflagged : s.owner = .flagged) : Nearer maxJob s := by
  have hpos := hs.flagged hflagged
  by_cases hempty : s.control = .waiting ∧ s.worker.phase = .foundEmpty
  · obtain ⟨hcontrol, hphase⟩ := hempty
    refine ⟨.worker .wait, { s with worker := { s.worker with
      phase := .inWait, jobQueueCondition := s.worker.jobQueueCondition.block } }, trivial, ?_, ?_, ?_⟩
    · simp [step, State.Allows, Worker.step, Control.after, hcontrol, hphase]
    · simp [Doomed, hflagged]
    · simp [State.rank, State.threadRank, hcontrol, hphase, block]
  · refine ⟨.notify, { s with
      owner := .notified
      worker := { s.worker with jobQueueCondition := s.worker.jobQueueCondition.notify } },
      trivial, if_pos hflagged, ?_, ?_⟩
    · rintro ⟨-, hcontrol, -, hphase | ⟨-, hblocked⟩⟩
      · exact hempty ⟨hcontrol, hphase⟩
      · cases hblocked
    · have hthread := threadRank_notify_le s .notified
      have howner : s.owner.rank = 2 := by rw [hflagged]; rfl
      change Owner.rank .notified + _ < s.rank
      rw [State.rank, howner]
      exact Nat.add_lt_add_of_lt_of_le (by decide) hthread

theorem nearer_of_waiting (hs : Consistent s) (hdoomed : ¬ Doomed s) (howner : s.owner = .notified)
    (hcontrol : s.control = .waiting) : Nearer maxJob s := by
  have hflag : s.Interrupted := by simp [State.Interrupted, howner]
  rcases hs.waiting hcontrol with hphase | hphase | hphase
  · by_cases hjobs : s.worker.jobs = []
    · refine ⟨.interrupted, { s with control := .flagTest }, trivial,
        if_pos ⟨hcontrol, hphase, hjobs, hflag⟩, ?_, ?_⟩
      · simp [Doomed]
      · simp [State.rank, State.threadRank, hcontrol, hphase]
    · refine ⟨.worker .testPredicate,
        { s with worker := { s.worker with phase := .foundJobs }, control := .flagTest }, trivial,
        ?_, ?_, ?_⟩
      · simp [step, State.Allows, Worker.step, Control.after, hcontrol, hphase, hjobs]
      · simp [Doomed]
      · simp [State.rank, State.threadRank, hcontrol, hphase]
  · have hpos : s.worker.jobQueueCondition.toNotify ≠ 0 := fun hzero =>
      hdoomed ⟨howner, hcontrol, hzero, Or.inl hphase⟩
    refine ⟨.worker .wait, { s with worker := { s.worker with
      phase := .inWait, jobQueueCondition := s.worker.jobQueueCondition.block } }, trivial, ?_, ?_, ?_⟩
    · simp [step, State.Allows, Worker.step, Control.after, hcontrol, hphase]
    · exact fun hd => hpos hd.2.2.1
    · simp [State.rank, State.threadRank, hcontrol, hphase, block]
  · by_cases hblocked : s.worker.jobQueueCondition.blocked = true
    · have hpos : 0 < s.worker.jobQueueCondition.toNotify := Nat.pos_iff_ne_zero.mpr fun hzero =>
        hdoomed ⟨howner, hcontrol, hzero, Or.inr ⟨hphase, hblocked⟩⟩
      refine ⟨.worker .notify, { s with worker := { s.worker with
        jobQueueCondition := s.worker.jobQueueCondition.notify } }, trivial, ?_, ?_, ?_⟩
      · simp [step, State.Allows, State.pushNotifications, Worker.step, Control.after, howner, hpos]
      · simp [Doomed, hphase, ConditionVariable.notify]
      · simp [State.rank, State.threadRank, hcontrol, hphase, hblocked, ConditionVariable.notify]
    · rw [Bool.not_eq_true] at hblocked
      refine ⟨.worker .resume, { s with worker := { s.worker with phase := .looping } }, trivial,
        ?_, ?_, ?_⟩
      · simp [step, State.Allows, Worker.step, Control.after, hcontrol, hphase, hblocked]
      · simp [Doomed]
      · simp [State.rank, State.threadRank, hcontrol, hphase, hblocked]

theorem nearer_of_batch (hs : Consistent s) (hcontrol : s.control = .batch) : Nearer maxJob s := by
  rcases hs.batch hcontrol with hphase | hphase
  · refine ⟨.worker .swap, { s with worker := { s.worker with
      phase := .executing, jobs := [], localJobQueue := s.worker.jobs } }, trivial, ?_, ?_, ?_⟩
    · simp [step, State.Allows, Worker.step, Control.after, hcontrol, hphase]
    · simp [Doomed, hcontrol]
    · simp [State.rank, State.threadRank, hcontrol, hphase]
  · cases hlocal : s.worker.localJobQueue with
    | nil =>
      refine ⟨.worker .loop, { s with
        worker := { s.worker with phase := .looping }, control := .loopTest }, trivial, ?_, ?_, ?_⟩
      · simp [step, State.Allows, Worker.step, Control.after, hcontrol, hphase, hlocal]
      · simp [Doomed]
      · simp [State.rank, State.threadRank, hcontrol, hphase]
    | cons job rest =>
      refine ⟨.worker (.invoke false), { s with worker := { s.worker with
        localJobQueue := rest, executed := s.worker.executed ++ [job] } }, trivial, ?_, ?_, ?_⟩
      · simp [step, State.Allows, Worker.step, Control.after, hcontrol, hphase, hlocal]
      · simp [Doomed, hcontrol]
      · simp [State.rank, State.threadRank, hcontrol, hphase, hlocal]

theorem nearer_of_notDoomed (hs : Consistent s) (hdoomed : ¬ Doomed s) (hjoined : s.owner ≠ .joined) :
    Nearer maxJob s := by
  cases howner : s.owner with
  | joined => exact absurd howner hjoined
  | alive =>
    refine ⟨.store, { s with
      owner := .flagged
      worker := { s.worker with jobQueueCondition := s.worker.jobQueueCondition.announce } },
      trivial, if_pos howner, nofun, ?_⟩
    have hthread : State.threadRank { s with
        owner := .flagged
        worker := { s.worker with jobQueueCondition := s.worker.jobQueueCondition.announce } } =
        s.threadRank := rfl
    simp only [State.rank, hthread, howner, Owner.rank]
    omega
  | flagged => exact nearer_of_flagged hs howner
  | notified =>
    have hflag : s.Interrupted := by simp [State.Interrupted, howner]
    cases hcontrol : s.control with
    | loopTest =>
      refine ⟨.loopTest, { s with control := .ended }, trivial, ?_, nofun, ?_⟩
      · simp [step, hcontrol, hflag]
      · simp [State.rank, State.threadRank, hcontrol]
    | waiting => exact nearer_of_waiting hs hdoomed howner hcontrol
    | flagTest =>
      refine ⟨.flagTest, { s with control := .ended }, trivial, ?_, nofun, ?_⟩
      · simp [step, hcontrol, hflag]
      · simp [State.rank, State.threadRank, hcontrol]
    | batch => exact nearer_of_batch hs hcontrol
    | ended =>
      refine ⟨.join, { s with
        owner := .joined
        worker := { s.worker with localJobQueue := [], jobs := [] }
        dropped := s.worker.localJobQueue ++ s.worker.jobs }, trivial, if_pos ⟨howner, hcontrol⟩,
        nofun, ?_⟩
      simp [State.rank, State.threadRank, howner, hcontrol, Owner.rank]

/-- The destructor can return by the steps of the thread and its own from every state that is not
doomed, and from no other. -/
theorem worker_destructor_returns_iff {events : List Event} (h : exec (step maxJob) init events = some s) :
    (∃ es s', (∀ e ∈ es, Event.Own e) ∧ exec (step maxJob) s es = some s' ∧ s'.owner = .joined) ↔
      ¬ Doomed s := by
  constructor
  · rintro ⟨es, s', hown, hes, hjoined⟩ hdoomed
    have hs' : Doomed s' := exec_meets (fun _ _ _ hstep he hs => doomed_step he hstep hs) hes
      (meets_of_forall_mem hown) hdoomed
    cases hjoined.symm.trans hs'.1
  · intro hdoomed
    have hnearer : ∀ t, (Consistent t ∧ ¬ Doomed t) → ¬ t.owner = .joined → ∃ e t', Event.Own e ∧
        step maxJob t e = some t' ∧ (Consistent t' ∧ ¬ Doomed t') ∧ t'.rank < t.rank := by
      rintro t ⟨ht, hdoomed⟩ hnot
      obtain ⟨e, t', hown, hstep, hdoomed', hlt⟩ := nearer_of_notDoomed ht hdoomed hnot
      exact ⟨e, t', hown, hstep, ⟨consistent_step hstep ht, hdoomed'⟩, hlt⟩
    obtain ⟨es, s', hes, hs', -, hjoined⟩ :=
      exists_exec_of_decreasing State.rank hnearer ⟨exec_consistent h, hdoomed⟩
    exact ⟨es, s', hes, hs', hjoined⟩

def lostInterrupt : List Event := [.loopTest, .worker .testPredicate, .store, .notify]

theorem worker_destructor_returns_iff_lostInterrupt : ∃ s, exec (step 5) init lostInterrupt = some s ∧
    Doomed s ∧ ((∃ es s', (∀ e ∈ es, Event.Own e) ∧ exec (step 5) s es = some s' ∧
      s'.owner = .joined) ↔ ¬ Doomed s) := by
  have h : exec (step 5) init lostInterrupt =
      some ⟨⟨.foundEmpty, [], [], ⟨false, 0⟩, 0, [], [], []⟩, .waiting, .notified, []⟩ := by decide
  exact ⟨_, h, ⟨rfl, rfl, rfl, Or.inl rfl⟩, worker_destructor_returns_iff h⟩

end R2000Driver.WorkerShutdown
