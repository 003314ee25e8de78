import Mathlib.Data.List.Nodup
import R2000Driver.ConditionVariable
import R2000Driver.Runs

/-!
# The worker and its queue of jobs

`pushJob` from any number of threads against the loop of the worker. The guards
on both sides take no lock, so the pushes fall between any two steps of the
loop: the test of the predicate, the wait, the swap of the queue, and the jobs
one by one. A job that throws ends the loop.

Jobs are numbered by their calls of `pushJob`. `accepted`, `refused` and
`executed` record what became of them and are read by the statements only.
-/

namespace R2000Driver.Worker
open ConditionVariable Runs

inductive Phase
  | looping
  | foundEmpty
  | inWait
  | foundJobs
  | executing
  | ended
  deriving DecidableEq, Repr

structure State where
  phase : Phase
  jobs : List ℕ
  localJobQueue : List ℕ
  jobQueueCondition : ConditionVariable
  calls : ℕ
  accepted : List ℕ
  refused : List ℕ
  executed : List ℕ
  deriving DecidableEq, Repr

def init : State where
  phase := .looping
  jobs := []
  localJobQueue := []
  jobQueueCondition := ConditionVariable.init
  calls := 0
  accepted := []
  refused := []
  executed := []

inductive Event
  | pushJob
  | notify
  | testPredicate
  | wait
  | wake
  | resume
  | swap
  | invoke (throws : Bool)
  | loop
  deriving DecidableEq, Repr

def pushJob (maxJob : UInt32) (s : State) : State :=
  if s.jobs.length ≤ maxJob.toNat then
    { s with
      jobs := s.jobs ++ [s.calls]
      jobQueueCondition := s.jobQueueCondition.announce
      calls := s.calls + 1
      accepted := s.accepted ++ [s.calls] }
  else { s with calls := s.calls + 1, refused := s.refused ++ [s.calls] }

def step (maxJob : UInt32) (s : State) : Event → Option State
  | .pushJob => some (pushJob maxJob s)
  | .notify =>
    if 0 < s.jobQueueCondition.toNotify then
      some { s with jobQueueCondition := s.jobQueueCondition.notify }
    else none
  | .testPredicate =>
    if s.phase = .looping then
      some { s with phase := if s.jobs = [] then .foundEmpty else .foundJobs }
    else none
  | .wait =>
    if s.phase = .foundEmpty then
      some { s with phase := .inWait, jobQueueCondition := s.jobQueueCondition.block }
    else none
  | .wake =>
    if s.phase = .inWait then some { s with jobQueueCondition := s.jobQueueCondition.wake } else none
  | .resume =>
    if s.phase = .inWait ∧ s.jobQueueCondition.blocked = false then some { s with phase := .looping }
    else none
  | .swap =>
    if s.phase = .foundJobs then
      some { s with phase := .executing, jobs := [], localJobQueue := s.jobs }
    else none
  | .invoke throws =>
    match s.localJobQueue with
    | [] => none
    | job :: rest =>
      if s.phase = .executing then
        some { s with
          phase := if throws then .ended else .executing
          localJobQueue := rest
          executed := s.executed ++ [job] }
      else none
  | .loop =>
    if s.phase = .executing ∧ s.localJobQueue = [] then some { s with phase := .looping } else none

theorem step_invoke {maxJob : UInt32} {s s' : State} {throws : Bool}
    (h : step maxJob s (.invoke throws) = some s') :
    ∃ job rest, s.localJobQueue = job :: rest ∧ s.phase = .executing ∧
      s' = { s with
        phase := if throws then .ended else .executing
        localJobQueue := rest
        executed := s.executed ++ [job] } := by
  rw [step] at h
  cases hlocal : s.localJobQueue with
  | nil =>
    rw [hlocal] at h
    cases h
  | cons job rest =>
    rw [hlocal] at h
    obtain ⟨hphase, hs'⟩ := Option.ite_none_right_eq_some.mp h
    exact ⟨job, rest, rfl, hphase, (Option.some.inj hs').symm⟩

structure Ordered (s : State) : Prop where
  accepted : s.accepted = s.executed ++ s.localJobQueue ++ s.jobs
  localJobQueue : s.phase ≠ .executing → s.phase ≠ .ended → s.localJobQueue = []
  increasing : s.accepted.Pairwise (· < ·)
  accepted_lt : ∀ job ∈ s.accepted, job < s.calls
  refused_lt : ∀ job ∈ s.refused, job < s.calls
  refused : ∀ job ∈ s.refused, job ∉ s.accepted
  blocked : s.jobQueueCondition.blocked = true → s.phase = .inWait

theorem ordered_init : Ordered init := by
  constructor <;> simp [init, ConditionVariable.init]

theorem Ordered.localJobQueue_nil {s : State} (h : Ordered s) {phase : Phase} (hphase : s.phase = phase)
    (hexecuting : phase ≠ .executing) (hended : phase ≠ .ended) : s.localJobQueue = [] :=
  h.localJobQueue (hphase ▸ hexecuting) (hphase ▸ hended)

theorem Ordered.pushJob {s : State} (h : Ordered s) (maxJob : UInt32) :
    Ordered (pushJob maxJob s) := by
  unfold Worker.pushJob
  split_ifs with hroom
  · constructor
    · simp only [h.accepted, List.append_assoc]
    · exact h.localJobQueue
    · rw [List.pairwise_append]
      refine ⟨h.increasing, List.pairwise_singleton _ _, ?_⟩
      intro job hjob last hlast
      rw [List.mem_singleton] at hlast
      exact hlast ▸ h.accepted_lt job hjob
    · intro job hjob
      rcases List.mem_append.mp hjob with hjob | hjob
      · exact Nat.lt_succ_of_lt (h.accepted_lt job hjob)
      · rw [List.mem_singleton] at hjob
        exact hjob ▸ Nat.lt_succ_self _
    · intro job hjob
      exact Nat.lt_succ_of_lt (h.refused_lt job hjob)
    · intro job hjob hmem
      rcases List.mem_append.mp hmem with hmem | hmem
      · exact h.refused job hjob hmem
      · rw [List.mem_singleton] at hmem
        exact absurd (h.refused_lt job hjob) (by omega)
    · exact h.blocked
  · constructor
    · exact h.accepted
    · exact h.localJobQueue
    · exact h.increasing
    · intro job hjob
      exact Nat.lt_succ_of_lt (h.accepted_lt job hjob)
    · intro job hjob
      rcases List.mem_append.mp hjob with hjob | hjob
      · exact Nat.lt_succ_of_lt (h.refused_lt job hjob)
      · rw [List.mem_singleton] at hjob
        exact hjob ▸ Nat.lt_succ_self _
    · intro job hjob hmem
      rcases List.mem_append.mp hjob with hjob | hjob
      · exact h.refused job hjob hmem
      · rw [List.mem_singleton] at hjob
        exact absurd (h.accepted_lt job hmem) (by omega)
    · exact h.blocked

theorem ordered_step {maxJob : UInt32} {s s' : State} {e : Event} (h : step maxJob s e = some s')
    (hs : Ordered s) : Ordered s' := by
  cases e with
  | pushJob =>
    cases h
    exact hs.pushJob maxJob
  | notify =>
    obtain ⟨-, hs'⟩ := Option.ite_none_right_eq_some.mp h
    cases hs'
    exact { hs with blocked := nofun }
  | testPredicate =>
    obtain ⟨hphase, hs'⟩ := Option.ite_none_right_eq_some.mp h
    cases hs'
    refine { hs with localJobQueue := fun _ _ => ?_, blocked := fun hb => ?_ }
    · exact hs.localJobQueue_nil hphase nofun nofun
    · cases hphase.symm.trans (hs.blocked hb)
  | wait =>
    obtain ⟨hphase, hs'⟩ := Option.ite_none_right_eq_some.mp h
    cases hs'
    exact { hs with
      localJobQueue := fun _ _ => hs.localJobQueue_nil hphase nofun nofun
      blocked := fun _ => rfl }
  | wake =>
    obtain ⟨-, hs'⟩ := Option.ite_none_right_eq_some.mp h
    cases hs'
    exact { hs with blocked := nofun }
  | resume =>
    obtain ⟨⟨hphase, hunblocked⟩, hs'⟩ := Option.ite_none_right_eq_some.mp h
    cases hs'
    refine { hs with localJobQueue := fun _ _ => ?_, blocked := fun hb => ?_ }
    · exact hs.localJobQueue_nil hphase nofun nofun
    · cases hunblocked.symm.trans hb
  | swap =>
    obtain ⟨hphase, hs'⟩ := Option.ite_none_right_eq_some.mp h
    cases hs'
    have hlocal := hs.localJobQueue_nil hphase nofun nofun
    refine { hs with accepted := ?_, localJobQueue := fun hne _ => absurd rfl hne, blocked := ?_ }
    · rw [hs.accepted, hlocal, List.append_nil, List.append_nil]
    · intro hb
      cases hphase.symm.trans (hs.blocked hb)
  | invoke throws =>
    obtain ⟨job, rest, hlocal, hphase, rfl⟩ := step_invoke h
    refine { hs with accepted := ?_, localJobQueue := ?_, blocked := fun hb => ?_ }
    · rw [hs.accepted, hlocal]
      simp only [List.append_assoc, List.cons_append, List.nil_append]
    · intro hexecuting hended
      cases throws with
      | false => exact absurd rfl hexecuting
      | true => exact absurd rfl hended
    · cases hphase.symm.trans (hs.blocked hb)
  | loop =>
    obtain ⟨⟨hphase, hlocal⟩, hs'⟩ := Option.ite_none_right_eq_some.mp h
    cases hs'
    refine { hs with localJobQueue := fun _ _ => hlocal, blocked := fun hb => ?_ }
    cases hphase.symm.trans (hs.blocked hb)

structure BoundedFifo (maxJob : UInt32) (s : State) : Prop where
  bounded : s.jobs.length ≤ maxJob.toNat
  inOrder : s.executed <+: s.accepted
  once : s.executed.Nodup
  refused : ∀ job ∈ s.refused, job ∉ s.executed
  awake : ¬ Stranded (s.jobs ≠ []) s.jobQueueCondition

/-- A push onto a queue that is full, or a wait that begins behind the notifications of all jobs
in the queue. -/
def Breaks (maxJob : UInt32) (s : State) (e : Event) : Prop :=
  (e = .pushJob ∧ s.jobs.length = maxJob.toNat) ∨
    (e = .wait ∧ s.jobs ≠ [] ∧ s.jobQueueCondition.toNotify = 0)

theorem Ordered.executed_initial {s : State} (h : Ordered s) : s.executed <+: s.accepted := by
  rw [h.accepted, List.append_assoc]
  exact List.prefix_append _ _

theorem Ordered.boundedFifo_iff {s : State} (h : Ordered s) (maxJob : UInt32) :
    BoundedFifo maxJob s ↔
      s.jobs.length ≤ maxJob.toNat ∧ ¬ Stranded (s.jobs ≠ []) s.jobQueueCondition := by
  constructor
  · intro hfifo
    exact ⟨hfifo.bounded, hfifo.awake⟩
  · intro hqueue
    have hpre := h.executed_initial
    refine ⟨hqueue.1, hpre, ?_, ?_, hqueue.2⟩
    · have haccepted : s.accepted.Nodup := h.increasing.imp fun hlt => Nat.ne_of_lt hlt
      exact haccepted.sublist hpre.sublist
    · intro job hjob hexecuted
      exact h.refused job hjob (hpre.subset hexecuted)

theorem length_pushJob_le_iff {maxJob : UInt32} {s : State} (h : s.jobs.length ≤ maxJob.toNat) :
    (pushJob maxJob s).jobs.length ≤ maxJob.toNat ↔ s.jobs.length ≠ maxJob.toNat := by
  rw [pushJob, if_pos h, List.length_append, List.length_singleton]
  omega

theorem not_stranded_pushJob {maxJob : UInt32} {s : State} (h : s.jobs.length ≤ maxJob.toNat) :
    ¬ Stranded ((pushJob maxJob s).jobs ≠ []) (pushJob maxJob s).jobQueueCondition := by
  rw [pushJob, if_pos h]
  exact not_stranded_announce

theorem boundedFifo_step_iff {maxJob : UInt32} {s s' : State} {e : Event}
    (h : step maxJob s e = some s') (hs : Ordered s) (hfifo : BoundedFifo maxJob s) :
    BoundedFifo maxJob s' ↔ ¬ Breaks maxJob s e := by
  rw [(ordered_step h hs).boundedFifo_iff]
  obtain ⟨hbounded, -, -, -, hawake⟩ := hfifo
  cases e with
  | pushJob =>
    cases h
    simp [Breaks, length_pushJob_le_iff hbounded, not_stranded_pushJob hbounded]
  | notify =>
    obtain ⟨-, hs'⟩ := Option.ite_none_right_eq_some.mp h
    cases hs'
    simp [Breaks, hbounded, not_stranded_notify]
  | testPredicate =>
    obtain ⟨-, hs'⟩ := Option.ite_none_right_eq_some.mp h
    cases hs'
    simp [Breaks, hbounded, hawake]
  | wait =>
    obtain ⟨-, hs'⟩ := Option.ite_none_right_eq_some.mp h
    cases hs'
    simp [Breaks, hbounded, stranded_block_iff]
  | wake =>
    obtain ⟨-, hs'⟩ := Option.ite_none_right_eq_some.mp h
    cases hs'
    simp [Breaks, hbounded, not_stranded_wake]
  | resume =>
    obtain ⟨-, hs'⟩ := Option.ite_none_right_eq_some.mp h
    cases hs'
    simp [Breaks, hbounded, hawake]
  | swap =>
    obtain ⟨-, hs'⟩ := Option.ite_none_right_eq_some.mp h
    cases hs'
    simp [Breaks, Stranded]
  | invoke throws =>
    obtain ⟨job, rest, -, -, rfl⟩ := step_invoke h
    simp [Breaks, hbounded, hawake]
  | loop =>
    obtain ⟨-, hs'⟩ := Option.ite_none_right_eq_some.mp h
    cases hs'
    simp [Breaks, hbounded, hawake]

theorem boundedFifo_init (maxJob : UInt32) : BoundedFifo maxJob init := by
  rw [ordered_init.boundedFifo_iff]
  exact ⟨Nat.zero_le _, not_stranded_of_unblocked rfl⟩

/-- The worker is a bounded queue throughout exactly the runs in which no push finds it full and
no wait begins behind the last notification. -/
theorem bounded_fifo_iff (maxJob : UInt32) {events : List Event} {s : State}
    (h : exec (step maxJob) init events = some s) :
    Always (step maxJob) (BoundedFifo maxJob) init events ↔
      Meets (step maxJob) (fun s e => ¬ Breaks maxJob s e) init events := by
  refine always_iff (I := Ordered) ?_ ?_ ?_ h ordered_init (boundedFifo_init maxJob)
  · exact fun s e s' hstep hs => ordered_step hstep hs
  · exact fun s e s' hstep hbreak hs hfifo => (boundedFifo_step_iff hstep hs hfifo).mpr hbreak
  · intro s e s' hstep hbreak hs hfifo hfifo'
    exact (boundedFifo_step_iff hstep hs hfifo).mp hfifo' hbreak

def lostNotificationRun : List Event := [.testPredicate, .pushJob, .notify, .wait]

theorem bounded_fifo_iff_lostNotification :
    Always (step 5) (BoundedFifo 5) init lostNotificationRun ↔
      Meets (step 5) (fun s e => ¬ Breaks 5 s e) init lostNotificationRun :=
  bounded_fifo_iff 5 (s := ⟨.inWait, [0], [], ⟨true, 0⟩, 1, [0], [], []⟩) (by decide)

theorem queue_exceeds_bound_and_job_stranded :
    ¬ Always (step 1) (BoundedFifo 1) init [.pushJob, .pushJob] ∧
      ¬ Always (step 5) (BoundedFifo 5) init lostNotificationRun := by
  constructor
  · intro h
    have hbounded := (h [.pushJob, .pushJob] []
      ⟨.looping, [0, 1], [], ⟨false, 2⟩, 2, [0, 1], [], []⟩ rfl (by decide)).bounded
    revert hbounded
    decide
  · intro h
    have hawake := (h lostNotificationRun []
      ⟨.inWait, [0], [], ⟨true, 0⟩, 1, [0], [], []⟩ rfl (by decide)).awake
    revert hawake
    decide

end R2000Driver.Worker
