import R2000Driver.ConditionVariable
import R2000Driver.Runs

/-!
# The thread of the io service

`ioServiceTask` runs the io service until it is out of work, waits to be
notified and resets it; the jobs of the worker post operations and notify.
The guards on both sides take no lock. Handlers run inside `run` only; they
may post further operations and may throw, which ends the thread.

`postedSinceReturn` counts the operations posted since `run` last returned and
is read by the statements only.
-/

namespace R2000Driver.IoServiceTask
open ConditionVariable Runs

inductive Phase
  | running
  | returned
  | inWait
  | ended
  deriving DecidableEq, Repr

structure State where
  phase : Phase
  work : ℕ
  queued : ℕ
  notifying : Bool
  ioServiceTaskCv : ConditionVariable
  postedSinceReturn : ℕ
  deriving DecidableEq, Repr

def init : State where
  phase := .running
  work := 0
  queued := 0
  notifying := false
  ioServiceTaskCv := ConditionVariable.init
  postedSinceReturn := 0

inductive Event
  | accept
  /-- The next job of the worker posts its operations, and then notifies. -/
  | post (operations : ℕ)
  | notify
  /-- `run` executes a handler, returns, and the thread waits, wakes and resets. -/
  | handle (posted : ℕ) (throws : Bool)
  | runReturns
  | wait
  | wake
  | reset
  deriving DecidableEq, Repr

def step (s : State) : Event → Option State
  | .accept =>
    some { s with queued := s.queued + 1, ioServiceTaskCv := s.ioServiceTaskCv.announce }
  | .post operations =>
    if 0 < s.queued ∧ s.notifying = false then
      some { s with
        work := s.work + operations
        queued := s.queued - 1
        notifying := true
        postedSinceReturn := s.postedSinceReturn + operations }
    else none
  | .notify =>
    if s.notifying = true then
      some { s with notifying := false, ioServiceTaskCv := s.ioServiceTaskCv.notify }
    else none
  | .handle posted throws =>
    if s.phase = .running ∧ 0 < s.work then
      some { s with
        work := s.work - 1 + posted
        phase := if throws then .ended else .running }
    else none
  | .runReturns =>
    if s.phase = .running ∧ s.work = 0 then
      some { s with phase := .returned, postedSinceReturn := 0 }
    else none
  | .wait =>
    if s.phase = .returned then
      some { s with phase := .inWait, ioServiceTaskCv := s.ioServiceTaskCv.block }
    else none
  | .wake =>
    if s.phase = .inWait then some { s with ioServiceTaskCv := s.ioServiceTaskCv.wake } else none
  | .reset =>
    if s.phase = .inWait ∧ s.ioServiceTaskCv.blocked = false then
      some { s with phase := .running }
    else none

def CommandStranded (s : State) : Prop := Stranded (0 < s.work) s.ioServiceTaskCv

/-- The wait begins behind the notifications of all jobs, with operations posted since `run`
returned. -/
def LosesWakeUp (s : State) (e : Event) : Prop :=
  e = .wait ∧ 0 < s.postedSinceReturn ∧ s.ioServiceTaskCv.toNotify = 0

structure Coordinated (s : State) : Prop where
  returned : s.phase = .returned → s.work = s.postedSinceReturn
  toNotify : s.ioServiceTaskCv.toNotify = s.queued + s.notifying.toNat
  blocked : s.ioServiceTaskCv.blocked = true → s.phase = .inWait

theorem coordinated_init : Coordinated init := by
  constructor
  · intro h
    rfl
  · rfl
  · intro h
    cases h

theorem coordinated_step {s s' : State} {e : Event} (h : step s e = some s') (hs : Coordinated s) :
    Coordinated s' := by
  obtain ⟨hreturned, htoNotify, hblocked⟩ := hs
  cases e with
  | accept =>
    cases h
    refine ⟨hreturned, ?_, hblocked⟩
    simp only [announce, htoNotify]
    omega
  | post operations =>
    obtain ⟨hpost, hs'⟩ := Option.ite_none_right_eq_some.mp h
    cases hs'
    refine ⟨?_, ?_, hblocked⟩
    · intro hphase
      exact congrArg (· + operations) (hreturned hphase)
    · simp only [htoNotify, hpost.2, Bool.toNat_true, Bool.toNat_false]
      omega
  | notify =>
    obtain ⟨hnotifying, hs'⟩ := Option.ite_none_right_eq_some.mp h
    cases hs'
    refine ⟨hreturned, ?_, ?_⟩
    · simp only [notify, htoNotify, hnotifying, Bool.toNat_true, Bool.toNat_false]
      omega
    · intro hb
      cases hb
  | handle posted throws =>
    obtain ⟨⟨hrunning, hwork⟩, hs'⟩ := Option.ite_none_right_eq_some.mp h
    cases hs'
    refine ⟨?_, htoNotify, ?_⟩
    · intro hphase
      cases throws <;> cases hphase
    · intro hb
      cases hrunning.symm.trans (hblocked hb)
  | runReturns =>
    obtain ⟨⟨hrunning, hwork⟩, hs'⟩ := Option.ite_none_right_eq_some.mp h
    cases hs'
    refine ⟨fun _ => hwork, htoNotify, ?_⟩
    intro hb
    cases hrunning.symm.trans (hblocked hb)
  | wait =>
    obtain ⟨hphase, hs'⟩ := Option.ite_none_right_eq_some.mp h
    cases hs'
    refine ⟨?_, htoNotify, fun _ => rfl⟩
    intro hreturned'
    cases hreturned'
  | wake =>
    obtain ⟨hphase, hs'⟩ := Option.ite_none_right_eq_some.mp h
    cases hs'
    refine ⟨hreturned, htoNotify, ?_⟩
    intro hb
    cases hb
  | reset =>
    obtain ⟨⟨hphase, hunblocked⟩, hs'⟩ := Option.ite_none_right_eq_some.mp h
    cases hs'
    refine ⟨?_, htoNotify, ?_⟩
    · intro hreturned'
      cases hreturned'
    · intro hb
      cases hunblocked.symm.trans hb

theorem not_stranded_step {s s' : State} {e : Event} (h : step s e = some s')
    (hlost : ¬ LosesWakeUp s e) (hs : Coordinated s) (hnot : ¬ CommandStranded s) :
    ¬ CommandStranded s' := by
  cases e with
  | accept =>
    cases h
    exact not_stranded_announce
  | post operations =>
    obtain ⟨hpost, hs'⟩ := Option.ite_none_right_eq_some.mp h
    cases hs'
    apply not_stranded_of_toNotify
    have htoNotify := hs.toNotify
    simp only [htoNotify]
    omega
  | notify =>
    obtain ⟨hnotifying, hs'⟩ := Option.ite_none_right_eq_some.mp h
    cases hs'
    exact not_stranded_notify
  | handle posted throws =>
    obtain ⟨⟨hrunning, hwork⟩, hs'⟩ := Option.ite_none_right_eq_some.mp h
    cases hs'
    intro hstranded
    cases hrunning.symm.trans (hs.blocked hstranded.2.1)
  | runReturns =>
    obtain ⟨⟨hrunning, hwork⟩, hs'⟩ := Option.ite_none_right_eq_some.mp h
    cases hs'
    exact hnot
  | wait =>
    obtain ⟨hphase, hs'⟩ := Option.ite_none_right_eq_some.mp h
    cases hs'
    intro hstranded
    obtain ⟨hwork, htoNotify⟩ := stranded_block_iff.mp hstranded
    exact hlost ⟨rfl, hs.returned hphase ▸ hwork, htoNotify⟩
  | wake =>
    obtain ⟨hphase, hs'⟩ := Option.ite_none_right_eq_some.mp h
    cases hs'
    exact not_stranded_wake
  | reset =>
    obtain ⟨⟨hphase, hunblocked⟩, hs'⟩ := Option.ite_none_right_eq_some.mp h
    cases hs'
    exact hnot

theorem stranded_of_losesWakeUp {s s' : State} {e : Event} (h : step s e = some s')
    (hlost : LosesWakeUp s e) (hs : Coordinated s) : CommandStranded s' := by
  obtain ⟨rfl, hposted, htoNotify⟩ := hlost
  obtain ⟨hphase, hs'⟩ := Option.ite_none_right_eq_some.mp h
  cases hs'
  exact stranded_block_iff.mpr ⟨hs.returned hphase ▸ hposted, htoNotify⟩

/-- No command is stranded in exactly the runs that lose no wake-up. -/
theorem no_command_stranded_iff {events : List Event} {s : State}
    (h : exec step init events = some s) :
    Always step (fun s => ¬ CommandStranded s) init events ↔
      Meets step (fun s e => ¬ LosesWakeUp s e) init events := by
  refine always_iff (I := Coordinated) ?_ ?_ ?_ h coordinated_init ?_
  · exact fun s e s' hstep hs => coordinated_step hstep hs
  · exact fun s e s' hstep hlost hs hnot => not_stranded_step hstep hlost hs hnot
  · exact fun s e s' hstep hlost hs _ => not_not.mpr (stranded_of_losesWakeUp hstep hlost hs)
  · exact not_stranded_of_unblocked rfl

def lostWakeUpRun : List Event := [.runReturns, .accept, .post 2, .notify, .wait]

theorem no_command_stranded_iff_lostWakeUp :
    Always step (fun s => ¬ CommandStranded s) init lostWakeUpRun ↔
      Meets step (fun s e => ¬ LosesWakeUp s e) init lostWakeUpRun :=
  no_command_stranded_iff (s := ⟨.inWait, 2, 0, false, ⟨true, 0⟩, 2⟩) (by decide)

theorem accepted_command_stranded :
    ¬ Always step (fun s => ¬ CommandStranded s) init lostWakeUpRun := by
  intro h
  have hstranded : CommandStranded ⟨.inWait, 2, 0, false, ⟨true, 0⟩, 2⟩ := by
    unfold CommandStranded
    decide
  exact h lostWakeUpRun [] _ rfl (by decide) hstranded

end R2000Driver.IoServiceTask
