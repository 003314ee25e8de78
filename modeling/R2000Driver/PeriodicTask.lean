import Mathlib.Data.List.Chain
import R2000Driver.ConditionVariable
import R2000Driver.Runs

/-!
# A task that acts once in a period

A thread tests a flag, acts, and waits on a condition variable for a period or
until the flag is set; then it begins again. Some results of an act end it, and
a delay may come before the first test. Its owner sets the flag, notifies the
thread and joins it. The guards on both sides take the lock of the variable
(`locked`), or none.

Time passes anywhere (`Event.tick`). In a prompt run it passes in an act, in the
delay and in a blocked wait only, and the latter two end on time.

`acts` records the acts, `launched` the launch, and `waited` the time that has
passed since the flag was set and outside of an act. They are read by the
statements only.
-/

namespace R2000Driver.PeriodicTask
open ConditionVariable Runs

structure Task (R : Type) where
  delay : ℕ
  period : ℕ
  locked : Bool
  returns : R → Bool

inductive Phase
  | unlaunched
  | delayed (waking : ℕ)
  | looping
  | acting (start : ℕ)
  | acted
  | testing (deadline : ℕ)
  | unready (deadline : ℕ)
  | inWait (deadline : ℕ)
  | ended
  deriving DecidableEq, Repr

def Phase.Between : Phase → Prop
  | unlaunched => False
  | delayed _ => True
  | looping => True
  | acting _ => False
  | acted => True
  | testing _ => True
  | unready _ => True
  | inWait _ => True
  | ended => False

instance (phase : Phase) : Decidable phase.Between :=
  match phase with
  | .unlaunched => inferInstanceAs (Decidable False)
  | .delayed _ => inferInstanceAs (Decidable True)
  | .looping => inferInstanceAs (Decidable True)
  | .acting _ => inferInstanceAs (Decidable False)
  | .acted => inferInstanceAs (Decidable True)
  | .testing _ => inferInstanceAs (Decidable True)
  | .unready _ => inferInstanceAs (Decidable True)
  | .inWait _ => inferInstanceAs (Decidable True)
  | .ended => inferInstanceAs (Decidable False)

def Phase.holdsGuard : Phase → Bool
  | unlaunched => false
  | delayed _ => false
  | looping => false
  | acting _ => false
  | acted => false
  | testing _ => true
  | unready _ => true
  | inWait _ => false
  | ended => false

/-- The owner: the flag is set from `flagged` on, in a guard of its own that ends at `notified`. -/
inductive Owner
  | running
  | flagged
  | notified
  | joined
  deriving DecidableEq, Repr

structure Act (R : Type) where
  start : ℕ
  finish : ℕ
  result : R
  deriving DecidableEq, Repr

structure State (R : Type) where
  now : ℕ
  phase : Phase
  owner : Owner
  interruptCv : ConditionVariable
  acts : List (Act R)
  launched : ℕ
  waited : ℕ
  deriving DecidableEq, Repr

def init (R : Type) (now : ℕ) : State R where
  now := now
  phase := .unlaunched
  owner := .running
  interruptCv := ConditionVariable.init
  acts := []
  launched := now
  waited := 0

inductive Event (R : Type)
  | tick (elapsed : ℕ)
  | launch
  | awake
  | loop
  | finish (result : R)
  | guard
  | testPredicate
  | block
  | wake
  | resume
  | store
  | notify
  | join
  deriving DecidableEq, Repr

section
variable {R : Type}

def State.Interrupted (s : State R) : Prop := s.owner ≠ .running

instance (s : State R) : Decidable s.Interrupted := inferInstanceAs (Decidable (_ ≠ _))

def State.Excluded (task : Task R) (s : State R) : Prop := task.locked = true ∧ s.owner = .flagged

instance (task : Task R) (s : State R) : Decidable (s.Excluded task) :=
  inferInstanceAs (Decidable (_ ∧ _))

def step (task : Task R) (s : State R) : Event R → Option (State R)
  | .tick elapsed =>
    some { s with
      now := s.now + elapsed
      waited := s.waited + if s.Interrupted ∧ s.phase.Between then elapsed else 0 }
  | .launch =>
    if s.phase = .unlaunched then
      some { s with phase := .delayed (s.now + task.delay), launched := s.now }
    else none
  | .awake =>
    match s.phase with
    | .delayed waking => if waking ≤ s.now then some { s with phase := .looping } else none
    | _ => none
  | .loop =>
    if s.phase = .looping then
      some { s with phase := if s.Interrupted then .ended else .acting s.now }
    else none
  | .finish result =>
    match s.phase with
    | .acting start =>
      some { s with
        phase := if task.returns result then .ended else .acted
        acts := s.acts ++ [⟨start, s.now, result⟩] }
    | _ => none
  | .guard =>
    if s.phase = .acted ∧ ¬ s.Excluded task then
      some { s with phase := .testing (s.now + task.period) }
    else none
  | .testPredicate =>
    match s.phase with
    | .testing deadline =>
      some { s with phase := if s.Interrupted then .looping else .unready deadline }
    | _ => none
  | .block =>
    match s.phase with
    | .unready deadline =>
      some { s with phase := .inWait deadline, interruptCv := s.interruptCv.block }
    | _ => none
  | .wake =>
    match s.phase with
    | .inWait _ => some { s with interruptCv := s.interruptCv.wake }
    | _ => none
  | .resume =>
    match s.phase with
    | .inWait deadline =>
      -- the predicate is tested once more before the deadline only
      if s.interruptCv.blocked = false ∧ ¬ s.Excluded task then
        some { s with phase := if deadline ≤ s.now then .looping else .testing deadline }
      else none
    | _ => none
  | .store =>
    if s.owner = .running ∧ ¬ (task.locked = true ∧ s.phase.holdsGuard = true) then
      some { s with owner := .flagged, interruptCv := s.interruptCv.announce }
    else none
  | .notify =>
    if s.owner = .flagged then
      some { s with owner := .notified, interruptCv := s.interruptCv.notify }
    else none
  | .join =>
    if s.owner = .notified ∧ (s.phase = .ended ∨ s.phase = .unlaunched) then
      some { s with owner := .joined }
    else none

inductive Steps (task : Task R) (s : State R) : Event R → State R → Prop
  | tick (elapsed : ℕ) : Steps task s (.tick elapsed) { s with
      now := s.now + elapsed
      waited := s.waited + if s.Interrupted ∧ s.phase.Between then elapsed else 0 }
  | launch : s.phase = .unlaunched →
      Steps task s .launch { s with phase := .delayed (s.now + task.delay), launched := s.now }
  | awake {waking : ℕ} : s.phase = .delayed waking → waking ≤ s.now →
      Steps task s .awake { s with phase := .looping }
  | loop : s.phase = .looping → ¬ s.Interrupted →
      Steps task s .loop { s with phase := .acting s.now }
  | leave : s.phase = .looping → s.Interrupted → Steps task s .loop { s with phase := .ended }
  | finish {start : ℕ} (result : R) : s.phase = .acting start →
      Steps task s (.finish result) { s with
        phase := if task.returns result then .ended else .acted
        acts := s.acts ++ [⟨start, s.now, result⟩] }
  | guard : s.phase = .acted → ¬ s.Excluded task →
      Steps task s .guard { s with phase := .testing (s.now + task.period) }
  | ready {deadline : ℕ} : s.phase = .testing deadline → s.Interrupted →
      Steps task s .testPredicate { s with phase := .looping }
  | unready {deadline : ℕ} : s.phase = .testing deadline → ¬ s.Interrupted →
      Steps task s .testPredicate { s with phase := .unready deadline }
  | block {deadline : ℕ} : s.phase = .unready deadline →
      Steps task s .block { s with
        phase := .inWait deadline
        interruptCv := s.interruptCv.block }
  | wake {deadline : ℕ} : s.phase = .inWait deadline →
      Steps task s .wake { s with interruptCv := s.interruptCv.wake }
  | timeout {deadline : ℕ} : s.phase = .inWait deadline → s.interruptCv.blocked = false →
      ¬ s.Excluded task → deadline ≤ s.now → Steps task s .resume { s with phase := .looping }
  | resume {deadline : ℕ} : s.phase = .inWait deadline → s.interruptCv.blocked = false →
      ¬ s.Excluded task → s.now < deadline →
      Steps task s .resume { s with phase := .testing deadline }
  | store : s.owner = .running → ¬ (task.locked = true ∧ s.phase.holdsGuard = true) →
      Steps task s .store { s with owner := .flagged, interruptCv := s.interruptCv.announce }
  | notify : s.owner = .flagged →
      Steps task s .notify { s with owner := .notified, interruptCv := s.interruptCv.notify }
  | join : s.owner = .notified → (s.phase = .ended ∨ s.phase = .unlaunched) →
      Steps task s .join { s with owner := .joined }

variable {task : Task R} {s s' : State R}

theorem steps_of_step {e : Event R} (h : step task s e = some s') : Steps task s e s' := by
  cases e with
  | tick elapsed =>
    cases h
    exact .tick elapsed
  | launch =>
    obtain ⟨hphase, hs'⟩ := Option.ite_none_right_eq_some.mp h
    cases hs'
    exact .launch hphase
  | awake =>
    rw [step] at h
    split at h
    · next waking hphase =>
      obtain ⟨hwaking, hs'⟩ := Option.ite_none_right_eq_some.mp h
      cases hs'
      exact .awake hphase hwaking
    · cases h
  | loop =>
    obtain ⟨hphase, hs'⟩ := Option.ite_none_right_eq_some.mp h
    cases hs'
    by_cases hflag : s.Interrupted
    · rw [if_pos hflag]
      exact .leave hphase hflag
    · rw [if_neg hflag]
      exact .loop hphase hflag
  | finish result =>
    rw [step] at h
    split at h
    · next start hphase =>
      cases h
      exact .finish result hphase
    · cases h
  | guard =>
    obtain ⟨⟨hphase, hlock⟩, hs'⟩ := Option.ite_none_right_eq_some.mp h
    cases hs'
    exact .guard hphase hlock
  | testPredicate =>
    rw [step] at h
    split at h
    · next deadline hphase =>
      cases h
      by_cases hflag : s.Interrupted
      · rw [if_pos hflag]
        exact .ready hphase hflag
      · rw [if_neg hflag]
        exact .unready hphase hflag
    · cases h
  | block =>
    rw [step] at h
    split at h
    · next deadline hphase =>
      cases h
      exact .block hphase
    · cases h
  | wake =>
    rw [step] at h
    split at h
    · next deadline hphase =>
      cases h
      exact .wake hphase
    · cases h
  | resume =>
    rw [step] at h
    split at h
    · next deadline hphase =>
      obtain ⟨⟨hblocked, hlock⟩, hs'⟩ := Option.ite_none_right_eq_some.mp h
      cases hs'
      by_cases hdeadline : deadline ≤ s.now
      · rw [if_pos hdeadline]
        exact .timeout hphase hblocked hlock hdeadline
      · rw [if_neg hdeadline]
        exact .resume hphase hblocked hlock (Nat.lt_of_not_le hdeadline)
    · cases h
  | store =>
    obtain ⟨⟨howner, hlock⟩, hs'⟩ := Option.ite_none_right_eq_some.mp h
    cases hs'
    exact .store howner hlock
  | notify =>
    obtain ⟨howner, hs'⟩ := Option.ite_none_right_eq_some.mp h
    cases hs'
    exact .notify howner
  | join =>
    obtain ⟨⟨howner, hphase⟩, hs'⟩ := Option.ite_none_right_eq_some.mp h
    cases hs'
    exact .join howner hphase

theorem acts_step {e : Event R} (h : step task s e = some s') (he : ∀ result, e ≠ .finish result) :
    s'.acts = s.acts := by
  cases steps_of_step h with
  | finish result _ => exact absurd rfl (he result)
  | _ => rfl

theorem now_le_step {e : Event R} (h : step task s e = some s') : s.now ≤ s'.now := by
  cases steps_of_step h with
  | tick elapsed => exact Nat.le_add_right _ _
  | _ => exact Nat.le_refl _

theorem interrupted_step {e : Event R} (h : step task s e = some s') (hs : s.Interrupted) :
    s'.Interrupted := by
  cases steps_of_step h with
  | store _ _ => exact nofun
  | notify _ => exact nofun
  | join _ _ => exact nofun
  | _ => exact hs

theorem running_step {e : Event R} (h : step task s e = some s') (he : e ≠ .store)
    (hs : s.owner = .running) : s'.owner = .running := by
  cases steps_of_step h with
  | store _ _ => exact absurd rfl he
  | notify howner => cases hs.symm.trans howner
  | join howner _ => cases hs.symm.trans howner
  | _ => exact hs

def Event.ofThread : Event R → Bool
  | tick _ => false
  | launch => false
  | awake => true
  | loop => true
  | finish _ => true
  | guard => true
  | testPredicate => true
  | block => true
  | wake => true
  | resume => true
  | store => false
  | notify => false
  | join => false

theorem ne_of_ofThread {e : Event R} (h : e.ofThread = true) :
    e ≠ .store ∧ e ≠ .notify ∧ e ≠ .join := by
  cases e with
  | store => cases h
  | notify => cases h
  | join => cases h
  | _ => simp

theorem owner_step {e : Event R} (h : step task s e = some s') (he : e ≠ .store ∧ e ≠ .notify ∧
    e ≠ .join) : s'.owner = s.owner := by
  cases steps_of_step h with
  | store _ _ => exact absurd rfl he.1
  | notify _ => exact absurd rfl he.2.1
  | join _ _ => exact absurd rfl he.2.2
  | _ => rfl

theorem ended_step {e : Event R} (h : step task s e = some s') (he : ∀ result, e ≠ .finish result)
    (hended : s'.phase = .ended) : s.phase = .ended ∨ s.Interrupted := by
  cases steps_of_step h with
  | tick _ => exact Or.inl hended
  | leave _ hflag => exact Or.inr hflag
  | finish result _ => exact absurd rfl (he result)
  | wake _ => exact Or.inl hended
  | store _ _ => exact Or.inl hended
  | notify _ => exact Or.inl hended
  | join _ _ => exact Or.inl hended
  | _ => cases hended

def Phase.isActing : Phase → Bool
  | acting _ => true
  | _ => false

def Event.elapsed : Event R → ℕ
  | tick elapsed => elapsed
  | _ => 0

def Instant (s : State R) (e : Event R) : Prop := e.elapsed = 0 ∨ s.phase.isActing = false

instance (s : State R) (e : Event R) : Decidable (Instant s e) :=
  inferInstanceAs (Decidable (_ ∨ _))

theorem acting_step {e : Event R} (h : step task s e = some s') (he : Instant s e)
    (hs : ∀ start, s.phase = .acting start → s.now = start) :
    ∀ start, s'.phase = .acting start → s'.now = start := by
  intro start hphase
  cases steps_of_step h with
  | tick elapsed =>
    rcases he with hzero | hother
    · obtain rfl : elapsed = 0 := hzero
      exact hs start hphase
    · cases (congrArg Phase.isActing hphase).symm.trans hother
  | loop _ _ =>
    cases hphase
    rfl
  | finish result _ => cases hr : task.returns result <;> simp [hr] at hphase
  | wake _ => exact hs start hphase
  | store _ _ => exact hs start hphase
  | notify _ => exact hs start hphase
  | join _ _ => exact hs start hphase
  | _ => cases hphase

def Clear (task : Task R) (s : State R) (a : Act R) : Prop :=
  match s.phase with
  | .unlaunched => False
  | .delayed _ => False
  | .looping => s.Interrupted ∨ a.finish + task.period ≤ s.now
  | .acting start => a.finish + task.period ≤ start
  | .acted => True
  | .testing deadline => a.finish + task.period ≤ deadline
  | .unready deadline => a.finish + task.period ≤ deadline
  | .inWait deadline => a.finish + task.period ≤ deadline
  | .ended => True

structure Spaced (task : Task R) (s : State R) : Prop where
  acts : s.acts.Pairwise fun a b => a.finish + task.period ≤ b.start
  within : ∀ a ∈ s.acts, a.start ≤ a.finish ∧ a.finish ≤ s.now
  clear : ∀ a ∈ s.acts, Clear task s a
  acting : ∀ start, s.phase = .acting start → start ≤ s.now

theorem spaced_init (now : ℕ) : Spaced task (init R now) where
  acts := List.Pairwise.nil
  within a ha := absurd ha List.not_mem_nil
  clear a ha := absurd ha List.not_mem_nil
  acting start h := by cases h

theorem Clear.tick {a : Act R} (h : Clear task s a) (elapsed waited : ℕ) :
    Clear task { s with now := s.now + elapsed, waited := waited } a := by
  unfold Clear at h ⊢
  cases hphase : s.phase with
  | looping =>
    simp only [hphase] at h ⊢
    exact h.imp_right fun hle => Nat.le_trans hle (Nat.le_add_right _ _)
  | _ => simp only [hphase] at h ⊢ <;> exact h

theorem Clear.interrupt {a : Act R} (h : Clear task s a) {owner : Owner} (howner : owner ≠ .running)
    (cv : ConditionVariable) : Clear task { s with owner := owner, interruptCv := cv } a := by
  unfold Clear at h ⊢
  cases hphase : s.phase with
  | looping =>
    simp only
    exact Or.inl howner
  | _ => simp only [hphase] at h ⊢ <;> exact h

theorem spaced_step {e : Event R} (h : step task s e = some s') (hs : Spaced task s) :
    Spaced task s' := by
  obtain ⟨hacts, hwithin, hclear, hacting⟩ := hs
  -- a phase other than `acting` leaves nothing to show for the act under way
  have hnone : ∀ {phase : Phase}, (∀ start, phase ≠ .acting start) →
      ∀ start, phase = .acting start → start ≤ s.now := fun hne start hp => absurd hp (hne start)
  have hof : ∀ {phase : Phase}, s.phase = phase → ∀ a ∈ s.acts,
      Clear task { s with phase := phase } a := by
    rintro phase rfl
    exact hclear
  cases steps_of_step h with
  | tick elapsed =>
    refine ⟨hacts, ?_, fun a ha => (hclear a ha).tick elapsed _, ?_⟩
    · intro a ha
      exact ⟨(hwithin a ha).1, Nat.le_trans (hwithin a ha).2 (Nat.le_add_right _ _)⟩
    · intro start hp
      exact Nat.le_trans (hacting start hp) (Nat.le_add_right _ _)
  | launch hphase => exact ⟨hacts, hwithin, fun a ha => (hof hphase a ha).elim, hnone nofun⟩
  | awake hphase _ => exact ⟨hacts, hwithin, fun a ha => (hof hphase a ha).elim, hnone nofun⟩
  | loop hphase hflag =>
    refine ⟨hacts, hwithin, fun a ha => (hof hphase a ha).resolve_left hflag, ?_⟩
    rintro start ⟨⟩
    exact Nat.le_refl _
  | leave hphase _ => exact ⟨hacts, hwithin, fun _ _ => trivial, hnone nofun⟩
  | @finish start result hphase =>
    refine ⟨?_, ?_, ?_, ?_⟩
    · rw [List.pairwise_append]
      refine ⟨hacts, List.pairwise_singleton _ _, ?_⟩
      intro a ha b hb
      rw [List.mem_singleton] at hb
      exact hb ▸ hof hphase a ha
    · intro a ha
      rcases List.mem_append.mp ha with ha | ha
      · exact hwithin a ha
      · rw [List.mem_singleton] at ha
        subst ha
        exact ⟨hacting start hphase, Nat.le_refl _⟩
    · intro a ha
      unfold Clear
      cases task.returns result <;> trivial
    · intro start hp
      cases hr : task.returns result <;> simp [hr] at hp
  | guard hphase _ =>
    refine ⟨hacts, hwithin, fun a ha => ?_, hnone nofun⟩
    exact Nat.add_le_add_right (hwithin a ha).2 _
  | ready hphase hflag => exact ⟨hacts, hwithin, fun _ _ => Or.inl hflag, hnone nofun⟩
  | unready hphase _ => exact ⟨hacts, hwithin, fun a ha => hof hphase a ha, hnone nofun⟩
  | block hphase => exact ⟨hacts, hwithin, hof hphase, hnone nofun⟩
  | wake hphase => exact ⟨hacts, hwithin, hclear, hacting⟩
  | timeout hphase _ _ hdeadline =>
    refine ⟨hacts, hwithin, fun a ha => Or.inr ?_, hnone nofun⟩
    exact Nat.le_trans (hof hphase a ha) hdeadline
  | resume hphase _ _ _ => exact ⟨hacts, hwithin, fun a ha => hof hphase a ha, hnone nofun⟩
  | store howner _ =>
    exact ⟨hacts, hwithin, fun a ha => (hclear a ha).interrupt (by decide) _, hacting⟩
  | notify howner =>
    exact ⟨hacts, hwithin, fun a ha => (hclear a ha).interrupt (by decide) _, hacting⟩
  | join howner _ =>
    exact ⟨hacts, hwithin, fun a ha => (hclear a ha).interrupt (by decide) _, hacting⟩

theorem spaced {now : ℕ} {events : List (Event R)} (h : exec (step task) (init R now) events = some s) :
    Spaced task s :=
  exec_keeps (fun _ _ _ hstep hs => spaced_step hstep hs) h (spaced_init now)

theorem Spaced.add_mul_le_start (hs : Spaced task s) {i k : ℕ} {a b : Act R}
    (ha : s.acts[i]? = some a) (hb : s.acts[i + k + 1]? = some b) :
    a.finish + (k + 1) * task.period ≤ b.start := by
  have hnext : ∀ {j l : ℕ} {c d : Act R}, s.acts[j]? = some c → s.acts[l]? = some d → j < l →
      c.finish + task.period ≤ d.start := by
    intro j l c d hc hd hjl
    obtain ⟨hj, rfl⟩ := List.getElem?_eq_some_iff.mp hc
    obtain ⟨hl, rfl⟩ := List.getElem?_eq_some_iff.mp hd
    exact List.pairwise_iff_getElem.mp hs.acts j l hj hl hjl
  induction k generalizing b with
  | zero =>
    have hle := hnext ha hb (by omega)
    simpa using hle
  | succ k ih =>
    have hlength := (List.getElem?_eq_some_iff.mp hb).1
    have hc : s.acts[i + k + 1]? = some s.acts[i + k + 1] := List.getElem?_eq_getElem _
    have hfirst := ih hc
    have hwithin := (hs.within _ (List.getElem_mem (by omega : i + k + 1 < s.acts.length))).1
    have hlast := hnext hc hb (by omega)
    rw [Nat.succ_mul]
    omega

theorem isActing_step {e : Event R} (h : step task s e = some s') (he : ∀ result, e ≠ .finish result)
    (hs : s.phase.isActing = true) : s'.phase.isActing = true := by
  have hof : ∀ {phase : Phase}, s.phase = phase → phase.isActing = true := by
    rintro phase rfl
    exact hs
  cases steps_of_step h with
  | tick _ => exact hs
  | launch hphase => cases hof hphase
  | awake hphase _ => cases hof hphase
  | loop _ _ => rfl
  | leave hphase _ => cases hof hphase
  | finish result _ => exact absurd rfl (he result)
  | guard hphase _ => cases hof hphase
  | ready hphase _ => cases hof hphase
  | unready hphase _ => cases hof hphase
  | block hphase => cases hof hphase
  | wake _ => exact hs
  | timeout hphase _ _ _ => cases hof hphase
  | resume hphase _ _ _ => cases hof hphase
  | store _ _ => exact hs
  | notify _ => exact hs
  | join _ _ => exact hs

structure OnePerAct (task : Task R) (s : State R) (due : Bool) (times : List ℕ) : Prop where
  apart : times.Pairwise fun first second => first + task.period ≤ second
  taken : ∀ t ∈ times, (∃ a ∈ s.acts, t ≤ a.finish) ∨
    due = false ∧ s.phase.isActing = true ∧ t ≤ s.now

theorem OnePerAct.step {due due' : Bool} {times : List ℕ} {e : Event R}
    (h : step task s e = some s') (hdue : due' = due ∨ e = .loop)
    (hs : OnePerAct task s due times) : OnePerAct task s' due' times := by
  refine ⟨hs.apart, fun t ht => ?_⟩
  rcases hs.taken t ht with ⟨a, ha, hle⟩ | ⟨hnot, hacting, hle⟩
  · refine Or.inl ⟨a, ?_, hle⟩
    cases steps_of_step h with
    | finish _ _ => exact List.mem_append_left _ ha
    | _ => exact ha
  · by_cases hfinish : ∃ result, e = .finish result
    · obtain ⟨result, rfl⟩ := hfinish
      cases steps_of_step h with
      | finish _ _ =>
        exact Or.inl ⟨_, List.mem_append_right _ (List.mem_singleton.mpr rfl), hle⟩
    · have hkept := isActing_step h (fun result he => hfinish ⟨result, he⟩) hacting
      rcases hdue with rfl | rfl
      · exact Or.inr ⟨hnot, hkept, hle.trans (now_le_step h)⟩
      · cases steps_of_step h with
        | loop hphase _ => exact absurd (hphase ▸ hacting) (by decide)
        | leave hphase _ => exact absurd (hphase ▸ hacting) (by decide)

theorem OnePerAct.take {times : List ℕ} (hspaced : Spaced task s)
    (hacting : s.phase.isActing = true) (hs : OnePerAct task s true times) :
    OnePerAct task s false (times ++ [s.now]) := by
  cases hphase : s.phase with
  | acting start =>
    refine ⟨?_, ?_⟩
    · rw [List.pairwise_append]
      refine ⟨hs.apart, List.pairwise_singleton _ _, ?_⟩
      intro t ht now hnow
      obtain rfl := List.mem_singleton.mp hnow
      obtain ⟨a, ha, hle⟩ := (hs.taken t ht).resolve_right nofun
      have hclear : Clear task { s with phase := .acting start } a := hphase ▸ hspaced.clear a ha
      exact (Nat.add_le_add_right hle _).trans (hclear.trans (hspaced.acting start hphase))
    · intro t ht
      rcases List.mem_append.mp ht with ht | ht
      · exact Or.inl ((hs.taken t ht).resolve_right nofun)
      · exact Or.inr ⟨rfl, hphase ▸ rfl, (List.mem_singleton.mp ht).le⟩
  | _ =>
    rw [hphase] at hacting
    cases hacting

/-- The phases of a thread that its owner does not wait for. -/
def Phase.leaves : Phase → Bool
  | unlaunched => true
  | delayed _ => true
  | looping => true
  | ended => true
  | _ => false

theorem leaves_step {e : Event R} (h : step task s e = some s')
    (hs : s.owner = .joined → s.phase.leaves = true) (howner : s'.owner = .joined) :
    s'.phase.leaves = true := by
  have hof : ∀ {phase : Phase}, s.phase = phase → s.owner = .joined → phase.leaves = true := by
    rintro phase rfl
    exact hs
  cases steps_of_step h with
  | tick _ => exact hs howner
  | launch _ => rfl
  | awake _ _ => rfl
  | loop _ hflag => cases (not_not.mp hflag).symm.trans howner
  | leave _ _ => rfl
  | finish _ hphase => cases hof hphase howner
  | guard hphase _ => cases hof hphase howner
  | ready _ _ => rfl
  | unready hphase _ => cases hof hphase howner
  | block hphase => cases hof hphase howner
  | wake _ => exact hs howner
  | timeout _ _ _ _ => rfl
  | resume hphase _ _ _ => cases hof hphase howner
  | store _ _ => cases howner
  | notify _ => cases howner
  | join _ hphase =>
    rcases hphase with hphase | hphase
    · exact congrArg Phase.leaves hphase
    · exact congrArg Phase.leaves hphase

def DelayOver (task : Task R) (s : State R) : Prop :=
  match s.phase with
  | .unlaunched => True
  | .delayed waking => s.launched + task.delay = waking
  | .looping => s.launched + task.delay ≤ s.now
  | .acting start => s.launched + task.delay ≤ start ∧ start ≤ s.now
  | .acted => s.launched + task.delay ≤ s.now
  | .testing _ => s.launched + task.delay ≤ s.now
  | .unready _ => s.launched + task.delay ≤ s.now
  | .inWait _ => s.launched + task.delay ≤ s.now
  | .ended => s.launched + task.delay ≤ s.now

structure Begun (task : Task R) (now : ℕ) (s : State R) : Prop where
  launched : now ≤ s.launched
  now : now ≤ s.now
  delayOver : DelayOver task s

theorem DelayOver.tick (hs : DelayOver task s) (elapsed waited : ℕ) :
    DelayOver task { s with now := s.now + elapsed, waited := waited } := by
  unfold DelayOver at hs ⊢
  cases hphase : s.phase <;> simp only [hphase] at hs ⊢ <;> omega

theorem begun_step {now : ℕ} {e : Event R} (h : step task s e = some s') (hs : Begun task now s) :
    Begun task now s' := by
  obtain ⟨hlaunched, hnow, hdelay⟩ := hs
  have hof : ∀ {phase : Phase}, s.phase = phase → DelayOver task { s with phase := phase } := by
    rintro phase rfl
    exact hdelay
  cases steps_of_step h with
  | tick elapsed =>
    exact ⟨hlaunched, Nat.le_trans hnow (Nat.le_add_right _ _), hdelay.tick elapsed _⟩
  | launch _ => exact ⟨hnow, hnow, rfl⟩
  | awake hphase hwaking => exact ⟨hlaunched, hnow, Nat.le_trans (Nat.le_of_eq (hof hphase)) hwaking⟩
  | loop hphase _ => exact ⟨hlaunched, hnow, hof hphase, Nat.le_refl _⟩
  | leave hphase _ =>
    have hle : s.launched + task.delay ≤ s.now := hof hphase
    exact ⟨hlaunched, hnow, hle⟩
  | @finish start result hphase =>
    obtain ⟨hstart, hle⟩ := hof hphase
    refine ⟨hlaunched, hnow, ?_⟩
    unfold DelayOver
    cases task.returns result with
    | false => exact Nat.le_trans hstart hle
    | true => exact Nat.le_trans hstart hle
  | guard hphase _ =>
    have hle : s.launched + task.delay ≤ s.now := hof hphase
    exact ⟨hlaunched, hnow, hle⟩
  | ready hphase _ =>
    have hle : s.launched + task.delay ≤ s.now := hof hphase
    exact ⟨hlaunched, hnow, hle⟩
  | unready hphase _ =>
    have hle : s.launched + task.delay ≤ s.now := hof hphase
    exact ⟨hlaunched, hnow, hle⟩
  | block hphase => exact ⟨hlaunched, hnow, hof hphase⟩
  | wake _ => exact ⟨hlaunched, hnow, hdelay⟩
  | timeout hphase _ _ _ =>
    have hle : s.launched + task.delay ≤ s.now := hof hphase
    exact ⟨hlaunched, hnow, hle⟩
  | resume hphase _ _ _ =>
    have hle : s.launched + task.delay ≤ s.now := hof hphase
    exact ⟨hlaunched, hnow, hle⟩
  | store _ _ => exact ⟨hlaunched, hnow, hdelay⟩
  | notify _ => exact ⟨hlaunched, hnow, hdelay⟩
  | join _ _ => exact ⟨hlaunched, hnow, hdelay⟩

theorem begun {now : ℕ} {events : List (Event R)}
    (h : exec (step task) (init R now) events = some s) : Begun task now s :=
  exec_keeps (fun _ _ _ hstep hs => begun_step hstep hs) h
    ⟨Nat.le_refl _, Nat.le_refl _, trivial⟩

theorem Begun.acting {now start : ℕ} (hs : Begun task now s) (hphase : s.phase = .acting start) :
    now + task.delay ≤ s.now := by
  have hof : DelayOver task { s with phase := .acting start } := hphase ▸ hs.delayOver
  obtain ⟨hstart, hle⟩ := hof
  have hlaunched := hs.launched
  simp only at hstart hle
  omega

end
end R2000Driver.PeriodicTask
