import Mathlib.Algebra.GroupWithZero.Nat
import R2000Driver.PeriodicTask

/-!
# When a periodic task acts and when it ends

The notification of the owner, and the runs in which nothing but the acts, the
delay and the waits takes time. In those the acts follow each other at exactly
the period (`onTime_step`), and the owner waits for at most the act under way and
then, without the lock, one period (`waited_le`).
-/

namespace R2000Driver.PeriodicTask
open ConditionVariable Runs

section
variable {R : Type} {task : Task R} {s s' : State R}

def LosesWakeUp (s : State R) (e : Event R) : Prop :=
  e = .block ∧ s.Interrupted ∧ s.interruptCv.toNotify = 0

def Asleep (s : State R) : Prop := Stranded s.Interrupted s.interruptCv

structure Coordinated (task : Task R) (s : State R) : Prop where
  toNotify : s.owner = .flagged → 0 < s.interruptCv.toNotify
  blocked : s.interruptCv.blocked = true → ∃ deadline, s.phase = .inWait deadline
  locked : task.locked = true → ∀ deadline, s.phase = .unready deadline → s.owner = .running

theorem coordinated_init (now : ℕ) : Coordinated task (init R now) where
  toNotify h := by cases h
  blocked h := by cases h
  locked _ _ _ := rfl

theorem Coordinated.unblocked (hs : Coordinated task s) {phase : Phase} (hphase : s.phase = phase)
    (hne : ∀ deadline, phase ≠ .inWait deadline) : s.interruptCv.blocked = false := by
  by_contra hb
  obtain ⟨deadline, hwait⟩ := hs.blocked (eq_true_of_ne_false hb)
  exact hne deadline (hphase.symm.trans hwait)

theorem Coordinated.moved (hs : Coordinated task s) {phase : Phase} (phase' : Phase)
    (hphase : s.phase = phase) (hne : ∀ deadline, phase ≠ .inWait deadline)
    (hunready : ∀ deadline, phase' ≠ .unready deadline) (launched : ℕ) (acts : List (Act R)) :
    Coordinated task { s with phase := phase', launched := launched, acts := acts } where
  toNotify := hs.toNotify
  blocked h := by cases (hs.unblocked hphase hne).symm.trans h
  locked _ deadline hp := absurd hp (hunready deadline)

theorem coordinated_step {e : Event R} (h : step task s e = some s') (hs : Coordinated task s) :
    Coordinated task s' := by
  cases steps_of_step h with
  | tick elapsed => exact ⟨hs.toNotify, hs.blocked, hs.locked⟩
  | launch hphase => exact hs.moved (.delayed _) hphase nofun nofun _ _
  | awake hphase _ => exact hs.moved .looping hphase nofun nofun _ _
  | loop hphase _ => exact hs.moved (.acting _) hphase nofun nofun _ _
  | leave hphase _ => exact hs.moved .ended hphase nofun nofun _ _
  | @finish start result hphase =>
    refine hs.moved _ hphase nofun ?_ _ _
    intro deadline hp
    cases hr : task.returns result <;> simp [hr] at hp
  | guard hphase _ => exact hs.moved (.testing _) hphase nofun nofun _ _
  | ready hphase _ => exact hs.moved .looping hphase nofun nofun _ _
  | unready hphase hflag =>
    refine ⟨hs.toNotify, ?_, fun _ _ _ => not_not.mp hflag⟩
    intro hb
    cases (hs.unblocked hphase nofun).symm.trans hb
  | block hphase => exact ⟨hs.toNotify, fun _ => ⟨_, rfl⟩, fun _ => nofun⟩
  | wake hphase => exact ⟨hs.toNotify, nofun, hs.locked⟩
  | timeout hphase hblocked _ _ =>
    refine ⟨hs.toNotify, ?_, fun _ => nofun⟩
    intro hb
    cases hblocked.symm.trans hb
  | resume hphase hblocked _ _ =>
    refine ⟨hs.toNotify, ?_, fun _ => nofun⟩
    intro hb
    cases hblocked.symm.trans hb
  | store howner hlock =>
    refine ⟨fun _ => Nat.succ_pos _, hs.blocked, ?_⟩
    intro hlocked deadline hp
    exact absurd ⟨hlocked, congrArg Phase.holdsGuard hp⟩ hlock
  | notify howner =>
    refine ⟨nofun, nofun, ?_⟩
    intro hlocked deadline hp
    cases howner.symm.trans (hs.locked hlocked deadline hp)
  | join howner hphase =>
    refine ⟨nofun, hs.blocked, ?_⟩
    intro hlocked deadline hp
    cases howner.symm.trans (hs.locked hlocked deadline hp)

theorem asleep_step_iff {e : Event R} (h : step task s e = some s') (hs : Coordinated task s)
    (hawake : ¬ Asleep s) : Asleep s' ↔ LosesWakeUp s e := by
  -- a step that does not begin a wait loses no notification
  have hne : ∀ {e : Event R}, e ≠ .block → ¬ Asleep s' → (Asleep s' ↔ LosesWakeUp s e) :=
    fun he hn => ⟨fun ha => absurd ha hn, fun hl => absurd hl.1 he⟩
  cases steps_of_step h with
  | tick elapsed => exact hne nofun hawake
  | launch _ => exact hne nofun hawake
  | awake _ _ => exact hne nofun hawake
  | loop _ _ => exact hne nofun hawake
  | leave _ _ => exact hne nofun hawake
  | finish _ _ => exact hne nofun hawake
  | guard _ _ => exact hne nofun hawake
  | ready _ _ => exact hne nofun hawake
  | unready _ _ => exact hne nofun hawake
  | block _ =>
    constructor
    · intro ha
      exact ⟨rfl, stranded_block_iff.mp ha⟩
    · intro hl
      exact stranded_block_iff.mpr hl.2
  | wake _ => exact hne nofun not_stranded_wake
  | timeout _ _ _ _ => exact hne nofun hawake
  | resume _ _ _ _ => exact hne nofun hawake
  | store _ _ => exact hne nofun not_stranded_announce
  | notify _ => exact hne nofun not_stranded_notify
  | join howner hphase =>
    refine hne nofun (not_stranded_of_unblocked ?_)
    rcases hphase with hphase | hphase
    · exact hs.unblocked hphase nofun
    · exact hs.unblocked hphase nofun

theorem Coordinated.not_losesWakeUp (hs : Coordinated task s) (hlocked : task.locked = true)
    {e : Event R} (h : step task s e = some s') : ¬ LosesWakeUp s e := by
  rintro ⟨rfl, hflag, -⟩
  cases steps_of_step h with
  | block hphase => exact hflag (hs.locked hlocked _ hphase)

theorem locked_never_asleep (hlocked : task.locked = true) {now : ℕ} {events : List (Event R)}
    (h : exec (step task) (init R now) events = some s) : ¬ Asleep s := by
  have hboth : Coordinated task s ∧ ¬ Asleep s := by
    refine exec_keeps (P := fun s => Coordinated task s ∧ ¬ Asleep s) ?_ h
      ⟨coordinated_init now, not_stranded_of_unblocked rfl⟩
    rintro t e t' hstep ⟨ht, hawake⟩
    refine ⟨coordinated_step hstep ht, ?_⟩
    exact mt (asleep_step_iff hstep ht hawake).mp (ht.not_losesWakeUp hlocked hstep)
  exact hboth.2

def State.Passes (s : State R) (elapsed : ℕ) : Prop :=
  match s.phase with
  | .unlaunched => True
  | .delayed waking => s.now + elapsed ≤ waking
  | .looping => False
  | .acting _ => True
  | .acted => False
  | .testing _ => False
  | .unready _ => False
  | .inWait deadline => s.interruptCv.blocked = true ∧ s.now + elapsed ≤ deadline
  | .ended => True

/-- No time passes elsewhere, and none between the flag and the notification. -/
def Prompt (s : State R) (e : Event R) : Prop :=
  e.elapsed = 0 ∨ s.owner ≠ .flagged ∧ s.Passes e.elapsed

instance (s : State R) (elapsed : ℕ) : Decidable (s.Passes elapsed) := by
  unfold State.Passes
  split <;> infer_instance

instance (s : State R) (e : Event R) : Decidable (Prompt s e) :=
  inferInstanceAs (Decidable (_ ∨ _))

theorem prompt_of_ofThread {e : Event R} (h : e.ofThread = true) (s : State R) :
    Prompt s e ∧ Instant s e := by
  cases e with
  | tick _ => cases h
  | _ => exact ⟨Or.inl rfl, Or.inl rfl⟩

def nextStart (period : ℕ) : ℕ → List (Act R) → ℕ
  | due, [] => due
  | _, a :: acts => nextStart period (a.finish + period) acts

/-- Every act begins a period behind the end of its predecessor, neither earlier nor later. -/
def Punctual (period : ℕ) : ℕ → List (Act R) → Prop
  | _, [] => True
  | due, a :: acts => a.start = due ∧ Punctual period (a.finish + period) acts

theorem nextStart_concat (period due : ℕ) (acts : List (Act R)) (a : Act R) :
    nextStart period due (acts ++ [a]) = a.finish + period := by
  induction acts generalizing due with
  | nil => rfl
  | cons b acts ih => exact ih _

def Act.duration (a : Act R) : ℕ := a.finish - a.start

theorem punctual_append {period due : ℕ} {as bs : List (Act R)} :
    Punctual period due (as ++ bs) ↔
      Punctual period due as ∧ Punctual period (nextStart period due as) bs := by
  induction as generalizing due with
  | nil => simp [Punctual, nextStart]
  | cons a as ih => simp only [List.cons_append, Punctual, nextStart, ih, and_assoc]

theorem punctual_concat {period due : ℕ} {acts : List (Act R)} {a : Act R} :
    Punctual period due (acts ++ [a]) ↔
      Punctual period due acts ∧ a.start = nextStart period due acts := by
  simp [punctual_append, Punctual]

theorem Punctual.nextStart_eq {period due : ℕ} {acts : List (Act R)}
    (h : Punctual period due acts) (hwithin : ∀ a ∈ acts, a.start ≤ a.finish) :
    nextStart period due acts = due + acts.length * period + (acts.map Act.duration).sum := by
  induction acts generalizing due with
  | nil => simp [nextStart]
  | cons a acts ih =>
    have hstart := hwithin a List.mem_cons_self
    have hduration : a.finish = due + a.duration := by
      rw [Act.duration, ← h.1]
      omega
    rw [nextStart, ih h.2 fun b hb => hwithin b (List.mem_cons_of_mem a hb), hduration,
      List.length_cons, List.map_cons, List.sum_cons, Nat.succ_mul]
    omega

def State.due (task : Task R) (s : State R) : ℕ :=
  nextStart task.period (s.launched + task.delay) s.acts

def Scheduled (task : Task R) (s : State R) : Prop :=
  match s.phase with
  | .unlaunched => s.acts = []
  | .delayed waking => s.due task = waking ∧ s.now ≤ waking
  | .looping => ¬ s.Interrupted → s.due task = s.now
  | .acting start => s.due task = start
  | .acted => s.due task = s.now + task.period
  | .testing deadline => s.due task = deadline ∧ s.now ≤ deadline
  | .unready deadline => s.due task = deadline ∧ s.now ≤ deadline
  | .inWait deadline => s.due task = deadline ∧ s.now ≤ deadline
  | .ended => True

structure OnTime (task : Task R) (s : State R) : Prop where
  acts : Punctual task.period (s.launched + task.delay) s.acts
  scheduled : Scheduled task s

theorem onTime_init (now : ℕ) : OnTime task (init R now) := ⟨trivial, rfl⟩

theorem Scheduled.tick (hs : Scheduled task s) {elapsed : ℕ} (hprompt : Prompt s (.tick elapsed))
    (waited : ℕ) : Scheduled task { s with now := s.now + elapsed, waited := waited } := by
  rcases hprompt with hzero | ⟨-, htick⟩
  · obtain rfl : elapsed = 0 := hzero
    exact hs
  · unfold Scheduled at hs ⊢
    change s.Passes elapsed at htick
    unfold State.Passes at htick
    cases hphase : s.phase with
    | delayed waking =>
      simp only [hphase] at hs htick ⊢
      exact ⟨hs.1, htick⟩
    | inWait deadline =>
      simp only [hphase] at hs htick ⊢
      exact ⟨hs.1, htick.2⟩
    | _ => simp only [hphase] at hs htick ⊢ <;> exact hs

theorem Scheduled.interrupt (hs : Scheduled task s) {owner : Owner} (howner : owner ≠ .running)
    (cv : ConditionVariable) : Scheduled task { s with owner := owner, interruptCv := cv } := by
  unfold Scheduled at hs ⊢
  cases hphase : s.phase with
  | looping =>
    simp only
    exact fun hn => absurd howner hn
  | _ => simp only [hphase] at hs ⊢ <;> exact hs

theorem onTime_step {e : Event R} (h : step task s e = some s') (hprompt : Prompt s e)
    (hs : OnTime task s) : OnTime task s' := by
  obtain ⟨hacts, hscheduled⟩ := hs
  have hof : ∀ {phase : Phase}, s.phase = phase → Scheduled task { s with phase := phase } := by
    rintro phase rfl
    exact hscheduled
  cases steps_of_step h with
  | tick elapsed => exact ⟨hacts, hscheduled.tick hprompt _⟩
  | launch hphase =>
    have hnil : s.acts = [] := hof hphase
    refine ⟨?_, ?_, Nat.le_add_right _ _⟩
    · simp only [hnil]
      trivial
    · simp only [State.due, hnil, nextStart]
  | awake hphase hwaking =>
    obtain ⟨hdue, hle⟩ := hof hphase
    exact ⟨hacts, fun _ => hdue.trans (Nat.le_antisymm hwaking hle)⟩
  | loop hphase hflag => exact ⟨hacts, hof hphase hflag⟩
  | leave hphase _ => exact ⟨hacts, trivial⟩
  | @finish start result hphase =>
    have hstart : s.due task = start := hof hphase
    refine ⟨punctual_concat.mpr ⟨hacts, hstart.symm⟩, ?_⟩
    unfold Scheduled
    cases task.returns result with
    | false => exact nextStart_concat _ _ _ _
    | true => trivial
  | guard hphase _ => exact ⟨hacts, hof hphase, Nat.le_add_right _ _⟩
  | ready hphase hflag => exact ⟨hacts, fun hn => absurd hflag hn⟩
  | unready hphase _ =>
    obtain ⟨hdue, hle⟩ := hof hphase
    exact ⟨hacts, hdue, hle⟩
  | block hphase =>
    obtain ⟨hdue, hle⟩ := hof hphase
    exact ⟨hacts, hdue, hle⟩
  | wake hphase => exact ⟨hacts, hscheduled⟩
  | timeout hphase _ _ hdeadline =>
    obtain ⟨hdue, hle⟩ := hof hphase
    exact ⟨hacts, fun _ => hdue.trans (Nat.le_antisymm hdeadline hle)⟩
  | resume hphase _ _ _ =>
    obtain ⟨hdue, hle⟩ := hof hphase
    exact ⟨hacts, hdue, hle⟩
  | store _ _ => exact ⟨hacts, hscheduled.interrupt (by decide) _⟩
  | notify _ => exact ⟨hacts, hscheduled.interrupt (by decide) _⟩
  | join _ _ => exact ⟨hacts, hscheduled.interrupt (by decide) _⟩

theorem OnTime.now_le_due (hs : OnTime task s) (hrunning : s.owner = .running)
    (hlaunched : s.phase ≠ .unlaunched) (hended : s.phase ≠ .ended)
    (hacting : ∀ start, s.phase = .acting start → s.now = start) : s.now ≤ s.due task := by
  have hof : ∀ {phase : Phase}, s.phase = phase → Scheduled task { s with phase := phase } := by
    rintro phase rfl
    exact hs.scheduled
  cases hphase : s.phase with
  | unlaunched => exact absurd hphase hlaunched
  | delayed waking =>
    obtain ⟨hdue, hle⟩ := hof hphase
    exact hle.trans_eq hdue.symm
  | looping =>
    have hdue : s.due task = s.now := hof hphase (fun hn => hn hrunning)
    exact hdue.ge
  | acting start =>
    have hdue : s.due task = start := hof hphase
    exact ((hacting start hphase).trans hdue.symm).le
  | acted =>
    have hdue : s.due task = s.now + task.period := hof hphase
    exact hdue ▸ Nat.le_add_right _ _
  | testing deadline =>
    obtain ⟨hdue, hle⟩ := hof hphase
    exact hle.trans_eq hdue.symm
  | unready deadline =>
    obtain ⟨hdue, hle⟩ := hof hphase
    exact hle.trans_eq hdue.symm
  | inWait deadline =>
    obtain ⟨hdue, hle⟩ := hof hphase
    exact hle.trans_eq hdue.symm
  | ended => exact absurd hphase hended

theorem nextStart_lt {period due last : ℕ} {acts : List (Act R)} (hdue : due < last)
    (hacts : ∀ a ∈ acts, a.finish + period < last) : nextStart period due acts < last := by
  induction acts generalizing due with
  | nil => exact hdue
  | cons a acts ih =>
    exact ih (hacts a List.mem_cons_self) fun b hb => hacts b (List.mem_cons_of_mem a hb)

def Task.longestWait (task : Task R) : ℕ := max task.delay (if task.locked then 0 else task.period)

def Leaves (task : Task R) (s : State R) : Prop :=
  match s.phase with
  | .unlaunched => s.waited = 0
  | .delayed waking => s.waited + waking ≤ s.now + task.delay ∧ s.now ≤ waking
  | .looping => True
  | .acting _ => s.waited = 0
  | .acted => s.waited = 0
  | .testing deadline => s.waited + deadline ≤ s.now + task.period ∧ s.now ≤ deadline ∧
      (task.locked = true → s.waited = 0)
  | .unready deadline => s.waited + deadline ≤ s.now + task.period ∧ s.now ≤ deadline ∧
      (task.locked = true → s.waited = 0)
  | .inWait deadline => s.waited + deadline ≤ s.now + task.period ∧ s.now ≤ deadline ∧
      (task.locked = true → s.waited = 0)
  | .ended => True

structure Released (task : Task R) (s : State R) : Prop where
  coordinated : Coordinated task s
  running : s.owner = .running → s.waited = 0
  awake : task.locked = true → s.Interrupted → s.owner ≠ .flagged → s.interruptCv.blocked = false
  waited : s.waited ≤ task.longestWait
  leaves : Leaves task s

theorem released_init (now : ℕ) : Released task (init R now) where
  coordinated := coordinated_init now
  running _ := rfl
  awake _ _ _ := rfl
  waited := Nat.zero_le _
  leaves := rfl

theorem le_longestWait_of_unlocked (h : task.locked = false) : task.period ≤ task.longestWait := by
  rw [Task.longestWait, h]
  exact Nat.le_max_right _ _

theorem Released.tick (hs : Released task s) {elapsed : ℕ} (hprompt : Prompt s (.tick elapsed)) :
    Released task { s with
      now := s.now + elapsed
      waited := s.waited + if s.Interrupted ∧ s.phase.Between then elapsed else 0 } := by
  obtain ⟨hcoordinated, hrunning, hawake, hwaited, hleaves⟩ := hs
  have htick : step task s (.tick elapsed) = some _ := rfl
  have hcoordinated' := coordinated_step htick hcoordinated
  rcases hprompt with hzero | ⟨howner, hpasses⟩
  · obtain rfl : elapsed = 0 := hzero
    simp only [ite_self]
    exact ⟨hcoordinated, hrunning, hawake, hwaited, hleaves⟩
  change s.Passes elapsed at hpasses
  unfold State.Passes at hpasses
  have hrunning' : s.owner = .running →
      s.waited + (if s.Interrupted ∧ s.phase.Between then elapsed else 0) = 0 := by
    intro ho
    rw [if_neg (fun hi => hi.1 ho), hrunning ho]
  refine ⟨hcoordinated', hrunning', hawake, ?_, ?_⟩
  · by_cases hi : s.Interrupted ∧ s.phase.Between
    · simp only [if_pos hi]
      unfold Leaves at hleaves
      cases hphase : s.phase with
      | delayed waking =>
        simp only [hphase] at hleaves hpasses
        have hdelay : task.delay ≤ task.longestWait := Nat.le_max_left _ _
        omega
      | inWait deadline =>
        simp only [hphase] at hleaves hpasses
        cases hlocked : task.locked with
        | true => cases (hawake hlocked hi.1 howner).symm.trans hpasses.1
        | false =>
          have hperiod := le_longestWait_of_unlocked hlocked
          omega
      | unlaunched => exact absurd hi.2 (by rw [hphase]; exact id)
      | acting start => exact absurd hi.2 (by rw [hphase]; exact id)
      | ended => exact absurd hi.2 (by rw [hphase]; exact id)
      | _ =>
        simp only [hphase] at hpasses
    · simp only [if_neg hi]
      exact hwaited
  · unfold Leaves at hleaves ⊢
    cases hphase : s.phase with
    | delayed waking =>
      simp only [hphase] at hleaves hpasses ⊢
      split_ifs <;> omega
    | inWait deadline =>
      simp only [hphase] at hleaves hpasses ⊢
      refine ⟨by split_ifs <;> omega, hpasses.2, ?_⟩
      intro hlocked
      have hzero := hleaves.2.2 hlocked
      by_cases hi : s.Interrupted
      · cases (hawake hlocked hi howner).symm.trans hpasses.1
      · rw [if_neg (fun hb => hi hb.1), hzero]
    | unlaunched => simpa [hphase, Phase.Between] using hleaves
    | acting start => simpa [hphase, Phase.Between] using hleaves
    | ended => trivial
    | _ => simp only [hphase] at hpasses

theorem Leaves.interrupt (hs : Leaves task s) (owner : Owner) (cv : ConditionVariable) :
    Leaves task { s with owner := owner, interruptCv := cv } := by
  unfold Leaves at hs ⊢
  cases hphase : s.phase <;> simp only [hphase] at hs ⊢ <;> exact hs

theorem released_step {e : Event R} (h : step task s e = some s') (hprompt : Prompt s e)
    (hs : Released task s) : Released task s' := by
  have hcoordinated := coordinated_step h hs.coordinated
  cases steps_of_step h with
  | tick elapsed => exact hs.tick hprompt
  | launch hphase =>
    have hof : Leaves task { s with phase := .unlaunched } := hphase ▸ hs.leaves
    have hzero : s.waited = 0 := hof
    refine ⟨hcoordinated, hs.running, hs.awake, hs.waited, ?_⟩
    change s.waited + (s.now + task.delay) ≤ s.now + task.delay ∧ s.now ≤ s.now + task.delay
    omega
  | awake _ _ => exact ⟨hcoordinated, hs.running, hs.awake, hs.waited, trivial⟩
  | loop _ hflag =>
    exact ⟨hcoordinated, hs.running, hs.awake, hs.waited, hs.running (not_not.mp hflag)⟩
  | leave _ _ => exact ⟨hcoordinated, hs.running, hs.awake, hs.waited, trivial⟩
  | @finish start result hphase =>
    have hof : Leaves task { s with phase := .acting start } := hphase ▸ hs.leaves
    refine ⟨hcoordinated, hs.running, hs.awake, hs.waited, ?_⟩
    unfold Leaves
    cases task.returns result with
    | false => exact hof
    | true => trivial
  | guard hphase _ =>
    have hof : Leaves task { s with phase := .acted } := hphase ▸ hs.leaves
    have hzero : s.waited = 0 := hof
    refine ⟨hcoordinated, hs.running, hs.awake, hs.waited, ?_, Nat.le_add_right _ _, fun _ => hof⟩
    simp only [hzero, Nat.zero_add]
    exact Nat.le_refl _
  | ready _ _ => exact ⟨hcoordinated, hs.running, hs.awake, hs.waited, trivial⟩
  | @unready deadline hphase _ =>
    have hof : Leaves task { s with phase := .testing deadline } := hphase ▸ hs.leaves
    exact ⟨hcoordinated, hs.running, hs.awake, hs.waited, hof⟩
  | @block deadline hphase =>
    have hof : Leaves task { s with phase := .unready deadline } := hphase ▸ hs.leaves
    refine ⟨hcoordinated, hs.running, ?_, hs.waited, hof⟩
    -- with the lock the flag is not set between the test and the wait
    intro hlocked hflag _
    exact absurd (hs.coordinated.locked hlocked _ hphase) hflag
  | wake _ => exact ⟨hcoordinated, hs.running, fun _ _ _ => rfl, hs.waited, hs.leaves⟩
  | timeout _ _ _ _ => exact ⟨hcoordinated, hs.running, hs.awake, hs.waited, trivial⟩
  | @resume deadline hphase _ _ _ =>
    have hof : Leaves task { s with phase := .inWait deadline } := hphase ▸ hs.leaves
    exact ⟨hcoordinated, hs.running, hs.awake, hs.waited, hof⟩
  | store _ _ =>
    exact ⟨hcoordinated, nofun, fun _ _ hne => absurd rfl hne, hs.waited, hs.leaves.interrupt _ _⟩
  | notify _ =>
    exact ⟨hcoordinated, nofun, fun _ _ _ => rfl, hs.waited, hs.leaves.interrupt _ _⟩
  | join howner _ =>
    refine ⟨hcoordinated, nofun, ?_, hs.waited, hs.leaves.interrupt _ _⟩
    intro hlocked _ _
    have hflag : s.Interrupted := fun ho => by cases howner.symm.trans ho
    exact hs.awake hlocked hflag (fun ho => by cases howner.symm.trans ho)

theorem waited_le {now : ℕ} {events : List (Event R)}
    (h : exec (step task) (init R now) events = some s)
    (hprompt : Meets (step task) Prompt (init R now) events) : s.waited ≤ task.longestWait := by
  have hreleased : Released task s :=
    exec_meets (fun _ _ _ hstep hp hs => released_step hstep hp hs) h hprompt (released_init now)
  exact hreleased.waited

end
end R2000Driver.PeriodicTask
