import R2000Driver.PromptTask

/-!
# The stall monitor of a data link

`stallMonitoringTask` looks at the link after ten seconds and then every three:
when the link is alive and its last scan is six seconds old, the link is
stalled and the task ends. The scans and the flag of the connection change
beside it. A link without a scan holds the empty one, whose timestamp is zero.

A look reads the last scan, the clock and the flag one after the other. Here the
three reads are one step: a scan or a change of the flag that comes between them
is left out.

Times are in milliseconds of the steady clock.
-/

namespace R2000Driver.StallMonitor
open Runs

/-- The sleep before the loop, the wait of three seconds, and the return on a stalled link. -/
def stallMonitoringTask : PeriodicTask.Task Bool where
  delay := 10000
  period := 3000
  locked := false
  returns := id

structure State where
  task : PeriodicTask.State Bool
  lastReceivedScanTimestamp : ℕ
  isAlive : Bool
  isDataLinkStalled : Bool
  deriving DecidableEq, Repr

def init (now : ℕ) : State where
  task := PeriodicTask.init Bool now
  lastReceivedScanTimestamp := 0
  isAlive := true
  isDataLinkStalled := false

inductive Event
  | task (e : PeriodicTask.Event Bool)
  | scanReceived (timestamp : ℕ)
  | setConnected (connected : Bool)
  deriving DecidableEq, Repr

def State.stalls (s : State) : Bool :=
  s.isAlive && decide (s.lastReceivedScanTimestamp + 6000 ≤ s.task.now)

def step (s : State) : Event → Option State
  | .task (.finish found) =>
    if found = s.stalls then
      (PeriodicTask.step stallMonitoringTask s.task (.finish found)).map fun task =>
        { s with task := task, isDataLinkStalled := s.isDataLinkStalled || found }
    else none
  | .task e =>
    (PeriodicTask.step stallMonitoringTask s.task e).map fun task => { s with task := task }
  | .scanReceived timestamp =>
    if timestamp ≤ s.task.now then some { s with lastReceivedScanTimestamp := timestamp } else none
  | .setConnected connected => some { s with isAlive := connected }

inductive Steps (s : State) : Event → State → Prop
  | look {task : PeriodicTask.State Bool} :
      PeriodicTask.step stallMonitoringTask s.task (.finish s.stalls) = some task →
      Steps s (.task (.finish s.stalls)) { s with
        task := task
        isDataLinkStalled := s.isDataLinkStalled || s.stalls }
  | task {e : PeriodicTask.Event Bool} {task : PeriodicTask.State Bool} :
      (∀ found, e ≠ .finish found) → PeriodicTask.step stallMonitoringTask s.task e = some task →
      Steps s (.task e) { s with task := task }
  | scanReceived (timestamp : ℕ) : timestamp ≤ s.task.now →
      Steps s (.scanReceived timestamp) { s with lastReceivedScanTimestamp := timestamp }
  | setConnected (connected : Bool) :
      Steps s (.setConnected connected) { s with isAlive := connected }

variable {s s' : State}

theorem steps_of_step {e : Event} (h : step s e = some s') : Steps s e s' := by
  cases e with
  | task e =>
    by_cases hfinish : ∃ found, e = .finish found
    · obtain ⟨found, rfl⟩ := hfinish
      obtain ⟨rfl, hs'⟩ := Option.ite_none_right_eq_some.mp h
      obtain ⟨task, htask, rfl⟩ := Option.map_eq_some_iff.mp hs'
      exact .look htask
    · have hother : step s (.task e) =
          (PeriodicTask.step stallMonitoringTask s.task e).map fun task => { s with task := task } := by
        cases e with
        | finish found => exact absurd ⟨found, rfl⟩ hfinish
        | _ => rfl
      rw [hother] at h
      obtain ⟨task, htask, rfl⟩ := Option.map_eq_some_iff.mp h
      exact .task (fun found he => hfinish ⟨found, he⟩) htask
  | scanReceived timestamp =>
    obtain ⟨hle, hs'⟩ := Option.ite_none_right_eq_some.mp h
    cases hs'
    exact .scanReceived timestamp hle
  | setConnected connected =>
    cases h
    exact .setConnected connected

theorem task_of_step {e : Event} (h : step s e = some s') :
    ∃ es, exec (PeriodicTask.step stallMonitoringTask) s.task es = some s'.task := by
  cases steps_of_step h with
  | look htask => exact ⟨_, exec_single htask⟩
  | task _ htask => exact ⟨_, exec_single htask⟩
  | scanReceived _ _ => exact ⟨[], rfl⟩
  | setConnected _ => exact ⟨[], rfl⟩

theorem exec_task {events : List Event} (h : exec step s events = some s') :
    ∃ es, exec (PeriodicTask.step stallMonitoringTask) s.task es = some s'.task :=
  exec_part State.task (fun _ _ _ hstep => task_of_step hstep) h

theorem stalled_step_iff {e : Event} (h : step s e = some s') :
    s'.isDataLinkStalled = true ↔ s.isDataLinkStalled = true ∨ e = .task (.finish true) := by
  cases steps_of_step h with
  | look _ =>
    simp only [Bool.or_eq_true, Event.task.injEq, PeriodicTask.Event.finish.injEq]
  | task he _ =>
    simp only [Event.task.injEq, he true, or_false]
  | scanReceived _ _ => simp only [reduceCtorEq, or_false]
  | setConnected _ => simp only [reduceCtorEq, or_false]

theorem stalls_of_finish (h : step s (.task (.finish true)) = some s') :
    s.stalls = true ∧ ∃ start, s.task.phase = .acting start := by
  obtain ⟨hfound, hs'⟩ := Option.ite_none_right_eq_some.mp h
  obtain ⟨task, htask, -⟩ := Option.map_eq_some_iff.mp hs'
  cases PeriodicTask.steps_of_step htask with
  | finish _ hphase => exact ⟨hfound.symm, _, hphase⟩

/-- A link is stalled when some look has found it alive with a scan of six seconds ago or more,
ten seconds after its construction or later, and then it stays so. -/
theorem isStalled_iff {now : ℕ} {events : List Event} (h : exec step (init now) events = some s) :
    s.isDataLinkStalled = true ↔ ∃ es fs mid, events = es ++ .task (.finish true) :: fs ∧
      exec step (init now) es = some mid ∧ mid.isAlive = true ∧
      mid.lastReceivedScanTimestamp + 6000 ≤ mid.task.now ∧ now + 10000 ≤ mid.task.now := by
  rw [reached_iff (P := fun s : State => s.isDataLinkStalled = true)
    (fun _ _ _ hstep => stalled_step_iff hstep) h]
  constructor
  · rintro (hinit | ⟨es, e, fs, mid, rfl, hes, rfl⟩)
    · cases hinit
    · obtain ⟨mid', hmid', hrest⟩ := exec_append.mp h
      obtain rfl : mid = mid' := Option.some.inj (hes.symm.trans hmid')
      obtain ⟨next, hnext, -⟩ := exec_cons.mp hrest
      obtain ⟨hstalls, start, hphase⟩ := stalls_of_finish hnext
      obtain ⟨halive, hold⟩ := Bool.and_eq_true_iff.mp hstalls
      obtain ⟨taskEvents, htask⟩ := exec_task hes
      exact ⟨es, fs, mid, rfl, hes, halive, of_decide_eq_true hold,
        (PeriodicTask.begun htask).acting hphase⟩
  · rintro ⟨es, fs, mid, rfl, hes, -⟩
    exact Or.inr ⟨es, _, fs, mid, rfl, hes, rfl⟩

def firstLook : List Event :=
  [.task .launch, .task (.tick 10000), .task .awake, .task .loop, .task (.finish true)]

theorem isStalled_iff_firstLook :
    ∃ s, exec step (init 0) firstLook = some s ∧ (s.isDataLinkStalled = true ↔
      ∃ es fs mid, firstLook = es ++ .task (.finish true) :: fs ∧
        exec step (init 0) es = some mid ∧ mid.isAlive = true ∧
        mid.lastReceivedScanTimestamp + 6000 ≤ mid.task.now ∧ 0 + 10000 ≤ mid.task.now) :=
  ⟨⟨⟨10000, .ended, .running, ⟨false, 0⟩, [⟨10000, 10000, true⟩], 0, 0⟩, 0, true, true⟩, by decide,
    isStalled_iff (by decide)⟩

/-- Time passes as for the task, and not during a look. -/
def Prompt (s : State) : Event → Prop
  | .task e => PeriodicTask.Prompt s.task e ∧ PeriodicTask.Instant s.task e
  | .scanReceived _ => True
  | .setConnected _ => True

def Silent : Event → Prop
  | .task e => e ≠ .store
  | .scanReceived _ => False
  | .setConnected connected => connected = true

instance (s : State) (e : Event) : Decidable (Prompt s e) := by
  unfold Prompt
  split <;> infer_instance

instance (e : Event) : Decidable (Silent e) := by
  unfold Silent
  split <;> infer_instance

theorem prompt_task {events : List Event} (h : exec step s events = some s')
    (hprompt : Meets step Prompt s events) :
    ∃ es, exec (PeriodicTask.step stallMonitoringTask) s.task es = some s'.task ∧
      Meets (PeriodicTask.step stallMonitoringTask) PeriodicTask.Prompt s.task es := by
  refine exec_part_meets State.task (fun _ _ _ hstep hp => ?_) h hprompt
  cases steps_of_step hstep with
  | look htask => exact ⟨_, exec_single htask, hp.1, fun _ _ => trivial⟩
  | task _ htask => exact ⟨_, exec_single htask, hp.1, fun _ _ => trivial⟩
  | scanReceived _ _ => exact ⟨[], rfl, trivial⟩
  | setConnected _ => exact ⟨[], rfl, trivial⟩

structure Timely (s : State) : Prop where
  spaced : PeriodicTask.Spaced stallMonitoringTask s.task
  onTime : PeriodicTask.OnTime stallMonitoringTask s.task
  acting : ∀ start, s.task.phase = .acting start → s.task.now = start
  lastReceived : s.lastReceivedScanTimestamp ≤ s.task.now
  ended : s.task.phase = .ended → s.task.Interrupted ∨ s.isDataLinkStalled = true

theorem timely_init (now : ℕ) : Timely (init now) where
  spaced := PeriodicTask.spaced_init now
  onTime := PeriodicTask.onTime_init now
  acting start h := by cases h
  lastReceived := Nat.zero_le _
  ended h := by cases h

theorem timely_step {e : Event} (h : step s e = some s') (hprompt : Prompt s e) (hs : Timely s) :
    Timely s' := by
  cases steps_of_step h with
  | look htask =>
    refine ⟨PeriodicTask.spaced_step htask hs.spaced,
      PeriodicTask.onTime_step htask hprompt.1 hs.onTime,
      PeriodicTask.acting_step htask hprompt.2 hs.acting,
      hs.lastReceived.trans (PeriodicTask.now_le_step htask), ?_⟩
    intro hended
    right
    cases PeriodicTask.steps_of_step htask with
    | finish _ _ =>
      -- the task goes on behind a look that finds nothing
      cases hstalls : s.stalls with
      | true => simp
      | false => simp [hstalls, stallMonitoringTask] at hended
  | @task e _ he htask =>
    refine ⟨PeriodicTask.spaced_step htask hs.spaced,
      PeriodicTask.onTime_step htask hprompt.1 hs.onTime,
      PeriodicTask.acting_step htask hprompt.2 hs.acting,
      hs.lastReceived.trans (PeriodicTask.now_le_step htask), ?_⟩
    intro hended
    have hflag : s.task.Interrupted ∨ s.isDataLinkStalled = true := by
      rcases PeriodicTask.ended_step htask he hended with hended | hflag
      · exact hs.ended hended
      · exact Or.inl hflag
    exact hflag.imp_left (PeriodicTask.interrupted_step htask)
  | scanReceived _ hle => exact ⟨hs.spaced, hs.onTime, hs.acting, hle, hs.ended⟩
  | setConnected _ => exact ⟨hs.spaced, hs.onTime, hs.acting, hs.lastReceived, hs.ended⟩

structure Watched (since : ℕ) (s : State) : Prop where
  timely : Timely s
  alive : s.isAlive = true
  lastReceived : s.lastReceivedScanTimestamp ≤ since
  running : s.task.owner = .running
  looked : s.isDataLinkStalled = true ∨ ∀ a ∈ s.task.acts, a.finish < since + 6000

theorem watched_step {since : ℕ} {e : Event} (h : step s e = some s') (hprompt : Prompt s e)
    (hsilent : Silent e) (hs : Watched since s) : Watched since s' := by
  have htimely := timely_step h hprompt hs.timely
  cases steps_of_step h with
  | look htask =>
    refine ⟨htimely, hs.alive, hs.lastReceived,
      PeriodicTask.running_step htask nofun hs.running, ?_⟩
    cases hstalls : s.stalls with
    | true => simp
    | false =>
      have hrecent : s.task.now < s.lastReceivedScanTimestamp + 6000 := by
        simpa [State.stalls, hs.alive] using hstalls
      cases PeriodicTask.steps_of_step htask with
      | @finish start _ hphase =>
        refine hs.looked.imp (fun hstalled => by simp [hstalled]) fun hlooked => ?_
        intro a ha
        rcases List.mem_append.mp ha with ha | ha
        · exact hlooked a ha
        · rw [List.mem_singleton] at ha
          subst ha
          exact hrecent.trans_le (Nat.add_le_add_right hs.lastReceived _)
  | @task e _ he htask =>
    refine ⟨htimely, hs.alive, hs.lastReceived, ?_, ?_⟩
    · exact PeriodicTask.running_step htask hsilent hs.running
    · simp only [PeriodicTask.acts_step htask he]
      exact hs.looked
  | scanReceived _ _ => exact hsilent.elim
  | setConnected connected => exact ⟨htimely, hsilent, hs.lastReceived, hs.running, hs.looked⟩

theorem Watched.stalled {since : ℕ} (hs : Watched since s) (hlaunched : s.task.phase ≠ .unlaunched)
    (hdelay : s.task.launched + 10000 < s.task.now) (hlate : since + 9000 ≤ s.task.now) :
    s.isDataLinkStalled = true := by
  by_contra hnot
  have hlooked := hs.looked.resolve_left hnot
  have hended : s.task.phase ≠ .ended := by
    intro hended
    rcases hs.timely.ended hended with hflag | hstalled
    · exact hflag hs.running
    · exact hnot hstalled
  have hdue := hs.timely.onTime.now_le_due hs.running hlaunched hended hs.timely.acting
  have hlt : s.task.due stallMonitoringTask < s.task.now := by
    refine PeriodicTask.nextStart_lt hdelay fun a ha => ?_
    have hfinish := hlooked a ha
    simp only [stallMonitoringTask]
    omega
  exact absurd hdue (Nat.not_le_of_lt hlt)

theorem stall_found {now : ℕ} {es fs : List Event} {mid : State}
    (hes : exec step (init now) es = some mid) (hfs : exec step mid fs = some s)
    (hprompt : Meets step Prompt (init now) (es ++ fs))
    (halive : mid.isAlive = true) (hrunning : mid.task.owner = .running)
    (hsilent : Meets step (fun _ e => Silent e) mid fs) (hlaunched : s.task.phase ≠ .unlaunched)
    (hdelay : s.task.launched + 10000 < s.task.now) (hlate : mid.task.now + 9000 ≤ s.task.now) :
    s.isDataLinkStalled = true := by
  have htimely : Timely mid :=
    exec_meets (fun _ _ _ hstep hp ht => timely_step hstep hp ht) hes hprompt.left (timely_init now)
  have hwatched : Watched mid.task.now mid := by
    refine ⟨htimely, halive, htimely.lastReceived, hrunning, Or.inr ?_⟩
    intro a ha
    have hfinish := (htimely.spaced.within a ha).2
    omega
  have hboth : Meets step (fun s e => Prompt s e ∧ Silent e) mid fs :=
    (hprompt.right hes).and hsilent
  have hs : Watched mid.task.now s :=
    exec_meets (fun _ _ _ hstep hp hw => watched_step hstep hp.1 hp.2 hw) hfs hboth hwatched
  exact hs.stalled hlaunched hdelay hlate

end R2000Driver.StallMonitor
