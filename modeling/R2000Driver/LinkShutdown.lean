import R2000Driver.LinkLifetime

/-!
# The commands and the end of a data link

What a link submits in every order of its threads, how long its destructor
waits, and when a task sleeps through the notification of the destructor.
-/

namespace R2000Driver.LinkLifetime
open Data PacketExtraction Http Runs LinkLoop

section
variable {L : Type} [LinkLoop.DataLink L] [PublishingLink L] {watchdogTimeout : ℕ} {s s' : State L}

def Destructor.ending : Destructor → List Command
  | stopped => [.stopScanOutput]
  | released => [.stopScanOutput, .releaseHandle]
  | _ => []

theorem Destructor.ending_of_not_joined {destructor : Destructor}
    (h : destructor.ofWatchdog ≠ .joined) : destructor.ending = [] := by
  cases destructor with
  | stopped => exact absurd rfl h
  | released => exact absurd rfl h
  | _ => rfl

theorem Destructor.ofWatchdog_running_iff {destructor : Destructor} :
    destructor.ofWatchdog = .running ↔ destructor.interruptFlag = false := by
  cases destructor <;> simp [Destructor.ofWatchdog, Destructor.interruptFlag]

structure InOrder (watchdogTimeout now : ℕ) (s : State L) : Prop where
  owner : s.watchdog.owner = s.destructor.ofWatchdog
  spaced : PeriodicTask.Spaced (watchdogTask watchdogTimeout) s.watchdog
  leaves : s.watchdog.owner = .joined → s.watchdog.phase.leaves = true
  submitting : s.submitting = true → s.watchdog.phase.isActing = true
  commands : ∃ feeds ending, s.commands = (now, .startScanOutput) ::
      (feeds.map (·, .feedWatchdog) ++ ending) ∧ ending.map Prod.snd = s.destructor.ending ∧
    PeriodicTask.OnePerAct (watchdogTask watchdogTimeout) s.watchdog s.submitting feeds

omit [LinkLoop.DataLink L] [PublishingLink L] in
theorem inOrder_init (link : L) (isWatchdogEnabled : Bool) (now : ℕ) :
    InOrder watchdogTimeout now (init link isWatchdogEnabled now) where
  owner := rfl
  spaced := PeriodicTask.spaced_init now
  leaves h := by cases h
  submitting h := by cases h
  commands := ⟨[], [], rfl, rfl, List.Pairwise.nil, fun _ ht => absurd ht List.not_mem_nil⟩

omit [LinkLoop.DataLink L] [PublishingLink L] in
theorem InOrder.idle {now : ℕ} (hs : InOrder watchdogTimeout now s)
    (hwatchdog : s'.watchdog = s.watchdog) (hsubmitting : s'.submitting = s.submitting)
    (hcommands : s'.commands = s.commands)
    (howner : s'.destructor.ofWatchdog = s.destructor.ofWatchdog)
    (hending : s'.destructor.ending = s.destructor.ending) : InOrder watchdogTimeout now s' := by
  obtain ⟨hown, hspaced, hleaves, hacting, hall⟩ := hs
  constructor
  · rw [hwatchdog, howner, hown]
  · rw [hwatchdog]
    exact hspaced
  · rw [hwatchdog]
    exact hleaves
  · rw [hwatchdog, hsubmitting]
    exact hacting
  · rw [hwatchdog, hsubmitting, hcommands, hending]
    exact hall

omit [LinkLoop.DataLink L] [PublishingLink L] in
theorem InOrder.onWatchdog {now : ℕ} {f : PeriodicTask.Event (Option RequestResult)}
    (hs : InOrder watchdogTimeout now s)
    (hf : PeriodicTask.step (watchdogTask watchdogTimeout) s.watchdog f = some s'.watchdog)
    (hsubmitting : s'.submitting = s.submitting ∨ f = .loop)
    (hacting : s'.submitting = true → s'.watchdog.phase.isActing = true)
    (hcommands : s'.commands = s.commands)
    (howner : s'.watchdog.owner = s'.destructor.ofWatchdog)
    (hending : s'.destructor.ending = s.destructor.ending) : InOrder watchdogTimeout now s' where
  owner := howner
  spaced := PeriodicTask.spaced_step hf hs.spaced
  leaves := PeriodicTask.leaves_step hf hs.leaves
  submitting := hacting
  commands := by
    obtain ⟨feeds, ending, hall, hends, htimes⟩ := hs.commands
    exact ⟨feeds, ending, hcommands.trans hall, hends.trans hending.symm,
      PeriodicTask.OnePerAct.step hf hsubmitting htimes⟩

omit [LinkLoop.DataLink L] [PublishingLink L] in
theorem InOrder.feeding {now : ℕ} (hs : InOrder watchdogTimeout now s)
    (hsubmitting : s.submitting = true) : s.destructor.ending = [] := by
  have hacting := hs.submitting hsubmitting
  apply Destructor.ending_of_not_joined
  rw [← hs.owner]
  intro hjoined
  have hleaves := hs.leaves hjoined
  cases hphase : s.watchdog.phase with
  | acting start =>
    rw [hphase] at hleaves
    cases hleaves
  | _ =>
    rw [hphase] at hacting
    cases hacting

theorem inOrder_step {now : ℕ} {e : Event} (h : step watchdogTimeout s e = some s')
    (hs : InOrder watchdogTimeout now s) : InOrder watchdogTimeout now s' := by
  have howner : ∀ {f watchdog},
      PeriodicTask.step (watchdogTask watchdogTimeout) s.watchdog f = some watchdog →
      f ≠ .store ∧ f ≠ .notify ∧ f ≠ .join → watchdog.owner = s.destructor.ofWatchdog :=
    fun hf hne => (PeriodicTask.owner_step hf hne).trans hs.owner
  have hacting : ∀ {f watchdog},
      PeriodicTask.step (watchdogTask watchdogTimeout) s.watchdog f = some watchdog →
      (∀ answer, f ≠ .finish answer) → s.submitting = true → watchdog.phase.isActing = true :=
    fun hf hne hsubmitting => PeriodicTask.isActing_step hf hne (hs.submitting hsubmitting)
  cases steps_of_step h with
  | tick hwatchdog _ =>
    exact hs.onWatchdog hwatchdog (Or.inl rfl) (hacting hwatchdog nofun) rfl
      (howner hwatchdog (by simp)) rfl
  | startScan _ _ => exact hs.idle rfl rfl rfl rfl rfl
  | launchWatchdog _ _ hwatchdog =>
    exact hs.onWatchdog hwatchdog (Or.inl rfl) (hacting hwatchdog nofun) rfl
      (howner hwatchdog (by simp)) rfl
  | launchStallMonitor _ _ _ => exact hs.idle rfl rfl rfl rfl rfl
  | passed hflag hwatchdog =>
    refine hs.onWatchdog hwatchdog (Or.inr rfl) (fun _ => ?_) rfl (howner hwatchdog (by simp)) rfl
    cases PeriodicTask.steps_of_step hwatchdog with
    | loop _ _ => rfl
    | leave _ hinterrupted => exact absurd hinterrupted hflag
  | feed hsubmitting =>
    obtain ⟨feeds, ending, hall, hends, htimes⟩ := hs.commands
    have hnil : ending = [] := List.map_eq_nil_iff.mp (hends.trans (hs.feeding hsubmitting))
    refine ⟨hs.owner, hs.spaced, hs.leaves, nofun, feeds ++ [s.watchdog.now], [], ?_, ?_, ?_⟩
    · rw [State.issue, hall, hnil]
      simp
    · exact (hs.feeding hsubmitting).symm
    · rw [hsubmitting] at htimes
      exact htimes.take hs.spaced (hs.submitting hsubmitting)
  | fed hsubmitted hwatchdog _ =>
    exact hs.onWatchdog hwatchdog (Or.inl rfl)
      (fun hsubmitting => absurd (hsubmitting.symm.trans hsubmitted) (by decide)) rfl
      (howner hwatchdog (by simp)) rfl
  | watchdog hf hne _ hwatchdog =>
    exact hs.onWatchdog hwatchdog (Or.inl rfl) (hacting hwatchdog hne) rfl
      (howner hwatchdog (PeriodicTask.ne_of_ofThread hf)) rfl
  | stallMonitor _ _ => exact hs.idle rfl rfl rfl rfl rfl
  | receive _ _ _ => exact hs.idle rfl rfl rfl rfl rfl
  | close halive => exact hs.idle rfl rfl rfl (by rw [halive]; rfl) (by rw [halive]; rfl)
  | store hclosed hwatchdog _ =>
    refine hs.onWatchdog hwatchdog (Or.inl rfl) (hacting hwatchdog nofun) rfl ?_ (by rw [hclosed]; rfl)
    cases PeriodicTask.steps_of_step hwatchdog with
    | store _ _ => rfl
  | notifyWatchdog hflagged hwatchdog =>
    refine hs.onWatchdog hwatchdog (Or.inl rfl) (hacting hwatchdog nofun) rfl ?_
      (by rw [hflagged]; rfl)
    cases PeriodicTask.steps_of_step hwatchdog with
    | notify _ => rfl
  | notifyStallMonitor hnotified _ =>
    exact hs.idle rfl rfl rfl (by rw [hnotified]; rfl) (by rw [hnotified]; rfl)
  | joinWatchdog hnotified hwatchdog =>
    refine hs.onWatchdog hwatchdog (Or.inl rfl) (hacting hwatchdog nofun) rfl ?_
      (by rw [hnotified]; rfl)
    cases PeriodicTask.steps_of_step hwatchdog with
    | join _ _ => rfl
  | joinStallMonitor hjoined _ =>
    exact hs.idle rfl rfl rfl (by rw [hjoined]; rfl) (by rw [hjoined]; rfl)
  | stopScan hjoined =>
    obtain ⟨feeds, ending, hall, hends, htimes⟩ := hs.commands
    refine ⟨?_, hs.spaced, hs.leaves, hs.submitting, feeds,
      ending ++ [(s.watchdog.now, .stopScanOutput)], ?_, ?_, htimes⟩
    · exact hs.owner.trans (by rw [hjoined]; rfl)
    · rw [State.issue, hall, List.cons_append, List.append_assoc]
    · rw [List.map_append, hends, hjoined]
      rfl
  | releaseHandle hstopped =>
    obtain ⟨feeds, ending, hall, hends, htimes⟩ := hs.commands
    refine ⟨?_, hs.spaced, hs.leaves, hs.submitting, feeds,
      ending ++ [(s.watchdog.now, .releaseHandle)], ?_, ?_, htimes⟩
    · exact hs.owner.trans (by rw [hstopped]; rfl)
    · rw [State.issue, hall, List.cons_append, List.append_assoc]
    · rw [List.map_append, hends, hstopped]
      rfl

/-- Every order of the threads submits the start, then feeds a watchdog timeout apart or more, and
then the stop and the release of the destructor. -/
theorem commands_in_order {link : L} {isWatchdogEnabled : Bool} {now : ℕ} {events : List Event}
    (h : exec (step watchdogTimeout) (init link isWatchdogEnabled now) events = some s) :
    ∃ (feeds : List ℕ) (ending : List (ℕ × Command)),
      s.commands = (now, .startScanOutput) :: (feeds.map (·, .feedWatchdog) ++ ending) ∧
      feeds.Pairwise (fun first second => first + watchdogTimeout ≤ second) ∧
      ending.map Prod.snd = s.destructor.ending := by
  have hs : InOrder watchdogTimeout now s :=
    exec_keeps (fun _ _ _ hstep hs => inOrder_step hstep hs) h (inOrder_init link _ now)
  obtain ⟨feeds, ending, hall, hends, htimes⟩ := hs.commands
  exact ⟨feeds, ending, hall, htimes.apart, hends⟩

def State.feedDue (s : State L) : List Command := if s.submitting then [.feedWatchdog] else []

structure Behind (watchdogTimeout now : ℕ) (mid s : State L) : Prop where
  order : InOrder watchdogTimeout now s
  flag : s.destructor.interruptFlag = true
  commands : ∃ feeds ending, s.commands = mid.commands ++ (feeds ++ ending) ∧
    feeds.map Prod.snd ++ s.feedDue <+: mid.feedDue ∧
    mid.destructor.ending ++ ending.map Prod.snd = s.destructor.ending

omit [LinkLoop.DataLink L] [PublishingLink L] in
theorem Behind.idle {now : ℕ} {mid : State L} (hs : Behind watchdogTimeout now mid s)
    (horder : InOrder watchdogTimeout now s') (hflag : s'.destructor.interruptFlag = true)
    (hsubmitting : s'.submitting = s.submitting) (hcommands : s'.commands = s.commands)
    (hending : s'.destructor.ending = s.destructor.ending) : Behind watchdogTimeout now mid s' := by
  refine ⟨horder, hflag, ?_⟩
  rw [hcommands, State.feedDue, hsubmitting, hending]
  exact hs.commands

theorem behind_step {now : ℕ} {mid : State L} {e : Event} (h : step watchdogTimeout s e = some s')
    (hs : Behind watchdogTimeout now mid s) : Behind watchdogTimeout now mid s' := by
  have horder := inOrder_step h hs.order
  have hinterrupted : s.watchdog.Interrupted := by
    rw [PeriodicTask.State.Interrupted, hs.order.owner, ne_eq, Destructor.ofWatchdog_running_iff,
      hs.flag]
    decide
  cases steps_of_step h with
  | passed hflag _ => exact absurd hinterrupted hflag
  | feed hsubmitting =>
    obtain ⟨feeds, ending, hall, hdue, hends⟩ := hs.commands
    obtain ⟨hmid, hnone⟩ := List.append_eq_nil_iff.mp (hends.trans (hs.order.feeding hsubmitting))
    have hnil : ending = [] := List.map_eq_nil_iff.mp hnone
    refine ⟨horder, hs.flag, feeds ++ [(s.watchdog.now, .feedWatchdog)], [], ?_, ?_, ?_⟩
    · rw [State.issue, hall, hnil]
      simp
    · rw [State.feedDue, hsubmitting, if_pos rfl] at hdue
      simpa [State.feedDue] using hdue
    · rw [hmid]
      exact (hs.order.feeding hsubmitting).symm
  | close halive => exact absurd (halive ▸ hs.flag) (by decide)
  | store hclosed _ _ => exact absurd (hclosed ▸ hs.flag) (by decide)
  | notifyWatchdog hflagged _ => exact hs.idle horder rfl rfl rfl (by rw [hflagged]; rfl)
  | notifyStallMonitor hnotified _ => exact hs.idle horder rfl rfl rfl (by rw [hnotified]; rfl)
  | joinWatchdog hnotified _ => exact hs.idle horder rfl rfl rfl (by rw [hnotified]; rfl)
  | joinStallMonitor hjoined _ => exact hs.idle horder rfl rfl rfl (by rw [hjoined]; rfl)
  | stopScan hjoined =>
    obtain ⟨feeds, ending, hall, hdue, hends⟩ := hs.commands
    refine ⟨horder, rfl, feeds, ending ++ [(s.watchdog.now, .stopScanOutput)], ?_, hdue, ?_⟩
    · simp only [State.issue, hall, List.append_assoc]
    · rw [List.map_append, ← List.append_assoc, hends, hjoined]
      rfl
  | releaseHandle hstopped =>
    obtain ⟨feeds, ending, hall, hdue, hends⟩ := hs.commands
    refine ⟨horder, rfl, feeds, ending ++ [(s.watchdog.now, .releaseHandle)], ?_, hdue, ?_⟩
    · simp only [State.issue, hall, List.append_assoc]
    · rw [List.map_append, ← List.append_assoc, hends, hstopped]
      rfl
  | _ => exact hs.idle horder hs.flag rfl rfl rfl

/-- Behind the flag the watchdog submits at most the one command for which it has passed its test
already, and the commands of the destructor follow. -/
theorem one_feed_behind_flag {link : L} {isWatchdogEnabled : Bool} {now : ℕ} {es fs : List Event}
    {mid : State L} (hes : exec (step watchdogTimeout) (init link isWatchdogEnabled now) es = some mid)
    (hflag : mid.destructor.interruptFlag = true)
    (hfs : exec (step watchdogTimeout) mid fs = some s) :
    ∃ feeds ending, s.commands = mid.commands ++ (feeds ++ ending) ∧
      feeds.map Prod.snd ++ s.feedDue <+: mid.feedDue ∧
      mid.destructor.ending ++ ending.map Prod.snd = s.destructor.ending := by
  have hmid : InOrder watchdogTimeout now mid :=
    exec_keeps (fun _ _ _ hstep hs => inOrder_step hstep hs) hes (inOrder_init link _ now)
  have hinit : Behind watchdogTimeout now mid mid :=
    ⟨hmid, hflag, [], [], by simp, List.prefix_rfl, List.append_nil _⟩
  have hs : Behind watchdogTimeout now mid s :=
    exec_keeps (fun _ _ _ hstep hb => behind_step hstep hb) hfs hinit
  exact hs.commands

def flaggedRun : List Event :=
  [.startScan (some .success), .launchWatchdog, .launchStallMonitor, .watchdog .awake,
    .watchdog .loop, .feed, .watchdog (.finish (some .success)), .close, .store]

def endingRun : List Event :=
  [.notifyWatchdog, .notifyStallMonitor, .watchdog .guard, .watchdog .testPredicate,
    .watchdog .loop, .joinWatchdog, .tick 10000, .stallMonitor .awake, .stallMonitor .loop,
    .joinStallMonitor, .stopScan, .releaseHandle]

theorem endingRun_happens :
    ∃ s : State TCPLink, exec (step 60) (init tcpLink true 0) (flaggedRun ++ endingRun) = some s :=
  Option.isSome_iff_exists.mp (by decide)

theorem commands_in_order_endingRun :
    ∃ s : State TCPLink, exec (step 60) (init tcpLink true 0) (flaggedRun ++ endingRun) = some s ∧
      ∃ (feeds : List ℕ) (ending : List (ℕ × Command)),
        s.commands = (0, .startScanOutput) :: (feeds.map (·, .feedWatchdog) ++ ending) ∧
        feeds.Pairwise (fun first second => first + 60 ≤ second) ∧
        ending.map Prod.snd = s.destructor.ending := by
  obtain ⟨s, hs⟩ := endingRun_happens
  exact ⟨s, hs, commands_in_order hs⟩

def passedRun : List Event :=
  [.startScan (some .success), .launchWatchdog, .watchdog .awake, .watchdog .loop, .close, .store]

def lateFeedRun : List Event :=
  [.notifyWatchdog, .feed, .notifyStallMonitor, .watchdog (.finish none), .watchdog .guard,
    .watchdog .testPredicate, .watchdog .loop, .joinWatchdog, .joinStallMonitor,
    .launchStallMonitor, .stopScan]

theorem one_feed_behind_flag_lateFeedRun :
    ∃ mid s : State TCPLink, exec (step 60) (init tcpLink true 0) passedRun = some mid ∧
      exec (step 60) mid lateFeedRun = some s ∧ s.commands.map Prod.snd =
        [.startScanOutput, .feedWatchdog, .stopScanOutput] ∧
      ∃ feeds ending, s.commands = mid.commands ++ (feeds ++ ending) ∧
        feeds.map Prod.snd ++ s.feedDue <+: mid.feedDue ∧
        mid.destructor.ending ++ ending.map Prod.snd = s.destructor.ending := by
  obtain ⟨s, hs⟩ : ∃ s : State TCPLink,
      exec (step 60) (init tcpLink true 0) (passedRun ++ lateFeedRun) = some s :=
    Option.isSome_iff_exists.mp (by decide)
  have hcommands : ∀ s ∈ exec (step 60) (init tcpLink true 0) (passedRun ++ lateFeedRun),
      s.commands.map Prod.snd = [.startScanOutput, .feedWatchdog, .stopScanOutput] := by decide
  have hflag : ∀ mid ∈ exec (step 60) (init tcpLink true 0) passedRun,
      mid.destructor.interruptFlag = true := by decide
  obtain ⟨mid, hes, hfs⟩ := exec_append.mp hs
  exact ⟨mid, s, hes, hfs, hcommands s hs, one_feed_behind_flag hes (hflag mid hes) hfs⟩

/-- In a prompt run the destructor waits for the feed under way, and else for one watchdog timeout
and for the ten seconds of the stall monitor at most. -/
theorem destructor_waits_at_most {link : L} {isWatchdogEnabled : Bool} {now : ℕ}
    {events : List Event}
    (h : exec (step watchdogTimeout) (init link isWatchdogEnabled now) events = some s)
    (hprompt : Meets (step watchdogTimeout) Prompt (init link isWatchdogEnabled now) events) :
    s.watchdog.waited ≤ watchdogTimeout ∧ s.stallMonitor.waited ≤ 10000 := by
  constructor
  · obtain ⟨es, hes, hmeets⟩ := prompt_watchdog h hprompt
    have hwaited := PeriodicTask.waited_le hes hmeets
    simpa [PeriodicTask.Task.longestWait, watchdogTask] using hwaited
  · obtain ⟨es, hes, hmeets⟩ := prompt_monitor h hprompt
    obtain ⟨fs, hfs, hfsMeets⟩ := StallMonitor.prompt_task hes hmeets
    have hwaited : s.stallMonitor.waited ≤ _ := PeriodicTask.waited_le hfs hfsMeets
    simpa [PeriodicTask.Task.longestWait, StallMonitor.stallMonitoringTask] using hwaited

theorem destructor_waits_at_most_endingRun :
    ∃ s : State TCPLink, exec (step 60) (init tcpLink true 0) (flaggedRun ++ endingRun) = some s ∧
      s.watchdog.waited ≤ 60 ∧ s.stallMonitor.waited ≤ 10000 := by
  obtain ⟨s, hs⟩ := endingRun_happens
  exact ⟨s, hs, destructor_waits_at_most hs (by decide)⟩

def Asleep (s : State L) : Prop :=
  PeriodicTask.Asleep s.watchdog ∨ PeriodicTask.Asleep s.stallMonitor

/-- A task begins its wait behind the notification. -/
def LosesWakeUp (s : State L) (e : Event) : Prop :=
  (e = .watchdog .block ∧ PeriodicTask.LosesWakeUp s.watchdog .block) ∨
    (e = .stallMonitor .block ∧ PeriodicTask.LosesWakeUp s.stallMonitor .block)

structure Coordinated (watchdogTimeout : ℕ) (s : State L) : Prop where
  watchdog : PeriodicTask.Coordinated (watchdogTask watchdogTimeout) s.watchdog
  stallMonitor : PeriodicTask.Coordinated StallMonitor.stallMonitoringTask s.stallMonitor

theorem watchdog_step {e : Event} (h : step watchdogTimeout s e = some s') :
    (s'.watchdog = s.watchdog ∧ e ≠ .watchdog .block) ∨
      ∃ f, PeriodicTask.step (watchdogTask watchdogTimeout) s.watchdog f = some s'.watchdog ∧
        (f = .block ↔ e = .watchdog .block) := by
  cases steps_of_step h with
  | tick hwatchdog _ => exact Or.inr ⟨_, hwatchdog, by simp⟩
  | launchWatchdog _ _ hwatchdog => exact Or.inr ⟨_, hwatchdog, by simp⟩
  | passed _ hwatchdog => exact Or.inr ⟨_, hwatchdog, by simp⟩
  | fed _ hwatchdog _ => exact Or.inr ⟨_, hwatchdog, by simp⟩
  | watchdog _ _ _ hwatchdog => exact Or.inr ⟨_, hwatchdog, by simp⟩
  | store _ hwatchdog _ => exact Or.inr ⟨_, hwatchdog, by simp⟩
  | notifyWatchdog _ hwatchdog => exact Or.inr ⟨_, hwatchdog, by simp⟩
  | joinWatchdog _ hwatchdog => exact Or.inr ⟨_, hwatchdog, by simp⟩
  | _ => exact Or.inl ⟨rfl, by simp⟩

theorem stallMonitor_step {e : Event} (h : step watchdogTimeout s e = some s') :
    (s'.stallMonitor = s.stallMonitor ∧ e ≠ .stallMonitor .block) ∨
      ∃ f, PeriodicTask.step StallMonitor.stallMonitoringTask s.stallMonitor f =
        some s'.stallMonitor ∧ (f = .block ↔ e = .stallMonitor .block) := by
  cases steps_of_step h with
  | tick _ hmonitor => exact Or.inr ⟨_, hmonitor, by simp⟩
  | launchStallMonitor _ _ hmonitor => exact Or.inr ⟨_, hmonitor, by simp⟩
  | stallMonitor _ hmonitor =>
    cases StallMonitor.steps_of_step hmonitor with
    | look htask => exact Or.inr ⟨_, htask, by simp⟩
    | task _ htask => exact Or.inr ⟨_, htask, by simp⟩
  | store _ _ hmonitor => exact Or.inr ⟨_, hmonitor, by simp⟩
  | notifyStallMonitor _ hmonitor => exact Or.inr ⟨_, hmonitor, by simp⟩
  | joinStallMonitor _ hmonitor => exact Or.inr ⟨_, hmonitor, by simp⟩
  | _ => exact Or.inl ⟨rfl, by simp⟩

theorem coordinated_step {e : Event} (h : step watchdogTimeout s e = some s')
    (hs : Coordinated watchdogTimeout s) : Coordinated watchdogTimeout s' := by
  constructor
  · rcases watchdog_step h with ⟨hsame, -⟩ | ⟨f, hf, -⟩
    · exact hsame ▸ hs.watchdog
    · exact PeriodicTask.coordinated_step hf hs.watchdog
  · rcases stallMonitor_step h with ⟨hsame, -⟩ | ⟨f, hf, -⟩
    · exact hsame ▸ hs.stallMonitor
    · exact PeriodicTask.coordinated_step hf hs.stallMonitor

theorem asleep_step_iff {e : Event} (h : step watchdogTimeout s e = some s')
    (hs : Coordinated watchdogTimeout s) (hawake : ¬ Asleep s) : Asleep s' ↔ LosesWakeUp s e := by
  obtain ⟨hwatchdog, hmonitor⟩ := not_or.mp hawake
  have hblock : ∀ {R : Type} {t : PeriodicTask.State R} {f : PeriodicTask.Event R},
      PeriodicTask.LosesWakeUp t f ↔ f = .block ∧ PeriodicTask.LosesWakeUp t .block := by
    intro R t f
    simp [PeriodicTask.LosesWakeUp]
  refine or_congr ?_ ?_
  · rcases watchdog_step h with ⟨hsame, hne⟩ | ⟨f, hf, hiff⟩
    · rw [hsame]
      simp only [hwatchdog, hne, false_and]
    · rw [PeriodicTask.asleep_step_iff hf hs.watchdog hwatchdog, hblock, hiff]
  · rcases stallMonitor_step h with ⟨hsame, hne⟩ | ⟨f, hf, hiff⟩
    · rw [hsame]
      simp only [hmonitor, hne, false_and]
    · rw [PeriodicTask.asleep_step_iff hf hs.stallMonitor hmonitor, hblock, hiff]

/-- Both tasks are awake for the end of their link in exactly the runs in which no wait begins
behind the notification of the destructor. -/
theorem tasks_awake_iff {link : L} {isWatchdogEnabled : Bool} {now : ℕ} {events : List Event}
    (h : exec (step watchdogTimeout) (init link isWatchdogEnabled now) events = some s) :
    Always (step watchdogTimeout) (fun s => ¬ Asleep s) (init link isWatchdogEnabled now) events ↔
      Meets (step watchdogTimeout) (fun s e => ¬ LosesWakeUp s e) (init link isWatchdogEnabled now)
        events := by
  refine always_iff (I := Coordinated watchdogTimeout) ?_ ?_ ?_ h ?_ ?_
  · exact fun s e s' hstep hs => coordinated_step hstep hs
  · exact fun s e s' hstep hlost hs hawake => mt (asleep_step_iff hstep hs hawake).mp hlost
  · intro s e s' hstep hlost hs hawake
    exact not_not.mpr ((asleep_step_iff hstep hs hawake).mpr hlost)
  · exact ⟨PeriodicTask.coordinated_init now, PeriodicTask.coordinated_init now⟩
  · exact not_or.mpr ⟨ConditionVariable.not_stranded_of_unblocked rfl,
      ConditionVariable.not_stranded_of_unblocked rfl⟩

def lateWaitRun : List Event :=
  [.startScan (some .success), .launchWatchdog, .watchdog .awake, .watchdog .loop, .feed,
    .watchdog (.finish (some .success)), .watchdog .guard, .watchdog .testPredicate, .close, .store,
    .notifyWatchdog, .watchdog .block]

theorem tasks_awake_iff_lateWaitRun :
    Always (step 60) (fun s : State TCPLink => ¬ Asleep s) (init tcpLink true 0) lateWaitRun ↔
      Meets (step 60) (fun s e => ¬ LosesWakeUp s e) (init tcpLink true 0) lateWaitRun := by
  obtain ⟨s, hs⟩ : ∃ s, exec (step 60) (init tcpLink true 0) lateWaitRun = some s :=
    Option.isSome_iff_exists.mp (by decide)
  exact tasks_awake_iff hs

end
end R2000Driver.LinkLifetime
