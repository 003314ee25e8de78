import R2000Driver.LinkLoop
import R2000Driver.StallMonitor

/-!
# A data link with its tasks, to the end of its destructor

The threads of a link together: the callback of the start-scan command, the
watchdog, the stall monitor, the receive side, and the thread that destroys the
link. The callback launches one task after the other, at any time before the
link is gone. The watchdog tests the flag (`loop`) and submits its command
(`feed`) in two steps, with no lock. The destructor of the derived class ends
the receive side (`close`); the one of the base class sets the flag, notifies
and joins the watchdog and the monitor, stops the scan output and releases the
handle. It does not wait for a task that has not been launched.

A future is stored in the step that launches its task: a destructor that tests
`valid()` while the callback stores the future, which nothing orders, is left
out.

`commands` holds the commands in the order of their submission, with its times,
and is read by the statements only.
-/

namespace R2000Driver.LinkLifetime
open Data PacketExtraction Http Runs LinkLoop
open LinkLoop.DataLink (isConnected)

class PublishingLink (L : Type) where
  scanCounter : L → ℕ

instance : PublishingLink TCPLink where
  scanCounter link := link.published.length

instance : PublishingLink UDPLink where
  scanCounter link := link.published.length

def watchdogTask (watchdogTimeout : ℕ) : PeriodicTask.Task (Option RequestResult) where
  delay := 0
  period := watchdogTimeout
  locked := false
  returns _ := false

inductive Command
  | startScanOutput
  | feedWatchdog
  | stopScanOutput
  | releaseHandle
  deriving DecidableEq, Repr

inductive Destructor
  | alive
  | closed
  | flagged
  | watchdogNotified
  | notified
  | watchdogJoined
  | joined
  | stopped
  | released
  deriving DecidableEq, Repr

def Destructor.interruptFlag : Destructor → Bool
  | alive => false
  | closed => false
  | _ => true

def Destructor.ofWatchdog : Destructor → PeriodicTask.Owner
  | alive => .running
  | closed => .running
  | flagged => .flagged
  | watchdogNotified => .notified
  | notified => .notified
  | watchdogJoined => .joined
  | joined => .joined
  | stopped => .joined
  | released => .joined

def Destructor.ofStallMonitor : Destructor → PeriodicTask.Owner
  | alive => .running
  | closed => .running
  | flagged => .flagged
  | watchdogNotified => .flagged
  | notified => .notified
  | watchdogJoined => .notified
  | joined => .joined
  | stopped => .joined
  | released => .joined

inductive Launching
  | nothing
  | watchdog
  | stallMonitor
  deriving DecidableEq, Repr

structure State (L : Type) where
  loop : LinkLoop.State L
  launching : Launching
  watchdog : PeriodicTask.State (Option RequestResult)
  /-- The watchdog has tested the flag and not yet submitted its command. -/
  submitting : Bool
  stallMonitor : PeriodicTask.State Bool
  lastReceivedScanTimestamp : ℕ
  isDataLinkStalled : Bool
  destructor : Destructor
  commands : List (ℕ × Command)

inductive Event
  | tick (elapsed : ℕ)
  | startScan (answer : Option RequestResult)
  | launchWatchdog
  | launchStallMonitor
  | watchdog (e : PeriodicTask.Event (Option RequestResult))
  | feed
  | stallMonitor (e : PeriodicTask.Event Bool)
  | receive (e : LinkLoop.Event)
  | close
  | store
  | notifyWatchdog
  | notifyStallMonitor
  | joinWatchdog
  | joinStallMonitor
  | stopScan
  | releaseHandle
  deriving DecidableEq, Repr

def ofReceiver : LinkLoop.Event → Bool
  | .startScan _ => false
  | .watchdog _ => false
  | .resolve => true
  | .resolved _ => true
  | .connected _ => true
  | .retry => true
  | .setUp _ => true
  | .readError => true
  | .bytesReceived _ => true

section
variable {L : Type} [LinkLoop.DataLink L] [PublishingLink L]
open PublishingLink

def init (link : L) (isWatchdogEnabled : Bool) (now : ℕ) : State L where
  loop := LinkLoop.init link isWatchdogEnabled
  launching := .nothing
  watchdog := PeriodicTask.init _ now
  submitting := false
  stallMonitor := PeriodicTask.init _ now
  lastReceivedScanTimestamp := 0
  isDataLinkStalled := false
  destructor := .alive
  commands := [(now, .startScanOutput)]

def State.monitor (s : State L) : StallMonitor.State where
  task := s.stallMonitor
  lastReceivedScanTimestamp := s.lastReceivedScanTimestamp
  isAlive := isConnected s.loop.link
  isDataLinkStalled := s.isDataLinkStalled

def State.onWatchdog (watchdogTimeout : ℕ) (s : State L)
    (e : PeriodicTask.Event (Option RequestResult)) : Option (State L) :=
  (PeriodicTask.step (watchdogTask watchdogTimeout) s.watchdog e).map fun watchdog =>
    { s with watchdog := watchdog }

def State.onStallMonitor (s : State L) (e : PeriodicTask.Event Bool) : Option (State L) :=
  (PeriodicTask.step StallMonitor.stallMonitoringTask s.stallMonitor e).map fun stallMonitor =>
    { s with stallMonitor := stallMonitor }

def State.launches (s : State L) (answer : Option RequestResult) : Launching :=
  if answer = some .success then if s.loop.isWatchdogEnabled then .watchdog else .stallMonitor
  else .nothing

def State.issue (s : State L) (command : Command) : State L :=
  { s with commands := s.commands ++ [(s.watchdog.now, command)] }

def step (watchdogTimeout : ℕ) (s : State L) : Event → Option (State L)
  | .tick elapsed =>
    (s.onWatchdog watchdogTimeout (.tick elapsed)).bind fun s => s.onStallMonitor (.tick elapsed)
  | .startScan answer =>
    if s.destructor = .released then none
    else
      (LinkLoop.step s.loop (.startScan answer)).map fun loop =>
        { s with loop := loop, launching := s.launches answer }
  | .launchWatchdog =>
    if s.launching = .watchdog ∧ s.destructor ≠ .released then
      (s.onWatchdog watchdogTimeout .launch).map fun s => { s with launching := .stallMonitor }
    else none
  | .launchStallMonitor =>
    if s.launching = .stallMonitor ∧ s.destructor ≠ .released then
      (s.onStallMonitor .launch).map fun s => { s with launching := .nothing }
    else none
  | .watchdog (.finish answer) =>
    if s.submitting then none
    else
      (s.onWatchdog watchdogTimeout (.finish answer)).bind fun s =>
        (LinkLoop.step s.loop (.watchdog answer)).map fun loop => { s with loop := loop }
  | .watchdog .loop =>
    if s.watchdog.Interrupted then s.onWatchdog watchdogTimeout .loop
    else (s.onWatchdog watchdogTimeout .loop).map fun s => { s with submitting := true }
  | .watchdog e => if e.ofThread then s.onWatchdog watchdogTimeout e else none
  | .feed =>
    if s.submitting then some { s.issue .feedWatchdog with submitting := false } else none
  | .stallMonitor e =>
    if e.ofThread then
      (StallMonitor.step s.monitor (.task e)).map fun monitor =>
        { s with stallMonitor := monitor.task, isDataLinkStalled := monitor.isDataLinkStalled }
    else none
  | .receive e =>
    if s.destructor = .alive ∧ ofReceiver e then
      (LinkLoop.step s.loop e).map fun loop =>
        { s with
          loop := loop
          lastReceivedScanTimestamp :=
            if scanCounter loop.link = scanCounter s.loop.link then s.lastReceivedScanTimestamp
            else s.stallMonitor.now }
    else none
  | .close => if s.destructor = .alive then some { s with destructor := .closed } else none
  | .store =>
    if s.destructor = .closed then
      (s.onWatchdog watchdogTimeout .store).bind fun s =>
        (s.onStallMonitor .store).map fun s => { s with destructor := .flagged }
    else none
  | .notifyWatchdog =>
    if s.destructor = .flagged then
      (s.onWatchdog watchdogTimeout .notify).map fun s => { s with destructor := .watchdogNotified }
    else none
  | .notifyStallMonitor =>
    if s.destructor = .watchdogNotified then
      (s.onStallMonitor .notify).map fun s => { s with destructor := .notified }
    else none
  | .joinWatchdog =>
    if s.destructor = .notified then
      (s.onWatchdog watchdogTimeout .join).map fun s => { s with destructor := .watchdogJoined }
    else none
  | .joinStallMonitor =>
    if s.destructor = .watchdogJoined then
      (s.onStallMonitor .join).map fun s => { s with destructor := .joined }
    else none
  | .stopScan =>
    if s.destructor = .joined then some { s.issue .stopScanOutput with destructor := .stopped }
    else none
  | .releaseHandle =>
    if s.destructor = .stopped then some { s.issue .releaseHandle with destructor := .released }
    else none

inductive Steps (watchdogTimeout : ℕ) (s : State L) : Event → State L → Prop
  | tick {elapsed watchdog stallMonitor} :
      PeriodicTask.step (watchdogTask watchdogTimeout) s.watchdog (.tick elapsed) = some watchdog →
      PeriodicTask.step StallMonitor.stallMonitoringTask s.stallMonitor (.tick elapsed) =
        some stallMonitor →
      Steps watchdogTimeout s (.tick elapsed)
        { s with watchdog := watchdog, stallMonitor := stallMonitor }
  | startScan {answer loop} : s.destructor ≠ .released →
      LinkLoop.step s.loop (.startScan answer) = some loop →
      Steps watchdogTimeout s (.startScan answer)
        { s with loop := loop, launching := s.launches answer }
  | launchWatchdog {watchdog} : s.launching = .watchdog → s.destructor ≠ .released →
      PeriodicTask.step (watchdogTask watchdogTimeout) s.watchdog .launch = some watchdog →
      Steps watchdogTimeout s .launchWatchdog
        { s with watchdog := watchdog, launching := .stallMonitor }
  | launchStallMonitor {stallMonitor} : s.launching = .stallMonitor → s.destructor ≠ .released →
      PeriodicTask.step StallMonitor.stallMonitoringTask s.stallMonitor .launch =
        some stallMonitor →
      Steps watchdogTimeout s .launchStallMonitor
        { s with stallMonitor := stallMonitor, launching := .nothing }
  | passed {watchdog} : ¬ s.watchdog.Interrupted →
      PeriodicTask.step (watchdogTask watchdogTimeout) s.watchdog .loop = some watchdog →
      Steps watchdogTimeout s (.watchdog .loop) { s with watchdog := watchdog, submitting := true }
  | feed : s.submitting = true →
      Steps watchdogTimeout s .feed { s.issue .feedWatchdog with submitting := false }
  | fed {answer watchdog loop} : s.submitting = false →
      PeriodicTask.step (watchdogTask watchdogTimeout) s.watchdog (.finish answer) = some watchdog →
      LinkLoop.step s.loop (.watchdog answer) = some loop →
      Steps watchdogTimeout s (.watchdog (.finish answer))
        { s with watchdog := watchdog, loop := loop }
  | watchdog {e watchdog} : e.ofThread = true → (∀ answer, e ≠ .finish answer) →
      (e = .loop → s.watchdog.Interrupted) →
      PeriodicTask.step (watchdogTask watchdogTimeout) s.watchdog e = some watchdog →
      Steps watchdogTimeout s (.watchdog e) { s with watchdog := watchdog }
  | stallMonitor {e monitor} : e.ofThread = true →
      StallMonitor.step s.monitor (.task e) = some monitor →
      Steps watchdogTimeout s (.stallMonitor e)
        { s with stallMonitor := monitor.task, isDataLinkStalled := monitor.isDataLinkStalled }
  | receive {e loop} : s.destructor = .alive → ofReceiver e = true →
      LinkLoop.step s.loop e = some loop →
      Steps watchdogTimeout s (.receive e) { s with
        loop := loop
        lastReceivedScanTimestamp :=
          if scanCounter loop.link = scanCounter s.loop.link then s.lastReceivedScanTimestamp
          else s.stallMonitor.now }
  | close : s.destructor = .alive →
      Steps watchdogTimeout s .close { s with destructor := .closed }
  | store {watchdog stallMonitor} : s.destructor = .closed →
      PeriodicTask.step (watchdogTask watchdogTimeout) s.watchdog .store = some watchdog →
      PeriodicTask.step StallMonitor.stallMonitoringTask s.stallMonitor .store =
        some stallMonitor →
      Steps watchdogTimeout s .store
        { s with watchdog := watchdog, stallMonitor := stallMonitor, destructor := .flagged }
  | notifyWatchdog {watchdog} : s.destructor = .flagged →
      PeriodicTask.step (watchdogTask watchdogTimeout) s.watchdog .notify = some watchdog →
      Steps watchdogTimeout s .notifyWatchdog
        { s with watchdog := watchdog, destructor := .watchdogNotified }
  | notifyStallMonitor {stallMonitor} : s.destructor = .watchdogNotified →
      PeriodicTask.step StallMonitor.stallMonitoringTask s.stallMonitor .notify =
        some stallMonitor →
      Steps watchdogTimeout s .notifyStallMonitor
        { s with stallMonitor := stallMonitor, destructor := .notified }
  | joinWatchdog {watchdog} : s.destructor = .notified →
      PeriodicTask.step (watchdogTask watchdogTimeout) s.watchdog .join = some watchdog →
      Steps watchdogTimeout s .joinWatchdog
        { s with watchdog := watchdog, destructor := .watchdogJoined }
  | joinStallMonitor {stallMonitor} : s.destructor = .watchdogJoined →
      PeriodicTask.step StallMonitor.stallMonitoringTask s.stallMonitor .join =
        some stallMonitor →
      Steps watchdogTimeout s .joinStallMonitor
        { s with stallMonitor := stallMonitor, destructor := .joined }
  | stopScan : s.destructor = .joined →
      Steps watchdogTimeout s .stopScan { s.issue .stopScanOutput with destructor := .stopped }
  | releaseHandle : s.destructor = .stopped →
      Steps watchdogTimeout s .releaseHandle { s.issue .releaseHandle with destructor := .released }

variable {watchdogTimeout : ℕ} {s s' : State L}

omit [LinkLoop.DataLink L] [PublishingLink L] in
theorem onWatchdog_inv {e : PeriodicTask.Event (Option RequestResult)}
    (h : s.onWatchdog watchdogTimeout e = some s') :
    ∃ watchdog, PeriodicTask.step (watchdogTask watchdogTimeout) s.watchdog e = some watchdog ∧
      s' = { s with watchdog := watchdog } := by
  obtain ⟨watchdog, hwatchdog, rfl⟩ := Option.map_eq_some_iff.mp h
  exact ⟨watchdog, hwatchdog, rfl⟩

omit [LinkLoop.DataLink L] [PublishingLink L] in
theorem onStallMonitor_inv {e : PeriodicTask.Event Bool} (h : s.onStallMonitor e = some s') :
    ∃ stallMonitor,
      PeriodicTask.step StallMonitor.stallMonitoringTask s.stallMonitor e = some stallMonitor ∧
      s' = { s with stallMonitor := stallMonitor } := by
  obtain ⟨stallMonitor, hmonitor, rfl⟩ := Option.map_eq_some_iff.mp h
  exact ⟨stallMonitor, hmonitor, rfl⟩

theorem steps_of_watchdog {e : PeriodicTask.Event (Option RequestResult)}
    (h : step watchdogTimeout s (.watchdog e) = some s') : Steps watchdogTimeout s (.watchdog e) s' := by
  have hother : (∀ answer, e ≠ .finish answer) → e ≠ .loop →
      step watchdogTimeout s (.watchdog e) =
        if e.ofThread then s.onWatchdog watchdogTimeout e else none := by
    intro hfinish hloop
    cases e with
    | finish answer => exact absurd rfl (hfinish answer)
    | loop => exact absurd rfl hloop
    | _ => rfl
  by_cases hfinish : ∃ answer, e = .finish answer
  · obtain ⟨answer, rfl⟩ := hfinish
    obtain ⟨hsubmitted, hs'⟩ := Option.ite_none_left_eq_some.mp h
    obtain ⟨next, hnext, hrest⟩ := Option.bind_eq_some_iff.mp hs'
    obtain ⟨watchdog, hwatchdog, rfl⟩ := onWatchdog_inv hnext
    obtain ⟨loop, hloop, rfl⟩ := Option.map_eq_some_iff.mp hrest
    exact .fed (Bool.eq_false_iff.mpr hsubmitted) hwatchdog hloop
  have hne : ∀ answer, e ≠ .finish answer := fun answer he => hfinish ⟨answer, he⟩
  by_cases hloop : e = .loop
  · subst hloop
    rw [step] at h
    by_cases hflag : s.watchdog.Interrupted
    · rw [if_pos hflag] at h
      obtain ⟨watchdog, hwatchdog, rfl⟩ := onWatchdog_inv h
      exact .watchdog rfl hne (fun _ => hflag) hwatchdog
    · rw [if_neg hflag] at h
      obtain ⟨next, hnext, rfl⟩ := Option.map_eq_some_iff.mp h
      obtain ⟨watchdog, hwatchdog, rfl⟩ := onWatchdog_inv hnext
      exact .passed hflag hwatchdog
  · rw [hother hne hloop] at h
    obtain ⟨hthread, hs'⟩ := Option.ite_none_right_eq_some.mp h
    obtain ⟨watchdog, hwatchdog, rfl⟩ := onWatchdog_inv hs'
    exact .watchdog hthread hne (fun he => absurd he hloop) hwatchdog

theorem steps_of_destructor {e : Event} (h : step watchdogTimeout s e = some s')
    (he : e = .close ∨ e = .store ∨ e = .notifyWatchdog ∨ e = .notifyStallMonitor ∨
      e = .joinWatchdog ∨ e = .joinStallMonitor ∨ e = .stopScan ∨ e = .releaseHandle) :
    Steps watchdogTimeout s e s' := by
  rcases he with rfl | rfl | rfl | rfl | rfl | rfl | rfl | rfl
  all_goals obtain ⟨hdestructor, hs'⟩ := Option.ite_none_right_eq_some.mp h
  · cases hs'
    exact .close hdestructor
  · obtain ⟨next, hnext, hrest⟩ := Option.bind_eq_some_iff.mp hs'
    obtain ⟨watchdog, hwatchdog, rfl⟩ := onWatchdog_inv hnext
    obtain ⟨last, hlast, rfl⟩ := Option.map_eq_some_iff.mp hrest
    obtain ⟨stallMonitor, hmonitor, rfl⟩ := onStallMonitor_inv hlast
    exact .store hdestructor hwatchdog hmonitor
  · obtain ⟨next, hnext, rfl⟩ := Option.map_eq_some_iff.mp hs'
    obtain ⟨watchdog, hwatchdog, rfl⟩ := onWatchdog_inv hnext
    exact .notifyWatchdog hdestructor hwatchdog
  · obtain ⟨next, hnext, rfl⟩ := Option.map_eq_some_iff.mp hs'
    obtain ⟨stallMonitor, hmonitor, rfl⟩ := onStallMonitor_inv hnext
    exact .notifyStallMonitor hdestructor hmonitor
  · obtain ⟨next, hnext, rfl⟩ := Option.map_eq_some_iff.mp hs'
    obtain ⟨watchdog, hwatchdog, rfl⟩ := onWatchdog_inv hnext
    exact .joinWatchdog hdestructor hwatchdog
  · obtain ⟨next, hnext, rfl⟩ := Option.map_eq_some_iff.mp hs'
    obtain ⟨stallMonitor, hmonitor, rfl⟩ := onStallMonitor_inv hnext
    exact .joinStallMonitor hdestructor hmonitor
  · cases hs'
    exact .stopScan hdestructor
  · cases hs'
    exact .releaseHandle hdestructor

theorem steps_of_step {e : Event} (h : step watchdogTimeout s e = some s') :
    Steps watchdogTimeout s e s' := by
  cases e with
  | tick elapsed =>
    rw [step] at h
    obtain ⟨next, hnext, hrest⟩ := Option.bind_eq_some_iff.mp h
    obtain ⟨watchdog, hwatchdog, rfl⟩ := onWatchdog_inv hnext
    obtain ⟨stallMonitor, hmonitor, rfl⟩ := onStallMonitor_inv hrest
    exact .tick hwatchdog hmonitor
  | startScan answer =>
    obtain ⟨hdestructor, hs'⟩ := Option.ite_none_left_eq_some.mp h
    obtain ⟨loop, hloop, rfl⟩ := Option.map_eq_some_iff.mp hs'
    exact .startScan hdestructor hloop
  | launchWatchdog =>
    obtain ⟨⟨hlaunching, hdestructor⟩, hs'⟩ := Option.ite_none_right_eq_some.mp h
    obtain ⟨next, hnext, rfl⟩ := Option.map_eq_some_iff.mp hs'
    obtain ⟨watchdog, hwatchdog, rfl⟩ := onWatchdog_inv hnext
    exact .launchWatchdog hlaunching hdestructor hwatchdog
  | launchStallMonitor =>
    obtain ⟨⟨hlaunching, hdestructor⟩, hs'⟩ := Option.ite_none_right_eq_some.mp h
    obtain ⟨next, hnext, rfl⟩ := Option.map_eq_some_iff.mp hs'
    obtain ⟨stallMonitor, hmonitor, rfl⟩ := onStallMonitor_inv hnext
    exact .launchStallMonitor hlaunching hdestructor hmonitor
  | watchdog e => exact steps_of_watchdog h
  | feed =>
    obtain ⟨hsubmitting, hs'⟩ := Option.ite_none_right_eq_some.mp h
    cases hs'
    exact .feed hsubmitting
  | stallMonitor e =>
    obtain ⟨hthread, hs'⟩ := Option.ite_none_right_eq_some.mp h
    obtain ⟨monitor, hmonitor, rfl⟩ := Option.map_eq_some_iff.mp hs'
    exact .stallMonitor hthread hmonitor
  | receive e =>
    obtain ⟨⟨halive, hreceiver⟩, hs'⟩ := Option.ite_none_right_eq_some.mp h
    obtain ⟨loop, hloop, rfl⟩ := Option.map_eq_some_iff.mp hs'
    exact .receive halive hreceiver hloop
  | _ => exact steps_of_destructor h (by simp)

/-- Time passes as for both tasks, and not during a look of the stall monitor. -/
def Prompt (s : State L) : Event → Prop
  | .tick elapsed => PeriodicTask.Prompt s.watchdog (.tick elapsed) ∧
      PeriodicTask.Prompt s.stallMonitor (.tick elapsed) ∧
      PeriodicTask.Instant s.stallMonitor (.tick elapsed)
  | _ => True

instance (s : State L) (e : Event) : Decidable (Prompt s e) := by
  unfold Prompt
  split <;> infer_instance

theorem watchdog_of_step {e : Event} (h : step watchdogTimeout s e = some s') :
    ∃ es, exec (PeriodicTask.step (watchdogTask watchdogTimeout)) s.watchdog es = some s'.watchdog ∧
      (Prompt s e → Meets (PeriodicTask.step (watchdogTask watchdogTimeout)) PeriodicTask.Prompt
        s.watchdog es) := by
  have hone : ∀ {watchdog} {f : PeriodicTask.Event (Option RequestResult)},
      PeriodicTask.step (watchdogTask watchdogTimeout) s.watchdog f = some watchdog →
      (Prompt s e → PeriodicTask.Prompt s.watchdog f) →
      ∃ es, exec (PeriodicTask.step (watchdogTask watchdogTimeout)) s.watchdog es = some watchdog ∧
        (Prompt s e → Meets (PeriodicTask.step (watchdogTask watchdogTimeout)) PeriodicTask.Prompt
          s.watchdog es) := fun hstep hprompt =>
    ⟨_, exec_single hstep, fun hp => ⟨hprompt hp, fun _ _ => trivial⟩⟩
  cases steps_of_step h with
  | tick hwatchdog _ => exact hone hwatchdog And.left
  | launchWatchdog _ _ hwatchdog => exact hone hwatchdog fun _ => Or.inl rfl
  | passed _ hwatchdog => exact hone hwatchdog fun _ => Or.inl rfl
  | fed _ hwatchdog _ => exact hone hwatchdog fun _ => Or.inl rfl
  | watchdog hthread _ _ hwatchdog =>
    exact hone hwatchdog fun _ => (PeriodicTask.prompt_of_ofThread hthread _).1
  | store _ hwatchdog _ => exact hone hwatchdog fun _ => Or.inl rfl
  | notifyWatchdog _ hwatchdog => exact hone hwatchdog fun _ => Or.inl rfl
  | joinWatchdog _ hwatchdog => exact hone hwatchdog fun _ => Or.inl rfl
  | _ => exact ⟨[], rfl, fun _ => trivial⟩

def Silent (watchdogTimeout : ℕ) (s : State L) (e : Event) : Prop :=
  e ≠ .store ∧ ∀ s' ∈ step watchdogTimeout s e, isConnected s'.loop.link = true ∧
    scanCounter s'.loop.link = scanCounter s.loop.link

instance (s : State L) (e : Event) : Decidable (Silent watchdogTimeout s e) :=
  inferInstanceAs (Decidable (_ ∧ _))

omit [PublishingLink L] in
theorem monitor_task {f : PeriodicTask.Event Bool} {stallMonitor : PeriodicTask.State Bool}
    (hf : ∀ found, f ≠ .finish found)
    (h : PeriodicTask.step StallMonitor.stallMonitoringTask s.stallMonitor f = some stallMonitor) :
    StallMonitor.step s.monitor (.task f) = some { s.monitor with task := stallMonitor } := by
  have hstep : StallMonitor.step s.monitor (.task f) =
      (PeriodicTask.step StallMonitor.stallMonitoringTask s.stallMonitor f).map
        fun task => { s.monitor with task := task } := by
    cases f with
    | finish found => exact absurd rfl (hf found)
    | _ => rfl
  rw [hstep, h]
  rfl

/-- What a step of the link is for the stall monitor. -/
structure Seen (watchdogTimeout : ℕ) (s s' : State L) (e : Event) (es : List StallMonitor.Event) :
    Prop where
  exec : exec StallMonitor.step s.monitor es = some s'.monitor
  prompt : Prompt s e → Meets StallMonitor.step StallMonitor.Prompt s.monitor es
  silent : Silent watchdogTimeout s e →
    Meets StallMonitor.step (fun _ e => StallMonitor.Silent e) s.monitor es

theorem Seen.one {e : Event} {f : StallMonitor.Event}
    (h : StallMonitor.step s.monitor f = some s'.monitor)
    (hprompt : Prompt s e → StallMonitor.Prompt s.monitor f)
    (hsilent : Silent watchdogTimeout s e → StallMonitor.Silent f) :
    Seen watchdogTimeout s s' e [f] :=
  ⟨exec_single h, fun hp => ⟨hprompt hp, fun _ _ => trivial⟩, fun hs => ⟨hsilent hs, fun _ _ => trivial⟩⟩

theorem Seen.cons {e : Event} {f g : StallMonitor.Event} {monitor : StallMonitor.State}
    (hf : StallMonitor.step s.monitor f = some monitor)
    (hg : StallMonitor.step monitor g = some s'.monitor)
    (hprompt : StallMonitor.Prompt s.monitor f ∧ StallMonitor.Prompt monitor g)
    (hsilent : Silent watchdogTimeout s e → StallMonitor.Silent f ∧ StallMonitor.Silent g) :
    Seen watchdogTimeout s s' e [f, g] where
  exec := exec_cons.mpr ⟨monitor, hf, exec_single hg⟩
  prompt _ := (meets_cons_iff hf).mpr ⟨hprompt.1, hprompt.2, fun _ _ => trivial⟩
  silent hs := (meets_cons_iff hf).mpr ⟨(hsilent hs).1, (hsilent hs).2, fun _ _ => trivial⟩

theorem monitor_of_step {e : Event} (h : step watchdogTimeout s e = some s') :
    ∃ es, Seen watchdogTimeout s s' e es := by
  have hconnected : Silent watchdogTimeout s e → isConnected s'.loop.link = true :=
    fun hs => (hs.2 s' h).1
  have hnothing : s'.monitor = s.monitor → ∃ es, Seen watchdogTimeout s s' e es := fun hsame =>
    ⟨[], congrArg some hsame.symm, fun _ => trivial, fun _ => trivial⟩
  have htask : ∀ {f stallMonitor},
      PeriodicTask.step StallMonitor.stallMonitoringTask s.stallMonitor f = some stallMonitor →
      s'.monitor = { s.monitor with task := stallMonitor } →
      f = .launch ∨ f = .notify ∨ f = .join → ∃ es, Seen watchdogTimeout s s' e es := by
    rintro f stallMonitor hmonitor hs' (rfl | rfl | rfl)
    all_goals exact ⟨_, Seen.one ((monitor_task (by simp) hmonitor).trans (congrArg some hs'.symm))
      (fun _ => ⟨Or.inl rfl, Or.inl rfl⟩) fun _ => by simp [StallMonitor.Silent]⟩
  have hheard : s'.monitor = { s.monitor with isAlive := isConnected s'.loop.link } →
      ∃ es, Seen watchdogTimeout s s' e es := fun hset =>
    ⟨_, Seen.one (f := .setConnected _) (congrArg some hset.symm) (fun _ => trivial) hconnected⟩
  cases steps_of_step h with
  | @tick elapsed _ _ _ hmonitor =>
    exact ⟨_, Seen.one (f := .task (.tick elapsed)) (monitor_task (by simp) hmonitor) And.right
      fun _ => by simp [StallMonitor.Silent]⟩
  | startScan _ _ => exact hheard rfl
  | launchWatchdog _ _ _ => exact hnothing rfl
  | launchStallMonitor _ _ hmonitor => exact htask hmonitor rfl (Or.inl rfl)
  | passed _ _ => exact hnothing rfl
  | feed _ => exact hnothing rfl
  | fed _ _ _ => exact hheard rfl
  | watchdog _ _ _ _ => exact hnothing rfl
  | @stallMonitor f monitor hthread hmonitor =>
    refine ⟨_, Seen.one (f := .task f) ?_ (fun _ => PeriodicTask.prompt_of_ofThread hthread _) ?_⟩
    · rw [hmonitor]
      cases StallMonitor.steps_of_step hmonitor <;> rfl
    · exact fun _ => (PeriodicTask.ne_of_ofThread hthread).1
  | @receive f loop _ _ hloop =>
    by_cases hscan : scanCounter loop.link = scanCounter s.loop.link
    · simp only [if_pos hscan] at hheard ⊢
      exact hheard rfl
    · have hf : StallMonitor.step s.monitor (.scanReceived s.stallMonitor.now) =
          some { s.monitor with lastReceivedScanTimestamp := s.stallMonitor.now } :=
        if_pos (Nat.le_refl _)
      refine ⟨_, Seen.cons (g := .setConnected (isConnected loop.link)) hf ?_ ⟨trivial, trivial⟩ ?_⟩
      · simp only [State.monitor, if_neg hscan]
        rfl
      · intro hs
        exact absurd (hs.2 _ h).2 hscan
  | close _ => exact hnothing rfl
  | store _ _ hmonitor =>
    exact ⟨_, Seen.one (f := .task .store) (monitor_task (by simp) hmonitor)
      (fun _ => ⟨Or.inl rfl, Or.inl rfl⟩) fun hs => absurd rfl hs.1⟩
  | notifyWatchdog _ _ => exact hnothing rfl
  | notifyStallMonitor _ hmonitor => exact htask hmonitor rfl (Or.inr (Or.inl rfl))
  | joinWatchdog _ _ => exact hnothing rfl
  | joinStallMonitor _ hmonitor => exact htask hmonitor rfl (Or.inr (Or.inr rfl))
  | stopScan _ => exact hnothing rfl
  | releaseHandle _ => exact hnothing rfl

theorem prompt_watchdog {events : List Event} (h : exec (step watchdogTimeout) s events = some s')
    (hprompt : Meets (step watchdogTimeout) Prompt s events) :
    ∃ es, exec (PeriodicTask.step (watchdogTask watchdogTimeout)) s.watchdog es = some s'.watchdog ∧
      Meets (PeriodicTask.step (watchdogTask watchdogTimeout)) PeriodicTask.Prompt s.watchdog es := by
  refine exec_part_meets State.watchdog (fun _ _ _ hstep hp => ?_) h hprompt
  obtain ⟨es, hes, hmeets⟩ := watchdog_of_step hstep
  exact ⟨es, hes, hmeets hp⟩

theorem prompt_monitor {events : List Event} (h : exec (step watchdogTimeout) s events = some s')
    (hprompt : Meets (step watchdogTimeout) Prompt s events) :
    ∃ es, exec StallMonitor.step s.monitor es = some s'.monitor ∧
      Meets StallMonitor.step StallMonitor.Prompt s.monitor es := by
  refine exec_part_meets State.monitor (fun _ _ _ hstep hp => ?_) h hprompt
  obtain ⟨es, hseen⟩ := monitor_of_step hstep
  exact ⟨es, hseen.exec, hseen.prompt hp⟩

theorem monitor_owner_step {e : Event} (h : step watchdogTimeout s e = some s')
    (hs : s.stallMonitor.owner = s.destructor.ofStallMonitor) :
    s'.stallMonitor.owner = s'.destructor.ofStallMonitor := by
  cases steps_of_step h with
  | tick _ hmonitor => exact (PeriodicTask.owner_step hmonitor (by simp)).trans hs
  | launchStallMonitor _ _ hmonitor => exact (PeriodicTask.owner_step hmonitor (by simp)).trans hs
  | stallMonitor hthread hmonitor =>
    have hne := PeriodicTask.ne_of_ofThread hthread
    cases StallMonitor.steps_of_step hmonitor with
    | look htask => exact (PeriodicTask.owner_step htask hne).trans hs
    | task _ htask => exact (PeriodicTask.owner_step htask hne).trans hs
  | close halive =>
    rw [halive] at hs
    exact hs
  | store _ _ hmonitor =>
    cases PeriodicTask.steps_of_step hmonitor with
    | store _ _ => rfl
  | notifyWatchdog hflagged _ =>
    rw [hflagged] at hs
    exact hs
  | notifyStallMonitor _ hmonitor =>
    cases PeriodicTask.steps_of_step hmonitor with
    | notify _ => rfl
  | joinWatchdog hnotified _ =>
    rw [hnotified] at hs
    exact hs
  | joinStallMonitor _ hmonitor =>
    cases PeriodicTask.steps_of_step hmonitor with
    | join _ _ => rfl
  | stopScan hjoined =>
    rw [hjoined] at hs
    exact hs
  | releaseHandle hstopped =>
    rw [hstopped] at hs
    exact hs
  | _ => exact hs

theorem Destructor.ofStallMonitor_running {destructor : Destructor}
    (h : destructor.interruptFlag = false) : destructor.ofStallMonitor = .running := by
  cases destructor with
  | alive => rfl
  | closed => rfl
  | _ => cases h

/-- A link that is alive and publishes no scan for nine seconds says that it is stalled, whatever
else it receives, once ten seconds have passed since the monitor was launched. -/
theorem silent_link_stalls {link : L} {isWatchdogEnabled : Bool} {now : ℕ} {es fs : List Event}
    {mid : State L} (hes : exec (step watchdogTimeout) (init link isWatchdogEnabled now) es = some mid)
    (hfs : exec (step watchdogTimeout) mid fs = some s)
    (hprompt : Meets (step watchdogTimeout) Prompt (init link isWatchdogEnabled now) (es ++ fs))
    (halive : isConnected mid.loop.link = true) (hrunning : mid.destructor.interruptFlag = false)
    (hsilent : Meets (step watchdogTimeout) (Silent watchdogTimeout) mid fs)
    (hlaunched : s.stallMonitor.phase ≠ .unlaunched)
    (hdelay : s.stallMonitor.launched + 10000 < s.stallMonitor.now)
    (hlate : mid.stallMonitor.now + 9000 ≤ s.stallMonitor.now) : s.isDataLinkStalled = true := by
  obtain ⟨before, hbefore, hbeforePrompt⟩ := prompt_monitor hes hprompt.left
  obtain ⟨after, hafter, hafterMeets⟩ := exec_part_meets State.monitor
    (D := fun t f => StallMonitor.Prompt t f ∧ StallMonitor.Silent f)
    (fun _ _ _ hstep hc => by
      obtain ⟨gs, hseen⟩ := monitor_of_step hstep
      exact ⟨gs, hseen.exec, (hseen.prompt hc.1).and (hseen.silent hc.2)⟩)
    hfs ((hprompt.right hes).and hsilent)
  have howner : mid.stallMonitor.owner = .running := by
    rw [← Destructor.ofStallMonitor_running hrunning]
    exact exec_keeps (P := fun t => t.stallMonitor.owner = t.destructor.ofStallMonitor)
      (fun _ _ _ hstep ho => monitor_owner_step hstep ho) hes rfl
  -- the monitor hears of the flag of the link before anything else
  have hfirst : StallMonitor.step (StallMonitor.init now) (.setConnected (isConnected link)) =
      some (init link isWatchdogEnabled now).monitor := rfl
  have hrun : exec StallMonitor.step (StallMonitor.init now)
      (.setConnected (isConnected link) :: before) = some mid.monitor :=
    exec_cons.mpr ⟨_, hfirst, hbefore⟩
  have hmeets : Meets StallMonitor.step StallMonitor.Prompt (StallMonitor.init now)
      ((.setConnected (isConnected link) :: before) ++ after) := by
    refine meets_append ((meets_cons_iff hfirst).mpr ⟨trivial, hbeforePrompt⟩) fun t ht => ?_
    obtain rfl : mid.monitor = t := Option.some.inj (hrun.symm.trans ht)
    exact hafterMeets.imp fun _ _ => And.left
  exact StallMonitor.stall_found hrun hafter hmeets halive howner
    (hafterMeets.imp fun _ _ => And.right) hlaunched hdelay hlate

def startedRun : List Event := [.startScan (some .success), .launchStallMonitor]

def firstLook : List Event :=
  [.tick 10000, .stallMonitor .awake, .stallMonitor .loop, .stallMonitor (.finish true), .tick 1]

attribute [local instance] insertionPacketSort in
theorem silent_link_stalls_firstLook :
    ∃ s : State UDPLink, exec (step 60) (init UDPLink.bound false 0) (startedRun ++ firstLook) =
      some s ∧ s.isDataLinkStalled = true := by
  obtain ⟨s, hs⟩ : ∃ s : State UDPLink,
      exec (step 60) (init UDPLink.bound false 0) (startedRun ++ firstLook) = some s :=
    Option.isSome_iff_exists.mp (by decide)
  obtain ⟨mid, hes, hfs⟩ := exec_append.mp hs
  have hmid : ∀ mid ∈ exec (step 60) (init UDPLink.bound false 0) startedRun,
      isConnected mid.loop.link = true ∧ mid.destructor.interruptFlag = false ∧
        mid.stallMonitor.now = 0 ∧ Meets (step 60) (Silent 60) mid firstLook := by decide
  have hend : ∀ s ∈ exec (step 60) (init UDPLink.bound false 0) (startedRun ++ firstLook),
      s.stallMonitor.phase ≠ .unlaunched ∧ s.stallMonitor.launched = 0 ∧
        s.stallMonitor.now = 10001 := by decide
  obtain ⟨halive, hrunning, hnow, hsilent⟩ := hmid mid hes
  obtain ⟨hlaunched, hstart, hlater⟩ := hend s hs
  refine ⟨s, hs, silent_link_stalls hes hfs (by decide) halive hrunning hsilent hlaunched ?_ ?_⟩
  · rw [hstart, hlater]
    decide
  · rw [hnow, hlater]
    decide

end
end R2000Driver.LinkLifetime
