import R2000Driver.LinkLoop

/-!
# Connection-lost events and dead links

Two laws of a link over its whole life. The event is fired once for each loss
of the connection (`Counted`), and a link that says it is alive still receives
(`Receives`). Each law is kept by every step but a few, which are named, and
each of those ends the law on the spot; so it holds throughout exactly the runs
without such a step.
-/

namespace R2000Driver.LinkLoop
open Data PacketExtraction Http Runs DataLink

section
variable {L : Type} [DataLink L]

def Counted (s : State L) : Prop := connectionLostEvents s.link = s.losses

/-- A step that loses the connection in silence, or reports a loss when nothing is connected. -/
def Miscounts (s : State L) : Event → Prop
  | .startScan answer => isConnected s.link = true ∧ answer ≠ some .success
  | .watchdog none => isConnected s.link = true
  | .connected succeeded => isConnected s.link = true ∧ succeeded = false
  | .setUp succeeded => isConnected s.link = true ∧ succeeded = false
  | .readError => isConnected s.link = false
  | _ => False

theorem lost_self (link : L) : lost link link = 0 := by simp [lost]

variable [LawfulDataLink L]
open LawfulDataLink

theorem lost_store (link : L) (value : Bool) :
    lost link (store value link) = if isConnected link = true ∧ value = false then 1 else 0 := by
  simp [lost, isConnected_store]

theorem lost_onReadError (link : L) :
    lost link (onReadError link) = if isConnected link = true then 1 else 0 := by
  simp [lost, isConnected_onReadError]

theorem store_counts_iff (link : L) (value : Bool) :
    connectionLostEvents (store value link) =
        connectionLostEvents link + lost link (store value link) ↔
      ¬ (isConnected link = true ∧ value = false) := by
  rw [events_store, lost_store]
  split_ifs with h <;> simp [h]

theorem startScanAnswer_counts_iff (link : L) (answer : Option RequestResult) :
    connectionLostEvents (startScanAnswer link answer) =
        connectionLostEvents link + lost link (startScanAnswer link answer) ↔
      ¬ (isConnected link = true ∧ answer ≠ some .success) := by
  unfold startScanAnswer
  split_ifs with h
  · simp [h, lost_self]
  · rw [store_counts_iff]
    simp [h]

theorem watchdogFeed_counts (link : L) (result : RequestResult) :
    connectionLostEvents (watchdogFeed link (some result)) =
      connectionLostEvents link + lost link (watchdogFeed link (some result)) := by
  by_cases hs : result = .success
  · simp only [watchdogFeed, if_pos hs]
    rw [store_counts_iff]
    simp
  · simp only [watchdogFeed, if_neg hs]
    by_cases hc : isConnected link = true
    · simp [hc, lost, events_fire, events_store, isConnected_fire, isConnected_store]
    · simp [hc, lost, events_store, isConnected_store]

theorem readError_counts_iff (link : L) :
    connectionLostEvents (onReadError link) =
        connectionLostEvents link + lost link (onReadError link) ↔
      ¬ isConnected link = false := by
  rw [events_onReadError, lost_onReadError]
  by_cases hc : isConnected link = true <;> simp [hc]

theorem Acts.counts_iff {s s' : State L} {e : Event} (h : Acts s e s') :
    connectionLostEvents s'.link = connectionLostEvents s.link + lost s.link s'.link ↔
      ¬ Miscounts s e := by
  cases h with
  | startScan answer => exact startScanAnswer_counts_iff s.link answer
  | watchdog answer =>
    cases answer with
    | none =>
      refine (store_counts_iff s.link false).trans ?_
      simp [Miscounts]
    | some result => exact iff_of_true (watchdogFeed_counts s.link result) not_false
  | connected succeeded => exact store_counts_iff s.link succeeded
  | setUp succeeded => exact store_counts_iff s.link succeeded
  | readError => exact readError_counts_iff s.link
  | read _ hr =>
    obtain ⟨hflag, hevents⟩ := onBytesReceived_ok _ _ _ hr
    simp [lost, hflag, hevents, Miscounts]
  | resolve => simp [lost_self, Miscounts]
  | resolved => simp [lost_self, Miscounts]
  | retry => simp [lost_self, Miscounts]
  | thrown => simp [lost_self, Miscounts]
  | endless => simp [lost_self, Miscounts]

theorem counted_step_iff {s s' : State L} {e : Event} (h : step s e = some s') (hs : Counted s) :
    Counted s' ↔ ¬ Miscounts s e := by
  obtain ⟨next, hnext, rfl⟩ := step_acts h
  rw [← hnext.counts_iff, hs]
  rfl

theorem counted_iff {link : L} (hlink : connectionLostEvents link = 0) (isWatchdogEnabled : Bool)
    {events : List Event} {s : State L} (h : exec step (init link isWatchdogEnabled) events = some s) :
    Always step Counted (init link isWatchdogEnabled) events ↔
      Meets step (fun s e => ¬ Miscounts s e) (init link isWatchdogEnabled) events := by
  apply always_iff (I := fun _ => True) _ _ _ h trivial hlink
  · exact fun _ _ _ _ _ => trivial
  · exact fun s e s' hstep hb _ hs => (counted_step_iff hstep hs).mpr hb
  · exact fun s e s' hstep hb _ hs hs' => (counted_step_iff hstep hs).mp hs' hb

end

/-- On either link the events agree with the losses throughout exactly the runs without a silent
loss and without a read error of a link that is not connected. -/
theorem connection_lost_events_iff [PacketSort] (isWatchdogEnabled : Bool) (events : List Event) :
    (∀ s, exec step (init tcpLink isWatchdogEnabled) events = some s →
      (Always step Counted (init tcpLink isWatchdogEnabled) events ↔
        Meets step (fun s e => ¬ Miscounts s e) (init tcpLink isWatchdogEnabled) events)) ∧
    (∀ s, exec step (init UDPLink.bound isWatchdogEnabled) events = some s →
      (Always step Counted (init UDPLink.bound isWatchdogEnabled) events ↔
        Meets step (fun s e => ¬ Miscounts s e) (init UDPLink.bound isWatchdogEnabled) events)) :=
  ⟨fun _ h => counted_iff rfl isWatchdogEnabled h, fun _ h => counted_iff rfl isWatchdogEnabled h⟩

def tcpRun (events : List Event) : List Event :=
  [.resolve, .resolved true, .connected true, .startScan (some .success)] ++ events

section
attribute [local instance] insertionPacketSort

theorem connection_lost_events_iff_readError :
    Always step Counted (init tcpLink true) (tcpRun [.readError]) ↔
      Meets step (fun s e => ¬ Miscounts s e) (init tcpLink true) (tcpRun [.readError]) :=
  (connection_lost_events_iff true (tcpRun [.readError])).1 _ rfl

end

theorem loss_reported_twice :
    ¬ ∀ isWatchdogEnabled events s,
      exec step (init tcpLink isWatchdogEnabled) events = some s → Counted s := by
  intro hall
  have hcounted := hall true (tcpRun [.watchdog (some .timeout), .readError]) _ rfl
  exact absurd hcounted (by unfold Counted; decide)

section
variable {L : Type} [DataLink L]

def Receives (s : State L) : Prop :=
  isConnected s.link = true → s.phase ≠ .constructing → s.phase.Live

/-- A step behind which the link is alive and receives nothing any more. -/
def KeepsAlive (s : State L) : Event → Prop
  | .bytesReceived received => isConnected s.link = true ∧
      ∃ r, Visits (extractionByteBuffer s.link ++ received) r ∧ Unsupported r
  | .watchdog answer => s.phase = .ended ∧ answer = some .success
  | _ => False

theorem receives_iff {s : State L} :
    Receives s ↔ ¬ (isConnected s.link = true ∧ s.phase = .ended) := by
  unfold Receives
  cases s.phase <;> simp [Phase.Live]

variable [LawfulDataLink L]
open LawfulDataLink

theorem isConnected_startScanAnswer {link : L} {answer : Option RequestResult}
    (h : isConnected (startScanAnswer link answer) = true) : isConnected link = true := by
  unfold startScanAnswer at h
  split_ifs at h
  · exact h
  · rw [isConnected_store] at h
    cases h

theorem isConnected_watchdogFeed (link : L) (answer : Option RequestResult) :
    isConnected (watchdogFeed link answer) = true ↔ answer = some .success := by
  cases answer with
  | none => simp [watchdogFeed, isConnected_store]
  | some result =>
    simp only [watchdogFeed]
    split_ifs with hs hc
    · simp [hs, isConnected_store]
    · simp [hs, isConnected_fire, isConnected_store]
    · simp [hs, isConnected_store]

theorem Acts.receives_iff {s s' : State L} {e : Event} (h : Acts s e s') (hs : Receives s) :
    Receives s' ↔ ¬ KeepsAlive s e := by
  rw [LinkLoop.receives_iff] at hs ⊢
  rw [not_iff_not]
  cases h with
  | startScan answer =>
    refine iff_of_false (fun hb => hs ⟨isConnected_startScanAnswer hb.1, hb.2⟩) not_false
  | watchdog answer =>
    simp only [isConnected_watchdogFeed, KeepsAlive]
    exact and_comm
  | resolve => simp [KeepsAlive]
  | resolved succeeded => cases succeeded <;> simp [KeepsAlive]
  | connected succeeded => cases succeeded <;> simp [KeepsAlive]
  | retry => simp [KeepsAlive]
  | setUp succeeded => cases succeeded <;> simp [KeepsAlive, isConnected_store]
  | readError => simp [KeepsAlive, isConnected_onReadError]
  | read _ hr =>
    have hquiet := mt (throws_iff s.link _).mpr (by rw [hr]; simp)
    simp [KeepsAlive, hquiet]
  | thrown _ hr =>
    have hthrows := (throws_iff s.link _).mp ⟨_, hr⟩
    simp only [KeepsAlive, and_true]
    exact ⟨fun hc => ⟨hc, hthrows⟩, And.left⟩
  | endless _ hr =>
    have hquiet := mt (throws_iff s.link _).mpr (by rw [hr]; simp)
    simp [KeepsAlive, hquiet]

theorem receives_step_iff {s s' : State L} {e : Event} (h : step s e = some s') (hs : Receives s) :
    Receives s' ↔ ¬ KeepsAlive s e := by
  obtain ⟨next, hnext, rfl⟩ := step_acts h
  exact hnext.receives_iff hs

theorem alive_receives_iff (link : L) (isWatchdogEnabled : Bool) {events : List Event} {s : State L}
    (h : exec step (init link isWatchdogEnabled) events = some s) :
    Always step Receives (init link isWatchdogEnabled) events ↔
      Meets step (fun s e => ¬ KeepsAlive s e) (init link isWatchdogEnabled) events := by
  apply always_iff (I := fun _ => True) _ _ _ h trivial (fun _ hc => absurd rfl hc)
  · exact fun _ _ _ _ _ => trivial
  · exact fun s e s' hstep hb _ hs => (receives_step_iff hstep hs).mpr hb
  · exact fun s e s' hstep hb _ hs hs' => (receives_step_iff hstep hs).mp hs' hb

end

/-- Either link receives whenever it is alive throughout exactly the runs in which no extraction
throws while it is connected and no feed succeeds behind the end of its receive loop. -/
theorem alive_links_receive_iff [PacketSort] (isWatchdogEnabled : Bool) (events : List Event) :
    (∀ s, exec step (init tcpLink isWatchdogEnabled) events = some s →
      (Always step Receives (init tcpLink isWatchdogEnabled) events ↔
        Meets step (fun s e => ¬ KeepsAlive s e) (init tcpLink isWatchdogEnabled) events)) ∧
    (∀ s, exec step (init UDPLink.bound isWatchdogEnabled) events = some s →
      (Always step Receives (init UDPLink.bound isWatchdogEnabled) events ↔
        Meets step (fun s e => ¬ KeepsAlive s e) (init UDPLink.bound isWatchdogEnabled) events)) :=
  ⟨fun _ h => alive_receives_iff tcpLink isWatchdogEnabled h,
    fun _ h => alive_receives_iff UDPLink.bound isWatchdogEnabled h⟩

section
attribute [local instance] insertionPacketSort

theorem alive_links_receive_iff_readError :
    Always step Receives (init UDPLink.bound true)
        [.startScan (some .success), .setUp true, .watchdog (some .success), .readError] ↔
      Meets step (fun s e => ¬ KeepsAlive s e) (init UDPLink.bound true)
        [.startScan (some .success), .setUp true, .watchdog (some .success), .readError] :=
  (alive_links_receive_iff true
    [.startScan (some .success), .setUp true, .watchdog (some .success), .readError]).2 _ rfl

theorem dead_link_alive :
    ¬ ∀ isWatchdogEnabled events s,
      exec step (init UDPLink.bound isWatchdogEnabled) events = some s → Receives s := by
  intro hall
  have hreceives := hall true
    [.startScan (some .success), .setUp true, .readError, .watchdog (some .success)] _ rfl
  exact hreceives rfl (by decide)

end
end R2000Driver.LinkLoop
