import R2000Driver.ScanCompleteness
import R2000Driver.ScanOrder

/-!
# From the bytes of a link to the calls that wait for scans

The receive side of a link beside the calls of `waitForNextScan`. A call of the
extraction that completes a scan stores it; then the counter is advanced and
the waiting calls are notified, all before the next call of the extraction. The
other steps come in any order.
-/

namespace R2000Driver.ScanDelivery
open Data PacketExtraction Runs

structure State (F : Type) where
  receiver : LoopState F
  output : ScanWaiters.State Scan
  deriving DecidableEq, Repr

inductive Event
  | deliver (received : List UInt8)
  | extract
  | output (e : ScanWaiters.Event Scan)
  deriving DecidableEq, Repr

def isStore : ScanWaiters.Event Scan → Bool
  | .store _ => true
  | _ => false

section
variable {F : Type} [ScanFactory F] {s s' : State F} {e : Event}

def init (receiver : LoopState F) : State F where
  receiver := receiver
  output := ScanWaiters.init ⟨[], [], []⟩

def step (s : State F) : Event → Option (State F)
  | .deliver received =>
    if s.output.publishing = .idle then
      (LoopState.step s.receiver (.deliver received)).map fun receiver =>
        { s with receiver := receiver }
    else none
  | .extract =>
    if s.output.publishing = .idle then
      (LoopState.step s.receiver .extract).bind fun receiver =>
        match receiver.published.drop s.receiver.published.length with
        | [] => some { s with receiver := receiver }
        | scan :: _ => (ScanWaiters.step s.output (.store scan)).map fun output => ⟨receiver, output⟩
    else none
  | .output e =>
    if isStore e then none
    else (ScanWaiters.step s.output e).map fun output => { s with output := output }

inductive Steps (s : State F) : Event → State F → Prop
  | deliver {received receiver} : LoopState.step s.receiver (.deliver received) = some receiver →
      receiver.published = s.receiver.published → Steps s (.deliver received) { s with receiver := receiver }
  | extract {receiver} : LoopState.step s.receiver .extract = some receiver →
      receiver.published = s.receiver.published → Steps s .extract { s with receiver := receiver }
  | publish {receiver scan output} : LoopState.step s.receiver .extract = some receiver →
      receiver.published = s.receiver.published ++ [scan] →
      ScanWaiters.step s.output (.store scan) = some output → Steps s .extract ⟨receiver, output⟩
  | output {e output} : isStore e = false → ScanWaiters.step s.output e = some output →
      Steps s (.output e) { s with output := output }

theorem steps_of_step (h : step s e = some s') : Steps s e s' := by
  cases e with
  | deliver received =>
    obtain ⟨-, h⟩ := Option.ite_none_right_eq_some.mp h
    obtain ⟨receiver, hreceiver, rfl⟩ := Option.map_eq_some_iff.mp h
    exact .deliver hreceiver (LoopState.step_deliver hreceiver).2
  | extract =>
    obtain ⟨-, h⟩ := Option.ite_none_right_eq_some.mp h
    obtain ⟨receiver, hreceiver, h⟩ := Option.bind_eq_some_iff.mp h
    obtain ⟨found, -, -, hpublished⟩ := LoopState.step_extract hreceiver
    cases hscan : (ScanFactory.publish (found.deliver s.receiver.scanFactory).2).2 with
    | none =>
      rw [hscan, Option.toList_none, List.append_nil] at hpublished
      simp only [hpublished, List.drop_length] at h
      cases h
      exact .extract hreceiver hpublished
    | some scan =>
      rw [hscan, Option.toList_some] at hpublished
      simp only [hpublished, List.drop_left] at h
      obtain ⟨output, houtput, rfl⟩ := Option.map_eq_some_iff.mp h
      exact .publish hreceiver hpublished houtput
  | output e =>
    obtain ⟨hstore, h⟩ := Option.ite_none_left_eq_some.mp h
    obtain ⟨output, houtput, rfl⟩ := Option.map_eq_some_iff.mp h
    exact .output (Bool.not_eq_true _ ▸ hstore) houtput

theorem exec_receiver {events : List Event} (h : exec step s events = some s') :
    ∃ es, exec LoopState.step s.receiver es = some s'.receiver := by
  refine exec_part State.receiver (fun s e s' hstep => ?_) h
  cases steps_of_step hstep with
  | deliver hreceiver => exact ⟨_, exec_single hreceiver⟩
  | extract hreceiver => exact ⟨_, exec_single hreceiver⟩
  | publish hreceiver => exact ⟨_, exec_single hreceiver⟩
  | output => exact ⟨[], rfl⟩

theorem exec_output {events : List Event} (h : exec step s events = some s') :
    ∃ es, exec ScanWaiters.step s.output es = some s'.output := by
  refine exec_part State.output (fun s e s' hstep => ?_) h
  cases steps_of_step hstep with
  | deliver => exact ⟨[], rfl⟩
  | extract => exact ⟨[], rfl⟩
  | publish _ _ houtput => exact ⟨_, exec_single houtput⟩
  | output _ houtput => exact ⟨_, exec_single houtput⟩

/-- The scan that a number stands for: the empty one before all that were published. -/
def numbered (scans : List Scan) (number : ℕ) : Option Scan :=
  (⟨[], [], []⟩ :: scans)[number]?

theorem numbered_append {scans : List Scan} {number : ℕ} {scan : Scan}
    (h : numbered scans number = some scan) (more : List Scan) :
    numbered (scans ++ more) number = some scan := by
  have hlt : number < (⟨[], [], []⟩ :: scans).length := (List.getElem?_eq_some_iff.mp h).1
  rw [numbered, ← List.cons_append, List.getElem?_append_left hlt]
  exact h

theorem numbered_last (scans : List Scan) (scan : Scan) :
    numbered (scans ++ [scan]) (scans.length + 1) = some scan := by
  simp [numbered]

structure Delivered (s : State F) : Prop where
  number : s.output.lastScanReceived.number = s.receiver.published.length
  last : numbered s.receiver.published s.output.lastScanReceived.number =
    some s.output.lastScanReceived.scan
  result : ∀ (id : ℕ) (c : ScanWaiters.Call Scan) (p : ScanWaiters.Published Scan),
    s.output.calls[id]? = some c → c.result = some p →
    numbered s.receiver.published p.number = some p.scan

omit [ScanFactory F] in
theorem Delivered.published {receiver : LoopState F} (hs : Delivered s)
    (h : receiver.published = s.receiver.published) : Delivered { s with receiver := receiver } where
  number := by rw [h, hs.number]
  last := by rw [h, hs.last]
  result id c p hc hp := by rw [h, hs.result id c p hc hp]

omit [ScanFactory F] in
theorem result_of_step {output : ScanWaiters.State Scan} {f : ScanWaiters.Event Scan}
    (hs : Delivered s) (h : ScanWaiters.step s.output f = some output) {id : ℕ}
    {c : ScanWaiters.Call Scan} {p : ScanWaiters.Published Scan} (hc : output.calls[id]? = some c)
    (hp : c.result = some p) : numbered s.receiver.published p.number = some p.scan := by
  cases ScanWaiters.moves_of_step h hc with
  | continues hold hcontinues => exact hs.result id _ p hold (hcontinues.result p hp)
  | entered _ hnone => cases hnone.symm.trans hp
  | read _ hold _ hresult => exact hs.result id _ p hold (hresult.symm.trans hp)
  | returned _ _ _ _ hlast =>
    cases hlast.symm.trans hp
    exact hs.last

theorem delivered_step (h : step s e = some s') (hs : Delivered s) : Delivered s' := by
  cases steps_of_step h with
  | deliver _ hpublished => exact hs.published hpublished
  | extract _ hpublished => exact hs.published hpublished
  | @publish receiver scan output _ hpublished houtput =>
    have hlast : output.lastScanReceived = ⟨s.output.lastScanReceived.number + 1, scan⟩ := by
      obtain ⟨-, houtput⟩ := Option.ite_none_right_eq_some.mp houtput
      cases houtput
      rfl
    refine ⟨?_, ?_, fun id c p hc hp => ?_⟩
    · rw [hlast, hpublished, hs.number, List.length_append, List.length_singleton]
    · rw [hlast, hpublished, hs.number]
      exact numbered_last s.receiver.published scan
    · rw [hpublished]
      exact numbered_append (result_of_step hs houtput hc hp) [scan]
  | @output f output hstore houtput =>
    have hlast : output.lastScanReceived = s.output.lastScanReceived := by
      cases ScanWaiters.publishes_of_step houtput with
      | store => cases hstore
      | advance _ hlast => exact hlast
      | notifyAll _ hlast => exact hlast
      | nothing _ _ _ hlast => exact hlast
    refine ⟨?_, ?_, fun id c p hc hp => result_of_step hs houtput hc hp⟩
    · rw [hlast, hs.number]
    · rw [hlast, hs.last]

omit [ScanFactory F] in
theorem delivered_init {receiver : LoopState F} (h : receiver.published = []) :
    Delivered (init receiver) where
  number := by simp [init, ScanWaiters.init, h]
  last := by simp [init, ScanWaiters.init, numbered]
  result := nofun

theorem delivered_of_exec {receiver : LoopState F} {events : List Event}
    (hreceiver : receiver.published = []) (h : exec step (init receiver) events = some s) :
    Delivered s :=
  exec_keeps (fun _ _ _ hstep ht => delivered_step hstep ht) h (delivered_init hreceiver)

/-- Whatever the threads do, the last scan is the one published last, the counter counts the
publications that are completed, and a call returns the scan that its number stands for. -/
theorem calls_return_published_scans {receiver : LoopState F} {events : List Event}
    (hreceiver : receiver.published = []) (h : exec step (init receiver) events = some s) :
    (∃ es, exec LoopState.step receiver es = some s.receiver) ∧
      s.output.lastScanReceived.number = s.receiver.published.length ∧
      numbered s.receiver.published s.receiver.published.length =
        some s.output.lastScanReceived.scan ∧
      s.output.scanCounter = UInt64.ofNat s.output.advances ∧
      s.receiver.published.length =
        s.output.advances + (if s.output.publishing = .stored then 1 else 0) ∧
      ∀ c ∈ s.output.calls, ∀ p, c.result = some p →
        numbered s.receiver.published p.number = some p.scan := by
  have hs := delivered_of_exec hreceiver h
  obtain ⟨es, hes⟩ := exec_output h
  have hcounted : ScanWaiters.Counted s.output :=
    exec_keeps (fun _ _ _ hstep ht => ScanWaiters.counted_step hstep ht) hes
      (ScanWaiters.counted_init _)
  refine ⟨exec_receiver h, hs.number, hs.number ▸ hs.last, hcounted.counter,
    hs.number.symm.trans hcounted.number, ?_⟩
  intro c hc p hp
  obtain ⟨id, hid⟩ := List.mem_iff_getElem?.mp hc
  exact hs.result id c p hid hp

end

def receivedInWait : List Event :=
  [.output .call, .output (.readCounter 0), .output (.look 0), .output (.test 0), .output (.block 0),
    .deliver (onePoint 7 1 1 5).bytes, .extract, .output .advance, .output .notifyAll,
    .output (.resume 0 false), .output (.look 0), .output (.test 0), .output (.getLastScan 0)]

def receivedScan : Scan := ⟨[5], [0], [(onePoint 7 1 1 5).header]⟩

def receivedInWaitState : State TcpScanFactory where
  receiver := ⟨[], true, ⟨[], [], []⟩, [receivedScan]⟩
  output := ⟨true, false, 1, ⟨1, receivedScan⟩, .idle,
    [⟨.returned, 0, 1, false, 0, 1, 1, some ⟨1, receivedScan⟩⟩], 1⟩

theorem receivedInWait_happens :
    exec step (init (TCPLinkOver.connected ⟨[], [], []⟩).loopState) receivedInWait =
      some receivedInWaitState := rfl

theorem calls_return_published_scans_receivedInWait :
    numbered [receivedScan] 1 = some receivedScan := by
  obtain ⟨-, -, -, -, -, hresults⟩ := calls_return_published_scans rfl receivedInWait_happens
  exact hresults _ List.mem_cons_self ⟨1, receivedScan⟩ rfl

/-- A call over TCP returns a complete scan, or the empty one that the link was built with. -/
theorem tcp_calls_return_complete_scans {events : List Event} {s : State TcpScanFactory}
    (h : exec step (init (TCPLinkOver.connected ⟨[], [], []⟩).loopState) events = some s)
    {c : ScanWaiters.Call Scan} (hc : c ∈ s.output.calls) {p : ScanWaiters.Published Scan}
    (hp : c.result = some p) : p.scan.isComplete = true ∨ p.number = 0 ∧ p.scan = ⟨[], [], []⟩ := by
  obtain ⟨es, hes⟩ := exec_receiver h
  obtain ⟨id, hid⟩ := List.mem_iff_getElem?.mp hc
  have hnumbered := (delivered_of_exec rfl h).result id c p hid hp
  have hcomplete : AllComplete s.receiver := by
    refine allComplete_tcp hes (fun _ hscan => absurd hscan List.not_mem_nil) es [] s.receiver ?_ hes
    exact (List.append_nil es).symm
  cases hnumber : p.number with
  | zero =>
    rw [hnumber] at hnumbered
    exact Or.inr ⟨rfl, (Option.some.inj hnumbered).symm⟩
  | succ number =>
    rw [hnumber] at hnumbered
    exact Or.inl (hcomplete p.scan (List.mem_of_getElem? hnumbered))

theorem tcp_calls_return_complete_scans_receivedInWait :
    receivedScan.isComplete = true ∨ 1 = 0 ∧ receivedScan = ⟨[], [], []⟩ :=
  tcp_calls_return_complete_scans (p := ⟨1, receivedScan⟩) receivedInWait_happens
    List.mem_cons_self rfl

end R2000Driver.ScanDelivery
