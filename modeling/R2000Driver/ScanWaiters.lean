import Mathlib.Algebra.Group.Nat.Defs
import R2000Driver.Runs

/-!
# Waiting for the next scan

Any number of calls of `waitForNextScan` beside the thread that publishes and
the thread that destroys the link. The guards adopt a lock that nobody has
taken, so the steps of all of them interleave freely. `wait_for` tests its
predicate before it blocks, after every wake-up, and once more after the
timeout; the test copies the counter first and loads the flag behind that.

A publication stores the scan and advances the counter behind it. `advances`
is the number of advances since the link was built, of which the counter is the
remainder; a call keeps that number at its first reading, at its last look and
at the test that ended its wait. The last look of a call that timed out is the
one behind its timeout. A stored scan carries the number of its publication.
-/

namespace R2000Driver.ScanWaiters
open Runs

structure Published (Scan : Type) where
  number : ℕ
  scan : Scan
  deriving DecidableEq, Repr

inductive Phase
  | entered
  | testing
  | loading
  | blocking
  | blocked
  | notified
  | fetching
  | returned
  deriving DecidableEq, Repr

structure Call (Scan : Type) where
  phase : Phase
  scanCountBeforeWaiting : UInt64
  scanCountWhileWaiting : UInt64
  timedOut : Bool
  before : ℕ
  looked : ℕ
  decided : ℕ
  result : Option (Published Scan)
  deriving DecidableEq, Repr

inductive Publishing
  | idle
  | stored
  | advanced
  deriving DecidableEq, Repr

structure State (Scan : Type) where
  isConnected : Bool
  interruptFlag : Bool
  scanCounter : UInt64
  lastScanReceived : Published Scan
  publishing : Publishing
  calls : List (Call Scan)
  advances : ℕ
  deriving DecidableEq, Repr

inductive Event (Scan : Type)
  | call
  | readCounter (id : ℕ)
  | look (id : ℕ)
  | test (id : ℕ)
  | block (id : ℕ)
  | wake (id : ℕ)
  | resume (id : ℕ) (timeout : Bool)
  | getLastScan (id : ℕ)
  | store (scan : Scan)
  | advance
  | notifyAll
  | interrupt
  | notifyInterrupted
  | setConnected (connected : Bool)
  deriving DecidableEq, Repr

variable {Scan : Type}

def init (empty : Scan) : State Scan where
  isConnected := true
  interruptFlag := false
  scanCounter := 0
  lastScanReceived := ⟨0, empty⟩
  publishing := .idle
  calls := []
  advances := 0

def Call.enter (isConnected : Bool) : Call Scan where
  phase := if isConnected then .entered else .returned
  scanCountBeforeWaiting := 0
  scanCountWhileWaiting := 0
  timedOut := false
  before := 0
  looked := 0
  decided := 0
  result := none

def Call.test (c : Call Scan) (interruptFlag : Bool) (advances : ℕ) : Call Scan :=
  if interruptFlag = true ∨ c.scanCountBeforeWaiting ≠ c.scanCountWhileWaiting then
    { c with phase := .fetching, decided := advances }
  else if c.timedOut then { c with phase := .returned, result := none }
  else { c with phase := .blocking }

def Call.notify (c : Call Scan) : Call Scan :=
  if c.phase = .blocked then { c with phase := .notified } else c

namespace State

def move (s : State Scan) (id : ℕ) (phase : Phase) (next : Call Scan → Call Scan) :
    Option (State Scan) :=
  (s.calls[id]?).bind fun c =>
    if c.phase = phase then some { s with calls := s.calls.set id (next c) } else none

end State

def step (s : State Scan) : Event Scan → Option (State Scan)
  | .call => some { s with calls := s.calls ++ [Call.enter s.isConnected] }
  | .readCounter id =>
    s.move id .entered fun c =>
      { c with phase := .testing, scanCountBeforeWaiting := s.scanCounter, before := s.advances }
  | .look id =>
    s.move id .testing fun c =>
      { c with phase := .loading, scanCountWhileWaiting := s.scanCounter, looked := s.advances }
  | .test id => s.move id .loading fun c => c.test s.interruptFlag s.advances
  | .block id => s.move id .blocking fun c => { c with phase := .blocked }
  | .wake id => s.move id .blocked fun c => { c with phase := .notified }
  | .resume id timeout =>
    s.move id .notified fun c => { c with phase := .testing, timedOut := timeout }
  | .getLastScan id =>
    s.move id .fetching fun c => { c with phase := .returned, result := some s.lastScanReceived }
  | .store scan =>
    if s.publishing = .idle then
      some { s with
        lastScanReceived := ⟨s.lastScanReceived.number + 1, scan⟩
        publishing := .stored }
    else none
  | .advance =>
    if s.publishing = .stored then
      some { s with
        scanCounter := s.scanCounter + 1
        publishing := .advanced
        advances := s.advances + 1 }
    else none
  | .notifyAll =>
    if s.publishing = .advanced then
      some { s with publishing := .idle, calls := s.calls.map Call.notify }
    else none
  | .interrupt =>
    if s.interruptFlag = false then some { s with interruptFlag := true } else none
  | .notifyInterrupted =>
    if s.interruptFlag = true then some { s with calls := s.calls.map Call.notify } else none
  | .setConnected connected => some { s with isConnected := connected }

def Phase.Waiting (phase : Phase) : Prop := phase ≠ .entered ∧ phase ≠ .returned

theorem Phase.waiting_of_eq {phase phase' : Phase} (h : phase = phase') (hentered : phase' ≠ .entered)
    (hreturned : phase' ≠ .returned) : phase.Waiting := by
  rw [h]
  exact ⟨hentered, hreturned⟩

structure Call.Sound (c : Call Scan) (interruptFlag : Bool) (advances : ℕ) : Prop where
  count : c.phase.Waiting → c.scanCountBeforeWaiting = UInt64.ofNat c.before
  before_le : c.phase.Waiting → c.before ≤ advances
  whileWaiting : c.phase = .loading → c.scanCountWhileWaiting = UInt64.ofNat c.looked
  le_looked : c.phase = .loading → c.before ≤ c.looked
  looked_le : c.phase = .loading → c.looked ≤ advances
  le_decided : c.phase = .fetching → c.before ≤ c.decided
  decided_le : c.phase = .fetching → c.decided ≤ advances
  reason : c.phase = .fetching → interruptFlag = true ∨ c.before < c.decided

structure Counted (s : State Scan) : Prop where
  counter : s.scanCounter = UInt64.ofNat s.advances
  number : s.lastScanReceived.number = s.advances + if s.publishing = .stored then 1 else 0
  calls : ∀ c ∈ s.calls, c.Sound s.interruptFlag s.advances

theorem counted_init (empty : Scan) : Counted (init empty) := by
  constructor
  · rfl
  · rfl
  · intro c hc
    cases hc

theorem Call.Sound.later {c : Call Scan} {flag flag' : Bool} {advances advances' : ℕ}
    (h : c.Sound flag advances) (hflag : flag = true → flag' = true) (hle : advances ≤ advances') :
    c.Sound flag' advances' where
  count := h.count
  before_le hw := Nat.le_trans (h.before_le hw) hle
  whileWaiting := h.whileWaiting
  le_looked := h.le_looked
  looked_le hl := Nat.le_trans (h.looked_le hl) hle
  le_decided := h.le_decided
  decided_le hf := Nat.le_trans (h.decided_le hf) hle
  reason hf := (h.reason hf).imp_left hflag

theorem Call.Sound.phase {c c' : Call Scan} {flag : Bool} {advances : ℕ} (h : c.Sound flag advances)
    (hwaiting : c.phase.Waiting) (hcount : c'.scanCountBeforeWaiting = c.scanCountBeforeWaiting)
    (hbefore : c'.before = c.before) (hloading : c'.phase ≠ .loading)
    (hfetching : c'.phase ≠ .fetching) : c'.Sound flag advances where
  count _ := by rw [hcount, hbefore, h.count hwaiting]
  before_le _ := by rw [hbefore]; exact h.before_le hwaiting
  whileWaiting hl := absurd hl hloading
  le_looked hl := absurd hl hloading
  looked_le hl := absurd hl hloading
  le_decided hf := absurd hf hfetching
  decided_le hf := absurd hf hfetching
  reason hf := absurd hf hfetching

theorem Call.sound_of_not_waiting {c : Call Scan} {flag : Bool} {advances : ℕ}
    (h : ¬ c.phase.Waiting) : c.Sound flag advances := by
  have hloading : c.phase ≠ .loading := fun hl => h (Phase.waiting_of_eq hl nofun nofun)
  have hfetching : c.phase ≠ .fetching := fun hf => h (Phase.waiting_of_eq hf nofun nofun)
  exact ⟨fun hw => absurd hw h, fun hw => absurd hw h, fun hl => absurd hl hloading,
    fun hl => absurd hl hloading, fun hl => absurd hl hloading, fun hf => absurd hf hfetching,
    fun hf => absurd hf hfetching, fun hf => absurd hf hfetching⟩

theorem Call.sound_notify {c : Call Scan} {flag : Bool} {advances : ℕ} (h : c.Sound flag advances) :
    c.notify.Sound flag advances := by
  unfold Call.notify
  split
  · next hblocked =>
    exact h.phase (Phase.waiting_of_eq hblocked nofun nofun) rfl rfl nofun nofun
  · exact h

theorem sound_notifyAll {calls : List (Call Scan)} {flag : Bool} {advances : ℕ}
    (h : ∀ c ∈ calls, c.Sound flag advances) : ∀ c ∈ calls.map Call.notify, c.Sound flag advances := by
  intro c hc
  obtain ⟨a, ha, rfl⟩ := List.mem_map.mp hc
  exact Call.sound_notify (h a ha)

theorem Call.sound_test {c : Call Scan} {flag : Bool} {advances : ℕ} (h : c.Sound flag advances)
    (hphase : c.phase = .loading) : (c.test flag advances).Sound flag advances := by
  have hwaiting := Phase.waiting_of_eq hphase nofun nofun
  unfold Call.test
  split
  · next htrue =>
    refine ⟨fun _ => h.count hwaiting, fun _ => h.before_le hwaiting, nofun, nofun, nofun,
      fun _ => h.before_le hwaiting, fun _ => Nat.le_refl _, fun _ => ?_⟩
    refine htrue.imp_right fun hne => ?_
    -- different remainders come from different counts
    have hdifferent : c.before ≠ c.looked := by
      intro heq
      exact hne (by rw [h.count hwaiting, h.whileWaiting hphase, heq])
    exact Nat.lt_of_lt_of_le (Nat.lt_of_le_of_ne (h.le_looked hphase) hdifferent)
      (h.looked_le hphase)
  · split
    · exact Call.sound_of_not_waiting (fun hw => hw.2 rfl)
    · exact h.phase hwaiting rfl rfl nofun nofun

theorem State.move_cases {s s' : State Scan} {id : ℕ} {phase : Phase}
    {next : Call Scan → Call Scan} (h : s.move id phase next = some s') :
    ∃ c, s.calls[id]? = some c ∧ c ∈ s.calls ∧ c.phase = phase ∧
      s' = { s with calls := s.calls.set id (next c) } ∧
      ∀ a ∈ s'.calls, a ∈ s.calls ∨ a = next c := by
  obtain ⟨c, hc, hphase, rfl⟩ := exists_of_guarded h
  exact ⟨c, hc, List.mem_of_getElem? hc, hphase, rfl, fun a ha => List.mem_or_eq_of_mem_set ha⟩

theorem Counted.move {s s' : State Scan} {id : ℕ} {phase : Phase} {next : Call Scan → Call Scan}
    (hs : Counted s) (h : s.move id phase next = some s')
    (hnext : ∀ c : Call Scan, c.phase = phase → c.Sound s.interruptFlag s.advances →
      (next c).Sound s.interruptFlag s.advances) : Counted s' := by
  obtain ⟨c, -, hmem, hphase, hs', hcalls⟩ := State.move_cases h
  have hsound : ∀ a ∈ s'.calls, a.Sound s.interruptFlag s.advances := by
    intro a ha
    rcases hcalls a ha with hold | rfl
    · exact hs.calls a hold
    · exact hnext c hphase (hs.calls c hmem)
  rw [hs'] at hsound ⊢
  exact ⟨hs.counter, hs.number, hsound⟩

theorem counted_step {s s' : State Scan} {e : Event Scan} (h : step s e = some s')
    (hs : Counted s) : Counted s' := by
  cases e with
  | call =>
    cases h
    refine ⟨hs.counter, hs.number, ?_⟩
    intro c hc
    rcases List.mem_append.mp hc with hold | hnew
    · exact hs.calls c hold
    · cases List.mem_singleton.mp hnew
      refine Call.sound_of_not_waiting ?_
      rintro ⟨hentered, hreturned⟩
      revert hentered hreturned
      cases hconnected : s.isConnected <;> simp [Call.enter]
  | readCounter id =>
    refine hs.move h ?_
    intro c hphase hc
    exact ⟨fun _ => hs.counter, fun _ => Nat.le_refl _, nofun, nofun, nofun, nofun, nofun, nofun⟩
  | look id =>
    refine hs.move h ?_
    intro c hphase hc
    have hwaiting := Phase.waiting_of_eq hphase nofun nofun
    exact ⟨fun _ => hc.count hwaiting, fun _ => hc.before_le hwaiting, fun _ => hs.counter,
      fun _ => hc.before_le hwaiting, fun _ => Nat.le_refl _, nofun, nofun, nofun⟩
  | test id => exact hs.move h fun c hphase hc => Call.sound_test hc hphase
  | block id =>
    exact hs.move h fun c hphase hc =>
      hc.phase (Phase.waiting_of_eq hphase nofun nofun) rfl rfl nofun nofun
  | wake id =>
    exact hs.move h fun c hphase hc =>
      hc.phase (Phase.waiting_of_eq hphase nofun nofun) rfl rfl nofun nofun
  | resume id timeout =>
    exact hs.move h fun c hphase hc =>
      hc.phase (Phase.waiting_of_eq hphase nofun nofun) rfl rfl nofun nofun
  | getLastScan id =>
    exact hs.move h fun c hphase hc => Call.sound_of_not_waiting (fun hw => hw.2 rfl)
  | store scan =>
    obtain ⟨hidle, hs'⟩ := Option.ite_none_right_eq_some.mp h
    cases hs'
    refine ⟨hs.counter, ?_, hs.calls⟩
    have hnumber := hs.number
    rw [hidle] at hnumber
    exact congrArg (· + 1) hnumber
  | advance =>
    obtain ⟨hstored, hs'⟩ := Option.ite_none_right_eq_some.mp h
    cases hs'
    refine ⟨?_, ?_, fun c hc => (hs.calls c hc).later id (Nat.le_succ _)⟩
    · change s.scanCounter + 1 = UInt64.ofNat (s.advances + 1)
      rw [hs.counter, UInt64.ofNat_add]
      rfl
    · rw [hs.number, hstored]
      rfl
  | notifyAll =>
    obtain ⟨hadvanced, hs'⟩ := Option.ite_none_right_eq_some.mp h
    cases hs'
    refine ⟨hs.counter, ?_, sound_notifyAll hs.calls⟩
    rw [hs.number, hadvanced]
    rfl
  | interrupt =>
    obtain ⟨-, hs'⟩ := Option.ite_none_right_eq_some.mp h
    cases hs'
    exact ⟨hs.counter, hs.number, fun c hc => (hs.calls c hc).later (fun _ => rfl) (Nat.le_refl _)⟩
  | notifyInterrupted =>
    obtain ⟨-, hs'⟩ := Option.ite_none_right_eq_some.mp h
    cases hs'
    exact ⟨hs.counter, hs.number, sound_notifyAll hs.calls⟩
  | setConnected connected =>
    cases h
    exact ⟨hs.counter, hs.number, hs.calls⟩

def Call.ReturnsNext (c : Call Scan) : Prop :=
  c.phase = .returned →
    match c.result with
    | some published => c.before < c.decided ∧ c.before < published.number
    | none => c.looked = c.before

def OnlyNextScans (s : State Scan) : Prop := ∀ c ∈ s.calls, c.ReturnsNext

/-- The call was woken by the destructor, and the counter stands where the call read it. -/
def Call.Interrupted (c : Call Scan) (interruptFlag : Bool) : Prop :=
  interruptFlag = true ∧ c.decided = c.before

/-- The counter has gone round, and the test behind the timeout sees no difference. -/
def Call.Wrapped (c : Call Scan) (interruptFlag : Bool) : Prop :=
  interruptFlag = false ∧ c.timedOut = true ∧ c.looked ≠ c.before ∧
    c.looked % 2 ^ 64 = c.before % 2 ^ 64

def Mistakes (s : State Scan) (e : Event Scan) : Prop :=
  ∃ id c, s.calls[id]? = some c ∧
    ((e = .getLastScan id ∧ c.phase = .fetching ∧ c.Interrupted s.interruptFlag) ∨
      (e = .test id ∧ c.phase = .loading ∧ c.Wrapped s.interruptFlag))

theorem returnsNext_of_phase {c : Call Scan} (h : c.phase ≠ .returned) : c.ReturnsNext :=
  fun hreturned => absurd hreturned h

theorem returnsNext_notify {c : Call Scan} (h : c.ReturnsNext) : c.notify.ReturnsNext := by
  unfold Call.notify
  split
  · exact returnsNext_of_phase nofun
  · exact h

theorem returnsNext_notifyAll {calls : List (Call Scan)} (h : ∀ c ∈ calls, c.ReturnsNext) :
    ∀ c ∈ calls.map Call.notify, c.ReturnsNext := by
  intro c hc
  obtain ⟨a, ha, rfl⟩ := List.mem_map.mp hc
  exact returnsNext_notify (h a ha)

theorem returnsNext_test {c : Call Scan} {flag : Bool} {advances : ℕ} (h : c.Sound flag advances)
    (hphase : c.phase = .loading) (hwrapped : ¬ c.Wrapped flag) :
    (c.test flag advances).ReturnsNext := by
  have hwaiting := Phase.waiting_of_eq hphase nofun nofun
  unfold Call.test
  split
  · exact returnsNext_of_phase nofun
  · next hfalse =>
    split
    · next htimedOut =>
      intro _
      obtain ⟨hflag, hcount⟩ := not_or.mp hfalse
      rw [not_not, h.count hwaiting, h.whileWaiting hphase] at hcount
      have hremainder : c.looked % 2 ^ 64 = c.before % 2 ^ 64 :=
        (congrArg UInt64.toNat hcount).symm
      by_contra hne
      exact hwrapped ⟨Bool.eq_false_iff.mpr hflag, htimedOut, hne, hremainder⟩
    · exact returnsNext_of_phase nofun

theorem OnlyNextScans.move {s s' : State Scan} {id : ℕ} {phase : Phase}
    {next : Call Scan → Call Scan} (hs : OnlyNextScans s) (h : s.move id phase next = some s')
    (hnext : ∀ c : Call Scan, s.calls[id]? = some c → c.phase = phase → (next c).ReturnsNext) :
    OnlyNextScans s' := by
  obtain ⟨c, hc, -, hphase, -, hcalls⟩ := State.move_cases h
  intro a ha
  rcases hcalls a ha with hold | rfl
  · exact hs a hold
  · exact hnext c hc hphase

theorem onlyNextScans_step {s s' : State Scan} {e : Event Scan} (h : step s e = some s')
    (hmistake : ¬ Mistakes s e) (hs : Counted s) (honly : OnlyNextScans s) : OnlyNextScans s' := by
  cases e with
  | call =>
    cases h
    intro c hc
    rcases List.mem_append.mp hc with hold | hnew
    · exact honly c hold
    · cases List.mem_singleton.mp hnew
      intro _
      rfl
  | readCounter id => exact honly.move h fun c _ _ => returnsNext_of_phase nofun
  | look id => exact honly.move h fun c _ _ => returnsNext_of_phase nofun
  | test id =>
    refine honly.move h ?_
    intro c hc hphase
    refine returnsNext_test (hs.calls c (List.mem_of_getElem? hc)) hphase ?_
    intro hwrapped
    exact hmistake ⟨id, c, hc, Or.inr ⟨rfl, hphase, hwrapped⟩⟩
  | block id => exact honly.move h fun c _ _ => returnsNext_of_phase nofun
  | wake id => exact honly.move h fun c _ _ => returnsNext_of_phase nofun
  | resume id timeout => exact honly.move h fun c _ _ => returnsNext_of_phase nofun
  | getLastScan id =>
    refine honly.move h ?_
    intro c hc hphase _
    have hsound := hs.calls c (List.mem_of_getElem? hc)
    have hadvanced : c.before < c.decided := by
      rcases hsound.reason hphase with hflag | hlt
      · refine Nat.lt_of_le_of_ne (hsound.le_decided hphase) (Ne.symm ?_)
        intro heq
        exact hmistake ⟨id, c, hc, Or.inl ⟨rfl, hphase, hflag, heq⟩⟩
      · exact hlt
    refine ⟨hadvanced, Nat.lt_of_lt_of_le hadvanced ?_⟩
    rw [hs.number]
    exact Nat.le_trans (hsound.decided_le hphase) (Nat.le_add_right _ _)
  | store scan =>
    obtain ⟨-, hs'⟩ := Option.ite_none_right_eq_some.mp h
    cases hs'
    exact honly
  | advance =>
    obtain ⟨-, hs'⟩ := Option.ite_none_right_eq_some.mp h
    cases hs'
    exact honly
  | notifyAll =>
    obtain ⟨-, hs'⟩ := Option.ite_none_right_eq_some.mp h
    cases hs'
    exact returnsNext_notifyAll honly
  | interrupt =>
    obtain ⟨-, hs'⟩ := Option.ite_none_right_eq_some.mp h
    cases hs'
    exact honly
  | notifyInterrupted =>
    obtain ⟨-, hs'⟩ := Option.ite_none_right_eq_some.mp h
    cases hs'
    exact returnsNext_notifyAll honly
  | setConnected connected =>
    cases h
    exact honly

theorem not_onlyNextScans_of_mistakes {s s' : State Scan} {e : Event Scan}
    (h : step s e = some s') (hmistake : Mistakes s e) (hs : Counted s) : ¬ OnlyNextScans s' := by
  obtain ⟨id, c, hc, ⟨rfl, hphase, -, hdecided⟩ | ⟨rfl, hphase, hflag, htimedOut, hne, hremainder⟩⟩ :=
    hmistake
  all_goals
    obtain ⟨a, ha, hmem, -, rfl, -⟩ := State.move_cases h
    cases Option.some.inj (hc.symm.trans ha)
    have hid : id < s.calls.length := (List.getElem?_eq_some_iff.mp hc).1
    intro honly
    have hreturns := honly _ (List.mem_set hid _)
  · have hnext := (hreturns rfl).1
    simp only at hnext
    omega
  · have hsound := hs.calls c hmem
    have hwaiting := Phase.waiting_of_eq hphase nofun nofun
    have hcount : c.scanCountBeforeWaiting = c.scanCountWhileWaiting := by
      rw [hsound.count hwaiting, hsound.whileWaiting hphase]
      exact UInt64.toNat_inj.mp hremainder.symm
    have htest : c.test s.interruptFlag s.advances = { c with phase := .returned, result := none } := by
      simp [Call.test, hflag, hcount, htimedOut]
    rw [htest] at hreturns
    exact hne (hreturns rfl)

/-- Exactly the runs in which no interrupted call goes on to fetch a scan and no call overlooks a
counter that has gone round return nothing but next scans. -/
theorem only_next_scans_iff (empty : Scan) {events : List (Event Scan)} {s : State Scan}
    (h : exec step (init empty) events = some s) :
    Always step OnlyNextScans (init empty) events ↔
      Meets step (fun s e => ¬ Mistakes s e) (init empty) events := by
  refine always_iff (I := Counted) ?_ ?_ ?_ h (counted_init empty) ?_
  · exact fun s e s' hstep hs => counted_step hstep hs
  · exact fun s e s' hstep hmistake hs honly => onlyNextScans_step hstep hmistake hs honly
  · exact fun s e s' hstep hmistake hs _ => not_onlyNextScans_of_mistakes hstep hmistake hs
  · intro c hc
    cases hc

def destroyedWhileWaiting : List (Event Unit) :=
  [.call, .readCounter 0, .look 0, .test 0, .block 0, .interrupt, .notifyInterrupted,
    .resume 0 false, .look 0, .test 0, .getLastScan 0]

def destroyedWhileWaitingState : State Unit where
  isConnected := true
  interruptFlag := true
  scanCounter := 0
  lastScanReceived := ⟨0, ()⟩
  publishing := .idle
  calls := [⟨.returned, 0, 0, false, 0, 0, 0, some ⟨0, ()⟩⟩]
  advances := 0

theorem only_next_scans_iff_destroyed :
    Always step OnlyNextScans (init ()) destroyedWhileWaiting ↔
      Meets step (fun s e => ¬ Mistakes s e) (init ()) destroyedWhileWaiting :=
  only_next_scans_iff () (s := destroyedWhileWaitingState) (by decide)

theorem interrupted_call_returns_scan :
    ¬ Always step OnlyNextScans (init ()) destroyedWhileWaiting := by
  intro h
  have honly := h destroyedWhileWaiting [] destroyedWhileWaitingState rfl (by decide)
  have hreturns := honly ⟨.returned, 0, 0, false, 0, 0, 0, some ⟨0, ()⟩⟩ (List.mem_singleton.mpr rfl)
  exact absurd (hreturns rfl).1 (Nat.lt_irrefl 0)

end R2000Driver.ScanWaiters
