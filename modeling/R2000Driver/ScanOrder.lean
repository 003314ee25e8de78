import R2000Driver.Lists
import R2000Driver.ScanWaiters

/-!
# Successive calls that wait for scans

What one step changes in one call and in the publication of scans, said once;
and from it which scan a call returns behind an earlier one, and which calls
sleep although there is a scan for them. The counter is read before the wait
and advanced behind the store: a call that begins in between has the number of
the scan before, and is content with a scan that another call has returned.
-/

namespace R2000Driver.ScanWaiters
open Runs

variable {Scan : Type} {s s' mid : State Scan} {e : Event Scan}

theorem State.getElem?_move {id other : ℕ} {phase : Phase} {next : Call Scan → Call Scan}
    {c' : Call Scan} (h : s.move id phase next = some s') (hc' : s'.calls[other]? = some c') :
    s.calls[other]? = some c' ∨
      (other = id ∧ ∃ c, s.calls[id]? = some c ∧ c.phase = phase ∧ c' = next c) := by
  obtain ⟨c, hc, -, hphase, rfl, -⟩ := State.move_cases h
  rcases getElem?_set_cases hc' with hold | ⟨rfl, rfl⟩
  · exact Or.inl hold
  · exact Or.inr ⟨rfl, c, hc, hphase, rfl⟩

structure Call.Continues (c c' : Call Scan) : Prop where
  before : c'.before = c.before
  waiting : c'.phase.Waiting → c.phase.Waiting
  result : ∀ p, c'.result = some p → c.result = some p

theorem Call.Continues.refl (c : Call Scan) : c.Continues c := ⟨rfl, id, fun _ => id⟩

theorem Call.continues_of_phase {c c' : Call Scan} {phase : Phase} (hphase : c.phase = phase)
    (hentered : phase ≠ .entered) (hreturned : phase ≠ .returned) (hbefore : c'.before = c.before)
    (hresult : c'.result = c.result) : c.Continues c' where
  before := hbefore
  waiting _ := Phase.waiting_of_eq hphase hentered hreturned
  result _ hp := hresult.symm.trans hp

theorem Call.continues_test {c : Call Scan} {flag : Bool} {advances : ℕ} (h : c.phase = .loading) :
    c.Continues (c.test flag advances) := by
  unfold Call.test
  split_ifs
  · exact continues_of_phase h nofun nofun rfl rfl
  · exact ⟨rfl, fun _ => Phase.waiting_of_eq h nofun nofun, nofun⟩
  · exact continues_of_phase h nofun nofun rfl rfl

theorem Call.continues_notify (c : Call Scan) : c.Continues c.notify := by
  unfold Call.notify
  split
  · next hblocked => exact continues_of_phase hblocked nofun nofun rfl rfl
  · exact Call.Continues.refl c

inductive Moves (s : State Scan) (e : Event Scan) (id : ℕ) (c' : Call Scan) : Prop
  | continues {c} : s.calls[id]? = some c → c.Continues c' → Moves s e id c'
  | entered : ¬ c'.phase.Waiting → c'.result = none → Moves s e id c'
  | read {c} : e = .readCounter id → s.calls[id]? = some c → c'.before = s.advances →
      c'.result = c.result → Moves s e id c'
  | returned {c} : e = .getLastScan id → s.calls[id]? = some c → c.phase = .fetching →
      ¬ c'.phase.Waiting → c'.result = some s.lastScanReceived → Moves s e id c'

theorem moves_of_move {id other : ℕ} {phase : Phase} {next : Call Scan → Call Scan} {c' : Call Scan}
    (h : s.move other phase next = some s') (hc' : s'.calls[id]? = some c')
    (hnext : ∀ c : Call Scan, c.phase = phase → c.Continues (next c)) : Moves s e id c' := by
  rcases State.getElem?_move h hc' with hold | ⟨rfl, c, hc, hphase, rfl⟩
  · exact .continues hold (Call.Continues.refl c')
  · exact .continues hc (hnext c hphase)

theorem moves_of_notifyAll {id : ℕ} {c' : Call Scan}
    (h : (s.calls.map Call.notify)[id]? = some c') : Moves s e id c' := by
  rw [List.getElem?_map] at h
  obtain ⟨c, hc, rfl⟩ := Option.map_eq_some_iff.mp h
  exact .continues hc c.continues_notify

theorem moves_of_step {id : ℕ} {c' : Call Scan} (h : step s e = some s')
    (hc' : s'.calls[id]? = some c') : Moves s e id c' := by
  have hsame : ∀ {phase : Phase} {next : Call Scan → Call Scan}, phase ≠ .entered →
      phase ≠ .returned → (∀ c, (next c).before = c.before ∧ (next c).result = c.result) →
      ∀ c : Call Scan, c.phase = phase → c.Continues (next c) :=
    fun hentered hreturned hnext c hphase =>
      Call.continues_of_phase hphase hentered hreturned (hnext c).1 (hnext c).2
  cases e with
  | call =>
    cases h
    rcases getElem?_concat_cases hc' with hold | rfl
    · exact .continues hold (Call.Continues.refl c')
    · refine .entered ?_ rfl
      rintro ⟨hentered, hreturned⟩
      revert hentered hreturned
      cases hconnected : s.isConnected <;> simp [Call.enter]
  | readCounter other =>
    rcases State.getElem?_move h hc' with hold | ⟨rfl, c, hc, -, rfl⟩
    · exact .continues hold (Call.Continues.refl c')
    · exact .read rfl hc rfl rfl
  | look other => exact moves_of_move h hc' (hsame (by simp) (by simp) fun _ => ⟨rfl, rfl⟩)
  | test other => exact moves_of_move h hc' fun _ hphase => Call.continues_test hphase
  | block other => exact moves_of_move h hc' (hsame (by simp) (by simp) fun _ => ⟨rfl, rfl⟩)
  | wake other => exact moves_of_move h hc' (hsame (by simp) (by simp) fun _ => ⟨rfl, rfl⟩)
  | resume other timeout => exact moves_of_move h hc' (hsame (by simp) (by simp) fun _ => ⟨rfl, rfl⟩)
  | getLastScan other =>
    rcases State.getElem?_move h hc' with hold | ⟨rfl, c, hc, hphase, rfl⟩
    · exact .continues hold (Call.Continues.refl c')
    · exact .returned rfl hc hphase (fun hwaiting => hwaiting.2 rfl) rfl
  | store scan =>
    obtain ⟨-, hs'⟩ := Option.ite_none_right_eq_some.mp h
    cases hs'
    exact .continues hc' (Call.Continues.refl c')
  | advance =>
    obtain ⟨-, hs'⟩ := Option.ite_none_right_eq_some.mp h
    cases hs'
    exact .continues hc' (Call.Continues.refl c')
  | notifyAll =>
    obtain ⟨-, hs'⟩ := Option.ite_none_right_eq_some.mp h
    cases hs'
    exact moves_of_notifyAll hc'
  | interrupt =>
    obtain ⟨-, hs'⟩ := Option.ite_none_right_eq_some.mp h
    cases hs'
    exact .continues hc' (Call.Continues.refl c')
  | notifyInterrupted =>
    obtain ⟨-, hs'⟩ := Option.ite_none_right_eq_some.mp h
    cases hs'
    exact moves_of_notifyAll hc'
  | setConnected connected =>
    cases h
    exact .continues hc' (Call.Continues.refl c')

inductive Publishes (s s' : State Scan) : Event Scan → Prop
  | store {scan} : s.publishing = .idle → s'.publishing = .stored → s'.advances = s.advances →
      s'.lastScanReceived = ⟨s.lastScanReceived.number + 1, scan⟩ → Publishes s s' (.store scan)
  | advance : s'.publishing = .advanced → s'.lastScanReceived = s.lastScanReceived →
      Publishes s s' .advance
  | notifyAll : s'.publishing = .idle → s'.lastScanReceived = s.lastScanReceived →
      Publishes s s' .notifyAll
  | nothing {e : Event Scan} : e ≠ .notifyAll → s'.publishing = s.publishing → s'.advances = s.advances →
      s'.lastScanReceived = s.lastScanReceived → Publishes s s' e

theorem publishes_of_move {id : ℕ} {phase : Phase} {next : Call Scan → Call Scan}
    (h : s.move id phase next = some s') (he : e ≠ .notifyAll) : Publishes s s' e := by
  obtain ⟨c, -, -, -, rfl, -⟩ := State.move_cases h
  exact .nothing he rfl rfl rfl

theorem publishes_of_step (h : step s e = some s') : Publishes s s' e := by
  cases e with
  | call =>
    cases h
    exact .nothing nofun rfl rfl rfl
  | readCounter id => exact publishes_of_move h nofun
  | look id => exact publishes_of_move h nofun
  | test id => exact publishes_of_move h nofun
  | block id => exact publishes_of_move h nofun
  | wake id => exact publishes_of_move h nofun
  | resume id timeout => exact publishes_of_move h nofun
  | getLastScan id => exact publishes_of_move h nofun
  | store scan =>
    obtain ⟨hidle, hs'⟩ := Option.ite_none_right_eq_some.mp h
    cases hs'
    exact .store hidle rfl rfl rfl
  | advance =>
    obtain ⟨-, hs'⟩ := Option.ite_none_right_eq_some.mp h
    cases hs'
    exact .advance rfl rfl
  | notifyAll =>
    obtain ⟨-, hs'⟩ := Option.ite_none_right_eq_some.mp h
    cases hs'
    exact .notifyAll rfl rfl
  | interrupt =>
    obtain ⟨-, hs'⟩ := Option.ite_none_right_eq_some.mp h
    cases hs'
    exact .nothing nofun rfl rfl rfl
  | notifyInterrupted =>
    obtain ⟨-, hs'⟩ := Option.ite_none_right_eq_some.mp h
    cases hs'
    exact .nothing nofun rfl rfl rfl
  | setConnected connected =>
    cases h
    exact .nothing nofun rfl rfl rfl

theorem number_le_step (h : step s e = some s') :
    s.lastScanReceived.number ≤ s'.lastScanReceived.number := by
  cases publishes_of_step h with
  | store _ _ _ hlast =>
    rw [hlast]
    exact Nat.le_succ _
  | advance _ hlast => rw [hlast]
  | notifyAll _ hlast => rw [hlast]
  | nothing _ _ _ hlast => rw [hlast]

def Bounded (s : State Scan) : Prop :=
  ∀ (id : ℕ) (c : Call Scan) (p : Published Scan), s.calls[id]? = some c → c.result = some p →
    p.number ≤ s.lastScanReceived.number

theorem bounded_step (h : step s e = some s') (hs : Bounded s) : Bounded s' := by
  intro id c' p hc' hp
  refine le_trans ?_ (number_le_step h)
  cases moves_of_step h hc' with
  | continues hc hcontinues => exact hs id _ p hc (hcontinues.result p hp)
  | entered _ hnone => cases hnone.symm.trans hp
  | read _ hc _ hresult => exact hs id _ p hc (hresult.symm.trans hp)
  | returned _ _ _ _ hlast =>
    cases hlast.symm.trans hp
    exact Nat.le_refl _

structure Later (number length : ℕ) (s : State Scan) : Prop where
  last : number ≤ s.lastScanReceived.number
  result : ∀ id c p, length ≤ id → s.calls[id]? = some c → c.result = some p → number ≤ p.number

theorem later_step {number length : ℕ} (h : step s e = some s') (hs : Later number length s) :
    Later number length s' := by
  refine ⟨hs.last.trans (number_le_step h), fun id c' p hid hc' hp => ?_⟩
  cases moves_of_step h hc' with
  | continues hc hcontinues => exact hs.result id _ p hid hc (hcontinues.result p hp)
  | entered _ hnone => cases hnone.symm.trans hp
  | read _ hc _ hresult => exact hs.result id _ p hid hc (hresult.symm.trans hp)
  | returned _ _ _ _ hlast =>
    cases hlast.symm.trans hp
    exact hs.last

/-- The call reads the counter between the store of a scan and its count, or goes on to fetch a
scan because of the destructor. -/
def Repeats (id : ℕ) (s : State Scan) (e : Event Scan) : Prop :=
  (e = .readCounter id ∧ s.publishing = .stored) ∨
    (e = .getLastScan id ∧ ∃ c ∈ s.calls[id]?, c.Interrupted s.interruptFlag)

instance (id : ℕ) (s : State Scan) (e : Event Scan) [DecidableEq Scan] : Decidable (Repeats id s e) :=
  inferInstanceAs (Decidable (_ ∨ (_ ∧ ∃ c ∈ s.calls[id]?, _ ∧ _)))

structure Newer (number id : ℕ) (s : State Scan) : Prop where
  counted : Counted s
  last : number ≤ s.lastScanReceived.number
  before : ∀ c, s.calls[id]? = some c → c.phase.Waiting → number ≤ c.before
  result : ∀ c p, s.calls[id]? = some c → c.result = some p → number < p.number

theorem newer_step {number id : ℕ} (h : step s e = some s') (hrepeats : ¬ Repeats id s e)
    (hs : Newer number id s) : Newer number id s' := by
  have hnumber := hs.counted.number
  refine ⟨counted_step h hs.counted, hs.last.trans (number_le_step h), ?_, ?_⟩
  · intro c' hc' hwaiting
    cases moves_of_step h hc' with
    | continues hc hcontinues =>
      rw [hcontinues.before]
      exact hs.before _ hc (hcontinues.waiting hwaiting)
    | entered hnot => exact absurd hwaiting hnot
    | read he _ hbefore =>
      have hstored : s.publishing ≠ .stored := fun hstored => hrepeats (Or.inl ⟨he, hstored⟩)
      rw [if_neg hstored, Nat.add_zero] at hnumber
      rw [hbefore, ← hnumber]
      exact hs.last
    | returned _ _ _ hnot => exact absurd hwaiting hnot
  · intro c' p hc' hp
    cases moves_of_step h hc' with
    | continues hc hcontinues => exact hs.result _ p hc (hcontinues.result p hp)
    | entered _ hnone => cases hnone.symm.trans hp
    | read _ hc _ hresult => exact hs.result _ p hc (hresult.symm.trans hp)
    | @returned c he hc hphase _ hlast =>
      cases hlast.symm.trans hp
      have hsound := hs.counted.calls c (List.mem_of_getElem? hc)
      have hbefore := hs.before c hc (Phase.waiting_of_eq hphase nofun nofun)
      have hlt : c.before < c.decided := by
        rcases hsound.reason hphase with hflag | hlt
        · refine Nat.lt_of_le_of_ne (hsound.le_decided hphase) fun heq => ?_
          exact hrepeats (Or.inr ⟨he, c, hc, hflag, heq.symm⟩)
        · exact hlt
      have hdecided := hsound.decided_le hphase
      omega

/-- A call that begins when another has returned does not return an older scan, and returns a newer
one where it neither reads the counter between a store and its count nor is interrupted. -/
theorem later_calls_return_later_scans {empty : Scan} {es fs : List (Event Scan)}
    (hes : exec step (init empty) es = some mid) (hfs : exec step mid fs = some s) {i j : ℕ}
    {c d : Call Scan} {p q : Published Scan} (hc : mid.calls[i]? = some c) (hp : c.result = some p)
    (hd : s.calls[j]? = some d) (hq : d.result = some q) (hlater : mid.calls.length ≤ j) :
    p.number ≤ q.number ∧
      (Meets step (fun t e => ¬ Repeats j t e) mid fs → p.number < q.number) := by
  have hnone : ∀ id, mid.calls.length ≤ id → mid.calls[id]? = none :=
    fun id hid => List.getElem?_eq_none hid
  have hbounded : Bounded mid :=
    exec_keeps (fun _ _ _ hstep ht => bounded_step hstep ht) hes nofun
  have hle : p.number ≤ mid.lastScanReceived.number := hbounded i c p hc hp
  constructor
  · have hmid : Later mid.lastScanReceived.number mid.calls.length mid := by
      refine ⟨Nat.le_refl _, fun id c p hid hget => ?_⟩
      cases (hnone id hid).symm.trans hget
    have hs := exec_keeps (fun _ _ _ hstep ht => later_step hstep ht) hfs hmid
    exact hle.trans (hs.result j d q hlater hd hq)
  · intro hmeets
    have hmid : Newer mid.lastScanReceived.number j mid := by
      refine ⟨exec_keeps (fun _ _ _ hstep ht => counted_step hstep ht) hes (counted_init empty),
        Nat.le_refl _, fun c hget => ?_, fun c p hget => ?_⟩
      · cases (hnone j hlater).symm.trans hget
      · cases (hnone j hlater).symm.trans hget
    have hs := exec_meets (fun _ _ _ hstep hnot ht => newer_step hstep hnot ht) hfs hmeets hmid
    exact Nat.lt_of_le_of_lt hle (hs.result d q hd hq)

def waitsForOne (id : ℕ) : List (Event Unit) :=
  [.call, .readCounter id, .look id, .test id, .block id, .store (), .advance, .notifyAll,
    .resume id false, .look id, .test id, .getLastScan id]

theorem later_calls_return_later_scans_twice : ∃ mid s : State Unit, ∃ (c d : Call Unit)
    (p q : Published Unit), mid.calls[0]? = some c ∧ c.result = some p ∧
      s.calls[1]? = some d ∧ d.result = some q ∧ p.number < q.number := by
  let mid : State Unit := ⟨true, false, 1, ⟨1, ()⟩, .idle,
    [⟨.returned, 0, 1, false, 0, 1, 1, some ⟨1, ()⟩⟩], 1⟩
  let s : State Unit := ⟨true, false, 2, ⟨2, ()⟩, .idle,
    [⟨.returned, 0, 1, false, 0, 1, 1, some ⟨1, ()⟩⟩,
      ⟨.returned, 1, 2, false, 1, 2, 2, some ⟨2, ()⟩⟩], 2⟩
  have hes : exec step (init ()) (waitsForOne 0) = some mid := by decide
  have hfs : exec step mid (waitsForOne 1) = some s := by decide
  refine ⟨mid, s, _, _, _, _, rfl, rfl, rfl, rfl, ?_⟩
  exact (later_calls_return_later_scans hes hfs (i := 0) (j := 1) rfl rfl rfl rfl (by decide)).2
    (by decide)

/-- The second call reads the counter between the store of the scan that the first one returned and
its count. -/
def sameScanTwice : List (Event Unit) :=
  [.call, .readCounter 0, .look 0, .test 0, .block 0, .store (), .advance, .notifyAll,
    .resume 0 false, .look 0, .test 0, .store (), .getLastScan 0, .call, .readCounter 1, .advance,
    .look 1, .test 1, .getLastScan 1]

example : (exec step (init ()) sameScanTwice).map (fun s => s.calls.map Call.result) =
    some [some ⟨2, ()⟩, some ⟨2, ()⟩] := by decide

theorem Call.phase_test_ne {c : Call Scan} {flag : Bool} {advances : ℕ} :
    (c.test flag advances).phase ≠ .blocked := by
  unfold Call.test
  split_ifs <;> nofun

theorem Call.phase_notify_ne {c : Call Scan} : c.notify.phase ≠ .blocked := by
  unfold Call.notify
  split
  · nofun
  · next hblocked => exact hblocked

theorem not_blocked_notifyAll {id : ℕ} {c' : Call Scan}
    (h : (s.calls.map Call.notify)[id]? = some c') : c'.phase ≠ .blocked := by
  rw [List.getElem?_map] at h
  obtain ⟨c, -, rfl⟩ := Option.map_eq_some_iff.mp h
  exact Call.phase_notify_ne

theorem blocked_of_step {id : ℕ} {c' : Call Scan} (h : step s e = some s')
    (hc' : s'.calls[id]? = some c') (hblocked : c'.phase = .blocked) :
    (s.calls[id]? = some c' ∧ e ≠ .notifyAll) ∨
      (e = .block id ∧ ∃ c, s.calls[id]? = some c ∧ c.phase = .blocking ∧ c'.before = c.before) := by
  have hmove : ∀ {other : ℕ} {phase : Phase} {next : Call Scan → Call Scan},
      s.move other phase next = some s' → (∀ c, (next c).phase ≠ .blocked) →
      s.calls[id]? = some c' := by
    intro other phase next hmoved hnext
    rcases State.getElem?_move hmoved hc' with hold | ⟨rfl, c, -, -, rfl⟩
    · exact hold
    · exact absurd hblocked (hnext c)
  cases e with
  | call =>
    cases h
    rcases getElem?_concat_cases hc' with hold | rfl
    · exact Or.inl ⟨hold, by simp⟩
    · revert hblocked
      cases hconnected : s.isConnected <;> simp [Call.enter]
  | readCounter other => exact Or.inl ⟨hmove h (by simp), by simp⟩
  | look other => exact Or.inl ⟨hmove h (by simp), by simp⟩
  | test other => exact Or.inl ⟨hmove h fun _ => Call.phase_test_ne, by simp⟩
  | block other =>
    rcases State.getElem?_move h hc' with hold | ⟨rfl, c, hc, hphase, rfl⟩
    · exact Or.inl ⟨hold, by simp⟩
    · exact Or.inr ⟨rfl, c, hc, hphase, rfl⟩
  | wake other => exact Or.inl ⟨hmove h (by simp), by simp⟩
  | resume other timeout => exact Or.inl ⟨hmove h (by simp), by simp⟩
  | getLastScan other => exact Or.inl ⟨hmove h (by simp), by simp⟩
  | store scan =>
    obtain ⟨-, hs'⟩ := Option.ite_none_right_eq_some.mp h
    cases hs'
    exact Or.inl ⟨hc', by simp⟩
  | advance =>
    obtain ⟨-, hs'⟩ := Option.ite_none_right_eq_some.mp h
    cases hs'
    exact Or.inl ⟨hc', by simp⟩
  | notifyAll =>
    obtain ⟨-, hs'⟩ := Option.ite_none_right_eq_some.mp h
    cases hs'
    exact absurd hblocked (not_blocked_notifyAll hc')
  | interrupt =>
    obtain ⟨-, hs'⟩ := Option.ite_none_right_eq_some.mp h
    cases hs'
    exact Or.inl ⟨hc', by simp⟩
  | notifyInterrupted =>
    obtain ⟨-, hs'⟩ := Option.ite_none_right_eq_some.mp h
    cases hs'
    exact absurd hblocked (not_blocked_notifyAll hc')
  | setConnected connected =>
    cases h
    exact Or.inl ⟨hc', by simp⟩

def Call.Oversleeps (c : Call Scan) (s : State Scan) : Prop :=
  c.phase = .blocked ∧ c.before < s.advances ∧ s.publishing ≠ .advanced

def MissesNotification (s : State Scan) (e : Event Scan) : Prop :=
  ∃ id c, e = .block id ∧ s.calls[id]? = some c ∧ c.phase = .blocking ∧ c.before < s.advances ∧
    s.publishing ≠ .advanced

def NoneOversleeps (s : State Scan) : Prop :=
  ∀ (id : ℕ) (c : Call Scan), s.calls[id]? = some c → ¬ c.Oversleeps s

theorem noneOversleeps_step (h : step s e = some s') (hmisses : ¬ MissesNotification s e)
    (hs : NoneOversleeps s) : NoneOversleeps s' := by
  rintro id c' hc' ⟨hblocked, hlt, hadvanced⟩
  rcases blocked_of_step h hc' hblocked with ⟨hold, hne⟩ | ⟨rfl, c, hc, hphase, hbefore⟩
  · have hawake := hs id c' hold
    cases publishes_of_step h with
    | store hidle _ hadvances => exact hawake ⟨hblocked, hadvances ▸ hlt, by simp [hidle]⟩
    | advance hpublishing => exact hadvanced hpublishing
    | notifyAll => exact hne rfl
    | nothing _ hpublishing hadvances =>
      exact hawake ⟨hblocked, hadvances ▸ hlt, hpublishing ▸ hadvanced⟩
  · cases publishes_of_step h with
    | nothing _ hpublishing hadvances =>
      exact hmisses ⟨id, c, rfl, hc, hphase, by omega, hpublishing ▸ hadvanced⟩

theorem not_noneOversleeps_of_misses (h : step s e = some s') (hmisses : MissesNotification s e) :
    ¬ NoneOversleeps s' := by
  obtain ⟨id, c, rfl, hc, hphase, hlt, hadvanced⟩ := hmisses
  obtain ⟨a, ha, -, -, rfl, -⟩ := State.move_cases h
  cases Option.some.inj (hc.symm.trans ha)
  have hid : id < s.calls.length := (List.getElem?_eq_some_iff.mp hc).1
  intro hs
  exact hs id _ (List.getElem?_set_self hid) ⟨rfl, hlt, hadvanced⟩

/-- No call sleeps beside a scan that it waits for, in exactly the runs in which none blocks behind
the notification of a scan that it has not seen. -/
theorem waiting_calls_awake_iff (empty : Scan) {events : List (Event Scan)}
    (h : exec step (init empty) events = some s) :
    Always step NoneOversleeps (init empty) events ↔
      Meets step (fun s e => ¬ MissesNotification s e) (init empty) events := by
  refine always_iff (I := fun _ => True) (fun _ _ _ _ _ => trivial) ?_ ?_ h trivial nofun
  · exact fun _ _ _ hstep hmisses _ hs => noneOversleeps_step hstep hmisses hs
  · exact fun _ _ _ hstep hmisses _ _ => not_noneOversleeps_of_misses hstep hmisses

def sleepsBesideScan : List (Event Unit) :=
  [.call, .readCounter 0, .look 0, .test 0, .store (), .advance, .notifyAll, .block 0]

theorem waiting_calls_awake_iff_besideScan :
    Always step NoneOversleeps (init ()) sleepsBesideScan ↔
      Meets step (fun s e => ¬ MissesNotification s e) (init ()) sleepsBesideScan :=
  waiting_calls_awake_iff () (s := ⟨true, false, 1, ⟨1, ()⟩, .idle,
    [⟨.blocked, 0, 0, false, 0, 0, 0, none⟩], 1⟩) (by decide)

end R2000Driver.ScanWaiters
