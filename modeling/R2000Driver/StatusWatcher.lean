import Mathlib.Algebra.Group.Nat.Defs
import Mathlib.Data.List.Induction
import R2000Driver.HttpGet

/-!
# The status watcher

`statusWatcherTask` polls the device: a poll that is refused is busy, any other
one comes back with a result and parameters. The hit counter is 32 bits wide
and goes on counting while the device is disconnected; the threshold is 64
bits wide. Each iteration gives the events that it fires, in order.

`failuresSinceSuccess` counts the failures of a history without a bound. The
flag is set exactly after a success with fewer failures behind it than the
threshold, and that is also what survives the wrap of the counter.
-/

namespace R2000Driver
open Http

/-- A poll: `none` when the device is busy, otherwise the result of the request. -/
abbrev Poll (P : Type) := Option (RequestResult × P)

inductive StatusEvent (P : Type)
  | status (parameters : P)
  | connected
  | disconnected
  deriving DecidableEq, Repr

structure StatusWatcher (P : Type) where
  disconnectionTriggerThreshold : UInt64
  disconnectionHitCount : UInt32
  isConnected : Bool
  lastStatusReceived : Option P
  deriving DecidableEq, Repr

namespace StatusWatcher
variable {P : Type}

def init : StatusWatcher P := ⟨3, 0, false, none⟩

def setDisconnectionTriggerThreshold (w : StatusWatcher P) (threshold : Int64) : StatusWatcher P :=
  { w with disconnectionTriggerThreshold := threshold.toUInt64 }

def started (threshold : ℕ) : StatusWatcher P :=
  init.setDisconnectionTriggerThreshold (Int64.ofNat threshold)

def iteration (w : StatusWatcher P) : Poll P → StatusWatcher P × List (StatusEvent P)
  | none => (w, [])
  | some (requestResult, obtainedParameters) =>
    if requestResult = .success then
      ({ w with
          disconnectionHitCount := 0
          lastStatusReceived := some obtainedParameters
          isConnected := true },
        .status obtainedParameters :: if w.isConnected then [] else [.connected])
    else
      let disconnectionHitCount := w.disconnectionHitCount + 1
      if w.disconnectionTriggerThreshold ≤ disconnectionHitCount.toUInt64 then
        ({ w with
            disconnectionHitCount := disconnectionHitCount
            isConnected := false },
          if w.isConnected then [.disconnected] else [])
      else ({ w with disconnectionHitCount := disconnectionHitCount }, [])

def statusWatcherTask (w : StatusWatcher P) :
    List (Poll P) → StatusWatcher P × List (List (StatusEvent P))
  | [] => (w, [])
  | poll :: polls =>
    let first := w.iteration poll
    let rest := first.1.statusWatcherTask polls
    (rest.1, first.2 :: rest.2)

theorem statusWatcherTask_append (w : StatusWatcher P) (before after : List (Poll P)) :
    w.statusWatcherTask (before ++ after) =
      (((w.statusWatcherTask before).1.statusWatcherTask after).1, (w.statusWatcherTask before).2 ++
        ((w.statusWatcherTask before).1.statusWatcherTask after).2) := by
  induction before generalizing w with
  | nil => rfl
  | cons poll before ih => simp [statusWatcherTask, ih]

theorem statusWatcherTask_concat (w : StatusWatcher P) (polls : List (Poll P)) (poll : Poll P) :
    w.statusWatcherTask (polls ++ [poll]) =
      (((w.statusWatcherTask polls).1.iteration poll).1,
        (w.statusWatcherTask polls).2 ++ [((w.statusWatcherTask polls).1.iteration poll).2]) :=
  w.statusWatcherTask_append polls [poll]

theorem length_statusWatcherTask (w : StatusWatcher P) (polls : List (Poll P)) :
    (w.statusWatcherTask polls).2.length = polls.length := by
  induction polls generalizing w with
  | nil => rfl
  | cons poll polls ih => simp [statusWatcherTask, ih]

theorem getElem?_statusWatcherTask (w : StatusWatcher P) (before after : List (Poll P))
    (poll : Poll P) : (w.statusWatcherTask (before ++ poll :: after)).2[before.length]? =
      some ((w.statusWatcherTask before).1.iteration poll).2 := by
  rw [statusWatcherTask_append, List.getElem?_append_right (by rw [length_statusWatcherTask]),
    length_statusWatcherTask, Nat.sub_self]
  rfl

end StatusWatcher

section History
variable {P : Type}

def Poll.isSuccess : Poll P → Bool
  | some (.success, _) => true
  | _ => false

def Poll.isFailure : Poll P → Bool
  | none => false
  | some (result, _) => result != .success

/-- The number of failures since the last success, busy polls left out. -/
def failuresSinceSuccess (polls : List (Poll P)) : ℕ :=
  (polls.reverse.takeWhile fun poll => !poll.isSuccess).countP Poll.isFailure

def SucceededOnce (polls : List (Poll P)) : Prop := ∃ poll ∈ polls, poll.isSuccess = true

theorem Poll.isFailure_of_ne {result : RequestResult} (h : result ≠ .success) (parameters : P) :
    Poll.isFailure (some (result, parameters)) = true := by
  simpa [Poll.isFailure] using h

theorem Poll.isSuccess_of_ne {result : RequestResult} (h : result ≠ .success) (parameters : P) :
    Poll.isSuccess (some (result, parameters)) = false := by
  cases result with
  | success => exact absurd rfl h
  | _ => rfl

theorem succeededOnce_concat (polls : List (Poll P)) (poll : Poll P) :
    SucceededOnce (polls ++ [poll]) ↔ SucceededOnce polls ∨ poll.isSuccess = true := by
  simp [SucceededOnce, or_and_right, exists_or]

theorem failuresSinceSuccess_busy (polls : List (Poll P)) :
    failuresSinceSuccess (polls ++ [none]) = failuresSinceSuccess polls := by
  simp [failuresSinceSuccess, Poll.isSuccess, Poll.isFailure]

theorem failuresSinceSuccess_success (polls : List (Poll P)) (parameters : P) :
    failuresSinceSuccess (polls ++ [some (.success, parameters)]) = 0 := by
  simp [failuresSinceSuccess, Poll.isSuccess]

theorem failuresSinceSuccess_failure (polls : List (Poll P)) {result : RequestResult}
    (h : result ≠ .success) (parameters : P) :
    failuresSinceSuccess (polls ++ [some (result, parameters)]) = failuresSinceSuccess polls + 1 := by
  simp [failuresSinceSuccess, Poll.isSuccess_of_ne h, Poll.isFailure_of_ne h]

end History

section Follows
variable {P : Type}

structure Follows (N : ℕ) (polls : List (Poll P)) (w : StatusWatcher P) : Prop where
  threshold : w.disconnectionTriggerThreshold.toNat = N
  count : w.disconnectionHitCount.toNat = failuresSinceSuccess polls % 2 ^ 32
  connected : w.isConnected = true ↔ SucceededOnce polls ∧ failuresSinceSuccess polls < N

theorem Follows.started {N : ℕ} (hN : N < 2 ^ 32) :
    Follows N [] (StatusWatcher.started N : StatusWatcher P) where
  threshold := UInt64.toNat_ofNat_of_lt' (by simp only [UInt64.size]; omega)
  count := rfl
  connected := by simp [StatusWatcher.started, StatusWatcher.init,
    StatusWatcher.setDisconnectionTriggerThreshold, SucceededOnce]

theorem Follows.reaches_iff {N : ℕ} {polls : List (Poll P)} {w : StatusWatcher P}
    (h : Follows N polls w) :
    w.disconnectionTriggerThreshold ≤ (w.disconnectionHitCount + 1).toUInt64 ↔
      N ≤ (failuresSinceSuccess polls + 1) % 2 ^ 32 := by
  rw [UInt64.le_iff_toNat_le, h.threshold, UInt32.toNat_toUInt64, UInt32.toNat_add, h.count]
  simp

theorem Follows.iteration {N : ℕ} (h1 : 1 ≤ N) (hN : N < 2 ^ 32) {polls : List (Poll P)}
    {w : StatusWatcher P} (h : Follows N polls w) (poll : Poll P) :
    Follows N (polls ++ [poll]) (w.iteration poll).1 := by
  have hreaches := h.reaches_iff
  cases poll with
  | none =>
    refine ⟨h.threshold, ?_, ?_⟩
    · rw [failuresSinceSuccess_busy]
      exact h.count
    · rw [failuresSinceSuccess_busy, succeededOnce_concat]
      simpa [StatusWatcher.iteration, Poll.isSuccess] using h.connected
  | some answer =>
    obtain ⟨result, parameters⟩ := answer
    by_cases hs : result = .success
    · subst hs
      refine ⟨h.threshold, ?_, ?_⟩
      · rw [failuresSinceSuccess_success]
        rfl
      · rw [failuresSinceSuccess_success, succeededOnce_concat]
        simp only [StatusWatcher.iteration, ↓reduceIte, Poll.isSuccess, or_true, true_and, true_iff]
        omega
    · have hcount : (w.disconnectionHitCount + 1).toNat =
          (failuresSinceSuccess polls + 1) % 2 ^ 32 := by
        rw [UInt32.toNat_add, h.count]
        simp
      have hconnected := h.connected
      by_cases hr : w.disconnectionTriggerThreshold ≤ (w.disconnectionHitCount + 1).toUInt64
      · have hlarge := hreaches.mp hr
        simp only [StatusWatcher.iteration, if_neg hs, if_pos hr]
        refine ⟨h.threshold, ?_, ?_⟩
        · rw [failuresSinceSuccess_failure polls hs]
          exact hcount
        · rw [failuresSinceSuccess_failure polls hs]
          simp only [Bool.false_eq_true, false_iff, not_and]
          omega
      · have hsmall := mt hreaches.mpr hr
        simp only [StatusWatcher.iteration, if_neg hs, if_neg hr]
        refine ⟨h.threshold, ?_, ?_⟩
        · rw [failuresSinceSuccess_failure polls hs]
          exact hcount
        · rw [failuresSinceSuccess_failure polls hs, succeededOnce_concat, Poll.isSuccess_of_ne hs,
            hconnected]
          simp only [Bool.false_eq_true, or_false]
          -- A count that does not reach the threshold is not one short of it either.
          have : failuresSinceSuccess polls < N ↔ failuresSinceSuccess polls + 1 < N := by omega
          rw [this]

theorem Follows.task {N : ℕ} (h1 : 1 ≤ N) (hN : N < 2 ^ 32) (polls : List (Poll P)) :
    Follows N polls ((StatusWatcher.started N : StatusWatcher P).statusWatcherTask polls).1 := by
  induction polls using List.reverseRecOn with
  | nil => exact Follows.started hN
  | append_singleton polls poll ih =>
    rw [StatusWatcher.statusWatcherTask_concat]
    exact ih.iteration h1 hN poll

theorem Follows.disconnected_iff {N : ℕ} (hN : N < 2 ^ 32) {polls : List (Poll P)}
    {w : StatusWatcher P} (h : Follows N polls w) (poll : Poll P) :
    .disconnected ∈ (w.iteration poll).2 ↔
      poll.isFailure = true ∧ failuresSinceSuccess (polls ++ [poll]) = N ∧ SucceededOnce polls := by
  have hreaches := h.reaches_iff
  have hconnected := h.connected
  cases poll with
  | none => simp [StatusWatcher.iteration, Poll.isFailure]
  | some answer =>
    obtain ⟨result, parameters⟩ := answer
    by_cases hs : result = .success
    · subst hs
      simp only [StatusWatcher.iteration, ↓reduceIte, Poll.isFailure, bne_self_eq_false,
        Bool.false_eq_true, false_and, iff_false]
      split_ifs <;> simp
    · rw [failuresSinceSuccess_failure polls hs]
      simp only [Poll.isFailure_of_ne hs, true_and]
      have hfired : .disconnected ∈ (w.iteration (some (result, parameters))).2 ↔
          N ≤ (failuresSinceSuccess polls + 1) % 2 ^ 32 ∧ w.isConnected = true := by
        rw [← hreaches]
        simp only [StatusWatcher.iteration, if_neg hs]
        split_ifs with hr hw
        · exact ⟨fun _ => ⟨hr, hw⟩, fun _ => List.mem_singleton.mpr rfl⟩
        · exact ⟨fun hf => absurd hf List.not_mem_nil, fun hf => absurd hf.2 hw⟩
        · exact ⟨fun hf => absurd hf List.not_mem_nil, fun hf => absurd hf.1 hr⟩
      rw [hfired, hconnected]
      constructor
      · intro hf
        exact ⟨by omega, hf.2.1⟩
      · intro hf
        exact ⟨by omega, hf.2, by omega⟩

theorem StatusWatcher.iteration_success (w : StatusWatcher P) (parameters : P) :
    (w.iteration (some (.success, parameters))).2 = [.status parameters] ∨
      (w.iteration (some (.success, parameters))).2 = [.status parameters, .connected] := by
  simp only [iteration, ↓reduceIte]
  split_ifs
  · exact Or.inl rfl
  · exact Or.inr rfl

end Follows

section Alternation
variable {P : Type}

def StatusEvent.ofConnection : StatusEvent P → Bool
  | .status _ => false
  | .connected => true
  | .disconnected => true

def connectionEvents (events : List (List (StatusEvent P))) : List (StatusEvent P) :=
  events.flatten.filter StatusEvent.ofConnection

def Alternates (events : List (StatusEvent P)) : Prop :=
  ∀ i < events.length, events[i]? = some (if i % 2 = 0 then .connected else .disconnected)

theorem connectionEvents_concat (events : List (List (StatusEvent P)))
    (fired : List (StatusEvent P)) : connectionEvents (events ++ [fired]) =
      connectionEvents events ++ fired.filter StatusEvent.ofConnection := by
  simp [connectionEvents]

theorem Alternates.concat {events : List (StatusEvent P)} (h : Alternates events) {e : StatusEvent P}
    (he : e = if events.length % 2 = 0 then .connected else .disconnected) :
    Alternates (events ++ [e]) := by
  intro i hi
  rw [List.length_append, List.length_singleton] at hi
  by_cases hlt : i < events.length
  · rw [List.getElem?_append_left hlt]
    exact h i hlt
  · obtain rfl : i = events.length := by omega
    rw [List.getElem?_concat_length, he]

theorem Alternates.getLast?_eq_connected {events : List (StatusEvent P)} (h : Alternates events) :
    events.getLast? = some .connected ↔ events.length % 2 = 1 := by
  rw [List.getLast?_eq_getElem?]
  cases hl : events.length with
  | zero => simp [List.length_eq_zero_iff.mp hl]
  | succ n =>
    rw [Nat.add_sub_cancel, h n (by omega)]
    split_ifs with hn
    · simp
      omega
    · simp
      omega

structure Tracks (events : List (StatusEvent P)) (w : StatusWatcher P) : Prop where
  alternates : Alternates events
  connected : w.isConnected = true ↔ events.length % 2 = 1

theorem Tracks.iteration {events : List (StatusEvent P)} {w : StatusWatcher P}
    (h : Tracks events w) (poll : Poll P) :
    Tracks (events ++ (w.iteration poll).2.filter StatusEvent.ofConnection) (w.iteration poll).1 := by
  have hc := h.connected
  cases poll with
  | none => simpa [StatusWatcher.iteration] using h
  | some answer =>
    obtain ⟨result, parameters⟩ := answer
    simp only [StatusWatcher.iteration]
    split_ifs with hs hw hr hw
    · exact ⟨by simpa [StatusEvent.ofConnection] using h.alternates,
        by simpa [StatusEvent.ofConnection] using hc.mp hw⟩
    · have heven : events.length % 2 = 0 := by
        rw [hc] at hw
        omega
      refine ⟨h.alternates.concat (by rw [heven]; rfl), ?_⟩
      change true = true ↔ (events ++ [StatusEvent.connected]).length % 2 = 1
      rw [List.length_append, List.length_singleton]
      exact ⟨fun _ => by omega, fun _ => rfl⟩
    · have hodd := hc.mp hw
      refine ⟨h.alternates.concat (by rw [hodd]; rfl), ?_⟩
      change false = true ↔ (events ++ [StatusEvent.disconnected]).length % 2 = 1
      rw [List.length_append, List.length_singleton]
      exact ⟨fun hf => absurd hf Bool.false_ne_true, fun _ => by omega⟩
    · refine ⟨by simpa using h.alternates, ?_⟩
      rw [hc] at hw
      simpa using hw
    · exact ⟨by simpa using h.alternates, by simpa using hc⟩

theorem Tracks.started (N : ℕ) : Tracks [] (StatusWatcher.started N : StatusWatcher P) where
  alternates i hi := absurd hi (Nat.not_lt_zero i)
  connected := by simp [StatusWatcher.started, StatusWatcher.init,
    StatusWatcher.setDisconnectionTriggerThreshold]

theorem Tracks.task (N : ℕ) (polls : List (Poll P)) :
    Tracks (connectionEvents ((StatusWatcher.started N).statusWatcherTask polls).2)
      ((StatusWatcher.started N).statusWatcherTask polls).1 := by
  induction polls using List.reverseRecOn with
  | nil => exact Tracks.started N
  | append_singleton polls poll ih =>
    rw [StatusWatcher.statusWatcherTask_concat, connectionEvents_concat]
    exact ih.iteration poll

end Alternation

section
variable {P : Type}

/-- The events of the task against the history of its polls, for every threshold that the
counter can reach. -/
theorem statusWatcherTask_follows_history {N : ℕ} (h1 : 1 ≤ N) (hN : N < 2 ^ 32)
    (polls : List (Poll P)) :
    Alternates (connectionEvents ((StatusWatcher.started N).statusWatcherTask polls).2) ∧
    ∀ (before : List (Poll P)) (poll : Poll P) (after : List (Poll P)),
      polls = before ++ poll :: after →
      ∃ fired, ((StatusWatcher.started N).statusWatcherTask polls).2[before.length]? = some fired ∧
        (.disconnected ∈ fired ↔ poll.isFailure = true ∧
          failuresSinceSuccess (before ++ [poll]) = N ∧ SucceededOnce before) ∧
        (∀ parameters, poll = some (.success, parameters) →
          fired = [.status parameters] ∨ fired = [.status parameters, .connected]) ∧
        (((StatusWatcher.started N).statusWatcherTask (before ++ [poll])).1.isConnected = true ↔
          (connectionEvents
            ((StatusWatcher.started N).statusWatcherTask (before ++ [poll])).2).getLast? =
              some .connected) := by
  refine ⟨(Tracks.task N polls).alternates, ?_⟩
  intro before poll after hpolls
  have hbefore := Follows.task (P := P) h1 hN before
  have htracks := Tracks.task N (before ++ [poll])
  refine ⟨_, hpolls ▸ StatusWatcher.getElem?_statusWatcherTask _ before after poll,
    hbefore.disconnected_iff hN poll, ?_, ?_⟩
  · intro parameters hpoll
    subst hpoll
    exact StatusWatcher.iteration_success _ parameters
  · rw [htracks.connected, htracks.alternates.getLast?_eq_connected]

theorem statusWatcherTask_follows_history_two :
    ∃ fired, ((StatusWatcher.started 2).statusWatcherTask
        [some (.success, ()), some (.failed, ()), none, some (.timeout, ())]).2[3]? = some fired ∧
      .disconnected ∈ fired := by
  obtain ⟨fired, hfired, hiff, -⟩ :=
    (statusWatcherTask_follows_history (N := 2) (by decide) (by decide) _).2
      [some (.success, ()), some (.failed, ()), none] (some (.timeout, ())) [] rfl
  exact ⟨fired, hfired, hiff.mpr ⟨rfl, rfl, _, List.mem_cons_self, rfl⟩⟩

end
end R2000Driver
