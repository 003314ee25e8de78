import Mathlib.Data.List.Count
import R2000Driver.Lists
import R2000Driver.Runs

/-!
# The callbacks of the connection

`addOnDeviceConnectedCallback` loads the flag, calls the callback if the device
is connected, and takes the lock to append it to the list. The watcher takes the
same lock, exchanges the flag and fires the callbacks in the list. Any number of
registrations run beside the watcher, and only the lock orders their steps.

A period of connection begins with each exchange from false to true. `periods`
and `fired` count the periods that have begun and those whose callbacks have
been called; `loadedIn` and `pushedIn` are the periods that had begun at a load
and at the end of a registration. They and the list of calls are read by the
statements only. The calls are known at any time (`Accounted.calls`), so a
registration is missed exactly when a period begins between its load and its
end.
-/

namespace R2000Driver.ConnectionCallbacks
open Runs

inductive RegistrationPhase
  | invoking
  | locking
  | holding
  | listed
  deriving DecidableEq, Repr

structure Registration where
  phase : RegistrationPhase
  loaded : Bool
  loadedIn : ℕ
  pushedIn : ℕ
  deriving DecidableEq, Repr

inductive WatcherPhase
  | idle
  | locked
  | firing
  | leaving
  deriving DecidableEq, Repr

inductive Holder
  | watcher
  | registration (id : ℕ)
  deriving DecidableEq, Repr

structure State where
  isConnected : Bool
  deviceConnectedCallbackLock : Option Holder
  watcher : WatcherPhase
  registrations : List Registration
  onDeviceConnectedCallbacks : List ℕ
  periods : ℕ
  fired : ℕ
  calls : List (ℕ × ℕ)
  deriving DecidableEq, Repr

def init : State where
  isConnected := false
  deviceConnectedCallbackLock := none
  watcher := .idle
  registrations := []
  onDeviceConnectedCallbacks := []
  periods := 0
  fired := 0
  calls := []

inductive Event
  /-- `addOnDeviceConnectedCallback`, up to the load, and its further steps. -/
  | load
  | invoke (id : ℕ)
  | lock (id : ℕ)
  | pushBack (id : ℕ)
  | lockCallbacks
  | exchange (connected : Bool)
  | fireDeviceConnectionEvent
  | unlockCallbacks
  deriving DecidableEq, Repr

def step (s : State) : Event → Option State
  | .load =>
    some { s with registrations := s.registrations ++ [{
      phase := if s.isConnected then .invoking else .locking
      loaded := s.isConnected
      loadedIn := s.periods
      pushedIn := 0 }] }
  | .invoke id =>
    (s.registrations[id]?).bind fun r =>
      if r.phase = .invoking then
        some { s with
          registrations := s.registrations.set id { r with phase := .locking }
          calls := s.calls ++ [(id, r.loadedIn)] }
      else none
  | .lock id =>
    (s.registrations[id]?).bind fun r =>
      if r.phase = .locking ∧ s.deviceConnectedCallbackLock = none then
        some { s with
          deviceConnectedCallbackLock := some (.registration id)
          registrations := s.registrations.set id { r with phase := .holding } }
      else none
  | .pushBack id =>
    (s.registrations[id]?).bind fun r =>
      if r.phase = .holding then
        some { s with
          deviceConnectedCallbackLock := none
          registrations := s.registrations.set id { r with phase := .listed, pushedIn := s.periods }
          onDeviceConnectedCallbacks := s.onDeviceConnectedCallbacks ++ [id] }
      else none
  | .lockCallbacks =>
    if s.watcher = .idle ∧ s.deviceConnectedCallbackLock = none then
      some { s with deviceConnectedCallbackLock := some .watcher, watcher := .locked }
    else none
  | .exchange connected =>
    if s.watcher = .locked then
      if connected = true ∧ s.isConnected = false then
        some { s with isConnected := true, watcher := .firing, periods := s.periods + 1 }
      else some { s with isConnected := connected, watcher := .leaving }
    else none
  | .fireDeviceConnectionEvent =>
    if s.watcher = .firing then
      some { s with
        watcher := .leaving
        fired := s.fired + 1
        calls := s.calls ++ s.onDeviceConnectedCallbacks.map fun id => (id, s.periods) }
    else none
  | .unlockCallbacks =>
    -- a failure below the threshold exchanges nothing
    if s.watcher = .locked ∨ s.watcher = .leaving then
      some { s with deviceConnectedCallbackLock := none, watcher := .idle }
    else none

def Registration.callsFor (r : Registration) (fired k : ℕ) : ℕ :=
  (if r.loaded = true ∧ r.phase ≠ .invoking ∧ k = r.loadedIn then 1 else 0) +
    if r.phase = .listed ∧ r.pushedIn < k ∧ k ≤ fired then 1 else 0

def Registration.timesListed (r : Registration) : ℕ := if r.phase = .listed then 1 else 0

structure Registration.Placed (r : Registration) (s : State) (id : ℕ) : Prop where
  loaded : r.phase = .invoking → r.loaded = true
  loadedIn_le : r.loadedIn ≤ s.periods
  le_pushedIn : r.phase = .listed → r.loadedIn ≤ r.pushedIn
  pushedIn_le : r.phase = .listed → r.pushedIn ≤ s.fired
  holds : r.phase = .holding → s.deviceConnectedCallbackLock = some (.registration id)

structure Accounted (s : State) : Prop where
  calls : ∀ id k, s.calls.count (id, k) =
    (s.registrations[id]?).elim 0 fun r => r.callsFor s.fired k
  listed : ∀ id, s.onDeviceConnectedCallbacks.count id =
    (s.registrations[id]?).elim 0 Registration.timesListed
  placed : ∀ id (r : Registration), s.registrations[id]? = some r → r.Placed s id
  fired : s.periods = s.fired + if s.watcher = .firing then 1 else 0
  watcherHolds : s.watcher ≠ .idle → s.deviceConnectedCallbackLock = some .watcher

theorem accounted_init : Accounted init := by
  constructor
  · intro id k
    rfl
  · intro id
    rfl
  · intro id r hr
    cases hr
  · rfl
  · intro h
    exact absurd rfl h

theorem count_map_period (callbacks : List ℕ) (period id k : ℕ) :
    (callbacks.map fun id => (id, period)).count (id, k) =
      if k = period then callbacks.count id else 0 := by
  induction callbacks with
  | nil => simp
  | cons head callbacks ih =>
    rw [List.map_cons, List.count_cons, ih, List.count_cons]
    by_cases hk : k = period
    · simp [hk, Prod.ext_iff]
    · have hne : ((head, period) == (id, k)) = false := by
        rw [beq_eq_false_iff_ne]
        intro heq
        exact hk (Prod.ext_iff.mp heq).2.symm
      rw [if_neg hk, if_neg hk, hne]
      rfl

theorem Accounted.set {s s' : State} (h : Accounted s) {id : ℕ} {r r' : Registration}
    (hr : s.registrations[id]? = some r) (hset : s'.registrations = s.registrations.set id r')
    (hperiods : s'.periods = s.periods) (hfired : s'.fired = s.fired)
    (hwatcher : s'.watcher = s.watcher)
    (hcalls : ∀ i k, s'.calls.count (i, k) =
      if i = id then r'.callsFor s.fired k else s.calls.count (i, k))
    (hlisted : ∀ i, s'.onDeviceConnectedCallbacks.count i =
      if i = id then r'.timesListed else s.onDeviceConnectedCallbacks.count i)
    (hplaced : r'.Placed s' id)
    (hholds : ∀ i q, i ≠ id → s.registrations[i]? = some q → q.phase = .holding →
      s'.deviceConnectedCallbackLock = some (.registration i))
    (hlock : s.watcher ≠ .idle → s'.deviceConnectedCallbackLock = some .watcher) : Accounted s' := by
  have hid : id < s.registrations.length := (List.getElem?_eq_some_iff.mp hr).1
  have hself : s'.registrations[id]? = some r' := by
    rw [hset, List.getElem?_set_self hid]
  have hother : ∀ i, i ≠ id → s'.registrations[i]? = s.registrations[i]? := by
    intro i hi
    rw [hset, List.getElem?_set_ne (Ne.symm hi)]
  constructor
  · intro i k
    rw [hcalls, hfired]
    by_cases hi : i = id
    · rw [if_pos hi, hi, hself]
      rfl
    · rw [if_neg hi, hother i hi, h.calls]
  · intro i
    rw [hlisted]
    by_cases hi : i = id
    · rw [if_pos hi, hi, hself]
      rfl
    · rw [if_neg hi, hother i hi, h.listed]
  · intro i q hq
    by_cases hi : i = id
    · subst hi
      cases Option.some.inj (hself.symm.trans hq)
      exact hplaced
    · rw [hother i hi] at hq
      have hp := h.placed i q hq
      refine ⟨hp.loaded, hperiods ▸ hp.loadedIn_le, hp.le_pushedIn, ?_, hholds i q hi hq⟩
      rw [hfired]
      exact hp.pushedIn_le
  · rw [hperiods, hfired, hwatcher, h.fired]
  · rw [hwatcher]
    exact hlock

theorem Accounted.watch {s s' : State} (h : Accounted s) (hregistrations : s'.registrations = s.registrations)
    (hcallbacks : s'.onDeviceConnectedCallbacks = s.onDeviceConnectedCallbacks)
    (hcalls : s'.calls = s.calls) (hperiods : s.periods ≤ s'.periods) (hfired : s'.fired = s.fired)
    (hlock : ∀ id, s.deviceConnectedCallbackLock = some (.registration id) →
      s'.deviceConnectedCallbackLock = some (.registration id))
    (hfiring : s'.periods = s'.fired + if s'.watcher = .firing then 1 else 0)
    (hwatcher : s'.watcher ≠ .idle → s'.deviceConnectedCallbackLock = some .watcher) : Accounted s' := by
  constructor
  · rw [hcalls, hregistrations, hfired]
    exact h.calls
  · rw [hcallbacks, hregistrations]
    exact h.listed
  · intro id r hr
    rw [hregistrations] at hr
    have hp := h.placed id r hr
    refine ⟨hp.loaded, Nat.le_trans hp.loadedIn_le hperiods, hp.le_pushedIn, ?_, fun hh => hlock id (hp.holds hh)⟩
    rw [hfired]
    exact hp.pushedIn_le
  · exact hfiring
  · exact hwatcher

theorem accounted_load {s s' : State} (h : step s .load = some s') (hs : Accounted s) :
    Accounted s' := by
  cases h
  constructor
  · intro id k
    rw [hs.calls]
    refine (elim_concat ?_ s.registrations id).symm
    cases s.isConnected <;> simp [Registration.callsFor]
  · intro id
    rw [hs.listed]
    refine (elim_concat ?_ s.registrations id).symm
    cases s.isConnected <;> simp [Registration.timesListed]
  · intro id r hr
    rcases getElem?_concat_cases hr with hold | rfl
    · have hp := hs.placed id r hold
      exact ⟨hp.loaded, hp.loadedIn_le, hp.le_pushedIn, hp.pushedIn_le, hp.holds⟩
    · refine ⟨?_, Nat.le_refl _, ?_, ?_, ?_⟩ <;>
      · intro hphase
        cases hconnected : s.isConnected <;> simp [hconnected] at hphase ⊢
  · exact hs.fired
  · exact hs.watcherHolds

theorem accounted_invoke {s s' : State} {id : ℕ} (h : step s (.invoke id) = some s')
    (hs : Accounted s) : Accounted s' := by
  obtain ⟨r, hr, hphase, rfl⟩ := exists_of_guarded h
  have hp := hs.placed id r hr
  have hbefore : ∀ k, s.calls.count (id, k) = 0 := by
    intro k
    rw [hs.calls, hr]
    simp [Registration.callsFor, hphase]
  refine hs.set hr rfl rfl rfl rfl ?_ ?_ ⟨nofun, hp.loadedIn_le, nofun, nofun, nofun⟩ ?_ hs.watcherHolds
  · intro i k
    rw [List.count_append, List.count_singleton]
    by_cases hi : i = id
    · rw [if_pos hi, hi, hbefore, Nat.zero_add]
      by_cases hk : k = r.loadedIn
      · simp [Registration.callsFor, hp.loaded hphase, hk]
      · simp [Registration.callsFor, hk, Ne.symm hk]
    · have hne : ((id, r.loadedIn) == (i, k)) = false := by
        rw [beq_eq_false_iff_ne]
        intro heq
        exact hi (Prod.ext_iff.mp heq).1.symm
      rw [if_neg hi, hne]
      rfl
  · intro i
    by_cases hi : i = id
    · rw [if_pos hi, hi, hs.listed, hr]
      simp [Registration.timesListed, hphase]
    · rw [if_neg hi]
  · intro i q hi hq hholding
    exact (hs.placed i q hq).holds hholding

theorem accounted_lock {s s' : State} {id : ℕ} (h : step s (.lock id) = some s')
    (hs : Accounted s) : Accounted s' := by
  obtain ⟨r, hr, ⟨hphase, hfree⟩, rfl⟩ := exists_of_guarded h
  have hp := hs.placed id r hr
  refine hs.set hr rfl rfl rfl rfl ?_ ?_ ⟨nofun, hp.loadedIn_le, nofun, nofun, fun _ => rfl⟩ ?_ ?_
  · intro i k
    by_cases hi : i = id
    · rw [if_pos hi, hi, hs.calls, hr]
      simp [Registration.callsFor, hphase]
    · rw [if_neg hi]
  · intro i
    by_cases hi : i = id
    · rw [if_pos hi, hi, hs.listed, hr]
      simp [Registration.timesListed, hphase]
    · rw [if_neg hi]
  · intro i q hi hq hholding
    cases hfree.symm.trans ((hs.placed i q hq).holds hholding)
  · intro hwatcher
    cases hfree.symm.trans (hs.watcherHolds hwatcher)

theorem Accounted.fired_eq {s : State} (hs : Accounted s) {id : ℕ} {r : Registration}
    (hr : s.registrations[id]? = some r) (hphase : r.phase = .holding) : s.fired = s.periods := by
  have hwatcher : s.watcher = .idle := by
    by_contra hbusy
    cases (hs.watcherHolds hbusy).symm.trans ((hs.placed id r hr).holds hphase)
  rw [hs.fired, hwatcher]
  rfl

theorem accounted_pushBack {s s' : State} {id : ℕ} (h : step s (.pushBack id) = some s')
    (hs : Accounted s) : Accounted s' := by
  obtain ⟨r, hr, hphase, rfl⟩ := exists_of_guarded h
  have hp := hs.placed id r hr
  have hfired := hs.fired_eq hr hphase
  have hlock := hp.holds hphase
  refine hs.set hr rfl rfl rfl rfl ?_ ?_
    ⟨nofun, hp.loadedIn_le, fun _ => hp.loadedIn_le, fun _ => Nat.le_of_eq hfired.symm, nofun⟩ ?_ ?_
  · intro i k
    by_cases hi : i = id
    · rw [if_pos hi, hi, hs.calls, hr]
      have hlate : ¬ (s.periods < k ∧ k ≤ s.fired) := by omega
      simp [Registration.callsFor, hphase, hlate]
    · rw [if_neg hi]
  · intro i
    rw [List.count_append, List.count_singleton]
    by_cases hi : i = id
    · rw [if_pos hi, hi, hs.listed, hr]
      simp [Registration.timesListed, hphase]
    · have hne : (id == i) = false := beq_eq_false_iff_ne.mpr (Ne.symm hi)
      rw [if_neg hi, hne]
      rfl
  · intro i q hi hq hholding
    cases hlock.symm.trans ((hs.placed i q hq).holds hholding)
    exact absurd rfl hi
  · intro hwatcher
    cases hlock.symm.trans (hs.watcherHolds hwatcher)

theorem accounted_fire {s s' : State} (h : step s .fireDeviceConnectionEvent = some s')
    (hs : Accounted s) : Accounted s' := by
  obtain ⟨hphase, hs'⟩ := Option.ite_none_right_eq_some.mp h
  cases hs'
  have hperiods : s.periods = s.fired + 1 := by
    rw [hs.fired, hphase]
    rfl
  constructor
  · intro id k
    rw [List.count_append, count_map_period, hs.calls, hs.listed]
    cases hr : s.registrations[id]? with
    | none => simp
    | some r =>
      have hpushed := (hs.placed id r hr).pushedIn_le
      simp only [Option.elim_some, Registration.callsFor, Registration.timesListed]
      by_cases hlisted : r.phase = .listed
      · have hle := hpushed hlisted
        simp only [hlisted, true_and, ↓reduceIte, hperiods]
        split_ifs <;> omega
      · simp [hlisted]
  · exact hs.listed
  · intro id r hr
    have hp := hs.placed id r hr
    refine ⟨hp.loaded, hp.loadedIn_le, hp.le_pushedIn, ?_, hp.holds⟩
    intro hlisted
    exact Nat.le_succ_of_le (hp.pushedIn_le hlisted)
  · exact hperiods
  · intro hlocked
    exact hs.watcherHolds (by rw [hphase]; decide)

theorem accounted_step {s s' : State} {e : Event} (h : step s e = some s') (hs : Accounted s) :
    Accounted s' := by
  cases e with
  | load => exact accounted_load h hs
  | invoke id => exact accounted_invoke h hs
  | lock id => exact accounted_lock h hs
  | pushBack id => exact accounted_pushBack h hs
  | lockCallbacks =>
    obtain ⟨⟨hphase, hfree⟩, hs'⟩ := Option.ite_none_right_eq_some.mp h
    cases hs'
    refine hs.watch rfl rfl rfl (Nat.le_refl _) rfl ?_ ?_ (fun _ => rfl)
    · intro id hlock
      cases hfree.symm.trans hlock
    · rw [hs.fired, hphase]
      rfl
  | exchange connected =>
    obtain ⟨hphase, hs'⟩ := Option.ite_none_right_eq_some.mp h
    have hlock := hs.watcherHolds (by rw [hphase]; decide)
    have hperiods := hs.fired
    rw [hphase] at hperiods
    split at hs'
    · cases hs'
      refine hs.watch rfl rfl rfl (Nat.le_succ _) rfl (fun _ hh => hh) ?_ (fun _ => hlock)
      exact congrArg (· + 1) hperiods
    · cases hs'
      refine hs.watch rfl rfl rfl (Nat.le_refl _) rfl (fun _ hh => hh) ?_ (fun _ => hlock)
      exact hperiods
  | fireDeviceConnectionEvent => exact accounted_fire h hs
  | unlockCallbacks =>
    obtain ⟨hphase, hs'⟩ := Option.ite_none_right_eq_some.mp h
    cases hs'
    have hbusy : s.watcher ≠ .idle ∧ s.watcher ≠ .firing := by
      rcases hphase with hphase | hphase <;> rw [hphase] <;> decide
    have hlock := hs.watcherHolds hbusy.1
    refine hs.watch rfl rfl rfl (Nat.le_refl _) rfl ?_ ?_ ?_
    · intro id hh
      cases hlock.symm.trans hh
    · rw [hs.fired, if_neg hbusy.2]
      rfl
    · intro hidle
      exact absurd rfl hidle

def Registration.Overlaps (r : Registration) (k : ℕ) : Prop :=
  r.loadedIn < k ∨ (r.loaded = true ∧ k = r.loadedIn)

structure NoneMissed (s : State) : Prop where
  atMostOnce : ∀ id k, s.calls.count (id, k) ≤ 1
  called : ∀ (id : ℕ) (r : Registration) (k : ℕ), s.registrations[id]? = some r →
    r.phase = .listed → r.Overlaps k → k ≤ s.fired → s.calls.count (id, k) = 1

/-- A registration ends behind the beginning of a period that it has not seen. -/
def Misses (s : State) (e : Event) : Prop :=
  ∃ (id : ℕ) (r : Registration), e = .pushBack id ∧ s.registrations[id]? = some r ∧
    r.loadedIn < s.periods

theorem Accounted.noneMissed_iff {s : State} (hs : Accounted s) :
    NoneMissed s ↔ ∀ (id : ℕ) (r : Registration), s.registrations[id]? = some r →
      r.phase = .listed → r.pushedIn = r.loadedIn := by
  constructor
  · intro h id r hr hlisted
    have hp := hs.placed id r hr
    have hle := hp.le_pushedIn hlisted
    by_contra hne
    -- the first period behind the load began before the end of the registration
    have hcalled := h.called id r (r.loadedIn + 1) hr hlisted (Or.inl (Nat.lt_succ_self _))
      (Nat.le_trans (Nat.lt_of_le_of_ne hle (Ne.symm hne)) (hp.pushedIn_le hlisted))
    rw [hs.calls, hr] at hcalled
    have hnone : r.callsFor s.fired (r.loadedIn + 1) = 0 := by
      rw [Registration.callsFor, if_neg (fun hnow => absurd hnow.2.2 (Nat.succ_ne_self _)),
        if_neg (fun hlater => by omega)]
    exact absurd (hnone.symm.trans hcalled) Nat.zero_ne_one
  · intro h
    constructor
    · intro id k
      rw [hs.calls]
      cases hr : s.registrations[id]? with
      | none => exact Nat.zero_le 1
      | some r =>
        have hle := (hs.placed id r hr).le_pushedIn
        simp only [Option.elim_some, Registration.callsFor]
        split_ifs with himmediate hfired
        · have hlisted := hle hfired.1
          omega
        · exact Nat.le_refl 1
        · exact Nat.le_refl 1
        · exact Nat.zero_le 1
    · intro id r k hr hlisted hoverlaps hfired
      have hpushed := h id r hr hlisted
      rw [hs.calls, hr]
      simp only [Option.elim_some, Registration.callsFor, hlisted, hpushed]
      rcases hoverlaps with hlt | ⟨hloaded, hk⟩
      · have hne : k ≠ r.loadedIn := by omega
        simp [hlt, hfired, hne]
      · simp [hloaded, hk]

theorem listed_of_step {s s' : State} {e : Event} (h : step s e = some s') {id : ℕ}
    {r : Registration} (hr : s'.registrations[id]? = some r) (hlisted : r.phase = .listed) :
    s.registrations[id]? = some r ∨ ∃ q, e = .pushBack id ∧ s.registrations[id]? = some q ∧
      r.loadedIn = q.loadedIn ∧ r.pushedIn = s.periods := by
  cases e with
  | load =>
    cases h
    rcases getElem?_concat_cases hr with hold | rfl
    · exact Or.inl hold
    · cases hconnected : s.isConnected <;> simp [hconnected] at hlisted
  | invoke i =>
    obtain ⟨q, hq, -, rfl⟩ := exists_of_guarded h
    rcases getElem?_set_cases hr with hold | ⟨-, rfl⟩
    · exact Or.inl hold
    · cases hlisted
  | lock i =>
    obtain ⟨q, hq, -, rfl⟩ := exists_of_guarded h
    rcases getElem?_set_cases hr with hold | ⟨-, rfl⟩
    · exact Or.inl hold
    · cases hlisted
  | pushBack i =>
    obtain ⟨q, hq, -, rfl⟩ := exists_of_guarded h
    rcases getElem?_set_cases hr with hold | ⟨rfl, rfl⟩
    · exact Or.inl hold
    · exact Or.inr ⟨q, rfl, hq, rfl, rfl⟩
  | lockCallbacks =>
    obtain ⟨-, hs'⟩ := Option.ite_none_right_eq_some.mp h
    cases hs'
    exact Or.inl hr
  | exchange connected =>
    obtain ⟨-, hs'⟩ := Option.ite_none_right_eq_some.mp h
    split at hs' <;> cases hs' <;> exact Or.inl hr
  | fireDeviceConnectionEvent =>
    obtain ⟨-, hs'⟩ := Option.ite_none_right_eq_some.mp h
    cases hs'
    exact Or.inl hr
  | unlockCallbacks =>
    obtain ⟨-, hs'⟩ := Option.ite_none_right_eq_some.mp h
    cases hs'
    exact Or.inl hr

theorem noneMissed_step {s s' : State} {e : Event} (h : step s e = some s') (hmiss : ¬ Misses s e)
    (hs : Accounted s) (hnone : NoneMissed s) : NoneMissed s' := by
  rw [(accounted_step h hs).noneMissed_iff]
  intro id r hr hlisted
  rcases listed_of_step h hr hlisted with hold | ⟨q, rfl, hq, hloaded, hpushed⟩
  · exact hs.noneMissed_iff.mp hnone id r hold hlisted
  · have hle := (hs.placed id q hq).loadedIn_le
    have hnot : ¬ q.loadedIn < s.periods := fun hlt => hmiss ⟨id, q, rfl, hq, hlt⟩
    omega

theorem not_noneMissed_of_misses {s s' : State} {e : Event} (h : step s e = some s')
    (hmiss : Misses s e) (hs : Accounted s) : ¬ NoneMissed s' := by
  obtain ⟨id, r, rfl, hr, hlt⟩ := hmiss
  rw [(accounted_step h hs).noneMissed_iff]
  obtain ⟨q, hq, -, rfl⟩ := exists_of_guarded h
  cases Option.some.inj (hr.symm.trans hq)
  have hid : id < s.registrations.length := (List.getElem?_eq_some_iff.mp hr).1
  intro hall
  have hpushed := hall id _ (List.getElem?_set_self hid) rfl
  simp only at hpushed
  omega

/-- No callback is missed in exactly the runs in which no period begins between the load and the
end of a registration. -/
theorem no_callback_missed_iff {events : List Event} {s : State}
    (h : exec step init events = some s) :
    Always step NoneMissed init events ↔ Meets step (fun s e => ¬ Misses s e) init events := by
  refine always_iff (I := Accounted) ?_ ?_ ?_ h accounted_init ?_
  · exact fun s e s' hstep hs => accounted_step hstep hs
  · exact fun s e s' hstep hmiss hs hnone => noneMissed_step hstep hmiss hs hnone
  · exact fun s e s' hstep hmiss hs _ => not_noneMissed_of_misses hstep hmiss hs
  · rw [accounted_init.noneMissed_iff]
    intro id r hr
    cases hr

def connectedBetween : List Event :=
  [.load, .lockCallbacks, .exchange true, .fireDeviceConnectionEvent, .unlockCallbacks, .lock 0,
    .pushBack 0]

def connectedBetweenState : State where
  isConnected := true
  deviceConnectedCallbackLock := none
  watcher := .idle
  registrations := [⟨.listed, false, 0, 1⟩]
  onDeviceConnectedCallbacks := [0]
  periods := 1
  fired := 1
  calls := []

theorem no_callback_missed_iff_connectedBetween :
    Always step NoneMissed init connectedBetween ↔
      Meets step (fun s e => ¬ Misses s e) init connectedBetween :=
  no_callback_missed_iff (s := connectedBetweenState) (by decide)

theorem callback_missed : ¬ Always step NoneMissed init connectedBetween := by
  intro h
  have hnone := h connectedBetween [] connectedBetweenState rfl (by decide)
  have hcalled := hnone.called 0 ⟨.listed, false, 0, 1⟩ 1 rfl rfl (Or.inl (by decide)) (by decide)
  revert hcalled
  decide

end R2000Driver.ConnectionCallbacks
