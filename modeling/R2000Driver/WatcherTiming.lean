import R2000Driver.Lists
import R2000Driver.PromptTask
import R2000Driver.StatusWatcher

/-!
# The times of the status watcher

The polls of `statusWatcherTask` are the acts of a periodic task whose guards
take the lock, and the threshold is set beside it at any time. An iteration
keeps the events that a poll fires and the threshold in force.
-/

namespace R2000Driver.WatcherTiming
open Runs
open PeriodicTask (Act)

variable {P : Type}

def statusWatcherTask (P : Type) (period : ℕ) : PeriodicTask.Task (Poll P) where
  delay := 0
  period := period
  locked := true
  returns _ := false

structure Iteration (P : Type) where
  threshold : UInt64
  fired : List (StatusEvent P)
  deriving DecidableEq, Repr

structure State (P : Type) where
  task : PeriodicTask.State (Poll P)
  watcher : StatusWatcher P
  iterations : List (Iteration P)
  deriving DecidableEq, Repr

def init (watcher : StatusWatcher P) (now : ℕ) : State P where
  task := PeriodicTask.init (Poll P) now
  watcher := watcher
  iterations := []

inductive Event (P : Type)
  | task (e : PeriodicTask.Event (Poll P))
  | setDisconnectionTriggerThreshold (threshold : Int64)
  deriving DecidableEq, Repr

def State.poll (s : State P) (task : PeriodicTask.State (Poll P)) (poll : Poll P) : State P where
  task := task
  watcher := (s.watcher.iteration poll).1
  iterations := s.iterations ++
    [⟨s.watcher.disconnectionTriggerThreshold, (s.watcher.iteration poll).2⟩]

def step (period : ℕ) (s : State P) : Event P → Option (State P)
  | .task (.finish poll) =>
    (PeriodicTask.step (statusWatcherTask P period) s.task (.finish poll)).map fun task =>
      s.poll task poll
  | .task e =>
    (PeriodicTask.step (statusWatcherTask P period) s.task e).map fun task => { s with task := task }
  | .setDisconnectionTriggerThreshold threshold =>
    some { s with watcher := s.watcher.setDisconnectionTriggerThreshold threshold }

inductive Steps (period : ℕ) (s : State P) : Event P → State P → Prop
  | poll {poll : Poll P} {task : PeriodicTask.State (Poll P)} :
      PeriodicTask.step (statusWatcherTask P period) s.task (.finish poll) = some task →
      Steps period s (.task (.finish poll)) (s.poll task poll)
  | task {e : PeriodicTask.Event (Poll P)} {task : PeriodicTask.State (Poll P)} :
      (∀ poll, e ≠ .finish poll) →
      PeriodicTask.step (statusWatcherTask P period) s.task e = some task →
      Steps period s (.task e) { s with task := task }
  | setThreshold (threshold : Int64) :
      Steps period s (.setDisconnectionTriggerThreshold threshold)
        { s with watcher := s.watcher.setDisconnectionTriggerThreshold threshold }

variable {period : ℕ} {s s' : State P}

theorem steps_of_step {e : Event P} (h : step period s e = some s') : Steps period s e s' := by
  cases e with
  | task e =>
    by_cases hfinish : ∃ poll, e = .finish poll
    · obtain ⟨poll, rfl⟩ := hfinish
      obtain ⟨task, htask, rfl⟩ := Option.map_eq_some_iff.mp h
      exact .poll htask
    · have hother : step period s (.task e) =
          (PeriodicTask.step (statusWatcherTask P period) s.task e).map
            fun task => { s with task := task } := by
        cases e with
        | finish poll => exact absurd ⟨poll, rfl⟩ hfinish
        | _ => rfl
      rw [hother] at h
      obtain ⟨task, htask, rfl⟩ := Option.map_eq_some_iff.mp h
      exact .task (fun poll he => hfinish ⟨poll, he⟩) htask
  | setDisconnectionTriggerThreshold threshold =>
    cases h
    exact .setThreshold threshold

theorem task_of_step {e : Event P} (h : step period s e = some s') :
    ∃ es, exec (PeriodicTask.step (statusWatcherTask P period)) s.task es = some s'.task := by
  cases steps_of_step h with
  | poll htask => exact ⟨_, exec_single htask⟩
  | task _ htask => exact ⟨_, exec_single htask⟩
  | setThreshold _ => exact ⟨[], rfl⟩

theorem exec_task {events : List (Event P)} (h : exec (step period) s events = some s') :
    ∃ es, exec (PeriodicTask.step (statusWatcherTask P period)) s.task es = some s'.task :=
  exec_part State.task (fun _ _ _ hstep => task_of_step hstep) h

/-- The hit counter has not counted more polls than there are behind a success, and a threshold
that was reached was no larger. -/
structure Hits (s : State P) : Prop where
  length : s.iterations.length = s.task.acts.length
  count : ∀ i (a : Act (Poll P)), s.task.acts[i]? = some a → a.result.isSuccess = true →
    s.watcher.disconnectionHitCount.toNat + i < s.task.acts.length
  fired : ∀ i j (a : Act (Poll P)) (it : Iteration P), s.task.acts[i]? = some a →
    a.result.isSuccess = true → i < j →
    s.iterations[j]? = some it → .disconnected ∈ it.fired → it.threshold.toNat + i ≤ j

theorem toNat_add_one_le (n : UInt32) : (n + 1).toNat ≤ n.toNat + 1 := by
  rw [UInt32.toNat_add]
  exact Nat.mod_le _ _

theorem hitCount_iteration_le (w : StatusWatcher P) (poll : Poll P) :
    (w.iteration poll).1.disconnectionHitCount.toNat ≤ w.disconnectionHitCount.toNat + 1 := by
  have hone := toNat_add_one_le w.disconnectionHitCount
  cases poll with
  | none => exact Nat.le_succ _
  | some answer =>
    simp only [StatusWatcher.iteration]
    split_ifs
    · exact Nat.zero_le _
    · exact Nat.zero_le _
    · exact hone
    · exact hone
    · exact hone

theorem hitCount_of_isSuccess (w : StatusWatcher P) {poll : Poll P} (h : poll.isSuccess = true) :
    (w.iteration poll).1.disconnectionHitCount = 0 := by
  cases poll with
  | none => cases h
  | some answer =>
    obtain ⟨result, parameters⟩ := answer
    by_cases hs : result = .success
    · subst hs
      rfl
    · cases (Poll.isSuccess_of_ne hs parameters).symm.trans h

theorem threshold_le_of_disconnected {w : StatusWatcher P} {poll : Poll P}
    (h : .disconnected ∈ (w.iteration poll).2) :
    w.disconnectionTriggerThreshold.toNat ≤ w.disconnectionHitCount.toNat + 1 := by
  cases poll with
  | none => exact absurd h List.not_mem_nil
  | some answer =>
    simp only [StatusWatcher.iteration] at h
    split_ifs at h with hs hw hr hw
    · simp at h
    · simp at h
    · have hle := UInt64.le_iff_toNat_le.mp hr
      rw [UInt32.toNat_toUInt64] at hle
      exact hle.trans (toNat_add_one_le _)
    · exact absurd h List.not_mem_nil
    · exact absurd h List.not_mem_nil

theorem Hits.poll (hs : Hits s) {task : PeriodicTask.State (Poll P)} {poll : Poll P}
    {start finish : ℕ} (htask : task.acts = s.task.acts ++ [⟨start, finish, poll⟩]) :
    Hits (s.poll task poll) := by
  have hone := hitCount_iteration_le s.watcher poll
  refine ⟨?_, ?_, ?_⟩
  · simp [State.poll, hs.length, htask]
  · intro i a ha hsuccess
    simp only [State.poll, htask, List.length_append, List.length_singleton] at ha ⊢
    rcases getElem?_concat_place ha with ha | ⟨rfl, rfl⟩
    · have hcount := hs.count i a ha hsuccess
      omega
    · rw [hitCount_of_isSuccess _ hsuccess]
      simp
  · intro i j a it ha hsuccess hij hit hfired
    simp only [State.poll, htask] at ha hit
    rcases getElem?_concat_place hit with hit | ⟨rfl, rfl⟩
    · have hj := (List.getElem?_eq_some_iff.mp hit).1
      rw [hs.length] at hj
      rw [List.getElem?_append_left (by omega)] at ha
      exact hs.fired i j a it ha hsuccess hij hit hfired
    · rw [hs.length] at hij ⊢
      rw [List.getElem?_append_left hij] at ha
      have hcount := hs.count i a ha hsuccess
      have hthreshold := threshold_le_of_disconnected hfired
      simp only
      omega

theorem hits_step {e : Event P} (h : step period s e = some s') (hs : Hits s) : Hits s' := by
  cases steps_of_step h with
  | poll htask =>
    cases PeriodicTask.steps_of_step htask with
    | finish _ _ => exact hs.poll rfl
  | task he htask =>
    have hacts := PeriodicTask.acts_step htask he
    refine ⟨?_, ?_, ?_⟩
    · simp only [hacts, hs.length]
    · simp only [hacts]
      exact hs.count
    · simp only [hacts]
      exact hs.fired
  | setThreshold threshold => exact ⟨hs.length, hs.count, hs.fired⟩

theorem hits_init (watcher : StatusWatcher P) (now : ℕ) : Hits (init watcher now) where
  length := rfl
  count i a ha := by simp [init, PeriodicTask.init] at ha
  fired i j a it ha := by simp [init, PeriodicTask.init] at ha

theorem spaced {watcher : StatusWatcher P} {now : ℕ} {events : List (Event P)}
    (h : exec (step period) (init watcher now) events = some s) :
    PeriodicTask.Spaced (statusWatcherTask P period) s.task := by
  obtain ⟨es, hes⟩ := exec_task h
  exact PeriodicTask.spaced hes

/-- A disconnection comes at least the threshold in force times the period behind every success,
however often the threshold is set. -/
theorem disconnected_not_before {watcher : StatusWatcher P} {now : ℕ} {events : List (Event P)}
    (h : exec (step period) (init watcher now) events = some s) {i j : ℕ} {a b : Act (Poll P)}
    {it : Iteration P} (ha : s.task.acts[i]? = some a) (hsuccess : a.result.isSuccess = true)
    (hb : s.task.acts[j]? = some b) (hit : s.iterations[j]? = some it) (hij : i < j)
    (hfired : .disconnected ∈ it.fired) : a.finish + it.threshold.toNat * period ≤ b.start := by
  have hhits : Hits s :=
    exec_keeps (fun _ _ _ hstep hs => hits_step hstep hs) h (hits_init watcher now)
  have hthreshold := hhits.fired i j a it ha hsuccess hij hit hfired
  obtain ⟨k, rfl⟩ := Nat.exists_eq_add_of_lt hij
  have hspaced := (spaced h).add_mul_le_start ha hb
  have hmul : it.threshold.toNat * period ≤ (k + 1) * period :=
    Nat.mul_le_mul_right period (by omega)
  exact (Nat.add_le_add_left hmul _).trans hspaced

def oneFailure : List (Event Unit) :=
  [.task .launch, .task .awake, .task .loop, .task (.finish (some (.success, ()))), .task .guard,
    .task .testPredicate, .task .block, .task (.tick 7), .task .wake, .task .resume, .task .loop,
    .task (.tick 2), .task (.finish (some (.timeout, ())))]

theorem disconnected_not_before_oneFailure :
    ∃ s : State Unit, exec (step 5) (init (StatusWatcher.started 1) 0) oneFailure = some s ∧
      s.iterations[1]? = some ⟨1, [.disconnected]⟩ ∧ 0 + (1 : UInt64).toNat * 5 ≤ 7 := by
  have h : exec (step 5) (init (StatusWatcher.started 1) 0) oneFailure =
      some ⟨⟨9, .acted, .running, ⟨false, 0⟩, [⟨0, 0, some (.success, ())⟩,
        ⟨7, 9, some (.timeout, ())⟩], 0, 0⟩, ⟨1, 1, false, some ()⟩,
        [⟨1, [.status (), .connected]⟩, ⟨1, [.disconnected]⟩]⟩ := by decide
  exact ⟨_, h, rfl, disconnected_not_before (i := 0) (j := 1) h rfl rfl rfl rfl Nat.zero_lt_one
    List.mem_cons_self⟩

def Prompt (s : State P) : Event P → Prop
  | .task e => PeriodicTask.Prompt s.task e
  | .setDisconnectionTriggerThreshold _ => True

instance (s : State P) (e : Event P) : Decidable (Prompt s e) := by
  unfold Prompt
  split <;> infer_instance

def Fixed : Event P → Prop
  | .task _ => True
  | .setDisconnectionTriggerThreshold _ => False

instance (e : Event P) : Decidable (Fixed e) := by
  unfold Fixed
  split <;> infer_instance

structure Replays (period N : ℕ) (s : State P) : Prop where
  onTime : PeriodicTask.OnTime (statusWatcherTask P period) s.task
  watcher : s.watcher = ((StatusWatcher.started N).statusWatcherTask (s.task.acts.map Act.result)).1
  fired : s.iterations.map Iteration.fired =
    ((StatusWatcher.started N).statusWatcherTask (s.task.acts.map Act.result)).2

theorem replays_step {N : ℕ} {e : Event P} (h : step period s e = some s') (hprompt : Prompt s e)
    (hfixed : Fixed e) (hs : Replays period N s) :
    Replays period N s' := by
  cases steps_of_step h with
  | @poll poll task htask =>
    have honTime := PeriodicTask.onTime_step htask hprompt hs.onTime
    cases PeriodicTask.steps_of_step htask with
    | finish _ _ =>
      refine ⟨honTime, ?_, ?_⟩
      · simp only [State.poll, List.map_append, List.map_singleton,
          StatusWatcher.statusWatcherTask_concat, ← hs.watcher]
      · simp only [State.poll, List.map_append, List.map_singleton,
          StatusWatcher.statusWatcherTask_concat, ← hs.watcher, hs.fired]
  | task he htask =>
    have hacts := PeriodicTask.acts_step htask he
    refine ⟨PeriodicTask.onTime_step htask hprompt hs.onTime, ?_, ?_⟩
    · simp only [hacts]
      exact hs.watcher
    · simp only [hacts]
      exact hs.fired
  | setThreshold threshold => exact hfixed.elim

theorem replays_init (N now : ℕ) :
    Replays period N (init (StatusWatcher.started N : StatusWatcher P) now) where
  onTime := PeriodicTask.onTime_init now
  watcher := rfl
  fired := rfl

theorem failuresSinceSuccess_append {before failed : List (Poll P)} {poll : Poll P}
    (hsuccess : poll.isSuccess = true) (hfailed : ∀ other ∈ failed, other.isFailure = true) :
    failuresSinceSuccess (before ++ poll :: failed) = failed.length := by
  induction failed using List.reverseRecOn with
  | nil =>
    match poll, hsuccess with
    | some (.success, parameters), _ => exact failuresSinceSuccess_success before parameters
  | append_singleton failed last ih =>
    have hlast := hfailed last (List.mem_append_right _ (List.mem_singleton.mpr rfl))
    have hinit := ih fun other ho => hfailed other (List.mem_append_left _ ho)
    cases last with
    | none => cases hlast
    | some answer =>
      obtain ⟨result, parameters⟩ := answer
      have hne : result ≠ .success := by
        rintro rfl
        cases hlast
      rw [← List.cons_append, ← List.append_assoc, failuresSinceSuccess_failure _ hne, hinit,
        List.length_append, List.length_singleton]

theorem start_eq_of_punctual {R : Type} {due : ℕ} {before failed after : List (Act R)} {a b : Act R}
    (h : PeriodicTask.Punctual period due (before ++ a :: (failed ++ b :: after)))
    (hwithin : ∀ c ∈ failed, c.start ≤ c.finish) : b.start =
      a.finish + (failed.length + 1) * period + (failed.map PeriodicTask.Act.duration).sum := by
  obtain ⟨-, -, hrest⟩ := PeriodicTask.punctual_append.mp h
  obtain ⟨hbetween, hb, -⟩ := PeriodicTask.punctual_append.mp hrest
  rw [hb, hbetween.nextStart_eq hwithin, Nat.succ_mul]
  omega

/-- Behind a success and without a busy poll, a prompt run disconnects with exactly the failure
that makes up the threshold, after as many periods and the time of the failed polls. -/
theorem disconnected_on_time {N : ℕ} (h1 : 1 ≤ N) (hN : N < 2 ^ 32) {now : ℕ}
    {events : List (Event P)} (h : exec (step period) (init (StatusWatcher.started N) now) events = some s)
    (hprompt : Meets (step period) Prompt (init (StatusWatcher.started N) now) events)
    (hfixed : Meets (step period) (fun _ e => Fixed e) (init (StatusWatcher.started N) now) events)
    {before failed after : List (Act (Poll P))} {a b : Act (Poll P)}
    (hacts : s.task.acts = before ++ a :: (failed ++ b :: after))
    (hsuccess : a.result.isSuccess = true) (hfailed : ∀ c ∈ failed, c.result.isFailure = true)
    (hb : b.result.isFailure = true) :
    ∃ it, s.iterations[before.length + failed.length + 1]? = some it ∧
      (.disconnected ∈ it.fired ↔ failed.length + 1 = N) ∧
      b.finish = a.finish + (failed.length + 1) * period +
        ((failed ++ [b]).map Act.duration).sum := by
  have hreplays : Replays period N s :=
    exec_meets (fun _ _ _ hstep hp hs => replays_step hstep hp.1 hp.2 hs) h (hprompt.and hfixed)
      (replays_init N now)
  have hwithin : ∀ c ∈ s.task.acts, c.start ≤ c.finish := fun c hc => ((spaced h).within c hc).1
  let polls := before.map Act.result ++ a.result :: failed.map Act.result
  have hpolls : s.task.acts.map Act.result = polls ++ b.result :: after.map Act.result := by
    rw [hacts]
    simp [polls]
  have hlength : polls.length = before.length + failed.length + 1 := by
    simp only [polls, List.length_append, List.length_cons, List.length_map]
    omega
  have hfired : (s.iterations.map Iteration.fired)[before.length + failed.length + 1]? =
      some (((StatusWatcher.started N).statusWatcherTask polls).1.iteration b.result).2 := by
    rw [hreplays.fired, hpolls, ← hlength]
    exact StatusWatcher.getElem?_statusWatcherTask _ _ _ _
  obtain ⟨it, hit, hitFired⟩ : ∃ it, s.iterations[before.length + failed.length + 1]? = some it ∧
      it.fired = (((StatusWatcher.started N).statusWatcherTask polls).1.iteration b.result).2 := by
    rw [List.getElem?_map] at hfired
    obtain ⟨it, hit, heq⟩ := Option.map_eq_some_iff.mp hfired
    exact ⟨it, hit, heq⟩
  have hallFailed : ∀ other ∈ failed.map Act.result ++ [b.result], other.isFailure = true := by
    intro other ho
    rcases List.mem_append.mp ho with ho | ho
    · obtain ⟨c, hc, rfl⟩ := List.mem_map.mp ho
      exact hfailed c hc
    · rw [List.mem_singleton] at ho
      exact ho ▸ hb
  have hcount : failuresSinceSuccess (polls ++ [b.result]) = failed.length + 1 := by
    have happend : polls ++ [b.result] =
        before.map Act.result ++ a.result :: (failed.map Act.result ++ [b.result]) := by
      simp [polls]
    rw [happend, failuresSinceSuccess_append hsuccess hallFailed]
    simp
  refine ⟨it, hit, ?_, ?_⟩
  · rw [hitFired, (Follows.task h1 hN polls).disconnected_iff hN, hcount]
    have honce : SucceededOnce polls := ⟨a.result, by simp [polls], hsuccess⟩
    simp only [hb, honce, and_true, true_and]
  · have hstart := start_eq_of_punctual (hacts ▸ hreplays.onTime.acts) fun c hc =>
      hwithin c (by rw [hacts]; simp [hc])
    have hfinish := hwithin b (by rw [hacts]; simp)
    have hduration : b.finish = b.start + b.duration := by
      rw [PeriodicTask.Act.duration]
      omega
    rw [hduration, hstart, List.map_append, List.sum_append]
    simp only [statusWatcherTask, List.map_singleton, List.sum_singleton]
    omega

theorem disconnected_on_time_oneFailure :
    ∃ s : State Unit, exec (step 7) (init (StatusWatcher.started 1) 0) oneFailure = some s ∧
      ∃ it, s.iterations[1]? = some it ∧ (.disconnected ∈ it.fired ↔ 0 + 1 = 1) ∧
        9 = 0 + (0 + 1) * 7 + 2 := by
  have h : exec (step 7) (init (StatusWatcher.started 1) 0) oneFailure =
      some ⟨⟨9, .acted, .running, ⟨false, 0⟩, [⟨0, 0, some (.success, ())⟩,
        ⟨7, 9, some (.timeout, ())⟩], 0, 0⟩, ⟨1, 1, false, some ()⟩,
        [⟨1, [.status (), .connected]⟩, ⟨1, [.disconnected]⟩]⟩ := by decide
  have hacts : [⟨0, 0, some (.success, ())⟩, ⟨7, 9, some (.timeout, ())⟩] =
      ([] : List (Act (Poll Unit))) ++ ⟨0, 0, some (.success, ())⟩ :: ([] ++
        ⟨7, 9, some (.timeout, ())⟩ :: []) := rfl
  exact ⟨_, h, disconnected_on_time (N := 1) (by decide) (by decide) h (by decide) (by decide) hacts
    rfl nofun rfl⟩

theorem prompt_task {events : List (Event P)} (h : exec (step period) s events = some s')
    (hprompt : Meets (step period) Prompt s events) :
    ∃ es, exec (PeriodicTask.step (statusWatcherTask P period)) s.task es = some s'.task ∧
      Meets (PeriodicTask.step (statusWatcherTask P period)) PeriodicTask.Prompt s.task es := by
  refine exec_part_meets State.task (fun _ _ _ hstep hp => ?_) h hprompt
  cases steps_of_step hstep with
  | poll htask => exact ⟨_, exec_single htask, hp, fun _ _ => trivial⟩
  | task _ htask => exact ⟨_, exec_single htask, hp, fun _ _ => trivial⟩
  | setThreshold _ => exact ⟨[], rfl, trivial⟩

/-- The task never sleeps through the notification of the destructor, and in a prompt run the
destructor waits for nothing but the poll under way. -/
theorem destructor_waits_for_poll {watcher : StatusWatcher P} {now : ℕ} {events : List (Event P)}
    (h : exec (step period) (init watcher now) events = some s) :
    ¬ PeriodicTask.Asleep s.task ∧
      (Meets (step period) Prompt (init watcher now) events → s.task.waited = 0) := by
  constructor
  · obtain ⟨es, hes⟩ := exec_task h
    exact PeriodicTask.locked_never_asleep rfl hes
  · intro hprompt
    obtain ⟨es, hes, hmeets⟩ := prompt_task h hprompt
    have hwaited := PeriodicTask.waited_le hes hmeets
    simpa [PeriodicTask.Task.longestWait, statusWatcherTask] using hwaited

def destroyedInWait : List (Event Unit) :=
  [.task .launch, .task .awake, .task .loop, .task (.finish none), .task .guard,
    .task .testPredicate, .task .block, .task (.tick 3), .task .store, .task .notify, .task .resume,
    .task .testPredicate, .task .loop, .task .join]

theorem destructor_waits_for_poll_destroyedInWait :
    ∃ s : State Unit, exec (step 7) (init StatusWatcher.init 0) destroyedInWait = some s ∧
      ¬ PeriodicTask.Asleep s.task ∧ (Meets (step 7) Prompt (init StatusWatcher.init 0)
        destroyedInWait → s.task.waited = 0) := by
  have h : exec (step 7) (init StatusWatcher.init 0) destroyedInWait =
      some ⟨⟨3, .ended, .joined, ⟨false, 0⟩, [⟨0, 0, none⟩], 0, 0⟩, StatusWatcher.init,
        [⟨3, []⟩]⟩ := by decide
  exact ⟨_, h, destructor_waits_for_poll h⟩

end R2000Driver.WatcherTiming
