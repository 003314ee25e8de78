import R2000Driver.DeviceStatus
import R2000Driver.HttpResponse
import R2000Driver.StatusWatcher

/-!
# From the answers of a device to the events of the status watcher

The task of the watcher over whole polls: each asks for the ten parameters of a
status over HTTP, the answer becomes a result and a map, and the map a status.
An answer of status 200 with a body of JSON is a success, also where its error
code is not; then the map is read from an empty tree, and the flags of the status
throw.
-/

namespace R2000Driver.GetParameters
open Parameters Http PropertyTree

theorem onComplete_eq {Tree : Type} [PropertyTree Tree] {builders : List ReadOnly.Builder}
    {execution : Execution Tree} (h : asyncExecute Tree builders = some execution)
    (answer : DeviceAnswer Tree) : execution.onComplete answer =
      if answer.requestResult ≠ .success then (answer.requestResult, ∅)
      else (answer.requestResult,
        extractParametersValues (ReadOnly.chained builders) answer.propertyTree) := by
  by_cases hne : ReadOnly.requests builders = []
  · rw [asyncExecute, chain_of_no_requests hne] at h
    cases h
  · rw [asyncExecute, chain_eq hne] at h
    cases h
    rfl

end R2000Driver.GetParameters

namespace R2000Driver.StatusAnswers
open Commands GetParameters Parameters ReadOnly Http PropertyTree DeviceStatus

/-- A tree without entries, such as the one of an answer that is not a success. -/
class LawfulEmptyTree (Tree : Type) [PropertyTree Tree] : Prop where
  getOptionalString_empty : ∀ name : String, name ≠ "" →
    getOptionalString (empty : Tree) name = none

section
variable {Tree : Type} [PropertyTree Tree]

structure Answer where
  response : HttpResponse
  segments : List Segment
  isText : chars segments = response.text

namespace Answer

def socket (answer : Answer) : Socket := fun _ => some ⟨answer.segments, .eof⟩

def body (Tree : Type) [PropertyTree Tree] (answer : Answer) : Option Tree :=
  if answer.response.status = 200 then (PropertyTree.readJson answer.response.jsonText).toOption
  else none

end Answer

def readFrom (tree : Tree) : Tree := if verifyErrorCode tree then tree else empty

/-- What becomes of a poll: the command is not accepted, no connection comes about, or the device
answers. -/
inductive Attempt
  | busy
  | unreachable (timedOut : Bool)
  | answered (answer : Answer)

def Attempt.body (Tree : Type) [PropertyTree Tree] : Attempt → Option Tree
  | .answered answer => answer.body Tree
  | _ => none

def Attempt.succeeds (Tree : Type) [PropertyTree Tree] (attempt : Attempt) : Bool :=
  (attempt.body Tree).isSome

def Attempt.fails (Tree : Type) [PropertyTree Tree] : Attempt → Bool
  | .busy => false
  | attempt => !attempt.succeeds Tree

def failuresBehind (Tree : Type) [PropertyTree Tree] (attempts : List Attempt) : ℕ :=
  (attempts.reverse.takeWhile fun attempt => !attempt.succeeds Tree).countP (Attempt.fails Tree)

def connectedBehind (Tree : Type) [PropertyTree Tree] (threshold : ℕ) (attempts : List Attempt) :
    Bool :=
  attempts.any (Attempt.succeeds Tree) && failuresBehind Tree attempts < threshold

def delivered (reply : Reply Tree) : DeviceAnswer Tree :=
  match reply with
  | .error _ => .ofResult .failed
  | .ok answer => answer

theorem asyncSendHttpCommand_eq {R : Type} (reply : Reply Tree) (callable : DeviceAnswer Tree → R) :
    asyncSendHttpCommand reply (fun answer => .ok (callable answer)) =
      .ok (callable (delivered reply)) := by
  cases reply <;> rfl

def complete (execution : Execution Tree) (answer : DeviceAnswer Tree) :
    RequestResult × DeviceStatus :=
  (execution.onComplete answer).map id DeviceStatus.mk

def poll (execution : Execution Tree) : Attempt → Poll DeviceStatus
  | .busy => none
  | .unreachable timedOut =>
    some (complete execution (.ofResult (if timedOut then .timeout else .failed)))
  | .answered answer =>
    (asyncSendHttpCommand (Reply.received answer.socket execution.request) fun received =>
      .ok (complete execution received)).toOption

theorem poll_answered (execution : Execution Tree) (answer : Answer) :
    poll execution (.answered answer) =
      some (complete execution (delivered (Reply.received answer.socket execution.request))) := by
  rw [poll, asyncSendHttpCommand_eq]
  rfl

def watch (Tree : Type) [PropertyTree Tree] (threshold : ℕ) (attempts : List Attempt) :
    Option (StatusWatcher DeviceStatus × List (List (StatusEvent DeviceStatus))) := do
  let execution ← asyncExecute Tree [systemStatus]
  return (StatusWatcher.started threshold).statusWatcherTask (attempts.map (poll execution))

theorem delivered_of_body {answer : Answer} {tree : Tree} (h : answer.body Tree = some tree)
    (requestPath : List Char) :
    delivered (Reply.received answer.socket requestPath) = ⟨.success, readFrom tree⟩ := by
  have hsocket : answer.socket (requestText requestPath) = some ⟨answer.segments, .eof⟩ := rfl
  rw [Answer.body] at h
  split_ifs at h with hstatus
  have hle : answer.response.status ≤ 2147483647 := by omega
  have hcode := (requestResultFromCode_success_iff hle).mpr hstatus
  rw [Reply.received, httpGet_response answer.response hsocket answer.isText, if_pos hle, answerOf,
    hcode, if_neg (fun hne => hne rfl)]
  cases hjson : (PropertyTree.readJson answer.response.jsonText : Except String Tree) with
  | error what =>
    rw [hjson] at h
    cases h
  | ok parsed =>
    rw [hjson] at h
    cases h
    rw [readFrom]
    cases hverify : verifyErrorCode tree <;> simp only [hverify] <;> rfl

theorem delivered_of_no_body {answer : Answer} (h : answer.body Tree = none)
    (requestPath : List Char) :
    (delivered (Reply.received answer.socket requestPath) : DeviceAnswer Tree).requestResult ≠
      .success := by
  have hsocket : answer.socket (requestText requestPath) = some ⟨answer.segments, .eof⟩ := rfl
  rw [Reply.received, httpGet_response answer.response hsocket answer.isText]
  by_cases hle : answer.response.status ≤ 2147483647
  · rw [if_pos hle, answerOf]
    by_cases hstatus : answer.response.status = 200
    · -- A body that is not JSON throws, and the handler makes a failure of it.
      rw [Answer.body, if_pos hstatus] at h
      rw [(requestResultFromCode_success_iff hle).mpr hstatus, if_neg (fun hne => hne rfl)]
      cases hjson : (PropertyTree.readJson answer.response.jsonText : Except String Tree) with
      | error what => simp [Except.mapError, delivered, DeviceAnswer.ofResult]
      | ok parsed =>
        rw [hjson] at h
        cases h
    · have hcode := mt (requestResultFromCode_success_iff hle).mp hstatus
      rw [if_pos hcode]
      exact hcode
  · rw [if_neg hle]
    simp [Except.mapError, delivered, DeviceAnswer.ofResult]

section
variable {execution : Execution Tree}
  (hexecution : asyncExecute Tree [systemStatus] = some execution)
include hexecution

theorem complete_success {tree : Tree} {status : DeviceStatus} (h : ofPoll tree = some status) :
    complete execution ⟨.success, tree⟩ = (.success, status) := by
  rw [ofPoll, hexecution] at h
  cases h
  rw [complete, onComplete_eq hexecution, if_neg (fun hne => hne rfl)]
  rfl

theorem complete_failure {answer : DeviceAnswer Tree} (h : answer.requestResult ≠ .success) :
    complete execution answer = (answer.requestResult, ⟨∅⟩) := by
  rw [complete, onComplete_eq hexecution, if_pos h]
  rfl

theorem poll_of_body {attempt : Attempt} {tree : Tree} (h : attempt.body Tree = some tree) :
    ∃ status, ofPoll (readFrom tree) = some status ∧
      poll execution attempt = some (.success, status) := by
  cases attempt with
  | busy => cases h
  | unreachable timedOut => cases h
  | answered answer =>
    have hstatus := ofPoll_eq (readFrom tree)
    refine ⟨_, hstatus, ?_⟩
    rw [poll_answered, delivered_of_body h, complete_success hexecution hstatus]

theorem poll_of_fails {attempt : Attempt} (h : attempt.fails Tree = true) :
    ∃ result status, poll execution attempt = some (result, status) ∧ result ≠ .success := by
  cases attempt with
  | busy => cases h
  | unreachable timedOut =>
    have hne : (DeviceAnswer.ofResult (if timedOut then .timeout else .failed) :
        DeviceAnswer Tree).requestResult ≠ .success := by
      cases timedOut <;> simp [DeviceAnswer.ofResult]
    exact ⟨_, _, by rw [poll, complete_failure hexecution hne], hne⟩
  | answered answer =>
    have hbody : answer.body Tree = none := by
      simpa [Attempt.fails, Attempt.succeeds, Attempt.body] using h
    have hne := delivered_of_no_body hbody execution.request
    exact ⟨_, _, by rw [poll_answered, complete_failure hexecution hne], hne⟩

theorem poll_classified (attempt : Attempt) :
    (poll execution attempt).isSuccess = attempt.succeeds Tree ∧
      (poll execution attempt).isFailure = attempt.fails Tree := by
  cases hfails : attempt.fails Tree with
  | true =>
    obtain ⟨result, status, hpoll, hne⟩ := poll_of_fails hexecution hfails
    have hsucceeds : attempt.succeeds Tree = false := by
      cases attempt with
      | busy => rfl
      | _ => simpa [Attempt.fails] using hfails
    rw [hpoll, hsucceeds]
    exact ⟨Poll.isSuccess_of_ne hne status, Poll.isFailure_of_ne hne status⟩
  | false =>
    cases hbody : attempt.body Tree with
    | some tree =>
      obtain ⟨status, -, hpoll⟩ := poll_of_body hexecution hbody
      rw [hpoll, Attempt.succeeds, hbody]
      exact ⟨rfl, rfl⟩
    | none =>
      cases attempt with
      | busy => exact ⟨rfl, rfl⟩
      | _ => simp [Attempt.fails, Attempt.succeeds, hbody] at hfails

theorem failuresSinceSuccess_map (attempts : List Attempt) :
    failuresSinceSuccess (attempts.map (poll execution)) = failuresBehind Tree attempts := by
  have hsuccess : (fun p : Poll DeviceStatus => !p.isSuccess) ∘ poll execution =
      fun attempt => !attempt.succeeds Tree := by
    funext attempt
    exact congrArg not (poll_classified hexecution attempt).1
  have hfailure : Poll.isFailure ∘ poll execution = Attempt.fails Tree := by
    funext attempt
    exact (poll_classified hexecution attempt).2
  rw [failuresSinceSuccess, ← List.map_reverse, List.takeWhile_map, List.countP_map, hsuccess,
    hfailure, failuresBehind]

theorem succeededOnce_map (attempts : List Attempt) :
    SucceededOnce (attempts.map (poll execution)) ↔
      ∃ attempt ∈ attempts, attempt.succeeds Tree = true := by
  simp [SucceededOnce, (poll_classified hexecution _).1]

theorem follows_answers {N : ℕ} (h1 : 1 ≤ N) (hN : N < 2 ^ 32) (before : List Attempt) :
    ((StatusWatcher.started N).statusWatcherTask (before.map (poll execution))).1.isConnected =
      connectedBehind Tree N before := by
  have hconnected := (Follows.task h1 hN (before.map (poll execution))).connected
  rw [failuresSinceSuccess_map hexecution, succeededOnce_map hexecution] at hconnected
  rw [Bool.eq_iff_iff, hconnected, connectedBehind, Bool.and_eq_true, List.any_eq_true,
    decide_eq_true_iff]

theorem fired_by_failure {N : ℕ} (h1 : 1 ≤ N) (hN : N < 2 ^ 32) (before : List Attempt)
    {attempt : Attempt} (h : attempt.fails Tree = true) :
    (((StatusWatcher.started N).statusWatcherTask (before.map (poll execution))).1.iteration
        (poll execution attempt)).2 =
      if connectedBehind Tree N before ∧ failuresBehind Tree before + 1 = N then [.disconnected]
      else [] := by
  obtain ⟨result, status, hpoll, hne⟩ := poll_of_fails hexecution h
  have hfollows := Follows.task h1 hN (before.map (poll execution))
  have hreaches := hfollows.reaches_iff
  have hconnected := follows_answers hexecution h1 hN before
  rw [failuresSinceSuccess_map hexecution] at hreaches
  rw [hpoll, StatusWatcher.iteration, if_neg hne, hconnected]
  cases hbehind : connectedBehind Tree N before with
  | false => simp
  | true =>
    rw [connectedBehind, Bool.and_eq_true, decide_eq_true_iff] at hbehind
    have hlast : N ≤ (failuresBehind Tree before + 1) % 2 ^ 32 ↔
        failuresBehind Tree before + 1 = N := by
      omega
    simp only [hreaches, hlast, true_and]
    split_ifs <;> rfl

end

end

section
variable {Tree : Type} [PropertyTree Tree] [LawfulEmptyTree Tree]

theorem refused_status {tree : Tree} (hrefused : verifyErrorCode tree = false)
    {status : DeviceStatus} (hstatus : ofPoll (readFrom tree) = some status) :
    status.getStatusFlags = .error .invalidArgument ∧
      ∀ getter ∈ numericGetters, ∀ otherwise, getter.2 status otherwise = .ok otherwise := by
  have htext : ∀ request : SystemStatus, status.systemStatusMap.lookup request.name = some "" := by
    intro request
    have hname : request.name ≠ "" := by
      cases request <;> decide
    have hreceived := lookup_received hstatus request
    rw [readFrom, hrefused] at hreceived
    have hnone : getOptionalString (empty : Tree) request.name = none :=
      LawfulEmptyTree.getOptionalString_empty request.name hname
    exact hreceived.trans (congrArg (fun text => some (text.getD "")) hnone)
  have hempty : leadingDigits "" = [] := by decide
  refine ⟨?_, fun getter hgetter otherwise => ?_⟩
  · rw [getStatusFlags_eq (htext .requestStatusFlags)]
    decide
  · rw [numericGetters_eq getter hgetter]
    exact castOr_of_noNumber (htext getter.1) (Or.inl hempty) otherwise

def Fires (Tree : Type) [PropertyTree Tree] (threshold : ℕ) (before : List Attempt)
    (attempt : Attempt) (fired : List (StatusEvent DeviceStatus)) : Prop :=
  match attempt.body Tree with
  | some tree => ∃ status, ofPoll (readFrom tree) = some status ∧
      fired = .status status ::
        (if connectedBehind Tree threshold before then [] else [.connected]) ∧
      (verifyErrorCode tree = false → status.getStatusFlags = .error .invalidArgument ∧
        ∀ getter ∈ numericGetters, ∀ otherwise, getter.2 status otherwise = .ok otherwise)
  | none => fired = if attempt.fails Tree ∧ connectedBehind Tree threshold before ∧
      failuresBehind Tree before + 1 = threshold then [.disconnected] else []

theorem fires_iteration {execution : Execution Tree}
    (hexecution : asyncExecute Tree [systemStatus] = some execution) {N : ℕ} (h1 : 1 ≤ N)
    (hN : N < 2 ^ 32) (before : List Attempt) (attempt : Attempt) :
    Fires Tree N before attempt
      (((StatusWatcher.started N).statusWatcherTask (before.map (poll execution))).1.iteration
        (poll execution attempt)).2 := by
  rw [Fires]
  cases hbody : attempt.body Tree with
  | some tree =>
    obtain ⟨status, hstatus, hpoll⟩ := poll_of_body hexecution hbody
    refine ⟨status, hstatus, ?_, fun hrefused => refused_status hrefused hstatus⟩
    rw [hpoll, StatusWatcher.iteration, if_pos rfl, follows_answers hexecution h1 hN]
  | none =>
    cases hfails : attempt.fails Tree with
    | true =>
      rw [fired_by_failure hexecution h1 hN before hfails]
      simp only [true_and]
    | false =>
      cases attempt with
      | busy => rfl
      | _ => simp [Attempt.fails, Attempt.succeeds, hbody] at hfails

/-- Each poll fires what the answers so far say, for every threshold that the counter reaches. -/
theorem watcher_follows_answers {N : ℕ} (h1 : 1 ≤ N) (hN : N < 2 ^ 32) (attempts : List Attempt) :
    ∃ watcher events, watch Tree N attempts = some (watcher, events) ∧
      events.length = attempts.length ∧
      ∀ before attempt after, attempts = before ++ attempt :: after →
        ∃ fired, events[before.length]? = some fired ∧ Fires Tree N before attempt fired := by
  obtain ⟨execution, hexecution, -⟩ := @asyncExecute_eq Tree _ [systemStatus] (List.cons_ne_nil _ _)
  refine ⟨_, _, by rw [watch, hexecution]; rfl, ?_, ?_⟩
  · rw [StatusWatcher.length_statusWatcherTask, List.length_map]
  · rintro before attempt after rfl
    have hfired := StatusWatcher.getElem?_statusWatcherTask (StatusWatcher.started N)
      (before.map (poll execution)) (after.map (poll execution)) (poll execution attempt)
    rw [List.length_map, ← List.map_cons, ← List.map_append] at hfired
    exact ⟨_, hfired, fires_iteration hexecution h1 hN before attempt⟩

end

instance : LawfulEmptyTree CodeAndText where
  getOptionalString_empty name _ := by
    change (if name = errorText then (none : Option String) else none) = none
    rw [ite_self]

def refusal : Answer := ⟨deviceErrorResponse, deviceErrorSegments, deviceErrorSegments_text⟩

theorem watcher_follows_answers_refused :
    ∃ watcher events, watch CodeAndText 1 [.answered refusal, .busy, .unreachable true] =
        some (watcher, events) ∧ events[2]? = some [.disconnected] := by
  obtain ⟨watcher, events, hwatch, -, hfires⟩ := @watcher_follows_answers CodeAndText _ _ 1
    (by decide) (by decide) [.answered refusal, .busy, .unreachable true]
  obtain ⟨fired, hfired, hlast⟩ := hfires [.answered refusal, .busy] (.unreachable true) [] rfl
  exact ⟨watcher, events, hwatch, hfired.trans (congrArg some hlast)⟩

end R2000Driver.StatusAnswers
