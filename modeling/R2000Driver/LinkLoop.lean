import R2000Driver.DatagramIsolation
import R2000Driver.HttpGet
import R2000Driver.Runs
import R2000Driver.TcpReassembly

/-!
# The life of a data link

One link from its constructor to its destructor, under every order of the
steps of its three threads: the answer to the start-scan command, the feeds of
the watchdog, and the handlers of the receive side. A TCP link resolves,
connects and reads, and begins again after a failed attempt; a UDP link binds
its socket in the constructor and reads. Each handler is one step. The waits
inside the handlers of failed attempts, and an extraction that never ends, are
phases of their own.

Cancelled operations do not occur before the destructor and are left out.
`losses` counts the transitions of the flag from true to false and is read by
the statements only.
-/

namespace R2000Driver.LinkLoop
open Data PacketExtraction Http Runs

inductive Transport
  | tcp
  | udp
  deriving DecidableEq, Repr

inductive Phase
  | constructing
  | resolving
  | connecting
  | waiting
  | reading
  | extracting
  | ended
  deriving DecidableEq, Repr

def Phase.Live : Phase → Prop
  | constructing => False
  | resolving => True
  | connecting => True
  | waiting => True
  | reading => True
  | extracting => True
  | ended => False

/-- A link as the base class and the receive handlers see it. -/
class DataLink (L : Type) where
  transport : Transport
  isConnected : L → Bool
  connectionLostEvents : L → ℕ
  extractionByteBuffer : L → List UInt8
  store : Bool → L → L
  fireDataLinkConnectionLostEvent : L → L
  onReadError : L → L
  onBytesReceived : L → List UInt8 → Except Fault L

instance : DataLink TCPLink where
  transport := .tcp
  isConnected link := link.isConnected
  connectionLostEvents link := link.connectionLostEvents
  extractionByteBuffer link := link.extractionByteBuffer
  store value link := { link with isConnected := value }
  fireDataLinkConnectionLostEvent link :=
    { link with connectionLostEvents := link.connectionLostEvents + 1 }
  onReadError := TCPLinkOver.onReadError
  onBytesReceived := TCPLinkOver.onBytesReceived

instance [PacketSort] : DataLink UDPLink where
  transport := .udp
  isConnected link := link.isConnected
  connectionLostEvents link := link.connectionLostEvents
  extractionByteBuffer link := link.extractionByteBuffer
  store value link := { link with isConnected := value }
  fireDataLinkConnectionLostEvent link :=
    { link with connectionLostEvents := link.connectionLostEvents + 1 }
  onReadError := UDPLink.onReadError
  onBytesReceived := UDPLink.onBytesReceived

structure State (L : Type) where
  link : L
  phase : Phase
  isWatchdogEnabled : Bool
  startScanPending : Bool
  watchdogRuns : Bool
  losses : ℕ

inductive Event
  | startScan (answer : Option RequestResult)
  | watchdog (answer : Option RequestResult)
  | resolve
  | resolved (succeeded : Bool)
  | connected (succeeded : Bool)
  | retry
  | setUp (succeeded : Bool)
  | readError
  | bytesReceived (received : List UInt8)
  deriving DecidableEq, Repr

section
variable {L : Type} [DataLink L]
open DataLink

def watchdogFeed (link : L) : Option RequestResult → L
  | none => store false link
  | some result =>
    if result = .success then store true link
    else
      let wasConnected := isConnected link
      let link := store false link
      if wasConnected then fireDataLinkConnectionLostEvent link else link

def startScanAnswer (link : L) (answer : Option RequestResult) : L :=
  if answer = some .success then link else store false link

def afterExtraction (link : L) : Except Fault L → Option (L × Phase)
  | .ok link => some (link, .reading)
  | .error (.runtimeError _) => some (link, .ended)
  | .error .endless => some (link, .extracting)
  | .error .outOfRange => none

def act (s : State L) : Event → Option (State L)
  | .startScan answer =>
    if s.startScanPending then
      some { s with
        link := startScanAnswer s.link answer
        startScanPending := false
        watchdogRuns := answer == some .success && s.isWatchdogEnabled }
    else none
  | .watchdog answer =>
    if s.watchdogRuns then some { s with link := watchdogFeed s.link answer } else none
  | .resolve =>
    if s.phase = .constructing ∧ transport L = .tcp then some { s with phase := .resolving } else none
  | .resolved succeeded =>
    if s.phase = .resolving then some { s with phase := if succeeded then .connecting else .waiting }
    else none
  | .connected succeeded =>
    if s.phase = .connecting then
      some { s with
        link := store succeeded s.link
        phase := if succeeded then .reading else .waiting }
    else none
  | .retry => if s.phase = .waiting then some { s with phase := .resolving } else none
  | .setUp succeeded =>
    if s.phase = .constructing ∧ transport L = .udp then
      some { s with
        link := store succeeded s.link
        phase := if succeeded then .reading else .ended }
    else none
  | .readError =>
    if s.phase = .reading then some { s with link := onReadError s.link, phase := .ended } else none
  | .bytesReceived received =>
    if s.phase = .reading then
      (afterExtraction s.link (onBytesReceived s.link received)).map fun (link, phase) =>
        { s with link := link, phase := phase }
    else none

/-- `isAlive` has gone from true to false. -/
def lost (link link' : L) : ℕ := if isConnected link ∧ ¬ isConnected link' then 1 else 0

def step (s : State L) (e : Event) : Option (State L) :=
  (act s e).map fun s' => { s' with losses := s.losses + lost s.link s'.link }

/-- The start of the constructor: the flag is set from the beginning. -/
def init (link : L) (isWatchdogEnabled : Bool) : State L where
  link := link
  phase := .constructing
  isWatchdogEnabled := isWatchdogEnabled
  startScanPending := true
  watchdogRuns := false
  losses := 0

inductive Acts (s : State L) : Event → State L → Prop
  | startScan (answer : Option RequestResult) : s.startScanPending = true →
      Acts s (.startScan answer) { s with
        link := startScanAnswer s.link answer
        startScanPending := false
        watchdogRuns := answer == some .success && s.isWatchdogEnabled }
  | watchdog (answer : Option RequestResult) : s.watchdogRuns = true →
      Acts s (.watchdog answer) { s with link := watchdogFeed s.link answer }
  | resolve : s.phase = .constructing → Acts s .resolve { s with phase := .resolving }
  | resolved (succeeded : Bool) : s.phase = .resolving →
      Acts s (.resolved succeeded) { s with phase := if succeeded then .connecting else .waiting }
  | connected (succeeded : Bool) : s.phase = .connecting →
      Acts s (.connected succeeded) { s with
        link := store succeeded s.link
        phase := if succeeded then .reading else .waiting }
  | retry : s.phase = .waiting → Acts s .retry { s with phase := .resolving }
  | setUp (succeeded : Bool) : s.phase = .constructing →
      Acts s (.setUp succeeded) { s with
        link := store succeeded s.link
        phase := if succeeded then .reading else .ended }
  | readError : s.phase = .reading →
      Acts s .readError { s with link := onReadError s.link, phase := .ended }
  | read {received link} : s.phase = .reading → onBytesReceived s.link received = .ok link →
      Acts s (.bytesReceived received) { s with link := link, phase := .reading }
  | thrown {received what} : s.phase = .reading →
      onBytesReceived s.link received = .error (.runtimeError what) →
      Acts s (.bytesReceived received) { s with phase := .ended }
  | endless {received} : s.phase = .reading → onBytesReceived s.link received = .error .endless →
      Acts s (.bytesReceived received) { s with phase := .extracting }

theorem acts_of_act {s s' : State L} {e : Event} (h : act s e = some s') : Acts s e s' := by
  cases e with
  | startScan answer =>
    rw [act] at h
    split at h
    · next hp =>
      cases h
      exact .startScan answer hp
    · cases h
  | watchdog answer =>
    rw [act] at h
    split at h
    · next hp =>
      cases h
      exact .watchdog answer hp
    · cases h
  | resolve =>
    rw [act] at h
    split at h
    · next hp =>
      cases h
      exact .resolve hp.1
    · cases h
  | resolved succeeded =>
    rw [act] at h
    split at h
    · next hp =>
      cases h
      exact .resolved succeeded hp
    · cases h
  | connected succeeded =>
    rw [act] at h
    split at h
    · next hp =>
      cases h
      exact .connected succeeded hp
    · cases h
  | retry =>
    rw [act] at h
    split at h
    · next hp =>
      cases h
      exact .retry hp
    · cases h
  | setUp succeeded =>
    rw [act] at h
    split at h
    · next hp =>
      cases h
      exact .setUp succeeded hp.1
    · cases h
  | readError =>
    rw [act] at h
    split at h
    · next hp =>
      cases h
      exact .readError hp
    · cases h
  | bytesReceived received =>
    rw [act] at h
    split at h
    · next hp =>
      obtain ⟨⟨link, phase⟩, hafter, rfl⟩ := Option.map_eq_some_iff.mp h
      cases hr : onBytesReceived s.link received with
      | ok next =>
        rw [hr] at hafter
        cases hafter
        exact .read hp hr
      | error fault =>
        rw [hr] at hafter
        cases fault with
        | runtimeError what =>
          cases hafter
          exact .thrown hp hr
        | endless =>
          cases hafter
          exact .endless hp hr
        | outOfRange => cases hafter
    · cases h

theorem step_acts {s s' : State L} {e : Event} (h : step s e = some s') :
    ∃ next, Acts s e next ∧ s' = { next with losses := s.losses + lost s.link next.link } := by
  obtain ⟨next, hnext, hs'⟩ := Option.map_eq_some_iff.mp h
  exact ⟨next, acts_of_act hnext, hs'.symm⟩

class LawfulDataLink (L : Type) [DataLink L] : Prop where
  isConnected_store : ∀ value (link : L), isConnected (store value link) = value
  events_store : ∀ value (link : L),
    connectionLostEvents (store value link) = connectionLostEvents link
  isConnected_fire : ∀ link : L,
    isConnected (fireDataLinkConnectionLostEvent link) = isConnected link
  events_fire : ∀ link : L,
    connectionLostEvents (fireDataLinkConnectionLostEvent link) = connectionLostEvents link + 1
  isConnected_onReadError : ∀ link : L, isConnected (onReadError link) = false
  events_onReadError : ∀ link : L,
    connectionLostEvents (onReadError link) = connectionLostEvents link + 1
  onBytesReceived_ok : ∀ (link link' : L) received, onBytesReceived link received = .ok link' →
    isConnected link' = isConnected link ∧ connectionLostEvents link' = connectionLostEvents link
  throws_iff : ∀ (link : L) received,
    (∃ what, onBytesReceived link received = .error (.runtimeError what)) ↔
      ∃ r, Visits (extractionByteBuffer link ++ received) r ∧ Unsupported r

end

theorem TCPLinkOver.onBytesReceived_flag {F : Type} [ScanFactory F] {link link' : TCPLinkOver F}
    {received : List UInt8} (h : link.onBytesReceived received = .ok link') :
    link'.isConnected = link.isConnected ∧ link'.connectionLostEvents = link.connectionLostEvents := by
  simp only [TCPLinkOver.onBytesReceived, TCPLinkOver.tryExtractingScanFromByteRange] at h
  cases hloop : extractionLoop TCPLinkOver.onCompleteScan
      ((link.extractionByteBuffer ++ received).length + 1) (link.extractionByteBuffer ++ received)
      link.scanFactory (none, link.published) with
  | error e =>
    rw [hloop] at h
    cases h
  | ok exit =>
    rw [hloop] at h
    cases h
    cases exit.output.1 with
    | none => exact ⟨rfl, rfl⟩
    | some size =>
      simp only [TCPLinkOver.resizeReceptionAndExtractionBuffers]
      split_ifs <;> exact ⟨rfl, rfl⟩

theorem TCPLinkOver.throws_iff {F : Type} [ScanFactory F] (link : TCPLinkOver F)
    (received : List UInt8) :
    (∃ what, link.onBytesReceived received = .error (.runtimeError what)) ↔
      ∃ r, Visits (link.extractionByteBuffer ++ received) r ∧ Unsupported r := by
  rw [← extractionLoop_throws_iff TCPLinkOver.onCompleteScan (Nat.lt_succ_self _) link.scanFactory
    (none, link.published)]
  rcases onBytesReceived_cases link received with ⟨e, hloop, hlink⟩ | ⟨exit, link', hloop, hlink, -⟩
  · rw [hloop, hlink]
    simp only [Except.error.injEq]
  · rw [hloop, hlink]
    simp only [reduceCtorEq]

instance : LawfulDataLink TCPLink where
  isConnected_store _ _ := rfl
  events_store _ _ := rfl
  isConnected_fire _ := rfl
  events_fire _ := rfl
  isConnected_onReadError _ := rfl
  events_onReadError _ := rfl
  onBytesReceived_ok _ _ _ h := TCPLinkOver.onBytesReceived_flag h
  throws_iff link received := TCPLinkOver.throws_iff link received

def tcpLink : TCPLink := TCPLinkOver.connected ⟨[], [], []⟩

section
variable [PacketSort]

theorem UDPLink.onBytesReceived_flag {link link' : UDPLink} {received : List UInt8}
    (h : link.onBytesReceived received = .ok link') :
    link'.isConnected = link.isConnected ∧ link'.connectionLostEvents = link.connectionLostEvents := by
  rw [UDPLink.onBytesReceived_recorded] at h
  cases hloop : link.recordedLoop received with
  | error e =>
    rw [hloop] at h
    cases h
  | ok exit =>
    rw [hloop] at h
    cases h
    exact ⟨rfl, rfl⟩

theorem UDPLink.throws_iff (link : UDPLink) (received : List UInt8) :
    (∃ what, link.onBytesReceived received = .error (.runtimeError what)) ↔
      ∃ r, Visits (link.extractionByteBuffer ++ received) r ∧ Unsupported r := by
  rw [← extractionLoop_throws_iff
    (fun r : Recorder UdpScanFactory => UDPLink.onCompleteScan r.factory) (Nat.lt_succ_self _)
    ⟨link.scanFactory, []⟩ link.published, UDPLink.onBytesReceived_recorded]
  change _ ↔ ∃ what, link.recordedLoop received = .error (.runtimeError what)
  cases link.recordedLoop received with
  | error e => simp only [Except.map, Except.error.injEq]
  | ok exit => simp only [Except.map, reduceCtorEq]

instance : LawfulDataLink UDPLink where
  isConnected_store _ _ := rfl
  events_store _ _ := rfl
  isConnected_fire _ := rfl
  events_fire _ := rfl
  isConnected_onReadError _ := rfl
  events_onReadError _ := rfl
  onBytesReceived_ok _ _ _ h := UDPLink.onBytesReceived_flag h
  throws_iff link received := UDPLink.throws_iff link received

end
end R2000Driver.LinkLoop
