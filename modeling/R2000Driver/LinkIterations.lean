import R2000Driver.Runs
import R2000Driver.TcpReassembly
import R2000Driver.UdpAssembly

/-!
# The receive side of a link, one call of the extraction at a time

A handler appends what was received and calls the extraction until it has not
enough bytes; a complete scan is published between two calls. `LoopState` is
what is there between the calls, for either link, and `step` is one of them.
What holds in every state of the runs holds between any two calls of any
handler, also of one that ends with an exception. The handlers of the links
are runs (`receive_steps`).
-/

namespace R2000Driver.PacketExtraction
open Data ScanFactory Runs

structure LoopState (F : Type) where
  position : List UInt8
  running : Bool
  scanFactory : F
  published : List Scan
  deriving DecidableEq, Repr

inductive LoopEvent
  | deliver (received : List UInt8)
  | extract
  deriving DecidableEq, Repr

section
variable {F : Type} [ScanFactory F]

namespace LoopState

def step (s : LoopState F) : LoopEvent → Option (LoopState F)
  | .deliver received =>
    if s.running then none else some { s with position := s.position ++ received, running := true }
  | .extract =>
    if s.running then
      match extractScanPacketFromByteRange s.position s.scanFactory with
      | .error _ => none
      | .ok (extraction, scanFactory) => some {
          position := extraction.position
          running := extraction.hadEnoughBytes
          scanFactory := (publish scanFactory).1
          published := s.published ++ (publish scanFactory).2.toList }
    else none

theorem step_deliver {s s' : LoopState F} {received : List UInt8}
    (h : step s (.deliver received) = some s') :
    s'.scanFactory = s.scanFactory ∧ s'.published = s.published := by
  simp only [step] at h
  split_ifs at h
  cases h
  exact ⟨rfl, rfl⟩

theorem step_extract {s s' : LoopState F} (h : step s .extract = some s') :
    ∃ found, findPacket s.position = .ok found ∧
      s'.scanFactory = (publish (found.deliver s.scanFactory).2).1 ∧
      s'.published = s.published ++ (publish (found.deliver s.scanFactory).2).2.toList := by
  simp only [step, extractScanPacketFromByteRange_eq] at h
  split_ifs at h
  cases hfound : findPacket s.position with
  | error e =>
    rw [hfound] at h
    cases h
  | ok found =>
    rw [hfound] at h
    cases h
    exact ⟨found, rfl, rfl, rfl⟩

end LoopState

open LoopState

theorem published_scans {σ : Type} {onComplete : F → Scan → σ → σ} {scans : σ → List Scan}
    (hscans : ∀ f scan output, scans (onComplete f scan output) = scans output ++ [scan]) (f : F)
    (output : σ) : scans (published onComplete f output) = scans output ++ (publish f).2.toList := by
  unfold published
  cases (publish f).2 with
  | none => exact (List.append_nil _).symm
  | some scan => exact hscans f scan output

theorem extractionLoop_steps {σ : Type} {onComplete : F → Scan → σ → σ} (scans : σ → List Scan)
    (hscans : ∀ f scan output, scans (onComplete f scan output) = scans output ++ [scan]) {fuel : ℕ}
    {range : List UInt8} {f : F} {output : σ} {exit : LoopExit F σ}
    (h : extractionLoop onComplete fuel range f output = .ok exit) :
    ∃ calls, exec step ⟨range, true, f, scans output⟩ (List.replicate calls .extract) =
      some ⟨exit.position, false, exit.scanFactory, scans exit.output⟩ := by
  induction fuel generalizing range f output with
  | zero => cases h
  | succ fuel ih =>
    simp only [extractionLoop] at h
    cases hextract : extractScanPacketFromByteRange range f with
    | error e =>
      simp only [hextract] at h
      cases h
    | ok result =>
      obtain ⟨extraction, f'⟩ := result
      simp only [hextract] at h
      have hstep : step ⟨range, true, f, scans output⟩ .extract =
          some ⟨extraction.position, extraction.hadEnoughBytes, (publish f').1,
            scans (published onComplete f' output)⟩ := by
        simp only [step, hextract, ↓reduceIte, published_scans hscans]
      cases henough : extraction.hadEnoughBytes with
      | true =>
        simp only [henough, ↓reduceIte] at h hstep
        obtain ⟨calls, hcalls⟩ := ih h
        exact ⟨calls + 1, exec_cons.mpr ⟨_, hstep, hcalls⟩⟩
      | false =>
        simp only [henough, Bool.false_eq_true, ↓reduceIte] at h hstep
        cases h
        exact ⟨1, exec_cons.mpr ⟨_, hstep, rfl⟩⟩

def TCPLinkOver.loopState (link : TCPLinkOver F) : LoopState F :=
  ⟨link.extractionByteBuffer, false, link.scanFactory, link.published⟩

def UDPLink.loopState (link : UDPLink) : LoopState UdpScanFactory :=
  ⟨link.extractionByteBuffer, false, link.scanFactory, link.published⟩

theorem deliver_calls {s s' : LoopState F} {received : List UInt8} (hidle : s.running = false)
    (h : ∃ calls, exec step { s with position := s.position ++ received, running := true }
      (List.replicate calls .extract) = some s') :
    ∃ events, exec step s events = some s' := by
  obtain ⟨calls, hcalls⟩ := h
  have hstep : step s (.deliver received) =
      some { s with position := s.position ++ received, running := true } := by
    simp only [step, hidle, Bool.false_eq_true, ↓reduceIte]
  exact ⟨.deliver received :: List.replicate calls .extract, exec_cons.mpr ⟨_, hstep, hcalls⟩⟩

theorem TCPLinkOver.onBytesReceived_steps {link link' : TCPLinkOver F} {received : List UInt8}
    (h : link.onBytesReceived received = .ok link') :
    ∃ events, exec step link.loopState events = some link'.loopState := by
  rcases onBytesReceived_cases link received with ⟨e, -, he⟩ | ⟨exit, link'', hloop, hlink, hafter⟩
  · cases he.symm.trans h
  · obtain rfl : link'' = link' := Except.ok.inj (hlink.symm.trans h)
    have hend : link''.loopState = ⟨exit.position, false, exit.scanFactory, exit.output.2⟩ := by
      rw [loopState, hafter.buffer, hafter.scanFactory, hafter.published]
    rw [hend]
    exact deliver_calls rfl (extractionLoop_steps Prod.snd (fun _ _ _ => rfl) hloop)

theorem TCPLinkOver.receive_steps {link link' : TCPLinkOver F} {reads : List (List UInt8)}
    (h : link.receive reads = .ok link') :
    ∃ events, exec step link.loopState events = some link'.loopState := by
  induction reads generalizing link with
  | nil =>
    cases h
    exact ⟨[], rfl⟩
  | cons received reads ih =>
    obtain ⟨next, hread, hrest⟩ := TCPLinkOver.exists_of_receive_cons h
    obtain ⟨events, hevents⟩ := TCPLinkOver.onBytesReceived_steps hread
    obtain ⟨later, hlater⟩ := ih hrest
    exact ⟨events ++ later, exec_append.mpr ⟨_, hevents, hlater⟩⟩

end

section
open LoopState
variable [PacketSort]

theorem UDPLink.onBytesReceived_steps {link link' : UDPLink} {received : List UInt8}
    (h : link.onBytesReceived received = .ok link') :
    ∃ events, exec step link.loopState events = some link'.loopState := by
  simp only [UDPLink.onBytesReceived, UDPLink.tryExtractingScanFromByteRange] at h
  cases hloop : extractionLoop UDPLink.onCompleteScan
      ((link.extractionByteBuffer ++ received).length + 1) (link.extractionByteBuffer ++ received)
      link.scanFactory link.published with
  | error e =>
    simp only [hloop] at h
    cases h
  | ok exit =>
    simp only [hloop] at h
    cases h
    exact deliver_calls rfl (extractionLoop_steps id (fun _ _ _ => rfl) hloop)

theorem UDPLink.receive_steps {link link' : UDPLink} {datagrams : List (List UInt8)}
    (h : link.receive datagrams = .ok link') :
    ∃ events, exec step link.loopState events = some link'.loopState := by
  induction datagrams generalizing link with
  | nil =>
    cases h
    exact ⟨[], rfl⟩
  | cons received datagrams ih =>
    obtain ⟨next, hread, hrest⟩ := UDPLink.exists_of_receive_cons h
    obtain ⟨events, hevents⟩ := UDPLink.onBytesReceived_steps hread
    obtain ⟨later, hlater⟩ := ih hrest
    exact ⟨events ++ later, exec_append.mpr ⟨_, hevents, hlater⟩⟩

end

section
open LoopState
variable {F : Type} [ScanFactory F]

def LoopState.forget (s : LoopState (Recorder F)) : LoopState F :=
  ⟨s.position, s.running, s.scanFactory.factory, s.published⟩

def Found.added : Found → List Packet
  | .nothing => []
  | .missing _ _ _ => []
  | .packet header payload => [⟨header, payload.distances, payload.amplitudes⟩]

theorem Found.deliver_recorder (r : Recorder F) (found : Found) : found.deliver r =
    ((found.deliver r.factory).1, ⟨(found.deliver r.factory).2, r.added ++ found.added⟩) := by
  cases found with
  | nothing => simp [deliver, added]
  | missing headerStart header n => simp [deliver, added, Recorder.clearedFor_eq]
  | packet header payload =>
    simp only [deliver, added, Recorder.clearedFor_eq]
    rfl

theorem LoopState.step_forget (s : LoopState (Recorder F)) (e : LoopEvent) :
    (step s e).map forget = step s.forget e := by
  obtain ⟨position, running, r, scans⟩ := s
  cases e with
  | deliver received => cases running <;> rfl
  | extract =>
    cases running with
    | false => rfl
    | true =>
      simp only [step, forget, extractScanPacketFromByteRange_eq, ↓reduceIte]
      cases findPacket position with
      | error e => rfl
      | ok found =>
        simp only [Except.map, Found.deliver_recorder, Recorder.publish_eq, Option.map_some, forget]

/-- Every run is what a recorded run shows of itself. -/
theorem LoopState.exists_recorded {s : LoopState (Recorder F)} {t : LoopState F}
    {events : List LoopEvent} (h : exec step s.forget events = some t) :
    ∃ recorded, exec step s events = some recorded ∧ recorded.forget = t := by
  rw [← exec_map forget step_forget] at h
  exact Option.map_eq_some_iff.mp h

end

section
open LoopState
variable {F : Type} [ScanFactory F]

def LoopState.Ready (s : LoopState F) : Prop :=
  s.running = false ∧ ∃ n ≤ datagramSize * 3 / 2, s.position = List.replicate n 0

theorem UDPLink.Ready.loopState {link : UDPLink} (h : link.Ready) : link.loopState.Ready := ⟨rfl, h⟩

def datagramEvents (p : ScanPacket) : List LoopEvent := [.deliver p.bytes, .extract, .extract]

namespace LoopState.Ready
variable {s : LoopState F}

theorem deliver (h : s.Ready) {received : List UInt8} : step s (.deliver received) =
    some { s with position := s.position ++ received, running := true } := by
  simp only [step, h.1, Bool.false_eq_true, ↓reduceIte]

omit [ScanFactory F] in
theorem findPacket (h : s.Ready) (p : ScanPacket) :
    PacketExtraction.findPacket (s.position ++ p.bytes) =
      .ok (.packet p.header ⟨p.payload.distances, p.payload.amplitudes, []⟩) := by
  obtain ⟨-, n, hn, hposition⟩ := h
  have hlow := p.sizeofHeader_le
  have hhigh := p.length_lt
  have hl : (List.replicate n (0 : UInt8) ++ (p.bytes ++ [])).length = n + p.bytes.length := by
    rw [List.append_nil, List.length_append, List.length_replicate]
  have hs : Searched (List.replicate n 0 ++ (p.bytes ++ [])) := by
    rw [Searched, hl, Nat.mod_eq_of_lt (by simp only [datagramSize] at hn; omega)]
    omega
  have hfound := p.findPacket_bytes _ [] ((noEarlierMagic_zeros n p.toWirePacket).append []) hs
  rwa [List.append_nil, ← hposition] at hfound

theorem extract (h : s.Ready) (p : ScanPacket) :
    step { s with position := s.position ++ p.bytes, running := true } .extract = some {
      position := []
      running := true
      scanFactory := (offer s.scanFactory p.decoded).1
      published := s.published ++ (offer s.scanFactory p.decoded).2.toList } := by
  simp only [step, extractScanPacketFromByteRange_eq, h.findPacket p, ↓reduceIte]
  rfl

theorem datagram [Lawful F] (h : s.Ready) (p : ScanPacket) :
    exec step s (datagramEvents p) = some {
      position := []
      running := false
      scanFactory := (offer s.scanFactory p.decoded).1
      published := s.published ++ (offer s.scanFactory p.decoded).2.toList } := by
  refine exec_cons.mpr ⟨_, h.deliver, exec_cons.mpr ⟨_, h.extract p, exec_single ?_⟩⟩
  simp only [step, extractScanPacketFromByteRange_eq, findPacket_of_not_searched not_searched_nil,
    Except.map, Found.deliver, publish_of_not_complete (offer_not_complete _ _), ↓reduceIte,
    Option.toList_none, List.append_nil]

omit [ScanFactory F] in
theorem idle (scanFactory : F) (published : List Scan) :
    LoopState.Ready ⟨[], false, scanFactory, published⟩ := ⟨rfl, 0, Nat.zero_le _, rfl⟩

end LoopState.Ready
end
end R2000Driver.PacketExtraction
