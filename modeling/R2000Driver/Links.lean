import R2000Driver.ExtractionLoop
import R2000Driver.WirePacket

/-!
# The receive side of the TCP and UDP links

A link keeps the bytes it has not consumed, its scan factory, and the scans
handed to `setOutputScanFromCompletedFactory` in order. `onBytesReceived`
appends what one read delivered, runs the extraction loop and removes the used
bytes; a network error ends the reception. The factory is a parameter of the
TCP link: the program's link is the one over `TcpScanFactory`, and over a
`Recorder` the same code also shows the calls of `addPacket`.
-/

namespace R2000Driver.PacketExtraction
open Data ScanFactory

/-- A factory that also keeps the packets added to it. -/
structure Recorder (F : Type) where
  factory : F
  added : List Packet
  deriving DecidableEq, Repr

section Recorder
variable {F : Type} [ScanFactory F]

instance : ScanFactory (Recorder F) where
  addPacket r header distances amplitudes :=
    ⟨addPacket r.factory header distances amplitudes, r.added ++ [⟨header, distances, amplitudes⟩]⟩
  empty r := empty r.factory
  isComplete r := isComplete r.factory
  assemble r := ((assemble r.factory).1, ⟨(assemble r.factory).2, r.added⟩)
  clear r := ⟨clear r.factory, r.added⟩
  equals r scanNumber := equals r.factory scanNumber
  getHeaders r := getHeaders r.factory

instance [Lawful F] : Lawful (Recorder F) where
  empty_clear r := Lawful.empty_clear r.factory
  not_complete r h := Lawful.not_complete r.factory h
  assemble_eq r := by
    change Recorder.mk (assemble r.factory).2 r.added = Recorder.mk (clear r.factory) r.added
    rw [Lawful.assemble_eq]

theorem Recorder.clearedFor_eq (r : Recorder F) (header : Header) :
    clearedFor r header = ⟨clearedFor r.factory header, r.added⟩ := by
  unfold clearedFor
  change (if (!empty r.factory && (isDifferentScan r.factory header || isNewScan header)) = true
    then _ else _) = _
  split_ifs <;> rfl

theorem Recorder.publish_eq (r : Recorder F) :
    publish r = (⟨(publish r.factory).1, r.added⟩, (publish r.factory).2) := by
  unfold publish
  change (if isComplete r.factory = true then _ else _) = _
  split_ifs <;> rfl

theorem Recorder.offer_eq (r : Recorder F) (p : Packet) :
    offer r p = (⟨(offer r.factory p).1, r.added ++ [p]⟩, (offer r.factory p).2) := by
  rw [offer, Recorder.clearedFor_eq]
  exact Recorder.publish_eq _

end Recorder

def defaultReceptionBufferSize : UInt32 := 4096
def maxReceptionBufferSize : UInt32 := 32768

structure TCPLinkOver (F : Type) where
  receptionByteBufferSize : ℕ
  extractionByteBuffer : List UInt8
  scanFactory : F
  published : List Scan
  isConnected : Bool
  connectionLostEvents : ℕ
  pendingRead : Option UInt32

abbrev TCPLink := TCPLinkOver TcpScanFactory

namespace TCPLinkOver
variable {F : Type} [ScanFactory F]

def computeBoundedRequiredBufferSizeToHostAFullScan (scanFactory : F) : UInt32 :=
  let byteSize := (getHeaders scanFactory).foldl (fun byteSize header => byteSize + header.packetSize) 0
  min maxReceptionBufferSize (max byteSize defaultReceptionBufferSize)

/-- What the loop does before it assembles a complete scan, and the scan. -/
def onCompleteScan (scanFactory : F) (scan : Scan) (output : Option UInt32 × List Scan) :
    Option UInt32 × List Scan :=
  (some (computeBoundedRequiredBufferSizeToHostAFullScan scanFactory), output.2 ++ [scan])

def tryExtractingScanFromByteRange (link : TCPLinkOver F) (range : List UInt8) :
    Except Fault ((List UInt8 × UInt32 × Option UInt32) × TCPLinkOver F) :=
  match extractionLoop onCompleteScan (range.length + 1) range link.scanFactory
      (none, link.published) with
  | .error e => .error e
  | .ok exit =>
    let bufferCapacity := UInt32.ofNat link.receptionByteBufferSize
    let numberOfBytesToTransfer :=
      if exit.numberOfMissingBytes ≠ 0 then min exit.numberOfMissingBytes bufferCapacity
      else bufferCapacity
    .ok ((exit.position, numberOfBytesToTransfer, exit.output.1),
      { link with scanFactory := exit.scanFactory, published := exit.output.2 })

def resizeReceptionAndExtractionBuffers (link : TCPLinkOver F) (newSize : UInt32) : TCPLinkOver F :=
  if link.receptionByteBufferSize < newSize.toNat then
    { link with receptionByteBufferSize := newSize.toNat }
  else link

def onReadError (link : TCPLinkOver F) : TCPLinkOver F :=
  { link with
    isConnected := false
    connectionLostEvents := link.connectionLostEvents + 1
    pendingRead := none }

def onBytesReceived (link : TCPLinkOver F) (received : List UInt8) : Except Fault (TCPLinkOver F) :=
  let extractionByteBuffer := link.extractionByteBuffer ++ received
  match link.tryExtractingScanFromByteRange extractionByteBuffer with
  | .error e => .error e
  | .ok ((position, numberOfBytesToTransfer, sizeOfAFullScan), link) =>
    let link := { link with extractionByteBuffer := position }
    let link := match sizeOfAFullScan with
      | none => link
      | some size => link.resizeReceptionAndExtractionBuffers size
    .ok { link with pendingRead := some numberOfBytesToTransfer }

def connected (scanFactory : F) : TCPLinkOver F where
  receptionByteBufferSize := defaultReceptionBufferSize.toNat
  extractionByteBuffer := []
  scanFactory := scanFactory
  published := []
  isConnected := true
  connectionLostEvents := 0
  pendingRead := some defaultReceptionBufferSize

def receive (link : TCPLinkOver F) : List (List UInt8) → Except Fault (TCPLinkOver F)
  | [] => .ok link
  | received :: reads =>
    match link.onBytesReceived received with
    | .error e => .error e
    | .ok link => link.receive reads

theorem receive_cons {link link' : TCPLinkOver F} {received : List UInt8}
    (h : link.onBytesReceived received = .ok link') (reads : List (List UInt8)) :
    link.receive (received :: reads) = link'.receive reads := by
  simp only [receive, h]

theorem exists_of_receive_cons {link link' : TCPLinkOver F} {received : List UInt8} {reads : List (List UInt8)}
    (h : link.receive (received :: reads) = .ok link') :
    ∃ next, link.onBytesReceived received = .ok next ∧ next.receive reads = .ok link' := by
  rw [receive] at h
  cases hread : link.onBytesReceived received with
  | error e =>
    rw [hread] at h
    cases h
  | ok next =>
    rw [hread] at h
    exact ⟨next, rfl, h⟩

end TCPLinkOver

section Forget
variable {F σ : Type} [ScanFactory F]

def LoopExit.forget (exit : LoopExit (Recorder F) σ) : LoopExit F σ :=
  ⟨exit.position, exit.numberOfMissingBytes, exit.scanFactory.factory, exit.output⟩

theorem extractionLoop_forget (onComplete : F → Scan → σ → σ) (fuel : ℕ) (range : List UInt8)
    (r : Recorder F) (output : σ) :
    (extractionLoop (fun r => onComplete r.factory) fuel range r output).map LoopExit.forget =
      extractionLoop onComplete fuel range r.factory output := by
  induction fuel generalizing range r output with
  | zero => rfl
  | succ fuel ih =>
    have hpub : ∀ r : Recorder F, published (fun r => onComplete r.factory) r output =
        published onComplete r.factory output := by
      intro r
      rw [published, published, Recorder.publish_eq]
    rw [extractionLoop_succ, extractionLoop_succ]
    cases findPacket range with
    | error e => rfl
    | ok found =>
      cases found with
      | nothing => simp only [Except.map, LoopExit.forget, Recorder.publish_eq, hpub]
      | missing headerStart header n =>
        simp only [Except.map, LoopExit.forget, Recorder.publish_eq, Recorder.clearedFor_eq, hpub]
      | packet header payload =>
        simp only [ih, Recorder.publish_eq, hpub, Recorder.clearedFor_eq]
        rfl

def TCPLinkOver.forget (link : TCPLinkOver (Recorder F)) : TCPLinkOver F :=
  ⟨link.receptionByteBufferSize, link.extractionByteBuffer, link.scanFactory.factory, link.published,
    link.isConnected, link.connectionLostEvents, link.pendingRead⟩

theorem onBytesReceived_forget (link : TCPLinkOver (Recorder F)) (received : List UInt8) :
    (link.onBytesReceived received).map TCPLinkOver.forget = link.forget.onBytesReceived received := by
  have hloop := extractionLoop_forget TCPLinkOver.onCompleteScan
    ((link.extractionByteBuffer ++ received).length + 1) (link.extractionByteBuffer ++ received)
    link.scanFactory (none, link.published)
  have hsame : (TCPLinkOver.onCompleteScan : Recorder F → Scan → Option UInt32 × List Scan → _) =
      fun r => TCPLinkOver.onCompleteScan r.factory := rfl
  simp only [TCPLinkOver.onBytesReceived, TCPLinkOver.tryExtractingScanFromByteRange,
    TCPLinkOver.forget, ← hloop, hsame]
  cases extractionLoop (fun r : Recorder F => TCPLinkOver.onCompleteScan r.factory)
      ((link.extractionByteBuffer ++ received).length + 1) (link.extractionByteBuffer ++ received)
      link.scanFactory (none, link.published) with
  | error e => rfl
  | ok exit =>
    simp only [Except.map, LoopExit.forget]
    cases exit.output.1 with
    | none => rfl
    | some size =>
      simp only [TCPLinkOver.resizeReceptionAndExtractionBuffers]
      split_ifs <;> rfl

theorem receive_forget (link : TCPLinkOver (Recorder F)) (reads : List (List UInt8)) :
    (link.receive reads).map TCPLinkOver.forget = link.forget.receive reads := by
  induction reads generalizing link with
  | nil => rfl
  | cons received reads ih =>
    rw [TCPLinkOver.receive, TCPLinkOver.receive, ← onBytesReceived_forget]
    cases link.onBytesReceived received with
    | error e => rfl
    | ok link => exact ih link

end Forget

def datagramSize : ℕ := 65535

structure UDPLink where
  extractionByteBuffer : List UInt8
  scanFactory : UdpScanFactory
  published : List Scan
  isConnected : Bool
  connectionLostEvents : ℕ
  receiving : Bool
  deriving DecidableEq, Repr

namespace UDPLink
variable [PacketSort]

def onCompleteScan (_ : UdpScanFactory) (scan : Scan) (output : List Scan) : List Scan :=
  output ++ [scan]

def tryExtractingScanFromByteRange (link : UDPLink) (range : List UInt8) :
    Except Fault (List UInt8 × UDPLink) :=
  match extractionLoop onCompleteScan (range.length + 1) range link.scanFactory link.published with
  | .error e => .error e
  | .ok exit => .ok (exit.position,
      { link with scanFactory := exit.scanFactory, published := exit.output })

def onReadError (link : UDPLink) : UDPLink :=
  { link with
    isConnected := false
    connectionLostEvents := link.connectionLostEvents + 1
    receiving := false }

def onBytesReceived (link : UDPLink) (received : List UInt8) : Except Fault UDPLink :=
  let extractionByteBuffer := link.extractionByteBuffer ++ received
  match link.tryExtractingScanFromByteRange extractionByteBuffer with
  | .error e => .error e
  | .ok (position, link) => .ok { link with extractionByteBuffer := position, receiving := true }

/-- The link after its constructor: the extraction buffer is filled with
`floor(DATAGRAM_SIZE * 1.5)` zeros, not reserved. -/
def bound : UDPLink where
  extractionByteBuffer := List.replicate (datagramSize * 3 / 2) 0
  scanFactory := ⟨[], 0⟩
  published := []
  isConnected := true
  connectionLostEvents := 0
  receiving := true

def receive (link : UDPLink) : List (List UInt8) → Except Fault UDPLink
  | [] => .ok link
  | received :: datagrams =>
    match link.onBytesReceived received with
    | .error e => .error e
    | .ok link => link.receive datagrams

theorem receive_cons {link link' : UDPLink} {received : List UInt8}
    (h : link.onBytesReceived received = .ok link') (datagrams : List (List UInt8)) :
    link.receive (received :: datagrams) = link'.receive datagrams := by
  simp only [receive, h]

theorem exists_of_receive_cons {link link' : UDPLink} {received : List UInt8}
    {datagrams : List (List UInt8)} (h : link.receive (received :: datagrams) = .ok link') :
    ∃ next, link.onBytesReceived received = .ok next ∧ next.receive datagrams = .ok link' := by
  rw [receive] at h
  cases hread : link.onBytesReceived received with
  | error e =>
    rw [hread] at h
    cases h
  | ok next =>
    rw [hread] at h
    exact ⟨next, rfl, h⟩

end UDPLink

section Packets
variable {F σ : Type} [ScanFactory F] (onComplete : F → Scan → σ → σ)

def offerOutput (f : F) (p : Packet) (output : σ) : σ :=
  published onComplete (addPacket (clearedFor f p.header) p.header p.distances p.amplitudes) output

theorem extractionLoop_packet (p : WirePacket) (g s : List UInt8)
    (hg : ∀ k < g.length, ¬ StartsWithMagic ((g ++ (p.bytes ++ s)).drop k))
    (hs : Searched (g ++ (p.bytes ++ s))) (fuel : ℕ) (f : F) (output : σ) :
    extractionLoop onComplete (fuel + 1) (g ++ (p.bytes ++ s)) f output =
      extractionLoop onComplete fuel s (offer f p.decoded).1
        (offerOutput onComplete f p.decoded output) := by
  rw [extractionLoop_succ, p.findPacket_bytes g s hg hs]
  rfl

theorem published_of_not_complete {f : F} (h : isComplete f = false) (output : σ) :
    published onComplete f output = output := by
  rw [published, publish_of_not_complete h]

theorem extractionLoop_nothing {range : List UInt8} (h : findPacket range = .ok .nothing)
    (fuel : ℕ) {f : F} (hf : isComplete f = false) (output : σ) :
    extractionLoop onComplete (fuel + 1) range f output = .ok ⟨[], 0, f, output⟩ := by
  rw [extractionLoop_succ, h]
  simp only [publish_of_not_complete hf, published_of_not_complete onComplete hf]

variable [Lawful F]

theorem extractionLoop_missing {range headerStart : List UInt8} {header : Header} {n : UInt32}
    (h : findPacket range = .ok (.missing headerStart header n)) (fuel : ℕ) {f : F}
    (hf : isComplete f = false) (output : σ) :
    extractionLoop onComplete (fuel + 1) range f output =
      .ok ⟨headerStart, n, clearedFor f header, output⟩ := by
  have hc := clearedFor_not_complete hf header
  rw [extractionLoop_succ, h]
  simp only [publish_of_not_complete hc, published_of_not_complete onComplete hc]

end Packets

theorem not_searched_nil : ¬ Searched [] := by
  simp [Searched, sizeofHeader]

end R2000Driver.PacketExtraction
