import R2000Driver.StreamPrefix
import R2000Driver.UdpAssembly

/-!
# What one datagram does to the later ones

The UDP link keeps the bytes that a datagram leaves over and puts the next
datagram behind them, so that the walk over the packets of a read starts in
the bytes of an earlier datagram. A packet is decoded when that walk comes to
the front of its own bytes (`UDPLink.Survives`); a datagram of other bytes ends
the reception when the walk meets a stall, a read past the end or a packet type
that is not supported.
-/

namespace R2000Driver.PacketExtraction
open Data ScanFactory Relation

/-- A complete packet whose type makes the extraction throw. -/
def Unsupported (range : List UInt8) : Prop :=
  ∃ headerStart header, HeaderAt range headerStart header ∧ PayloadFits headerStart header ∧
    ¬ Supported header.packetType

section Loop
variable {F σ : Type} [ScanFactory F] (onComplete : F → Scan → σ → σ)

theorem findPacket_of_unsupported {range : List UInt8} (h : Unsupported range) :
    ∃ packetType, findPacket range = .error (unsupportedPayloadType packetType) := by
  obtain ⟨headerStart, header, hat, hf, hu⟩ := h
  rcases retrievePayload_cases header.packetType (headerStart.drop header.headerSize.toNat)
    header.numPointsPacket.toNat with ⟨-, hp⟩ | ⟨hb, -, -⟩ | ⟨hs, -, -⟩
  · refine ⟨header.packetType, ?_⟩
    rw [findPacket_of_magic hat.searched hat.magic hat.header, findPacketAt_of_fits hf, hp]
    rfl
  · exact absurd (supported_of_b hb) hu
  · exact absurd hs hu

theorem unsupported_of_findPacket {range : List UInt8} {what : String}
    (h : findPacket range = .error (.runtimeError what)) : Unsupported range := by
  rcases findPacket_cases range with he | ⟨_, _, _, _, he⟩ | ⟨headerStart, header, hat, he⟩
  · cases he.symm.trans h
  · cases he.symm.trans h
  rw [he] at h
  by_cases hf : PayloadFits headerStart header
  · rw [findPacketAt_of_fits hf] at h
    rcases retrievePayload_cases header.packetType (headerStart.drop header.headerSize.toNat)
      header.numPointsPacket.toNat with ⟨hu, -⟩ | ⟨-, -, hp⟩ | ⟨-, -, payload, hp, -⟩
    · exact ⟨headerStart, header, hat, hf, hu⟩
    · rw [hp] at h
      cases h
    · rw [hp] at h
      cases h
  · rw [findPacketAt_of_not_fits hf] at h
    cases h

theorem unsupported_of_extractionLoop {range : List UInt8} {fuel : ℕ} {scanFactory : F} {output : σ}
    {what : String}
    (h : extractionLoop onComplete fuel range scanFactory output = .error (.runtimeError what)) :
    ∃ r, Visits range r ∧ Unsupported r := by
  induction fuel generalizing range scanFactory output with
  | zero => cases h
  | succ fuel ih =>
    rw [extractionLoop_succ] at h
    cases hp : findPacket range with
    | error e =>
      rw [hp] at h
      injection h with h
      subst h
      exact ⟨range, ReflTransGen.refl, unsupported_of_findPacket hp⟩
    | ok found =>
      rw [hp] at h
      cases found with
      | nothing => cases h
      | missing => cases h
      | packet header payload =>
        obtain ⟨r, hr, hu⟩ := ih h
        exact ⟨r, ReflTransGen.head (hop_of_packet hp) hr, hu⟩

theorem not_unsupported_of_extractionLoop {range r : List UInt8} (hr : Visits range r) {fuel : ℕ}
    {scanFactory : F} {output : σ} {exit : LoopExit F σ}
    (h : extractionLoop onComplete fuel range scanFactory output = .ok exit) : ¬ Unsupported r := by
  induction hr using ReflTransGen.head_induction_on generalizing fuel scanFactory output with
  | refl =>
    intro hu
    obtain ⟨packetType, hw⟩ := findPacket_of_unsupported hu
    cases fuel with
    | zero => cases h
    | succ fuel =>
      rw [extractionLoop_succ, hw] at h
      cases h
  | head hhop _ ih =>
    obtain ⟨scanFactory', output', hl⟩ := extractionLoop_hop onComplete hhop scanFactory output
    cases fuel with
    | zero => cases h
    | succ fuel =>
      rw [hl] at h
      exact ih h

theorem extractionLoop_ok_iff {range : List UInt8} {fuel : ℕ} (hf : range.length < fuel)
    (scanFactory : F) (output : σ) :
    (∃ exit, extractionLoop onComplete fuel range scanFactory output = .ok exit) ↔
      ∀ r, Visits range r → ¬ Stalls r ∧ ¬ ReadsBeyond r ∧ ¬ Unsupported r := by
  constructor
  · rintro ⟨exit, he⟩ r hr
    obtain ⟨hs, hb⟩ := clear_of_extractionLoop_returns onComplete (Or.inl ⟨exit, he⟩) hr
    exact ⟨hs, hb, not_unsupported_of_extractionLoop onComplete hr he⟩
  · intro hclear
    have hreturns := extractionLoop_returns onComplete
      (fun r hr => ⟨(hclear r hr).1, (hclear r hr).2.1⟩) hf scanFactory output
    rcases hreturns with he | ⟨what, he⟩
    · exact he
    · obtain ⟨r, hr, hu⟩ := unsupported_of_extractionLoop onComplete he
      exact absurd hu (hclear r hr).2.2

theorem Hop.unique {range next next' : List UInt8} (h : Hop range next) (h' : Hop range next') :
    next = next' := by
  obtain ⟨header, payload, hp, rfl⟩ := h.packet
  obtain ⟨header', payload', hp', rfl⟩ := h'.packet
  cases hp.symm.trans hp'
  rfl

theorem extractionLoop_visits {range next : List UInt8} (h : Visits range next) {fuel : ℕ}
    (hf : range.length < fuel) (scanFactory : F) (output : σ) :
    ∃ fuel' scanFactory' output', next.length < fuel' ∧
      extractionLoop onComplete fuel range scanFactory output =
        extractionLoop onComplete fuel' next scanFactory' output' := by
  induction h using ReflTransGen.head_induction_on generalizing fuel scanFactory output with
  | refl => exact ⟨fuel, scanFactory, output, hf, rfl⟩
  | head hhop _ ih =>
    rename_i range mid _
    by_cases hs : Stalls range
    · -- A stalled walk stays where it is.
      obtain rfl : range = mid := hs.hop.unique hhop
      exact ih hf scanFactory output
    · obtain ⟨fuel, rfl⟩ : ∃ k, fuel = k + 1 := ⟨fuel - 1, by omega⟩
      obtain ⟨scanFactory', output', hl⟩ := extractionLoop_hop onComplete hhop scanFactory output
      have hlt := hhop.length_lt_iff.mpr hs
      rw [hl]
      exact ih (by omega) scanFactory' output'

theorem extractionLoop_throws_iff {range : List UInt8} {fuel : ℕ} (hf : range.length < fuel)
    (scanFactory : F) (output : σ) :
    (∃ what, extractionLoop onComplete fuel range scanFactory output = .error (.runtimeError what)) ↔
      ∃ r, Visits range r ∧ Unsupported r := by
  constructor
  · rintro ⟨what, h⟩
    exact unsupported_of_extractionLoop onComplete h
  · rintro ⟨r, hr, hu⟩
    obtain ⟨packetType, hp⟩ := findPacket_of_unsupported hu
    obtain ⟨fuel', scanFactory', output', hf', hl⟩ :=
      extractionLoop_visits onComplete hr hf scanFactory output
    obtain ⟨fuel', rfl⟩ : ∃ k, fuel' = k + 1 := ⟨fuel' - 1, by omega⟩
    rw [hl, extractionLoop_succ, hp]
    exact ⟨_, rfl⟩

end Loop

theorem extractionLoop_decodes {F σ : Type} [ScanFactory F] [Lawful F]
    (onComplete : Recorder F → Scan → σ → σ) {range g : List UInt8} {p : WirePacket}
    (h : Visits range (g ++ p.bytes)) (hs : Searched (g ++ p.bytes)) (hg : NoEarlierMagic g p)
    {fuel : ℕ} (hf : range.length < fuel) (r : Recorder F) (output : σ) :
    ∃ exit, extractionLoop onComplete fuel range r output = .ok exit ∧
      p.decoded ∈ exit.scanFactory.added := by
  obtain ⟨fuel', r', output', hf', hl⟩ := extractionLoop_visits onComplete h hf r output
  have hlength := hs.le_length
  simp only [sizeofHeader] at hlength
  obtain ⟨fuel', rfl⟩ : ∃ k, fuel' = k + 2 := ⟨fuel' - 2, by omega⟩
  rw [← List.append_nil p.bytes] at hs hl
  rw [hl, extractionLoop_packet onComplete p g [] (hg.append []) hs,
    extractionLoop_nothing _ (findPacket_of_not_searched not_searched_nil) _ (offer_not_complete _ _)]
  refine ⟨_, rfl, ?_⟩
  rw [Recorder.added_offer]
  exact List.mem_append_right _ (List.mem_singleton.mpr rfl)

inductive Datagram
  | packet (p : WirePacket)
  | bytes (received : List UInt8)

def Datagram.received : Datagram → List UInt8
  | .packet p => p.bytes
  | .bytes received => received

namespace UDPLink
variable [PacketSort]

def recordedLoop (link : UDPLink) (received : List UInt8) :
    Except Fault (LoopExit (Recorder UdpScanFactory) (List Scan)) :=
  let range := link.extractionByteBuffer ++ received
  extractionLoop (fun r => UDPLink.onCompleteScan r.factory) (range.length + 1) range
    ⟨link.scanFactory, []⟩ link.published

def addPacketCalls (link : UDPLink) (received : List UInt8) : Except Fault (List Packet) :=
  (link.recordedLoop received).map fun exit => exit.scanFactory.added

theorem onBytesReceived_recorded (link : UDPLink) (received : List UInt8) :
    link.onBytesReceived received = (link.recordedLoop received).map fun exit =>
      { link with
        extractionByteBuffer := exit.position
        scanFactory := exit.scanFactory.factory
        published := exit.output
        receiving := true } := by
  have hloop := extractionLoop_forget UDPLink.onCompleteScan
    ((link.extractionByteBuffer ++ received).length + 1) (link.extractionByteBuffer ++ received)
    ⟨link.scanFactory, []⟩ link.published
  simp only [onBytesReceived, tryExtractingScanFromByteRange, recordedLoop, ← hloop]
  cases extractionLoop (fun r : Recorder UdpScanFactory => UDPLink.onCompleteScan r.factory)
      ((link.extractionByteBuffer ++ received).length + 1) (link.extractionByteBuffer ++ received)
      ⟨link.scanFactory, []⟩ link.published with
  | error e => rfl
  | ok exit => rfl

def Decodes (link : UDPLink) (p : WirePacket) : Prop :=
  ∃ calls, link.addPacketCalls p.bytes = .ok calls ∧ p.decoded ∈ calls

theorem Decodes.onBytesReceived {link : UDPLink} {p : WirePacket} (h : link.Decodes p) :
    ∃ link', link.onBytesReceived p.bytes = .ok link' := by
  obtain ⟨calls, hcalls, -⟩ := h
  rw [onBytesReceived_recorded]
  rw [addPacketCalls] at hcalls
  cases hloop : link.recordedLoop p.bytes with
  | error e =>
    rw [hloop] at hcalls
    cases hcalls
  | ok exit => exact ⟨_, rfl⟩

/-- The walk over the packets of a read, which starts in the bytes left over by earlier datagrams,
comes to the front of the packet; other bytes let the walk end normally. -/
def Survives (link : UDPLink) : Datagram → Prop
  | .packet p => ∃ g, Visits (link.extractionByteBuffer ++ p.bytes) (g ++ p.bytes) ∧
      Searched (g ++ p.bytes) ∧ NoEarlierMagic g p
  | .bytes received => ∀ r, Visits (link.extractionByteBuffer ++ received) r →
      ¬ Stalls r ∧ ¬ ReadsBeyond r ∧ ¬ Unsupported r

theorem Survives.decodes {link : UDPLink} {p : WirePacket} (h : link.Survives (.packet p)) :
    link.Decodes p := by
  obtain ⟨g, hvisits, hs, hg⟩ := h
  obtain ⟨exit, hexit, hmem⟩ := extractionLoop_decodes
    (fun r : Recorder UdpScanFactory => UDPLink.onCompleteScan r.factory) hvisits hs hg
    (Nat.lt_succ_self _) ⟨link.scanFactory, []⟩ link.published
  refine ⟨exit.scanFactory.added, ?_, hmem⟩
  rw [addPacketCalls, recordedLoop, hexit]
  rfl

theorem survives_bytes_iff (link : UDPLink) (received : List UInt8) :
    link.Survives (.bytes received) ↔ ∃ link', link.onBytesReceived received = .ok link' := by
  have hok := extractionLoop_ok_iff
    (fun r : Recorder UdpScanFactory => UDPLink.onCompleteScan r.factory)
    (Nat.lt_succ_self (link.extractionByteBuffer ++ received).length) ⟨link.scanFactory, []⟩
    link.published
  rw [Survives, ← hok, onBytesReceived_recorded, recordedLoop]
  constructor
  · rintro ⟨exit, hexit⟩
    rw [hexit]
    exact ⟨_, rfl⟩
  · rintro ⟨link', hlink⟩
    cases hloop : extractionLoop (fun r : Recorder UdpScanFactory => UDPLink.onCompleteScan r.factory)
        ((link.extractionByteBuffer ++ received).length + 1) (link.extractionByteBuffer ++ received)
        ⟨link.scanFactory, []⟩ link.published with
    | error e =>
      rw [hloop] at hlink
      cases hlink
    | ok exit => exact ⟨exit, rfl⟩

theorem Survives.onBytesReceived {link : UDPLink} {d : Datagram} (h : link.Survives d) :
    ∃ link', link.onBytesReceived d.received = .ok link' := by
  cases d with
  | packet p => exact h.decodes.onBytesReceived
  | bytes received => exact (link.survives_bytes_iff received).mp h

def AllSurvive (link : UDPLink) (ds : List Datagram) : Prop :=
  ∀ es d fs mid, ds = es ++ d :: fs → link.receive (es.map Datagram.received) = .ok mid →
    mid.Survives d

theorem AllSurvive.nil (link : UDPLink) : link.AllSurvive [] := by
  intro es d fs mid hds
  simp at hds

theorem AllSurvive.cons {link : UDPLink} {d : Datagram} {ds : List Datagram} (h : link.Survives d)
    (hrest : ∀ next, link.onBytesReceived d.received = .ok next → next.AllSurvive ds) :
    link.AllSurvive (d :: ds) := by
  intro es d' fs mid hds hmid
  cases es with
  | nil =>
    obtain ⟨rfl, rfl⟩ := List.cons.inj hds
    cases hmid
    exact h
  | cons first es =>
    obtain ⟨rfl, htail⟩ := List.cons.inj hds
    obtain ⟨next, hnext⟩ := h.onBytesReceived
    rw [List.map_cons, receive_cons hnext] at hmid
    exact hrest next hnext es d' fs mid htail hmid

theorem AllSurvive.receive {link : UDPLink} {ds : List Datagram} (h : link.AllSurvive ds)
    {es fs : List Datagram} (hds : ds = es ++ fs) :
    ∃ mid, link.receive (es.map Datagram.received) = .ok mid := by
  induction es generalizing link ds with
  | nil => exact ⟨link, rfl⟩
  | cons d es ih =>
    obtain ⟨next, hnext⟩ := (h [] d (es ++ fs) link hds rfl).onBytesReceived
    have hrest : next.AllSurvive (es ++ fs) := by
      intro es' d' fs' mid hes hmid
      refine h (d :: es') d' fs' mid (by rw [hds, List.cons_append, hes, List.cons_append]) ?_
      rw [List.map_cons, receive_cons hnext, hmid]
    rw [List.map_cons, receive_cons hnext]
    exact ih hrest rfl

end UDPLink

section

theorem UDPLink.Survives.of_noEarlierMagic {link : UDPLink} {p : WirePacket}
    (hg : NoEarlierMagic link.extractionByteBuffer p)
    (hs : Searched (link.extractionByteBuffer ++ p.bytes)) : link.Survives (.packet p) :=
  ⟨link.extractionByteBuffer, ReflTransGen.refl, hs, hg⟩

theorem UDPLink.Ready.survives {link : UDPLink} (h : link.Ready) (p : ScanPacket) :
    link.Survives (.packet p.toWirePacket) := by
  obtain ⟨n, hn, hbuffer⟩ := h
  have hlow := p.sizeofHeader_le
  have hhigh := p.length_lt
  apply UDPLink.Survives.of_noEarlierMagic
  · rw [hbuffer]
    exact noEarlierMagic_zeros n p.toWirePacket
  · rw [hbuffer, Searched, List.length_append, List.length_replicate,
      Nat.mod_eq_of_lt (by simp only [datagramSize] at hn; omega)]
    omega

theorem UDPLink.survives_of_not_searched {link : UDPLink} {received : List UInt8}
    (h : ¬ Searched (link.extractionByteBuffer ++ received)) : link.Survives (.bytes received) := by
  intro r hr
  have hstay : r = link.extractionByteBuffer ++ received := by
    rcases hr.cases_head with hr | ⟨mid, ⟨headerStart, header, hat, -⟩, -⟩
    · exact hr.symm
    · exact absurd hat.searched h
  subst hstay
  refine ⟨?_, ?_, ?_⟩
  · rintro ⟨header, hat, -⟩
    exact h hat.searched
  · rintro (⟨headerStart, hs, -, -⟩ | ⟨headerStart, header, hat, -, -⟩)
    · exact h hs
    · exact h hat.searched
  · rintro ⟨headerStart, header, hat, -, -⟩
    exact h hat.searched

variable [PacketSort]

theorem UDPLink.buffer_of_not_searched {link next : UDPLink} {received : List UInt8}
    (h : ¬ Searched (link.extractionByteBuffer ++ received))
    (hnext : link.onBytesReceived received = .ok next) : next.extractionByteBuffer = [] := by
  simp only [onBytesReceived, tryExtractingScanFromByteRange, extractionLoop_succ,
    findPacket_of_not_searched h] at hnext
  cases hnext
  rfl

theorem UDPLink.Ready.buffer_onBytesReceived {link next : UDPLink} (h : link.Ready) (p : ScanPacket)
    (hnext : link.onBytesReceived p.bytes = .ok next) : next.extractionByteBuffer = [] := by
  rw [h.onBytesReceived p] at hnext
  cases hnext
  rfl

/-- In every run whose datagrams survive, every packet is decoded in the read of its datagram,
whatever the other datagrams hold. -/
theorem udp_decodes_every_packet {ds : List Datagram} (h : UDPLink.bound.AllSurvive ds) :
    ∀ es p fs, ds = es ++ .packet p :: fs →
      ∃ link, UDPLink.bound.receive (es.map Datagram.received) = .ok link ∧ link.Decodes p := by
  intro es p fs hds
  obtain ⟨link, hlink⟩ := h.receive hds
  exact ⟨link, hlink, (h es (.packet p) fs link hds hlink).decodes⟩

end

def smallPacket (scanNumber : UInt16) (distance : UInt32) : ScanPacket where
  toWirePacket := onePoint scanNumber 1 1 distance
  hasPoint := Nat.one_pos

def wordsOf (p : WirePacket) : List UInt32 :=
  (retrieve32BitsUnsignedIntegersFromByteRange p.bytes 20).1

def swallowing : ScanPacket where
  header := ⟨0xa25c, 0x0041, 160, 76, 1, 1, 0, 0, 0, 0, 21, 21, 0, 0, 0, 0, 0, 0, 0⟩
  padding := []
  payload := .a (0 :: wordsOf (smallPacket 2 5).toWirePacket)
  magic := rfl
  packetType := rfl
  headerSize := rfl
  numPointsPacket := by decide
  packetSize := by decide
  hasPoint := by decide

def truncated : List UInt8 := swallowing.bytes.take 80

set_option maxRecDepth 4000 in
theorem swallowing_bytes : swallowing.bytes = truncated ++ (smallPacket 2 5).bytes := by decide

theorem length_truncated : truncated.length = 80 := by decide

section
variable [PacketSort]

theorem UDPLink.onBytesReceived_cut {link : UDPLink} (hbuffer : link.extractionByteBuffer = [])
    (hf : isComplete link.scanFactory = false) {p : ScanPacket} {range cut : List UInt8}
    (hb : p.bytes = range ++ cut) (hs : Searched range) (hcut : range.length < p.bytes.length) :
    ∃ link', link.onBytesReceived range = .ok link' ∧ link'.extractionByteBuffer = range := by
  have hn := findPacket_of_cut hb hs hcut
  have hloop := extractionLoop_missing UDPLink.onCompleteScan hn range.length hf link.published
  simp only [onBytesReceived, tryExtractingScanFromByteRange, hbuffer, List.nil_append, hloop]
  exact ⟨_, rfl, rfl⟩

theorem UDPLink.Ready.receive_cut {link : UDPLink} (h : link.Ready) (p : ScanPacket) {q : ScanPacket}
    {range cut : List UInt8} (hb : q.bytes = range ++ cut) (hs : Searched range)
    (hcut : range.length < q.bytes.length) :
    ∃ link', link.receive [p.bytes, range] = .ok link' ∧ link'.extractionByteBuffer = range := by
  rw [receive_cons (h.onBytesReceived p)]
  generalize hnext : ({ link with
    extractionByteBuffer := []
    scanFactory := (offer link.scanFactory p.decoded).1
    published := link.published ++ (offer link.scanFactory p.decoded).2.toList
    receiving := true } : UDPLink) = next
  have hbuffer : next.extractionByteBuffer = [] := by rw [← hnext]
  have hf : isComplete next.scanFactory = false := by
    rw [← hnext]
    exact offer_not_complete _ _
  obtain ⟨link', hlink, hkept⟩ := onBytesReceived_cut hbuffer hf hb hs hcut
  exact ⟨link', receive_cons hlink [], hkept⟩

theorem UDPLink.addPacketCalls_swallowed {link : UDPLink} {p q : WirePacket}
    (hq : q.bytes = link.extractionByteBuffer ++ p.bytes) (hs : Searched q.bytes) :
    link.addPacketCalls p.bytes = .ok [q.decoded] := by
  obtain ⟨k, hk⟩ : ∃ k, q.bytes.length = k + 1 :=
    ⟨q.bytes.length - 1, by have := hs.le_length; simp only [sizeofHeader] at this; omega⟩
  have hs' : Searched ([] ++ (q.bytes ++ [])) := by rwa [List.nil_append, List.append_nil]
  have hloop := extractionLoop_packet
    (fun r : Recorder UdpScanFactory => UDPLink.onCompleteScan r.factory) q [] []
    (fun k hk => absurd hk k.not_lt_zero) hs' (k + 1) ⟨link.scanFactory, []⟩ link.published
  rw [extractionLoop_nothing _ (findPacket_of_not_searched not_searched_nil) _
    (offer_not_complete _ _), List.nil_append, List.append_nil] at hloop
  rw [addPacketCalls, recordedLoop, ← hq, hk, hloop]
  simp only [Except.map, Recorder.added_offer, List.nil_append]

end

section
attribute [local instance] insertionPacketSort

theorem udp_decodes_every_packet_short :
    ∃ link, UDPLink.bound.receive [(smallPacket 1 5).bytes, [0x5c, 0xa2, 0x41]] = .ok link ∧
      link.Decodes (smallPacket 2 5).toWirePacket := by
  have hall : UDPLink.bound.AllSurvive [.packet (smallPacket 1 5).toWirePacket,
      .bytes [0x5c, 0xa2, 0x41], .packet (smallPacket 2 5).toWirePacket] := by
    refine UDPLink.AllSurvive.cons (UDPLink.bound_ready.survives _) fun first hfirst => ?_
    have hbuffer := UDPLink.bound_ready.buffer_onBytesReceived _ hfirst
    have hshort : ¬ Searched (first.extractionByteBuffer ++ [0x5c, 0xa2, 0x41]) := by
      rw [hbuffer, Searched]
      decide
    refine UDPLink.AllSurvive.cons (UDPLink.survives_of_not_searched hshort) fun second hsecond => ?_
    have hempty := UDPLink.buffer_of_not_searched hshort hsecond
    have hready : second.Ready := ⟨0, Nat.zero_le _, hempty⟩
    exact UDPLink.AllSurvive.cons (hready.survives _) fun third _ => UDPLink.AllSurvive.nil third
  exact udp_decodes_every_packet hall
    [.packet (smallPacket 1 5).toWirePacket, .bytes [0x5c, 0xa2, 0x41]] _ [] rfl

theorem udp_truncated_datagram_swallows :
    ¬ ∀ (_ : PacketSort) (ds es : List Datagram) (p : WirePacket) (fs : List Datagram),
      ds = es ++ .packet p :: fs → (∃ received, .bytes received ∈ es) →
      ∃ link, UDPLink.bound.receive (es.map Datagram.received) = .ok link ∧ link.Decodes p := by
  intro hall
  obtain ⟨link, hlink, calls, hcalls, hmem⟩ := hall insertionPacketSort _
    [.packet (smallPacket 1 5).toWirePacket, .bytes truncated] (smallPacket 2 5).toWirePacket []
    rfl ⟨truncated, List.mem_cons_of_mem _ List.mem_cons_self⟩
  have hs : Searched truncated := by
    rw [Searched, length_truncated]
    decide
  have hcut : truncated.length < swallowing.bytes.length := by
    rw [swallowing_bytes, List.length_append]
    have := (smallPacket 2 5).length_pos
    omega
  obtain ⟨link', hlink', hbuffer⟩ :=
    UDPLink.bound_ready.receive_cut (smallPacket 1 5) swallowing_bytes hs hcut
  obtain rfl : link = link' := Except.ok.inj (hlink.symm.trans hlink')
  have hsearched : Searched swallowing.bytes := by
    rw [Searched, swallowing.length_bytes]
    decide
  have hswallowed := link.addPacketCalls_swallowed (p := (smallPacket 2 5).toWirePacket)
    (q := swallowing.toWirePacket) (by rw [hbuffer, swallowing_bytes]) hsearched
  obtain rfl : calls = [swallowing.decoded] := Except.ok.inj (hcalls.symm.trans hswallowed)
  revert hmem
  decide

end
end R2000Driver.PacketExtraction
