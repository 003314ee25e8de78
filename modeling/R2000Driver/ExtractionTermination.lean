import R2000Driver.Links

/-!
# Termination of the extraction loops of the links

The loops of `TCPLink::tryExtractingScanFromByteRange` and
`UDPLink::tryExtractingScanFromByteRange` share `extractionLoop`. They return
exactly on the buffers in which the walk over the packets meets no header of
zero bytes and zero points and no read past the end.
-/

namespace R2000Driver.PacketExtraction
open Data ScanFactory Relation

/-- A packet extracted at the front of `range` moves the position forward. -/
def Advances (F : Type) [ScanFactory F] (range : List UInt8) : Prop :=
  ∀ (scanFactory : F) (extraction : Extraction) (scanFactory' : F),
    extractScanPacketFromByteRange range scanFactory = .ok (extraction, scanFactory') →
    extraction.hadEnoughBytes = true → extraction.position.length < range.length

theorem advances_of_not_stalls (F : Type) [ScanFactory F] {range : List UInt8}
    (h : ¬ Stalls range) : Advances F range := by
  intro scanFactory extraction scanFactory' he hb
  rw [extractScanPacketFromByteRange_eq] at he
  cases hp : findPacket range with
  | error e =>
    rw [hp] at he
    cases he
  | ok found =>
    rw [hp] at he
    injection he with he
    have hx : (Found.deliver scanFactory found).1 = extraction := congrArg Prod.fst he
    subst hx
    cases found with
    | nothing => cases hb
    | missing => cases hb
    | packet header payload => exact (hop_of_packet hp).length_lt_iff.mpr h

section
variable [PacketSort]

/-- Both loops return and every extraction on their way moves forward, exactly
when no visited position stalls or is read past the end. -/
theorem extraction_loops_terminate_iff (range : List UInt8) (tcp : TCPLink) (udp : UDPLink) :
    ((∃ fuel, Returns (extractionLoop TCPLinkOver.onCompleteScan fuel range tcp.scanFactory
        (none, tcp.published))) ∧
      (∃ fuel, Returns (extractionLoop UDPLink.onCompleteScan fuel range udp.scanFactory
        udp.published)) ∧
      ∀ r, Visits range r → Advances TcpScanFactory r ∧ Advances UdpScanFactory r) ↔
    ∀ r, Visits range r → ¬ Stalls r ∧ ¬ ReadsBeyond r := by
  constructor
  · rintro ⟨⟨fuel, htcp⟩, -, -⟩ r hr
    exact clear_of_extractionLoop_returns _ htcp hr
  · intro hclear
    refine ⟨(extractionLoop_returns_iff _ _ _ _).mpr hclear,
      (extractionLoop_returns_iff _ _ _ _).mpr hclear, fun r hr => ?_⟩
    have hs := (hclear r hr).1
    exact ⟨advances_of_not_stalls _ hs, advances_of_not_stalls _ hs⟩

end

def stallingDatagram : List UInt8 := [0x5c, 0xa2, 0x41, 0x00] ++ List.replicate 76 0

theorem stallingDatagram_stalls : Stalls stallingDatagram := by
  refine ⟨⟨0xa25c, 0x0041, 0, 0, 0, 0, 0, 0, 0, 0, 0, 0, 0, 0, 0, 0, 0, 0, 0⟩, ⟨?_, ?_, ?_⟩,
    Or.inl rfl, rfl, rfl, ?_⟩
  · unfold Searched
    decide
  · decide
  · decide
  · decide

theorem extraction_loops_endless :
    ¬ ∀ (_ : PacketSort) (range : List UInt8) (tcp : TCPLink) (udp : UDPLink),
      (∃ fuel, Returns (extractionLoop TCPLinkOver.onCompleteScan fuel range tcp.scanFactory
        (none, tcp.published))) ∧
      (∃ fuel, Returns (extractionLoop UDPLink.onCompleteScan fuel range udp.scanFactory
        udp.published)) ∧
      ∀ r, Visits range r → Advances TcpScanFactory r ∧ Advances UdpScanFactory r := by
  intro hall
  obtain ⟨⟨fuel, h⟩, -⟩ := hall insertionPacketSort stallingDatagram (TCPLinkOver.connected ⟨[], [], []⟩)
    UDPLink.bound
  rw [extractionLoop_stalls _ stallingDatagram_stalls] at h
  rcases h with ⟨x, hx⟩ | ⟨what, hx⟩ <;> cases hx

end R2000Driver.PacketExtraction
