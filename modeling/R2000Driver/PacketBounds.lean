import R2000Driver.Links

/-!
# The bytes a header search and an extraction keep to

The search looks at the length of the whole range before it looks for the
magic, so a header that begins within the last 75 bytes is decoded from beyond
the end. An extraction takes as many points as the header announces and the
rest of the range holds. Both stay within the packet exactly when the sizes in
the header agree with the bytes behind it.
-/

namespace R2000Driver.PacketExtraction
open Data ScanFactory

def FirstMagicAt (range : List UInt8) (k : ℕ) : Prop :=
  StartsWithMagic (range.drop k) ∧ ∀ j < k, ¬ StartsWithMagic (range.drop j)

theorem retrievePacketMagic_of_first {range : List UInt8} {k : ℕ} (h : FirstMagicAt range k) :
    retrievePacketMagic range = some (range.drop k) := by
  have hpos : 0 < (range.drop k).length := by
    obtain ⟨rest, hrest⟩ := h.1
    rw [← hrest]
    exact Nat.succ_pos _
  have hk : (range.take k).length = k := by
    rw [List.length_drop] at hpos
    rw [List.length_take]
    omega
  have hsplit := retrievePacketMagic_append (range.take k) (range.drop k)
  rw [List.take_append_drop, hk] at hsplit
  rw [hsplit h.2 hpos, retrievePacketMagic_of_startsWith h.1]

theorem first_of_retrievePacketMagic {range headerStart : List UInt8}
    (h : retrievePacketMagic range = some headerStart) :
    ∃ k, FirstMagicAt range k ∧ headerStart = range.drop k := by
  obtain ⟨g, hg, hmagic, hfirst⟩ := retrievePacketMagic_eq_some h
  have hdrop : headerStart = range.drop g.length := by rw [hg, List.drop_left]
  exact ⟨g.length, ⟨hdrop ▸ hmagic, hfirst⟩, hdrop⟩

structure FoundInside (range headerStart : List UInt8) (header : Header) (k : ℕ) : Prop where
  first : FirstMagicAt range k
  position : headerStart = range.drop k
  complete : k + wireHeaderSize ≤ range.length
  decoded : ∀ s, Header.fromByteRange ((range.drop k).take wireHeaderSize ++ s) = .ok header

structure StaysInside (range : List UInt8) : Prop where
  reads : retrievePacketHeader range ≠ .error .outOfRange
  found : ∀ headerStart header, retrievePacketHeader range = .ok (some (headerStart, header)) →
    ∃ k, FoundInside range headerStart header k

/-- The first magic has fewer bytes behind it than a header. -/
def CutHeader (range : List UInt8) : Prop :=
  Searched range ∧ ∃ k, FirstMagicAt range k ∧ range.length < k + wireHeaderSize

theorem retrievePacketHeader_of_first {range : List UInt8} {k : ℕ} (hs : Searched range)
    (hk : FirstMagicAt range k) :
    retrievePacketHeader range =
      (Header.fromByteRange (range.drop k)).map fun header => some (range.drop k, header) := by
  simp only [Searched] at hs
  simp only [retrievePacketHeader, UInt32.toNat_ofNat', if_neg (Nat.not_lt_of_le hs),
    retrievePacketMagic_of_first hk]
  cases Header.fromByteRange (range.drop k) <;> rfl

theorem retrievePacketHeader_of_cut {range : List UInt8} (h : CutHeader range) :
    retrievePacketHeader range = .error .outOfRange := by
  obtain ⟨hs, k, hk, hshort⟩ := h
  have hlength : (range.drop k).length < wireHeaderSize := by
    rw [List.length_drop]
    have hpos : 0 < wireHeaderSize := by decide
    omega
  rw [retrievePacketHeader_of_first hs hk, Header.fromByteRange_short hlength]
  rfl

theorem retrievePacketHeader_of_not_cut {range : List UInt8} (h : ¬ CutHeader range) :
    retrievePacketHeader range = .ok none ∨ ∃ k header,
      retrievePacketHeader range = .ok (some (range.drop k, header)) ∧
        FoundInside range (range.drop k) header k := by
  by_cases hs : Searched range
  · cases hm : retrievePacketMagic range with
    | none =>
      left
      simp only [retrievePacketHeader, hm, ite_self]
    | some headerStart =>
      right
      obtain ⟨k, hk, -⟩ := first_of_retrievePacketMagic hm
      have hcomplete : k + wireHeaderSize ≤ range.length := by
        by_contra hshort
        exact h ⟨hs, k, hk, Nat.lt_of_not_le hshort⟩
      have hlength : wireHeaderSize ≤ (range.drop k).length := by
        rw [List.length_drop]
        omega
      obtain ⟨header, hheader, hdecoded⟩ := Header.fromByteRange_eq hlength
      refine ⟨k, header, ?_, hk, rfl, hcomplete, hdecoded⟩
      rw [retrievePacketHeader_of_first hs hk, hheader]
      rfl
  · exact Or.inl (retrievePacketHeader_of_not_searched hs)

/-- The search stays inside exactly the ranges whose first magic is not cut off from its header. -/
theorem header_search_stays_inside_iff (range : List UInt8) :
    StaysInside range ↔ ¬ CutHeader range := by
  constructor
  · intro h hcut
    exact h.reads (retrievePacketHeader_of_cut hcut)
  · intro h
    rcases retrievePacketHeader_of_not_cut h with hnone | ⟨k, header, hsome, hinside⟩
    · constructor
      · rw [hnone]
        exact nofun
      · intro headerStart header hfound
        rw [hnone] at hfound
        cases hfound
    · constructor
      · rw [hsome]
        exact nofun
      · intro headerStart header' hfound
        rw [hsome] at hfound
        cases hfound
        exact ⟨k, hinside⟩

theorem header_search_reads_beyond : ¬ StaysInside (List.replicate 78 0 ++ [0x5c, 0xa2]) := by
  intro h
  refine h.reads (retrievePacketHeader_of_cut ⟨by unfold Searched; decide, 78, ⟨?_, ?_⟩, by decide⟩)
  · decide
  · decide

theorem retrieve32Bits_take (l : List UInt8) (n : ℕ) :
    (retrieve32BitsUnsignedIntegersFromByteRange (l.take (4 * min n (l.length / 4))) n).1 =
      (retrieve32BitsUnsignedIntegersFromByteRange l n).1 := by
  fun_induction retrieve32BitsUnsignedIntegersFromByteRange l n with
  | case1 b0 b1 b2 b3 position n tail ih =>
    have hc : 4 * min (n + 1) ((b0 :: b1 :: b2 :: b3 :: position).length / 4) =
        4 * min n (position.length / 4) + 4 := by simp only [List.length_cons]; omega
    rw [hc]
    change _ :: (retrieve32BitsUnsignedIntegersFromByteRange
      (position.take (4 * min n (position.length / 4))) n).1 = _
    rw [ih]
  | case2 position n hstop =>
    obtain ⟨hcount, -⟩ := retrieve32Bits_spec position n
    have hnone : (retrieve32BitsUnsignedIntegersFromByteRange position n).1 = [] := by
      unfold retrieve32BitsUnsignedIntegersFromByteRange
      split
      · next b0 b1 b2 b3 rest n' => exact absurd rfl (hstop b0 b1 b2 b3 rest n' rfl)
      · rfl
    rw [hnone, List.length_nil] at hcount
    rw [← hcount]
    cases n <;> rfl

theorem retrieve48bits_take {l : List UInt8} {n : ℕ} (h : ¬ Overruns48 l n) :
    ∃ points, retrieve48bitsUnsignedIntegersFromByteRange l n =
        .ok (points, l.drop (6 * min n (l.length / 6))) ∧
      retrieve48bitsUnsignedIntegersFromByteRange (l.take (6 * min n (l.length / 6))) n =
        .ok (points, []) := by
  fun_induction retrieve48bitsUnsignedIntegersFromByteRange l n with
  | case1 position => exact ⟨[], by simp, by simp [retrieve48bitsUnsignedIntegersFromByteRange]⟩
  | case2 b0 b1 b2 b3 b4 b5 position n ih =>
    have hc : 6 * min (n + 1) ((b0 :: b1 :: b2 :: b3 :: b4 :: b5 :: position).length / 6) =
        6 * min n (position.length / 6) + 6 := by simp only [List.length_cons]; omega
    have ho : ¬ Overruns48 position n := by
      simp only [Overruns48, List.length_cons] at h ⊢
      omega
    obtain ⟨points, hall, htake⟩ := ih ho
    refine ⟨(b0.toUInt32 ||| (b1.toUInt32 <<< 8) ||| (b2.toUInt32 <<< 16) |||
      (b3.toUInt32 <<< 24), b4.toUInt16 ||| (b5.toUInt16 <<< 8)) :: points, ?_, ?_⟩
    · rw [hc, hall]
      rfl
    · rw [hc]
      change (retrieve48bitsUnsignedIntegersFromByteRange
        (position.take (6 * min n (position.length / 6))) n >>= _) = _
      rw [htake]
      rfl
  | case3 => exact absurd ⟨by simp, by simp⟩ h
  | case4 => exact absurd ⟨by simp, by simp⟩ h
  | case5 position n h6 h5 h4 =>
    have hzero : position.length / 6 = 0 := by
      rcases position with _ | ⟨b0, _ | ⟨b1, _ | ⟨b2, _ | ⟨b3, _ | ⟨b4, _ | ⟨b5, rest⟩⟩⟩⟩⟩⟩
      case cons.cons.cons.cons.cons.cons => exact absurd rfl (h6 b0 b1 b2 b3 b4 b5 rest)
      all_goals simp
    rw [hzero, Nat.min_zero]
    exact ⟨[], rfl, rfl⟩

theorem retrievePayload_take {packetType : UInt16} {l : List UInt8} {n : ℕ} {payload : Payload}
    (h : retrievePayload packetType l n = .ok payload) :
    ∃ own, retrievePayload packetType (l.take (pointSize packetType * pointCount packetType l n)) n =
        .ok own ∧ own.distances = payload.distances ∧ own.amplitudes = payload.amplitudes := by
  have hba : packetTypeB ≠ packetTypeA := by decide
  have hca : packetTypeC ≠ packetTypeA := by decide
  have hcb : packetTypeC ≠ packetTypeB := by decide
  rcases retrievePayload_cases packetType l n with ⟨-, he⟩ | ⟨-, -, he⟩ | ⟨hs, hcut, -⟩
  · rw [h] at he
    cases he
  · rw [h] at he
    cases he
  rcases hs with rfl | rfl | rfl
  · have htake := retrieve32Bits_take l n
    have hsize : pointSize packetTypeA = 4 := rfl
    simp only [retrievePayload, ↓reduceIte, retrievePayloadA, pointCount, hsize] at h ⊢
    cases h
    exact ⟨_, rfl, congrArg (List.map _) htake, congrArg (List.map _) htake⟩
  · obtain ⟨points, hall, htake⟩ := retrieve48bits_take fun ho => hcut ⟨rfl, ho⟩
    have hsize : pointSize packetTypeB = 6 := rfl
    simp only [retrievePayload, hba, ↓reduceIte, retrievePayloadB, pointCount, hsize, hall, htake]
      at h ⊢
    cases h
    exact ⟨_, rfl, rfl, rfl⟩
  · have htake := retrieve32Bits_take l n
    have hsize : pointSize packetTypeC = 4 := rfl
    simp only [retrievePayload, hca, hcb, ↓reduceIte, retrievePayloadC, pointCount, hsize] at h ⊢
    cases h
    exact ⟨_, rfl, congrArg (List.map _) htake, congrArg (List.map _) htake⟩

def ownPayload (headerStart : List UInt8) (header : Header) : List UInt8 :=
  (headerStart.drop header.headerSize.toNat).take (payloadSize header).toNat

structure ConsumesOwnPacket (headerStart : List UInt8) (header : Header) (position : List UInt8)
    (before added : List Packet) : Prop where
  position : position = headerStart.drop header.packetSize.toNat
  points : ∃ own, retrievePayload header.packetType (ownPayload headerStart header)
      header.numPointsPacket.toNat = .ok own ∧
    added = before ++ [⟨header, own.distances, own.amplitudes⟩]

/-- The points that the header announces and the range holds fill the payload of the packet. -/
def FillsPayload (headerStart : List UInt8) (header : Header) : Prop :=
  pointSize header.packetType * pointCount header.packetType
    (headerStart.drop header.headerSize.toNat) header.numPointsPacket.toNat =
  header.packetSize.toNat - header.headerSize.toNat

theorem toNat_payloadSize {header : Header} (h : header.headerSize.toNat ≤ header.packetSize.toNat) :
    (payloadSize header).toNat = header.packetSize.toNat - header.headerSize.toNat := by
  rw [payloadSize, UInt32.toNat_sub_of_le, UInt16.toNat_toUInt32]
  rw [UInt32.le_iff_toNat_le, UInt16.toNat_toUInt32]
  exact h

theorem retrievePayload_of_map {result : Except Fault Payload} {header : Header} {payload : Payload}
    (h : result.map (Found.packet header) = .ok (.packet header payload)) : result = .ok payload := by
  cases result with
  | error e => cases h
  | ok found =>
    cases h
    rfl

section
variable {F : Type} [ScanFactory F]

theorem extraction_of_enough {range : List UInt8} {f f' : F} {extraction : Extraction}
    (h : extractScanPacketFromByteRange range f = .ok (extraction, f'))
    (htrue : extraction.hadEnoughBytes = true) :
    ∃ header payload, findPacket range = .ok (.packet header payload) ∧
      extraction.position = payload.position ∧
      f' = addPacket (clearedFor f header) header payload.distances payload.amplitudes := by
  obtain ⟨found, hfound, hdeliver⟩ := extraction_cases h
  cases found with
  | nothing =>
    cases hdeliver
    cases htrue
  | missing headerStart header n =>
    cases hdeliver
    cases htrue
  | packet header payload =>
    cases hdeliver
    exact ⟨header, payload, hfound, rfl, rfl⟩

theorem position_eq_iff {headerStart position : List UInt8} {header : Header}
    (hle : header.headerSize.toNat ≤ header.packetSize.toNat) (hfits : PayloadFits headerStart header)
    (hposition : position = packetEnd headerStart header) :
    position = headerStart.drop header.packetSize.toNat ↔ FillsPayload headerStart header := by
  have hused := pointBytes_le header.packetType (headerStart.drop header.headerSize.toNat)
    header.numPointsPacket.toNat
  rw [PayloadFits, toNat_payloadSize hle] at hfits
  rw [List.length_drop] at hused
  rw [hposition, packetEnd, List.drop_drop, FillsPayload]
  constructor
  · intro h
    have hlength := congrArg List.length h
    rw [List.length_drop, List.length_drop] at hlength
    omega
  · intro h
    rw [h, Nat.add_sub_cancel' hle]

/-- An extraction consumes its own packet exactly when the points fill the payload. -/
theorem consumes_own_packet_iff {range headerStart : List UInt8} {header : Header}
    (hat : HeaderAt range headerStart header)
    (hle : header.headerSize.toNat ≤ header.packetSize.toNat) {recorder recorder' : Recorder F}
    {extraction : Extraction}
    (h : extractScanPacketFromByteRange range recorder = .ok (extraction, recorder'))
    (htrue : extraction.hadEnoughBytes = true) :
    ConsumesOwnPacket headerStart header extraction.position recorder.added recorder'.added ↔
      FillsPayload headerStart header := by
  obtain ⟨header', payload, hfound, hposition, hrecorder⟩ := extraction_of_enough h htrue
  obtain ⟨headerStart', hat', hfits, -, hconsumes⟩ := findPacket_eq_packet hfound
  obtain ⟨rfl, rfl⟩ := hat.unique hat'
  have hend : extraction.position = packetEnd headerStart header :=
    hposition.trans hconsumes.position
  constructor
  · intro hconsumed
    exact (position_eq_iff hle hfits hend).mp hconsumed.position
  · intro hfills
    refine ⟨(position_eq_iff hle hfits hend).mpr hfills, ?_⟩
    rw [findPacket_of_magic hat.searched hat.magic hat.header, findPacketAt_of_fits hfits] at hfound
    obtain ⟨own, hown, hdistances, hamplitudes⟩ := retrievePayload_take (retrievePayload_of_map hfound)
    rw [hfills, ← toNat_payloadSize hle] at hown
    refine ⟨own, hown, ?_⟩
    rw [hrecorder, hdistances, hamplitudes, Recorder.clearedFor_eq]
    rfl

end

theorem consumes_own_packet_iff_onePoint :
    ConsumesOwnPacket ((onePoint 7 1 1 5).bytes ++ [0x5c]) (onePoint 7 1 1 5).header [0x5c] []
        [(onePoint 7 1 1 5).decoded] ↔
      FillsPayload ((onePoint 7 1 1 5).bytes ++ [0x5c]) (onePoint 7 1 1 5).header := by
  have hextract : extractScanPacketFromByteRange ((onePoint 7 1 1 5).bytes ++ [0x5c])
      (⟨⟨[], [], []⟩, []⟩ : Recorder TcpScanFactory) = .ok (⟨true, [0x5c], 0⟩,
        ⟨⟨[5], [0], [(onePoint 7 1 1 5).header]⟩, [(onePoint 7 1 1 5).decoded]⟩) := rfl
  have hat : HeaderAt ((onePoint 7 1 1 5).bytes ++ [0x5c]) ((onePoint 7 1 1 5).bytes ++ [0x5c])
      (onePoint 7 1 1 5).header := ⟨by unfold Searched; decide, by decide, by decide⟩
  exact consumes_own_packet_iff hat (by decide) hextract rfl

def withPacketCrc : Header := { (onePoint 7 1 1 5).header with packetSize := 84 }

def withoutSecondPoint : Header := { (onePoint 7 1 1 5).header with numPointsPacket := 2 }

def onePointBehind (header : Header) (rest : List UInt8) : List UInt8 :=
  header.bytes ++ [5, 0, 0, 0] ++ rest

theorem extraction_leaves_own_packet :
    (HeaderAt (onePointBehind withPacketCrc [1, 2, 3, 4]) (onePointBehind withPacketCrc [1, 2, 3, 4])
        withPacketCrc ∧
      extractScanPacketFromByteRange (onePointBehind withPacketCrc [1, 2, 3, 4])
        (⟨⟨[], [], []⟩, []⟩ : Recorder TcpScanFactory) = .ok (⟨true, [1, 2, 3, 4], 0⟩,
          ⟨⟨[5], [0], [withPacketCrc]⟩, [⟨withPacketCrc, [5], [0]⟩]⟩) ∧
      ¬ ConsumesOwnPacket (onePointBehind withPacketCrc [1, 2, 3, 4]) withPacketCrc [1, 2, 3, 4] []
        [⟨withPacketCrc, [5], [0]⟩]) ∧
    (HeaderAt (onePointBehind withoutSecondPoint [0x5c, 0xa2, 0x41, 0])
        (onePointBehind withoutSecondPoint [0x5c, 0xa2, 0x41, 0]) withoutSecondPoint ∧
      extractScanPacketFromByteRange (onePointBehind withoutSecondPoint [0x5c, 0xa2, 0x41, 0])
        (⟨⟨[], [], []⟩, []⟩ : Recorder TcpScanFactory) = .ok (⟨true, [], 0⟩,
          ⟨⟨[5, 0x41a25c], [0, 0], [withoutSecondPoint]⟩,
            [⟨withoutSecondPoint, [5, 0x41a25c], [0, 0]⟩]⟩) ∧
      ¬ ConsumesOwnPacket (onePointBehind withoutSecondPoint [0x5c, 0xa2, 0x41, 0]) withoutSecondPoint
        [] [] [⟨withoutSecondPoint, [5, 0x41a25c], [0, 0]⟩]) := by
  refine ⟨⟨⟨by unfold Searched; decide, by decide, by decide⟩, rfl, ?_⟩,
    ⟨by unfold Searched; decide, by decide, by decide⟩, rfl, ?_⟩
  · intro h
    exact absurd h.position (by decide)
  · intro h
    exact absurd h.position (by decide)

end R2000Driver.PacketExtraction
