import R2000Driver.ScanFactories

/-!
# Packets on the wire

`WirePacket` is the format of the device: the nineteen header fields, padding
up to `headerSize`, and the raw points of one of the three packet types. Its
fields carry the relations between the sizes, so every value of the type is a
packet that the device may send. Distances and amplitudes of a raw point are
given by arithmetic on its value; that the masks and shifts of the decoder
compute them is the content of `retrievePayload_bytes`.
-/

namespace R2000Driver.PacketExtraction
open LittleEndian Data ScanFactory

inductive RawPayload
  | a (points : List UInt32)
  | b (points : List (UInt32 × UInt16))
  | c (points : List UInt32)
  deriving DecidableEq, Repr

namespace RawPayload

def packetType : RawPayload → UInt16
  | .a _ => 0x0041
  | .b _ => 0x0042
  | .c _ => 0x0043

def count : RawPayload → ℕ
  | .a points => points.length
  | .b points => points.length
  | .c points => points.length

def bytes : RawPayload → List UInt8
  | .a points => points.flatMap uint32Bytes
  | .b points => points.flatMap fun p => uint32Bytes p.1 ++ uint16Bytes p.2
  | .c points => points.flatMap uint32Bytes

/-- An invalid measure is delivered as zero. -/
def measured (invalid : ℕ) (distance : UInt32) : UInt32 :=
  if distance.toNat = invalid then 0 else distance

def distances : RawPayload → List UInt32
  | .a points => points.map (measured 0xFFFFFFFF)
  | .b points => points.map fun p => measured 0xFFFFFFFF p.1
  | .c points => points.map fun w => measured 0xFFFFF (UInt32.ofNat (w.toNat % 2 ^ 20))

def amplitudes : RawPayload → List UInt32
  | .a points => points.map fun _ => 0
  | .b points => points.map fun p => UInt32.ofNat p.2.toNat
  | .c points => points.map fun w => UInt32.ofNat (w.toNat / 2 ^ 20)

theorem length_bytes (payload : RawPayload) :
    payload.bytes.length = payload.count * pointSize payload.packetType := by
  cases payload with
  | a points => simp [bytes, count, packetType, pointSize, packetTypeB, uint32Bytes]
  | b points =>
    simp [bytes, count, packetType, pointSize, packetTypeB, uint32Bytes, uint16Bytes]
  | c points => simp [bytes, count, packetType, pointSize, packetTypeB, uint32Bytes]

@[simp] theorem length_distances (payload : RawPayload) :
    payload.distances.length = payload.count := by
  cases payload <;> simp [distances, count]

end RawPayload

theorem retrieve48bits_bytes (points : List (UInt32 × UInt16)) (s : List UInt8) :
    retrieve48bitsUnsignedIntegersFromByteRange
      ((points.flatMap fun p => uint32Bytes p.1 ++ uint16Bytes p.2) ++ s) points.length =
      .ok (points, s) := by
  induction points with
  | nil => simp [retrieve48bitsUnsignedIntegersFromByteRange]
  | cons p points ih =>
    have hx := interpretUint32_inverts p.1 []
    have hy := interpretUint16_inverts p.2 []
    obtain ⟨b0, b1, b2, b3, hb⟩ := list_of_length_four (LittleEndian.length_bytes 4 p.1.toNat)
    obtain ⟨c0, c1, hc⟩ := list_of_length_two (LittleEndian.length_bytes 2 p.2.toNat)
    rw [uint32Bytes, hb] at hx
    rw [uint16Bytes, hc] at hy
    injection hx with hx
    injection hx with hx
    injection hy with hy
    injection hy with hy
    rw [List.flatMap_cons, uint32Bytes, uint16Bytes, hb, hc, List.length_cons]
    simp only [List.cons_append, List.nil_append, retrieve48bitsUnsignedIntegersFromByteRange, ih]
    rw [hx, hy]
    rfl

theorem nanOrDistance_eq (invalid distance : UInt32) :
    nanOrDistance invalid distance = RawPayload.measured invalid.toNat distance := by
  simp only [nanOrDistance, RawPayload.measured, quietNaN, UInt32.toNat_inj, ne_eq, ite_not]

theorem distanceBits_eq (w : UInt32) : w &&& 0x000FFFFF = UInt32.ofNat (w.toNat % 2 ^ 20) := by
  have hm : (0x000FFFFF : UInt32).toNat = 2 ^ 20 - 1 := by decide
  rw [← UInt32.toNat_inj, UInt32.toNat_and, hm, Nat.and_two_pow_sub_one_eq_mod,
    UInt32.toNat_ofNat_of_lt' (by have := w.toNat_lt; simp only [UInt32.size]; omega)]

theorem amplitudeBits_eq (w : UInt32) :
    (w &&& 0xFFF00000) >>> 20 = UInt32.ofNat (w.toNat / 2 ^ 20) := by
  have hw := w.toNat_lt
  have hm : (0xFFF00000 : UInt32).toNat >>> 20 = 2 ^ 12 - 1 := by decide
  have hs : (20 : UInt32).toNat % 32 = 20 := by decide
  rw [← UInt32.toNat_inj, UInt32.toNat_shiftRight, UInt32.toNat_and, hs,
    Nat.shiftRight_and_distrib, hm, Nat.and_two_pow_sub_one_eq_mod, Nat.shiftRight_eq_div_pow,
    UInt32.toNat_ofNat_of_lt' (by simp only [UInt32.size]; omega)]
  omega

theorem toUInt32_eq (x : UInt16) : x.toUInt32 = UInt32.ofNat x.toNat := by
  have hx := x.toNat_lt
  rw [← UInt32.toNat_inj, UInt16.toNat_toUInt32,
    UInt32.toNat_ofNat_of_lt' (by simp only [UInt32.size]; omega)]

theorem retrievePayload_bytes (payload : RawPayload) (s : List UInt8) :
    retrievePayload payload.packetType (payload.bytes ++ s) payload.count =
      .ok ⟨payload.distances, payload.amplitudes, s⟩ := by
  cases payload with
  | a points =>
    have h := retrieve32Bits_bytes points s
    simp only [retrievePayload, RawPayload.packetType, packetTypeA, ↓reduceIte, retrievePayloadA,
      RawPayload.bytes, RawPayload.count, h, RawPayload.distances, RawPayload.amplitudes]
    have hf : nanOrDistance 0xFFFFFFFF = RawPayload.measured 0xFFFFFFFF :=
      funext fun d => nanOrDistance_eq _ d
    rw [hf]
  | b points =>
    have h := retrieve48bits_bytes points s
    have hba : (0x0042 : UInt16) ≠ packetTypeA := by decide
    simp only [retrievePayload, RawPayload.packetType, hba, packetTypeB, ↓reduceIte,
      retrievePayloadB, RawPayload.bytes, RawPayload.count, h, RawPayload.distances,
      RawPayload.amplitudes, ← toUInt32_eq]
    have hf : (fun p : UInt32 × UInt16 => nanOrDistance 0xFFFFFFFF p.1) =
        fun p => RawPayload.measured 0xFFFFFFFF p.1 := funext fun p => nanOrDistance_eq _ p.1
    rw [← hf]
    rfl
  | c points =>
    have h := retrieve32Bits_bytes points s
    have hca : (0x0043 : UInt16) ≠ packetTypeA := by decide
    have hcb : (0x0043 : UInt16) ≠ packetTypeB := by decide
    simp only [retrievePayload, RawPayload.packetType, hca, hcb, packetTypeC, ↓reduceIte,
      retrievePayloadC, RawPayload.bytes, RawPayload.count, h, RawPayload.distances,
      RawPayload.amplitudes, ← amplitudeBits_eq, ← distanceBits_eq]
    have hf : (fun w : UInt32 => nanOrDistance 0xFFFFF (w &&& 0x000FFFFF)) =
        fun w => RawPayload.measured 0xFFFFF (w &&& 0x000FFFFF) :=
      funext fun w => nanOrDistance_eq _ _
    rw [← hf]

structure WirePacket where
  header : Header
  padding : List UInt8
  payload : RawPayload
  magic : header.magic = 0xa25c
  packetType : header.packetType = payload.packetType
  headerSize : header.headerSize.toNat = wireHeaderSize + padding.length
  numPointsPacket : header.numPointsPacket.toNat = payload.count
  packetSize : header.packetSize.toNat =
    header.headerSize.toNat + payload.count * pointSize payload.packetType
  deriving DecidableEq

namespace WirePacket

def bytes (p : WirePacket) : List UInt8 := p.header.bytes ++ p.padding ++ p.payload.bytes

def decoded (p : WirePacket) : Packet := ⟨p.header, p.payload.distances, p.payload.amplitudes⟩

theorem length_bytes (p : WirePacket) : p.bytes.length = p.header.packetSize.toNat := by
  rw [p.packetSize, p.headerSize, bytes, List.length_append, List.length_append,
    Header.length_bytes, p.payload.length_bytes]

theorem wireHeaderSize_le (p : WirePacket) : wireHeaderSize ≤ p.bytes.length := by
  rw [bytes, List.length_append, List.length_append, Header.length_bytes]
  omega

theorem startsWithMagic (p : WirePacket) : StartsWithMagic p.bytes := by
  have hm : uint16Bytes p.header.magic = [0x5c, 0xa2] := by rw [p.magic]; decide
  have hheader : StartsWithMagic p.header.bytes := by
    rw [StartsWithMagic, ← hm]
    exact p.header.magic_prefix
  rw [bytes, List.append_assoc]
  exact hheader.append _

theorem payloadSize_eq (p : WirePacket) :
    (payloadSize p.header).toNat = p.payload.count * pointSize p.payload.packetType := by
  have hs := p.packetSize
  have hle : p.header.headerSize.toUInt32 ≤ p.header.packetSize := by
    rw [UInt32.le_iff_toNat_le, UInt16.toNat_toUInt32]
    omega
  rw [payloadSize, UInt32.toNat_sub_of_le _ _ hle, UInt16.toNat_toUInt32]
  omega

theorem fits (p : WirePacket) (s : List UInt8) : PayloadFits (p.bytes ++ s) p.header := by
  have hl := p.length_bytes
  have hs := p.packetSize
  rw [PayloadFits, p.payloadSize_eq, List.length_append]
  omega

theorem drop_headerSize (p : WirePacket) (s : List UInt8) :
    (p.bytes ++ s).drop p.header.headerSize.toNat = p.payload.bytes ++ s := by
  have hl : (p.header.bytes ++ p.padding).length = p.header.headerSize.toNat := by
    rw [List.length_append, Header.length_bytes, p.headerSize]
  rw [bytes, List.append_assoc, ← hl, List.drop_left]

theorem findPacketAt_bytes (p : WirePacket) (s : List UInt8) :
    findPacketAt (p.bytes ++ s) p.header =
      .ok (.packet p.header ⟨p.payload.distances, p.payload.amplitudes, s⟩) := by
  rw [findPacketAt_of_fits (p.fits s), p.drop_headerSize, p.packetType, p.numPointsPacket,
    retrievePayload_bytes]
  rfl

theorem fromByteRange_bytes (p : WirePacket) (s : List UInt8) :
    Header.fromByteRange (p.bytes ++ s) = .ok p.header := by
  rw [bytes, List.append_assoc, List.append_assoc, Header.fromByteRange_bytes]

theorem findPacket_bytes (p : WirePacket) (g s : List UInt8)
    (hg : ∀ k < g.length, ¬ StartsWithMagic ((g ++ (p.bytes ++ s)).drop k))
    (hs : Searched (g ++ (p.bytes ++ s))) :
    findPacket (g ++ (p.bytes ++ s)) =
      .ok (.packet p.header ⟨p.payload.distances, p.payload.amplitudes, s⟩) := by
  have hpos : 0 < (p.bytes ++ s).length := by
    have := p.wireHeaderSize_le
    rw [List.length_append]
    simp only [wireHeaderSize] at this
    omega
  have hm : retrievePacketMagic (g ++ (p.bytes ++ s)) = some (p.bytes ++ s) := by
    rw [retrievePacketMagic_append g _ hg hpos,
      retrievePacketMagic_of_startsWith (p.startsWithMagic.append s)]
  rw [findPacket_of_magic hs hm (p.fromByteRange_bytes s), p.findPacketAt_bytes]

end WirePacket

theorem startsWithMagic_append_iff {l : List UInt8} (h : 2 ≤ l.length) (s : List UInt8) :
    StartsWithMagic (l ++ s) ↔ StartsWithMagic l := by
  match l, h with
  | b0 :: b1 :: l, _ => simp only [List.cons_append, startsWithMagic_cons]

def NoEarlierMagic (g : List UInt8) (p : WirePacket) : Prop :=
  ∀ k < g.length, ¬ StartsWithMagic ((g ++ p.bytes).drop k)

theorem NoEarlierMagic.append {g : List UInt8} {p : WirePacket} (h : NoEarlierMagic g p)
    (s : List UInt8) : ∀ k < g.length, ¬ StartsWithMagic ((g ++ (p.bytes ++ s)).drop k) := by
  intro k hk
  have hw := p.wireHeaderSize_le
  have hl : 2 ≤ ((g ++ p.bytes).drop k).length := by
    rw [List.length_drop, List.length_append]
    simp only [wireHeaderSize] at hw
    omega
  have hd : (g ++ (p.bytes ++ s)).drop k = (g ++ p.bytes).drop k ++ s := by
    rw [← List.append_assoc, List.drop_append_of_le_length]
    rw [List.length_append]
    omega
  rw [hd, startsWithMagic_append_iff hl]
  exact h k hk

theorem noEarlierMagic_zeros (n : ℕ) (p : WirePacket) :
    NoEarlierMagic (List.replicate n 0) p := by
  intro k hk
  rw [List.length_replicate] at hk
  have hd : (List.replicate n 0 ++ p.bytes).drop k = 0 :: (List.replicate (n - k - 1) 0 ++ p.bytes) := by
    rw [List.drop_append_of_le_length (by rw [List.length_replicate]; omega), List.drop_replicate]
    have hn : n - k = (n - k - 1) + 1 := by omega
    rw [hn, List.replicate_succ]
    rfl
  rw [hd]
  simp [StartsWithMagic]

/-- A packet that carries at least one measure. -/
structure ScanPacket extends WirePacket where
  hasPoint : 0 < toWirePacket.payload.count
  deriving DecidableEq

def decodedPackets (packets : List ScanPacket) : List Packet := packets.map fun p => p.decoded

@[simp] theorem decodedPackets_nil : decodedPackets [] = [] := rfl

@[simp] theorem decodedPackets_cons (p : ScanPacket) (ps : List ScanPacket) :
    decodedPackets (p :: ps) = p.decoded :: decodedPackets ps := rfl

@[simp] theorem decodedPackets_append (ps qs : List ScanPacket) :
    decodedPackets (ps ++ qs) = decodedPackets ps ++ decodedPackets qs := List.map_append

theorem ScanPacket.length_pos (p : ScanPacket) : 0 < p.bytes.length := by
  have h := p.wireHeaderSize_le
  simp only [wireHeaderSize] at h
  omega

def onePoint (scanNumber packetNumber numPointsScan : UInt16) (distance : UInt32) : WirePacket where
  header := ⟨0xa25c, 0x0041, 80, 76, scanNumber, packetNumber, 0, 0, 0, 0, numPointsScan, 1, 0, 0, 0,
    0, 0, 0, 0⟩
  padding := []
  payload := .a [distance]
  magic := rfl
  packetType := rfl
  headerSize := rfl
  numPointsPacket := rfl
  packetSize := rfl

def noPoint : WirePacket where
  header := ⟨0xa25c, 0x0041, 76, 76, 0, 1, 0, 0, 0, 0, 0, 0, 0, 0, 0, 0, 0, 0, 0⟩
  padding := []
  payload := .a []
  magic := rfl
  packetType := rfl
  headerSize := rfl
  numPointsPacket := rfl
  packetSize := rfl

section
variable {F : Type} [ScanFactory F]

/-- The extraction inverts the wire format: the factory gets the packet once
and the position is the one behind it. The length of the range is counted in
an `unsigned int`, as the code does. -/
theorem extractScanPacketFromByteRange_inverts (scanFactory : F) (p : WirePacket) (g s : List UInt8)
    (hg : NoEarlierMagic g p)
    (hs : sizeofHeader ≤ (g.length + p.bytes.length + s.length) % 2 ^ 32) :
    extractScanPacketFromByteRange (g ++ p.bytes ++ s) scanFactory =
      .ok (⟨true, s, 0⟩, addPacket (clearedFor scanFactory p.header) p.header
        p.payload.distances p.payload.amplitudes) := by
  have hsearched : Searched (g ++ (p.bytes ++ s)) := by
    rwa [Searched, List.length_append, List.length_append, ← Nat.add_assoc]
  rw [List.append_assoc, extractScanPacketFromByteRange_eq,
    p.findPacket_bytes g s (hg.append s) hsearched]
  rfl

end

theorem extractScanPacketFromByteRange_inverts_onePoint :
    extractScanPacketFromByteRange ([0x00, 0x5c] ++ (onePoint 7 1 1 0xFFFFFFFF).bytes ++ [0x5c])
        (⟨[], [], []⟩ : TcpScanFactory) =
      .ok (⟨true, [0x5c], 0⟩, ⟨[0], [0], [(onePoint 7 1 1 0xFFFFFFFF).header]⟩) :=
  extractScanPacketFromByteRange_inverts (⟨[], [], []⟩ : TcpScanFactory)
    (onePoint 7 1 1 0xFFFFFFFF) [0x00, 0x5c] [0x5c] (by unfold NoEarlierMagic; decide) (by decide)

theorem extractScanPacketFromByteRange_wrapped_count :
    ¬ ∀ (scanFactory : TcpScanFactory) (p : WirePacket) (g s : List UInt8), NoEarlierMagic g p →
      sizeofHeader ≤ g.length + p.bytes.length + s.length →
      extractScanPacketFromByteRange (g ++ p.bytes ++ s) scanFactory =
        .ok (⟨true, s, 0⟩, addPacket (clearedFor scanFactory p.header) p.header
          p.payload.distances p.payload.amplitudes) := by
  intro hall
  have hl : noPoint.bytes.length = 76 := by rw [noPoint.length_bytes]; rfl
  have hgl : (List.replicate (2 ^ 32) (0 : UInt8)).length = 2 ^ 32 := List.length_replicate
  have h := hall ⟨[], [], []⟩ noPoint (List.replicate (2 ^ 32) 0) []
    (noEarlierMagic_zeros _ _) (by rw [hl, hgl]; decide)
  have hn : ¬ Searched (List.replicate (2 ^ 32) 0 ++ noPoint.bytes ++ []) := by
    rw [Searched, List.length_append, List.length_append, hl, hgl]
    decide
  rw [extractScanPacketFromByteRange_eq, findPacket_of_not_searched hn] at h
  injection h with h
  injection h with h
  injection h with h
  cases h

end R2000Driver.PacketExtraction
