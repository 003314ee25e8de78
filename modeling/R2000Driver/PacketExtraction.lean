import R2000Driver.Data

/-!
# Extraction of scan packets from a byte range

The functions of the data link that look for a packet in the bytes received
so far: the magic search, the header, the two integer loops, the payloads of
the packet types A, B and C, and `extractScanPacketFromByteRange`, which hands
a whole packet to a scan factory. The factory is any type with the operations
of the abstract class.

What an extraction does with the bytes does not depend on the factory.
`findPacket` is that part, and `extractScanPacketFromByteRange_eq` says what
is left to the factory.
-/

namespace R2000Driver.PacketExtraction
open LittleEndian Data

def packetMagicStart : UInt16 := 0xa25c

def retrievePacketMagic : List UInt8 → Option (List UInt8)
  | b0 :: b1 :: rest =>
    if b0.toUInt16 ||| (b1.toUInt16 <<< 8) = packetMagicStart then some (b0 :: b1 :: rest)
    else retrievePacketMagic (b1 :: rest)
  | _ => none

/-- `sizeof(Data::Header)`: the 76 bytes of the fields and the alignment
holes before `timestampRaw` and `firstAngle`. -/
def sizeofHeader : ℕ := 80

def retrievePacketHeader (range : List UInt8) : Except Fault (Option (List UInt8 × Header)) :=
  -- The distance is cast to `unsigned int` before it is compared.
  let numberOfBytes := UInt32.ofNat range.length
  if numberOfBytes.toNat < sizeofHeader then .ok none
  else match retrievePacketMagic range with
    | none => .ok none
    | some headerStart => do
      let header ← Header.fromByteRange headerStart
      return some (headerStart, header)

/-- The integers handed to the callback, in order, and the final position. -/
def retrieve32BitsUnsignedIntegersFromByteRange : List UInt8 → ℕ → List UInt32 × List UInt8
  | b0 :: b1 :: b2 :: b3 :: position, numberOfIntegersToExtract + 1 =>
    let tail := retrieve32BitsUnsignedIntegersFromByteRange position numberOfIntegersToExtract
    ((b0.toUInt32 ||| (b1.toUInt32 <<< 8) ||| (b2.toUInt32 <<< 16) ||| (b3.toUInt32 <<< 24)) ::
      tail.1, tail.2)
  | position, _ => ([], position)

def retrieve48bitsUnsignedIntegersFromByteRange :
    List UInt8 → ℕ → Except Fault (List (UInt32 × UInt16) × List UInt8)
  | position, 0 => .ok ([], position)
  | b0 :: b1 :: b2 :: b3 :: b4 :: b5 :: position, numberOfIntegersToExtract + 1 => do
    let tail ← retrieve48bitsUnsignedIntegersFromByteRange position numberOfIntegersToExtract
    return ((b0.toUInt32 ||| (b1.toUInt32 <<< 8) ||| (b2.toUInt32 <<< 16) |||
      (b3.toUInt32 <<< 24), b4.toUInt16 ||| (b5.toUInt16 <<< 8)) :: tail.1, tail.2)
  -- The loop goes on while four bytes remain, but an iteration reads six.
  | [_, _, _, _, _], _ + 1 => .error .outOfRange
  | [_, _, _, _], _ + 1 => .error .outOfRange
  | position, _ + 1 => .ok ([], position)

structure Payload where
  distances : List UInt32
  amplitudes : List UInt32
  position : List UInt8
  deriving DecidableEq, Repr

/-- `std::numeric_limits<uint32_t>::quiet_NaN()` is zero for an integer type. -/
def quietNaN : UInt32 := 0

def nanOrDistance (invalid distance : UInt32) : UInt32 :=
  if distance ≠ invalid then distance else quietNaN

def retrievePayloadA (begin : List UInt8) (numberOfPoints : ℕ) : Except Fault Payload :=
  let points := retrieve32BitsUnsignedIntegersFromByteRange begin numberOfPoints
  .ok ⟨points.1.map (nanOrDistance 0xFFFFFFFF), points.1.map fun _ => 0, points.2⟩

def retrievePayloadB (begin : List UInt8) (numberOfPoints : ℕ) : Except Fault Payload := do
  let points ← retrieve48bitsUnsignedIntegersFromByteRange begin numberOfPoints
  return ⟨points.1.map fun p => nanOrDistance 0xFFFFFFFF p.1, points.1.map fun p => p.2.toUInt32,
    points.2⟩

def retrievePayloadC (begin : List UInt8) (numberOfPoints : ℕ) : Except Fault Payload :=
  let points := retrieve32BitsUnsignedIntegersFromByteRange begin numberOfPoints
  .ok ⟨points.1.map fun point => nanOrDistance 0xFFFFF (point &&& 0x000FFFFF),
    points.1.map fun point : UInt32 => (point &&& 0xFFF00000) >>> 20, points.2⟩

def packetTypeA : UInt16 := 0x0041
def packetTypeB : UInt16 := 0x0042
def packetTypeC : UInt16 := 0x0043

def unsupportedPayloadType (packetType : UInt16) : Fault :=
  .runtimeError ("DataLink::Unsupported payload type received from the device: " ++
    toString packetType.toNat)

def retrievePayload (packetType : UInt16) (begin : List UInt8) (numberOfPoints : ℕ) :
    Except Fault Payload :=
  if packetType = packetTypeA then retrievePayloadA begin numberOfPoints
  else if packetType = packetTypeB then retrievePayloadB begin numberOfPoints
  else if packetType = packetTypeC then retrievePayloadC begin numberOfPoints
  else .error (unsupportedPayloadType packetType)

/-- The operations of the abstract class; `equals` is `operator==` and
`assemble` is `operator*`, which also changes the factory. -/
class ScanFactory (F : Type) where
  addPacket : F → Header → List UInt32 → List UInt32 → F
  empty : F → Bool
  isComplete : F → Bool
  assemble : F → Scan × F
  clear : F → F
  equals : F → UInt32 → Bool
  getHeaders : F → List Header

namespace ScanFactory

variable {F : Type} [ScanFactory F]

def isDifferentScan (scanFactory : F) (header : Header) : Bool :=
  !equals scanFactory header.scanNumber.toUInt32

def isNewScan (header : Header) : Bool := header.packetNumber == 1

def clearedFor (scanFactory : F) (header : Header) : F :=
  if !empty scanFactory && (isDifferentScan scanFactory header || isNewScan header) then
    clear scanFactory
  else scanFactory

end ScanFactory

open ScanFactory

structure Extraction where
  hadEnoughBytes : Bool
  position : List UInt8
  numberOfMissingBytes : UInt32
  deriving DecidableEq, Repr

variable {F : Type} [ScanFactory F]

def payloadSize (header : Header) : UInt32 := header.packetSize - header.headerSize.toUInt32

/-- Negative when `headerSize` leads past the end of the range. -/
def numberOfBytesAvailable (headerStart : List UInt8) (header : Header) : ℤ :=
  (headerStart.length : ℤ) - header.headerSize.toNat

def extractScanPacketFromByteRange (range : List UInt8) (scanFactory : F) :
    Except Fault (Extraction × F) :=
  match retrievePacketHeader range with
  | .error e => .error e
  | .ok none => .ok (⟨false, [], 0⟩, scanFactory)
  | .ok (some (headerStart, header)) =>
    let available := numberOfBytesAvailable headerStart header
    let scanFactory := clearedFor scanFactory header
    if ((payloadSize header).toNat : ℤ) > available then
      let numberOfMissingBytes := ((payloadSize header).toNat : ℤ) - available
      -- The result tuple narrows the count to `unsigned int`.
      .ok (⟨false, headerStart, UInt32.ofInt numberOfMissingBytes⟩, scanFactory)
    else
      let payloadStart := headerStart.drop header.headerSize.toNat
      match retrievePayload header.packetType payloadStart header.numPointsPacket.toNat with
      | .error e => .error e
      | .ok payload => .ok (⟨true, payload.position, 0⟩,
          addPacket scanFactory header payload.distances payload.amplitudes)

def StartsWithMagic (l : List UInt8) : Prop := [0x5c, 0xa2] <+: l

instance (l : List UInt8) : Decidable (StartsWithMagic l) :=
  inferInstanceAs (Decidable ([0x5c, 0xa2] <+: l))

theorem magic_eq_iff (b0 b1 : UInt8) :
    b0.toUInt16 ||| (b1.toUInt16 <<< 8) = packetMagicStart ↔ b0 = 0x5c ∧ b1 = 0xa2 := by
  have h0 := b0.toNat_lt
  have h1 := b1.toNat_lt
  rw [← UInt16.toNat_inj, toNat_uint16, ← UInt8.toNat_inj, ← UInt8.toNat_inj]
  have hm : packetMagicStart.toNat = 0x5c + 256 * 0xa2 := by decide
  have hl : (0x5c : UInt8).toNat = 0x5c := by decide
  have hh : (0xa2 : UInt8).toNat = 0xa2 := by decide
  simp only [value, hm, hl, hh]
  omega

theorem startsWithMagic_cons (b0 b1 : UInt8) (l : List UInt8) :
    StartsWithMagic (b0 :: b1 :: l) ↔ b0 = 0x5c ∧ b1 = 0xa2 := by
  simp [StartsWithMagic, eq_comm]

theorem StartsWithMagic.append {l : List UInt8} (h : StartsWithMagic l) (s : List UInt8) :
    StartsWithMagic (l ++ s) :=
  List.IsPrefix.trans h (List.prefix_append l s)

theorem retrievePacketMagic_of_startsWith {range : List UInt8} (h : StartsWithMagic range) :
    retrievePacketMagic range = some range := by
  obtain ⟨rest, rfl⟩ := h
  have hm := (magic_eq_iff 0x5c 0xa2).mpr ⟨rfl, rfl⟩
  simp only [List.cons_append, List.nil_append, retrievePacketMagic, if_pos hm]

theorem retrievePacketMagic_append (g l : List UInt8)
    (hg : ∀ k < g.length, ¬ StartsWithMagic ((g ++ l).drop k)) (hl : 0 < l.length) :
    retrievePacketMagic (g ++ l) = retrievePacketMagic l := by
  induction g with
  | nil => rfl
  | cons b g ih =>
    have hb := hg 0 (by simp)
    have hrest : ∀ k < g.length, ¬ StartsWithMagic ((g ++ l).drop k) := by
      intro k hk
      exact hg (k + 1) (by simp; omega)
    cases hgl : g ++ l with
    | nil => simp at hgl; simp [hgl.2] at hl
    | cons c t =>
      simp only [List.cons_append, List.drop_zero, hgl, startsWithMagic_cons] at hb
      rw [List.cons_append, hgl, retrievePacketMagic, if_neg (by rwa [magic_eq_iff]), ← hgl, ih hrest]

theorem retrievePacketMagic_eq_some {range headerStart : List UInt8}
    (h : retrievePacketMagic range = some headerStart) :
    ∃ g, range = g ++ headerStart ∧ StartsWithMagic headerStart ∧
      ∀ k < g.length, ¬ StartsWithMagic (range.drop k) := by
  induction range with
  | nil => simp [retrievePacketMagic] at h
  | cons b0 range ih =>
    cases range with
    | nil => simp [retrievePacketMagic] at h
    | cons b1 rest =>
      rw [retrievePacketMagic] at h
      split_ifs at h with hm
      · cases h
        exact ⟨[], rfl, (startsWithMagic_cons _ _ _).mpr ((magic_eq_iff _ _).mp hm), by simp⟩
      · obtain ⟨g, hg, hs, hfirst⟩ := ih h
        refine ⟨b0 :: g, by rw [hg]; rfl, hs, fun k hk => ?_⟩
        match k with
        | 0 => rwa [List.drop_zero, startsWithMagic_cons, ← magic_eq_iff]
        | k + 1 => exact hfirst k (by simpa using hk)

theorem retrieve32Bits_spec (l : List UInt8) (n : ℕ) :
    (retrieve32BitsUnsignedIntegersFromByteRange l n).1.length = min n (l.length / 4) ∧
    (retrieve32BitsUnsignedIntegersFromByteRange l n).2 = l.drop (4 * min n (l.length / 4)) := by
  fun_induction retrieve32BitsUnsignedIntegersFromByteRange l n with
  | case1 b0 b1 b2 b3 position n tail ih =>
    have hc : min (n + 1) ((b0 :: b1 :: b2 :: b3 :: position).length / 4) =
        min n (position.length / 4) + 1 := by simp only [List.length_cons]; omega
    refine ⟨?_, ?_⟩
    · rw [hc, List.length_cons, ih.1]
    · rw [hc, Nat.mul_succ, ih.2]
      rfl
  | case2 position n hstop =>
    have hc : min n (position.length / 4) = 0 := by
      match position, n, hstop with
      | _, 0, _ => simp
      | [], _ + 1, _ => simp
      | [_], _ + 1, _ => simp
      | [_, _], _ + 1, _ => simp
      | [_, _, _], _ + 1, _ => simp
      | b0 :: b1 :: b2 :: b3 :: rest, n + 1, hstop => exact absurd rfl (hstop b0 b1 b2 b3 rest n rfl)
    simp [hc]

theorem retrieve32Bits_bytes (points : List UInt32) (s : List UInt8) :
    retrieve32BitsUnsignedIntegersFromByteRange (points.flatMap uint32Bytes ++ s) points.length =
      (points, s) := by
  induction points with
  | nil => simp [retrieve32BitsUnsignedIntegersFromByteRange]
  | cons x points ih =>
    have hx := interpretUint32_inverts x (points.flatMap uint32Bytes ++ s)
    obtain ⟨b0, b1, b2, b3, hb⟩ := list_of_length_four (length_bytes 4 x.toNat)
    rw [List.flatMap_cons, uint32Bytes, hb, List.length_cons]
    rw [uint32Bytes, hb] at hx
    simp only [List.cons_append, List.nil_append, retrieve32BitsUnsignedIntegersFromByteRange, ih]
    injection hx with hx
    injection hx with hx
    rw [hx]

def Overruns48 (l : List UInt8) (n : ℕ) : Prop := l.length / 6 < n ∧ 4 ≤ l.length % 6

theorem retrieve48bits_spec (l : List UInt8) (n : ℕ) :
    (Overruns48 l n ∧ retrieve48bitsUnsignedIntegersFromByteRange l n = .error .outOfRange) ∨
    (¬ Overruns48 l n ∧ ∃ points, retrieve48bitsUnsignedIntegersFromByteRange l n =
      .ok (points, l.drop (6 * min n (l.length / 6))) ∧ points.length = min n (l.length / 6)) := by
  fun_induction retrieve48bitsUnsignedIntegersFromByteRange l n with
  | case1 position => exact Or.inr ⟨by simp [Overruns48], [], by simp⟩
  | case2 b0 b1 b2 b3 b4 b5 position n ih =>
    have hc : min (n + 1) ((b0 :: b1 :: b2 :: b3 :: b4 :: b5 :: position).length / 6) =
        min n (position.length / 6) + 1 := by simp only [List.length_cons]; omega
    have ho : Overruns48 (b0 :: b1 :: b2 :: b3 :: b4 :: b5 :: position) (n + 1) ↔
        Overruns48 position n := by simp only [Overruns48, List.length_cons]; omega
    rcases ih with ⟨hr, he⟩ | ⟨hr, points, he, hl⟩
    · exact Or.inl ⟨ho.mpr hr, by rw [he]; rfl⟩
    · refine Or.inr ⟨fun h => hr (ho.mp h), (b0.toUInt32 ||| (b1.toUInt32 <<< 8) |||
        (b2.toUInt32 <<< 16) ||| (b3.toUInt32 <<< 24), b4.toUInt16 ||| (b5.toUInt16 <<< 8)) ::
        points, ?_, ?_⟩
      · rw [he, hc, Nat.mul_succ]
        rfl
      · rw [hc, List.length_cons, hl]
  | case3 => exact Or.inl ⟨by simp [Overruns48], rfl⟩
  | case4 => exact Or.inl ⟨by simp [Overruns48], rfl⟩
  | case5 position n h6 h5 h4 =>
    have hlt : position.length < 4 := by
      match position, h6, h5, h4 with
      | [], _, _, _ => simp
      | [_], _, _, _ => simp
      | [_, _], _, _, _ => simp
      | [_, _, _], _, _, _ => simp
      | [b0, b1, b2, b3], _, _, h4 => exact absurd rfl (h4 b0 b1 b2 b3)
      | [b0, b1, b2, b3, b4], _, h5, _ => exact absurd rfl (h5 b0 b1 b2 b3 b4)
      | b0 :: b1 :: b2 :: b3 :: b4 :: b5 :: r, h6, _, _ => exact absurd rfl (h6 b0 b1 b2 b3 b4 b5 r)
    have hd : position.length / 6 = 0 := by omega
    refine Or.inr ⟨?_, [], ?_, ?_⟩
    · simp only [Overruns48]; omega
    · simp [hd]
    · simp [hd]

def Supported (packetType : UInt16) : Prop :=
  packetType = packetTypeA ∨ packetType = packetTypeB ∨ packetType = packetTypeC

def pointSize (packetType : UInt16) : ℕ := if packetType = packetTypeB then 6 else 4

def pointCount (packetType : UInt16) (l : List UInt8) (n : ℕ) : ℕ :=
  min n (l.length / pointSize packetType)

theorem pointBytes_le (packetType : UInt16) (l : List UInt8) (n : ℕ) :
    pointSize packetType * pointCount packetType l n ≤ l.length :=
  Nat.le_trans (Nat.mul_le_mul_left _ (Nat.min_le_right _ _)) (Nat.mul_div_le _ _)

structure Payload.Consumes (payload : Payload) (packetType : UInt16) (l : List UInt8) (n : ℕ) :
    Prop where
  distances : payload.distances.length = pointCount packetType l n
  amplitudes : payload.amplitudes.length = pointCount packetType l n
  position : payload.position = l.drop (pointSize packetType * pointCount packetType l n)

theorem retrievePayloadA_spec (l : List UInt8) (n : ℕ) :
    ∃ payload, retrievePayloadA l n = .ok payload ∧ payload.Consumes packetTypeA l n := by
  obtain ⟨hc, hp⟩ := retrieve32Bits_spec l n
  exact ⟨_, rfl, (List.length_map _).trans hc, (List.length_map _).trans hc, hp⟩

theorem retrievePayloadC_spec (l : List UInt8) (n : ℕ) :
    ∃ payload, retrievePayloadC l n = .ok payload ∧ payload.Consumes packetTypeC l n := by
  obtain ⟨hc, hp⟩ := retrieve32Bits_spec l n
  exact ⟨_, rfl, (List.length_map _).trans hc, (List.length_map _).trans hc, hp⟩

theorem retrievePayloadB_spec (l : List UInt8) (n : ℕ) :
    (Overruns48 l n ∧ retrievePayloadB l n = .error .outOfRange) ∨
    (¬ Overruns48 l n ∧ ∃ payload, retrievePayloadB l n = .ok payload ∧
      payload.Consumes packetTypeB l n) := by
  rcases retrieve48bits_spec l n with ⟨ho, he⟩ | ⟨ho, points, he, hl⟩
  · exact Or.inl ⟨ho, by rw [retrievePayloadB, he]; rfl⟩
  · exact Or.inr ⟨ho, _, by rw [retrievePayloadB, he]; rfl, (List.length_map _).trans hl,
      (List.length_map _).trans hl, rfl⟩

theorem retrievePayload_cases (packetType : UInt16) (l : List UInt8) (n : ℕ) :
    (¬ Supported packetType ∧
      retrievePayload packetType l n = .error (unsupportedPayloadType packetType)) ∨
    (packetType = packetTypeB ∧ Overruns48 l n ∧
      retrievePayload packetType l n = .error .outOfRange) ∨
    (Supported packetType ∧ ¬ (packetType = packetTypeB ∧ Overruns48 l n) ∧
      ∃ payload, retrievePayload packetType l n = .ok payload ∧
        payload.Consumes packetType l n) := by
  have hba : packetTypeB ≠ packetTypeA := by decide
  have hca : packetTypeC ≠ packetTypeA := by decide
  have hcb : packetTypeC ≠ packetTypeB := by decide
  by_cases ha : packetType = packetTypeA
  · subst ha
    exact Or.inr (Or.inr ⟨Or.inl rfl, fun h => hba h.1.symm, by
      simpa [retrievePayload] using retrievePayloadA_spec l n⟩)
  by_cases hb : packetType = packetTypeB
  · subst hb
    simp only [retrievePayload, hba, ↓reduceIte, true_and]
    rcases retrievePayloadB_spec l n with h | ⟨ho, h⟩
    · exact Or.inr (Or.inl h)
    · exact Or.inr (Or.inr ⟨Or.inr (Or.inl rfl), ho, h⟩)
  by_cases hc : packetType = packetTypeC
  · subst hc
    exact Or.inr (Or.inr ⟨Or.inr (Or.inr rfl), fun h => hcb h.1, by
      simpa [retrievePayload, hca, hcb] using retrievePayloadC_spec l n⟩)
  · exact Or.inl ⟨by simp [Supported, ha, hb, hc], by simp [retrievePayload, ha, hb, hc]⟩

inductive Found
  | nothing
  | missing (headerStart : List UInt8) (header : Header) (numberOfMissingBytes : UInt32)
  | packet (header : Header) (payload : Payload)

def findPacketAt (headerStart : List UInt8) (header : Header) : Except Fault Found :=
  if ((payloadSize header).toNat : ℤ) > numberOfBytesAvailable headerStart header then
    .ok (.missing headerStart header
      (UInt32.ofInt ((payloadSize header).toNat - numberOfBytesAvailable headerStart header)))
  else
    (retrievePayload header.packetType (headerStart.drop header.headerSize.toNat)
      header.numPointsPacket.toNat).map (Found.packet header)

def findPacket (range : List UInt8) : Except Fault Found :=
  match retrievePacketHeader range with
  | .error e => .error e
  | .ok none => .ok .nothing
  | .ok (some (headerStart, header)) => findPacketAt headerStart header

def Found.deliver (scanFactory : F) : Found → Extraction × F
  | .nothing => (⟨false, [], 0⟩, scanFactory)
  | .missing headerStart header n => (⟨false, headerStart, n⟩, clearedFor scanFactory header)
  | .packet header payload => (⟨true, payload.position, 0⟩,
      addPacket (clearedFor scanFactory header) header payload.distances payload.amplitudes)

theorem extractScanPacketFromByteRange_eq (range : List UInt8) (scanFactory : F) :
    extractScanPacketFromByteRange range scanFactory =
      (findPacket range).map (Found.deliver scanFactory) := by
  simp only [extractScanPacketFromByteRange, findPacket]
  cases retrievePacketHeader range with
  | error e => rfl
  | ok found =>
    match found with
    | none => rfl
    | some (headerStart, header) =>
      simp only [findPacketAt]
      split_ifs
      · rfl
      · cases retrievePayload header.packetType (headerStart.drop header.headerSize.toNat)
            header.numPointsPacket.toNat with
        | error e => rfl
        | ok payload => rfl

theorem extraction_cases {range : List UInt8} {scanFactory scanFactory' : F} {extraction : Extraction}
    (h : extractScanPacketFromByteRange range scanFactory = .ok (extraction, scanFactory')) :
    ∃ found, findPacket range = .ok found ∧ found.deliver scanFactory = (extraction, scanFactory') := by
  rw [extractScanPacketFromByteRange_eq] at h
  cases hfound : findPacket range with
  | error e =>
    rw [hfound] at h
    cases h
  | ok found =>
    rw [hfound] at h
    exact ⟨found, rfl, Except.ok.inj h⟩

def Searched (range : List UInt8) : Prop := sizeofHeader ≤ range.length % 2 ^ 32

theorem retrievePacketHeader_of_not_searched {range : List UInt8} (h : ¬ Searched range) :
    retrievePacketHeader range = .ok none := by
  simp only [Searched] at h
  simp only [retrievePacketHeader, UInt32.toNat_ofNat', if_pos (Nat.lt_of_not_le h)]

theorem findPacket_of_not_searched {range : List UInt8} (h : ¬ Searched range) :
    findPacket range = .ok .nothing := by
  rw [findPacket, retrievePacketHeader_of_not_searched h]

theorem findPacket_of_magic {range headerStart : List UInt8} {header : Header}
    (h : Searched range) (hm : retrievePacketMagic range = some headerStart)
    (hh : Header.fromByteRange headerStart = .ok header) :
    findPacket range = findPacketAt headerStart header := by
  simp only [Searched] at h
  simp only [findPacket, retrievePacketHeader, UInt32.toNat_ofNat', if_neg (Nat.not_lt_of_le h), hm,
    hh]
  rfl

theorem findPacket_of_no_magic {range : List UInt8} (h : retrievePacketMagic range = none) :
    findPacket range = .ok .nothing := by
  simp only [findPacket, retrievePacketHeader, h]
  split_ifs <;> rfl

theorem findPacket_of_cut_header {range headerStart : List UInt8}
    (h : Searched range) (hm : retrievePacketMagic range = some headerStart)
    (hs : headerStart.length < wireHeaderSize) : findPacket range = .error .outOfRange := by
  simp only [Searched] at h
  simp only [findPacket, retrievePacketHeader, UInt32.toNat_ofNat', if_neg (Nat.not_lt_of_le h), hm,
    Header.fromByteRange_short hs]
  rfl

/-- What the bytes of a range must be for the search to find a header in it. -/
structure HeaderAt (range headerStart : List UInt8) (header : Header) : Prop where
  searched : Searched range
  magic : retrievePacketMagic range = some headerStart
  header : Header.fromByteRange headerStart = .ok header

theorem HeaderAt.le_length {range headerStart : List UInt8} {header : Header}
    (h : HeaderAt range headerStart header) : headerStart.length ≤ range.length := by
  obtain ⟨g, hg, -, -⟩ := retrievePacketMagic_eq_some h.magic
  rw [hg, List.length_append]
  exact Nat.le_add_left _ _

theorem findPacket_cases (range : List UInt8) :
    (findPacket range = .ok .nothing) ∨
    (∃ headerStart, Searched range ∧ retrievePacketMagic range = some headerStart ∧
      headerStart.length < wireHeaderSize ∧ findPacket range = .error .outOfRange) ∨
    (∃ headerStart header, HeaderAt range headerStart header ∧
      findPacket range = findPacketAt headerStart header) := by
  by_cases hs : Searched range
  · cases hm : retrievePacketMagic range with
    | none => exact Or.inl (findPacket_of_no_magic hm)
    | some headerStart =>
      by_cases hl : headerStart.length < wireHeaderSize
      · exact Or.inr (Or.inl ⟨headerStart, hs, rfl, hl, findPacket_of_cut_header hs hm hl⟩)
      · obtain ⟨header, hh, -⟩ := Header.fromByteRange_eq (Nat.le_of_not_lt hl)
        exact Or.inr (Or.inr ⟨headerStart, header, ⟨hs, hm, hh⟩, findPacket_of_magic hs hm hh⟩)
  · exact Or.inl (findPacket_of_not_searched hs)

def PayloadFits (headerStart : List UInt8) (header : Header) : Prop :=
  header.headerSize.toNat + (payloadSize header).toNat ≤ headerStart.length

theorem payloadFits_iff (headerStart : List UInt8) (header : Header) :
    PayloadFits headerStart header ↔
      ¬ ((payloadSize header).toNat : ℤ) > numberOfBytesAvailable headerStart header := by
  simp only [PayloadFits, numberOfBytesAvailable]
  omega

theorem findPacketAt_of_not_fits {headerStart : List UInt8} {header : Header}
    (h : ¬ PayloadFits headerStart header) :
    findPacketAt headerStart header = .ok (.missing headerStart header
      (UInt32.ofInt ((payloadSize header).toNat - numberOfBytesAvailable headerStart header))) := by
  rw [findPacketAt, if_pos (by rwa [payloadFits_iff, not_not] at h)]

theorem findPacketAt_of_fits {headerStart : List UInt8} {header : Header}
    (h : PayloadFits headerStart header) :
    findPacketAt headerStart header = (retrievePayload header.packetType
      (headerStart.drop header.headerSize.toNat) header.numPointsPacket.toNat).map
        (Found.packet header) := by
  rw [findPacketAt, if_neg ((payloadFits_iff _ _).mp h)]

theorem findPacket_eq_packet {range : List UInt8} {header : Header} {payload : Payload}
    (h : findPacket range = .ok (.packet header payload)) :
    ∃ headerStart, HeaderAt range headerStart header ∧ PayloadFits headerStart header ∧
      Supported header.packetType ∧
      payload.Consumes header.packetType (headerStart.drop header.headerSize.toNat)
        header.numPointsPacket.toNat := by
  rcases findPacket_cases range with he | ⟨_, _, _, _, he⟩ | ⟨headerStart, header', hat, he⟩
  · rw [he] at h
    cases h
  · rw [he] at h
    cases h
  rw [he] at h
  by_cases hf : PayloadFits headerStart header'
  · rw [findPacketAt_of_fits hf] at h
    rcases retrievePayload_cases header'.packetType (headerStart.drop header'.headerSize.toNat)
      header'.numPointsPacket.toNat with ⟨_, hp⟩ | ⟨_, _, hp⟩ | ⟨hs, _, payload', hp, hc⟩
    · rw [hp] at h
      cases h
    · rw [hp] at h
      cases h
    · rw [hp] at h
      cases h
      exact ⟨headerStart, hat, hf, hs, hc⟩
  · rw [findPacketAt_of_not_fits hf] at h
    cases h

theorem findPacket_eq_missing {range headerStart : List UInt8} {header : Header} {n : UInt32}
    (h : findPacket range = .ok (.missing headerStart header n)) :
    HeaderAt range headerStart header ∧
      n = UInt32.ofInt ((payloadSize header).toNat - numberOfBytesAvailable headerStart header) := by
  rcases findPacket_cases range with he | ⟨_, _, _, _, he⟩ | ⟨headerStart', header', hat, he⟩
  · rw [he] at h
    cases h
  · rw [he] at h
    cases h
  rw [he] at h
  by_cases hf : PayloadFits headerStart' header'
  · rw [findPacketAt_of_fits hf] at h
    cases hp : retrievePayload header'.packetType (headerStart'.drop header'.headerSize.toNat)
        header'.numPointsPacket.toNat with
    | error e =>
      rw [hp] at h
      cases h
    | ok payload =>
      rw [hp] at h
      cases h
  · rw [findPacketAt_of_not_fits hf] at h
    cases h
    exact ⟨hat, rfl⟩

end R2000Driver.PacketExtraction
