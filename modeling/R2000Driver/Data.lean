import R2000Driver.LittleEndian

/-!
# Packet headers and scans

An iterator over a byte range is the list of the bytes from its position to
the end of the range: `std::distance` to the end is the length of that list
and advancing the iterator drops bytes. A dereference past the end of the
range is undefined behaviour of the program and is the outcome `outOfRange`.
-/

namespace R2000Driver.Data
open LittleEndian

/-- Ways in which a call does not return: an exception, a read past the end
of a range, and a loop that is still running when its fuel is spent. -/
inductive Fault
  | runtimeError (what : String)
  | outOfRange
  | endless
  deriving DecidableEq, Repr

def interpretUint16 : Reader Fault UInt16 := fun position =>
  match position with
  | b0 :: b1 :: rest => .ok (b0.toUInt16 ||| (b1.toUInt16 <<< 8), rest)
  | _ => .error .outOfRange

def interpretUint32 : Reader Fault UInt32 := fun position =>
  match position with
  | b0 :: b1 :: b2 :: b3 :: rest =>
    .ok (b0.toUInt32 ||| (b1.toUInt32 <<< 8) ||| (b2.toUInt32 <<< 16) ||| (b3.toUInt32 <<< 24), rest)
  | _ => .error .outOfRange

def interpretInt32 : Reader Fault Int32 := fun position =>
  match position with
  | b0 :: b1 :: b2 :: b3 :: rest =>
    .ok (b0.toUInt32.toInt32 ||| (b1.toUInt32.toInt32 <<< 8) ||| (b2.toUInt32.toInt32 <<< 16) |||
      (b3.toUInt32.toInt32 <<< 24), rest)
  | _ => .error .outOfRange

def interpretUint64 : Reader Fault UInt64 := fun position =>
  match position with
  | b0 :: b1 :: b2 :: b3 :: b4 :: b5 :: b6 :: b7 :: rest =>
    .ok (b0.toUInt64 ||| (b1.toUInt64 <<< 8) ||| (b2.toUInt64 <<< 16) ||| (b3.toUInt64 <<< 24) |||
      (b4.toUInt64 <<< 32) ||| (b5.toUInt64 <<< 40) ||| (b6.toUInt64 <<< 48) |||
      (b7.toUInt64 <<< 56), rest)
  | _ => .error .outOfRange

structure Header where
  magic : UInt16
  packetType : UInt16
  packetSize : UInt32
  headerSize : UInt16
  scanNumber : UInt16
  packetNumber : UInt16
  timestampRaw : UInt64
  timestampSync : UInt64
  statusFlags : UInt32
  scanFrequency : UInt32
  numPointsScan : UInt16
  numPointsPacket : UInt16
  firstIndex : UInt16
  firstAngle : Int32
  angularIncrement : Int32
  iqInput : UInt32
  iqOverload : UInt32
  iqTimestampRaw : UInt64
  iqTimestampSync : UInt64
  deriving DecidableEq, Repr

def readHeader : Reader Fault Header := do
  let magic ← interpretUint16
  let packetType ← interpretUint16
  let packetSize ← interpretUint32
  let headerSize ← interpretUint16
  let scanNumber ← interpretUint16
  let packetNumber ← interpretUint16
  let timestampRaw ← interpretUint64
  let timestampSync ← interpretUint64
  let statusFlags ← interpretUint32
  let scanFrequency ← interpretUint32
  let numPointsScan ← interpretUint16
  let numPointsPacket ← interpretUint16
  let firstIndex ← interpretUint16
  let firstAngle ← interpretInt32
  let angularIncrement ← interpretInt32
  let iqInput ← interpretUint32
  let iqOverload ← interpretUint32
  let iqTimestampRaw ← interpretUint64
  let iqTimestampSync ← interpretUint64
  return ⟨magic, packetType, packetSize, headerSize, scanNumber, packetNumber, timestampRaw,
    timestampSync, statusFlags, scanFrequency, numPointsScan, numPointsPacket, firstIndex,
    firstAngle, angularIncrement, iqInput, iqOverload, iqTimestampRaw, iqTimestampSync⟩

def Header.fromByteRange (begin : List UInt8) : Except Fault Header :=
  (readHeader.run begin).map Prod.fst

def wireHeaderSize : ℕ := 76

structure Scan where
  distances : List UInt32
  amplitudes : List UInt32
  headers : List Header
  deriving DecidableEq, Repr

namespace Scan

def isComplete (scan : Scan) : Bool :=
  match scan.headers with
  | [] => false
  | header :: _ => header.numPointsScan.toNat ≤ scan.distances.length

end Scan

def uint16Bytes (x : UInt16) : List UInt8 := bytes 2 x.toNat
def uint32Bytes (x : UInt32) : List UInt8 := bytes 4 x.toNat
def int32Bytes (x : Int32) : List UInt8 := bytes 4 x.toUInt32.toNat
def uint64Bytes (x : UInt64) : List UInt8 := bytes 8 x.toNat

theorem toNat_uint16 (b0 b1 : UInt8) :
    (b0.toUInt16 ||| (b1.toUInt16 <<< 8)).toNat = value [b0, b1] := by
  simp (disch := omega) only [UInt16.toNat_or, UInt16.toNat_shiftLeft, UInt8.toNat_toUInt16,
    UInt16.reduceToNat, Nat.reduceMod, shiftLeft_mod]
  rw [← value_singleton b0]
  simp (disch := simp) only [value_or_shiftLeft, List.cons_append, List.nil_append]

theorem toNat_uint32 (b0 b1 b2 b3 : UInt8) :
    (b0.toUInt32 ||| (b1.toUInt32 <<< 8) ||| (b2.toUInt32 <<< 16) ||| (b3.toUInt32 <<< 24)).toNat =
      value [b0, b1, b2, b3] := by
  simp (disch := omega) only [UInt32.toNat_or, UInt32.toNat_shiftLeft, UInt8.toNat_toUInt32,
    UInt32.reduceToNat, Nat.reduceMod, shiftLeft_mod]
  rw [← value_singleton b0]
  simp (disch := simp) only [value_or_shiftLeft, List.cons_append, List.nil_append]

theorem toNat_uint64 (b0 b1 b2 b3 b4 b5 b6 b7 : UInt8) :
    (b0.toUInt64 ||| (b1.toUInt64 <<< 8) ||| (b2.toUInt64 <<< 16) ||| (b3.toUInt64 <<< 24) |||
      (b4.toUInt64 <<< 32) ||| (b5.toUInt64 <<< 40) ||| (b6.toUInt64 <<< 48) |||
      (b7.toUInt64 <<< 56)).toNat = value [b0, b1, b2, b3, b4, b5, b6, b7] := by
  simp (disch := omega) only [UInt64.toNat_or, UInt64.toNat_shiftLeft, UInt8.toNat_toUInt64,
    UInt64.reduceToNat, Nat.reduceMod, shiftLeft_mod]
  rw [← value_singleton b0]
  simp (disch := simp) only [value_or_shiftLeft, List.cons_append, List.nil_append]

theorem interpretInt32_eq (b0 b1 b2 b3 : UInt8) :
    b0.toUInt32.toInt32 ||| (b1.toUInt32.toInt32 <<< 8) ||| (b2.toUInt32.toInt32 <<< 16) |||
      (b3.toUInt32.toInt32 <<< 24) =
    (b0.toUInt32 ||| (b1.toUInt32 <<< 8) ||| (b2.toUInt32 <<< 16) |||
      (b3.toUInt32 <<< 24)).toInt32 := rfl

theorem list_of_length_two {l : List UInt8} (h : l.length = 2) : ∃ b0 b1, l = [b0, b1] :=
  match l, h with
  | [b0, b1], _ => ⟨b0, b1, rfl⟩

theorem list_of_length_four {l : List UInt8} (h : l.length = 4) :
    ∃ b0 b1 b2 b3, l = [b0, b1, b2, b3] :=
  match l, h with
  | [b0, b1, b2, b3], _ => ⟨b0, b1, b2, b3, rfl⟩

theorem list_of_length_eight {l : List UInt8} (h : l.length = 8) :
    ∃ b0 b1 b2 b3 b4 b5 b6 b7, l = [b0, b1, b2, b3, b4, b5, b6, b7] :=
  match l, h with
  | [b0, b1, b2, b3, b4, b5, b6, b7], _ => ⟨b0, b1, b2, b3, b4, b5, b6, b7, rfl⟩

theorem interpretUint16_fixedWidth : FixedWidth Fault.outOfRange interpretUint16 2 where
  short l h := by
    match l, h with
    | [], _ => rfl
    | [_], _ => rfl
  long l h := by
    obtain ⟨b0, b1, rfl⟩ := list_of_length_two h
    exact ⟨_, fun s => rfl⟩

theorem interpretUint32_fixedWidth : FixedWidth Fault.outOfRange interpretUint32 4 where
  short l h := by
    match l, h with
    | [], _ => rfl
    | [_], _ => rfl
    | [_, _], _ => rfl
    | [_, _, _], _ => rfl
  long l h := by
    obtain ⟨b0, b1, b2, b3, rfl⟩ := list_of_length_four h
    exact ⟨_, fun s => rfl⟩

theorem interpretInt32_fixedWidth : FixedWidth Fault.outOfRange interpretInt32 4 where
  short l h := by
    match l, h with
    | [], _ => rfl
    | [_], _ => rfl
    | [_, _], _ => rfl
    | [_, _, _], _ => rfl
  long l h := by
    obtain ⟨b0, b1, b2, b3, rfl⟩ := list_of_length_four h
    exact ⟨_, fun s => rfl⟩

theorem interpretUint64_fixedWidth : FixedWidth Fault.outOfRange interpretUint64 8 where
  short l h := by
    match l, h with
    | [], _ => rfl
    | [_], _ => rfl
    | [_, _], _ => rfl
    | [_, _, _], _ => rfl
    | [_, _, _, _], _ => rfl
    | [_, _, _, _, _], _ => rfl
    | [_, _, _, _, _, _], _ => rfl
    | [_, _, _, _, _, _, _], _ => rfl
  long l h := by
    obtain ⟨b0, b1, b2, b3, b4, b5, b6, b7, rfl⟩ := list_of_length_eight h
    exact ⟨_, fun s => rfl⟩

theorem interpretUint16_inverts : Inverts interpretUint16 uint16Bytes := by
  intro x s
  obtain ⟨b0, b1, hb⟩ := list_of_length_two (length_bytes 2 x.toNat)
  have hv : value [b0, b1] = x.toNat := hb ▸ value_bytes_of_lt x.toNat_lt
  have hx : b0.toUInt16 ||| (b1.toUInt16 <<< 8) = x := UInt16.toNat_inj.mp (by rw [toNat_uint16, hv])
  rw [uint16Bytes, hb, ← hx]
  rfl

theorem interpretUint32_inverts : Inverts interpretUint32 uint32Bytes := by
  intro x s
  obtain ⟨b0, b1, b2, b3, hb⟩ := list_of_length_four (length_bytes 4 x.toNat)
  have hv : value [b0, b1, b2, b3] = x.toNat := hb ▸ value_bytes_of_lt x.toNat_lt
  have hx := UInt32.toNat_inj.mp ((toNat_uint32 b0 b1 b2 b3).trans hv)
  rw [uint32Bytes, hb, ← hx]
  rfl

theorem interpretInt32_inverts : Inverts interpretInt32 int32Bytes := by
  intro x s
  obtain ⟨b0, b1, b2, b3, hb⟩ := list_of_length_four (length_bytes 4 x.toUInt32.toNat)
  have hv : value [b0, b1, b2, b3] = x.toUInt32.toNat := hb ▸ value_bytes_of_lt x.toUInt32.toNat_lt
  have hx := UInt32.toNat_inj.mp ((toNat_uint32 b0 b1 b2 b3).trans hv)
  rw [int32Bytes, hb]
  change Except.ok (_, s) = Except.ok (x, s)
  rw [interpretInt32_eq, hx]
  rfl

theorem interpretUint64_inverts : Inverts interpretUint64 uint64Bytes := by
  intro x s
  obtain ⟨b0, b1, b2, b3, b4, b5, b6, b7, hb⟩ := list_of_length_eight (length_bytes 8 x.toNat)
  have hv : value [b0, b1, b2, b3, b4, b5, b6, b7] = x.toNat := hb ▸ value_bytes_of_lt x.toNat_lt
  have hx := UInt64.toNat_inj.mp ((toNat_uint64 b0 b1 b2 b3 b4 b5 b6 b7).trans hv)
  rw [uint64Bytes, hb, ← hx]
  rfl

def Header.bytes (h : Header) : List UInt8 :=
  uint16Bytes h.magic ++ uint16Bytes h.packetType ++ uint32Bytes h.packetSize ++
    uint16Bytes h.headerSize ++ uint16Bytes h.scanNumber ++ uint16Bytes h.packetNumber ++
    uint64Bytes h.timestampRaw ++ uint64Bytes h.timestampSync ++ uint32Bytes h.statusFlags ++
    uint32Bytes h.scanFrequency ++ uint16Bytes h.numPointsScan ++ uint16Bytes h.numPointsPacket ++
    uint16Bytes h.firstIndex ++ int32Bytes h.firstAngle ++ int32Bytes h.angularIncrement ++
    uint32Bytes h.iqInput ++ uint32Bytes h.iqOverload ++ uint64Bytes h.iqTimestampRaw ++
    uint64Bytes h.iqTimestampSync

@[simp] theorem Header.length_bytes (h : Header) : h.bytes.length = wireHeaderSize := by
  -- `delta` throughout: an equation for a chain of this length is slow to derive
  delta Header.bytes
  simp only [List.length_append, uint16Bytes, uint32Bytes, int32Bytes, uint64Bytes,
    LittleEndian.length_bytes]
  rfl

theorem Header.magic_prefix (h : Header) : uint16Bytes h.magic <+: h.bytes := by
  delta Header.bytes
  simp only [List.append_assoc]
  exact List.prefix_append _ _

theorem readHeader_fixedWidth : FixedWidth Fault.outOfRange readHeader wireHeaderSize := by
  refine FixedWidth.congr ?_ (by rfl : 2 + (2 + (4 + (2 + (2 + (2 + (8 + (8 + (4 + (4 + (2 + (2 +
    (2 + (4 + (4 + (4 + (4 + (8 + (8 + 0)))))))))))))))))) = wireHeaderSize)
  refine interpretUint16_fixedWidth.bind fun _ => interpretUint16_fixedWidth.bind fun _ =>
    interpretUint32_fixedWidth.bind fun _ => interpretUint16_fixedWidth.bind fun _ =>
    interpretUint16_fixedWidth.bind fun _ => interpretUint16_fixedWidth.bind fun _ =>
    interpretUint64_fixedWidth.bind fun _ => interpretUint64_fixedWidth.bind fun _ =>
    interpretUint32_fixedWidth.bind fun _ => interpretUint32_fixedWidth.bind fun _ =>
    interpretUint16_fixedWidth.bind fun _ => interpretUint16_fixedWidth.bind fun _ =>
    interpretUint16_fixedWidth.bind fun _ => interpretInt32_fixedWidth.bind fun _ =>
    interpretInt32_fixedWidth.bind fun _ => interpretUint32_fixedWidth.bind fun _ =>
    interpretUint32_fixedWidth.bind fun _ => interpretUint64_fixedWidth.bind fun _ =>
    interpretUint64_fixedWidth.bind fun _ => FixedWidth.pure _ _

theorem readHeader_inverts : Inverts readHeader Header.bytes := by
  intro h s
  delta Header.bytes
  simp only [List.append_assoc, readHeader]
  rw [interpretUint16_inverts.bind_run, interpretUint16_inverts.bind_run,
    interpretUint32_inverts.bind_run, interpretUint16_inverts.bind_run,
    interpretUint16_inverts.bind_run, interpretUint16_inverts.bind_run,
    interpretUint64_inverts.bind_run, interpretUint64_inverts.bind_run,
    interpretUint32_inverts.bind_run, interpretUint32_inverts.bind_run,
    interpretUint16_inverts.bind_run, interpretUint16_inverts.bind_run,
    interpretUint16_inverts.bind_run, interpretInt32_inverts.bind_run,
    interpretInt32_inverts.bind_run, interpretUint32_inverts.bind_run,
    interpretUint32_inverts.bind_run, interpretUint64_inverts.bind_run,
    interpretUint64_inverts.bind_run]
  rfl

namespace Header

theorem fromByteRange_bytes (h : Header) (s : List UInt8) :
    fromByteRange (h.bytes ++ s) = .ok h := by
  rw [fromByteRange, readHeader_inverts h s]
  rfl

theorem fromByteRange_short {begin : List UInt8} (h : begin.length < wireHeaderSize) :
    fromByteRange begin = .error .outOfRange := by
  rw [fromByteRange, readHeader_fixedWidth.short begin h]
  rfl

theorem fromByteRange_eq {begin : List UInt8} (h : wireHeaderSize ≤ begin.length) :
    ∃ header, fromByteRange begin = .ok header ∧
      ∀ s, fromByteRange (begin.take wireHeaderSize ++ s) = .ok header := by
  obtain ⟨header, hr, hs⟩ := readHeader_fixedWidth.run_eq h
  refine ⟨header, ?_, fun s => ?_⟩
  · rw [fromByteRange, hr]
    rfl
  · rw [fromByteRange, hs s]
    rfl

end Header

end R2000Driver.Data
