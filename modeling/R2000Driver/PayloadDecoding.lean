import Mathlib.Data.List.Forall2
import R2000Driver.WirePacket

/-!
# What the decoding of a payload loses

A point of any packet type has a raw distance and an amplitude, and the payload
is these points and nothing else (`exists_payload`, `RawPayload.bytes_injective`).
The decoder keeps both numbers, except that the marker of an invalid distance
becomes `quiet_NaN`, which is zero for an integer. So two payloads are decoded
to the same values exactly if one has the marker where the other measured zero.
-/

namespace R2000Driver.PacketExtraction
open LittleEndian Data

theorem exists_flatMap {α : Type} {write : α → List UInt8} {k : ℕ}
    (hwrite : ∀ block : List UInt8, block.length = k → ∃ a, write a = block) {n : ℕ} {l : List UInt8}
    (hl : l.length = n * k) : ∃ points : List α, points.length = n ∧ points.flatMap write = l := by
  induction n generalizing l with
  | zero =>
    rw [Nat.zero_mul] at hl
    exact ⟨[], rfl, (List.eq_nil_of_length_eq_zero hl).symm⟩
  | succ n ih =>
    rw [Nat.succ_mul] at hl
    obtain ⟨a, ha⟩ := hwrite (l.take k) (List.length_take_of_le (by omega))
    obtain ⟨points, hcount, hpoints⟩ := ih (show (l.drop k).length = n * k by
      rw [List.length_drop]
      omega)
    refine ⟨a :: points, congrArg (· + 1) hcount, ?_⟩
    rw [List.flatMap_cons, ha, hpoints, List.take_append_drop]

theorem exists_uint32Bytes {block : List UInt8} (h : block.length = 4) :
    ∃ x, uint32Bytes x = block := by
  have hlt := value_lt block
  rw [h] at hlt
  refine ⟨UInt32.ofNat (value block), ?_⟩
  rw [uint32Bytes, UInt32.toNat_ofNat_of_lt' hlt, ← h, bytes_value]

theorem exists_uint16Bytes {block : List UInt8} (h : block.length = 2) :
    ∃ x, uint16Bytes x = block := by
  have hlt := value_lt block
  rw [h] at hlt
  refine ⟨UInt16.ofNat (value block), ?_⟩
  rw [uint16Bytes, UInt16.toNat_ofNat_of_lt' hlt, ← h, bytes_value]

theorem exists_payload {packetType : UInt16} (hs : Supported packetType) {n : ℕ} {l : List UInt8}
    (hl : l.length = n * pointSize packetType) :
    ∃ p : RawPayload, p.packetType = packetType ∧ p.count = n ∧ p.bytes = l := by
  rcases hs with rfl | rfl | rfl
  · obtain ⟨points, hcount, hpoints⟩ := exists_flatMap (fun _ hb => exists_uint32Bytes hb) hl
    exact ⟨.a points, rfl, hcount, hpoints⟩
  · have hwrite : ∀ block : List UInt8, block.length = pointSize packetTypeB →
        ∃ p : UInt32 × UInt16, uint32Bytes p.1 ++ uint16Bytes p.2 = block := by
      intro block hblock
      have hsix : block.length = 6 := hblock
      have hfour : (block.take 4).length = 4 := List.length_take_of_le (by omega)
      have htwo : (block.drop 4).length = 2 := by
        rw [List.length_drop]
        omega
      obtain ⟨x, hx⟩ := exists_uint32Bytes hfour
      obtain ⟨y, hy⟩ := exists_uint16Bytes htwo
      exact ⟨(x, y), by rw [hx, hy, List.take_append_drop]⟩
    obtain ⟨points, hcount, hpoints⟩ := exists_flatMap hwrite hl
    exact ⟨.b points, rfl, hcount, hpoints⟩
  · obtain ⟨points, hcount, hpoints⟩ := exists_flatMap (fun _ hb => exists_uint32Bytes hb) hl
    exact ⟨.c points, rfl, hcount, hpoints⟩

theorem flatMap_uint32Bytes_injective {xs ys : List UInt32} (hlength : xs.length = ys.length)
    (h : xs.flatMap uint32Bytes = ys.flatMap uint32Bytes) : xs = ys := by
  have hx := retrieve32Bits_bytes xs []
  rw [hlength, h, retrieve32Bits_bytes] at hx
  exact (congrArg Prod.fst hx).symm

theorem flatMap_uint48Bytes_injective {xs ys : List (UInt32 × UInt16)}
    (hlength : xs.length = ys.length)
    (h : (xs.flatMap fun p => uint32Bytes p.1 ++ uint16Bytes p.2) =
      ys.flatMap fun p => uint32Bytes p.1 ++ uint16Bytes p.2) : xs = ys := by
  have hx := retrieve48bits_bytes xs []
  rw [hlength, h, retrieve48bits_bytes] at hx
  exact (congrArg Prod.fst (Except.ok.inj hx)).symm

theorem RawPayload.bytes_injective {p q : RawPayload} (htype : p.packetType = q.packetType)
    (hcount : p.count = q.count) (hbytes : p.bytes = q.bytes) : p = q := by
  have hba : packetTypeB ≠ packetTypeA := by decide
  have hca : packetTypeC ≠ packetTypeA := by decide
  have hcb : packetTypeC ≠ packetTypeB := by decide
  cases p with
  | a xs =>
    cases q with
    | a ys => exact congrArg RawPayload.a (flatMap_uint32Bytes_injective hcount hbytes)
    | b ys => exact absurd htype.symm hba
    | c ys => exact absurd htype.symm hca
  | b xs =>
    cases q with
    | a ys => exact absurd htype hba
    | b ys => exact congrArg RawPayload.b (flatMap_uint48Bytes_injective hcount hbytes)
    | c ys => exact absurd htype.symm hcb
  | c xs =>
    cases q with
    | a ys => exact absurd htype hca
    | b ys => exact absurd htype hcb
    | c ys => exact congrArg RawPayload.c (flatMap_uint32Bytes_injective hcount hbytes)

def RawPayload.measures : RawPayload → List (ℕ × ℕ)
  | .a points => points.map fun d => (d.toNat, 0)
  | .b points => points.map fun p => (p.1.toNat, p.2.toNat)
  | .c points => points.map fun w => (w.toNat % 2 ^ 20, w.toNat / 2 ^ 20)

/-- The raw distance of an invalid measure. -/
def invalidDistance (packetType : UInt16) : ℕ :=
  if packetType = packetTypeC then 0xFFFFF else 0xFFFFFFFF

def decodedDistance (invalid : ℕ) (m : ℕ × ℕ) : ℕ := if m.1 = invalid then 0 else m.1

theorem toNat_measured (invalid : ℕ) (d : UInt32) :
    (RawPayload.measured invalid d).toNat = if d.toNat = invalid then 0 else d.toNat := by
  unfold RawPayload.measured
  split_ifs <;> rfl

theorem RawPayload.distances_toNat (p : RawPayload) :
    p.distances.map UInt32.toNat = p.measures.map (decodedDistance (invalidDistance p.packetType)) := by
  cases p with
  | a points =>
    rw [distances, measures, List.map_map, List.map_map]
    exact List.map_congr_left fun d _ => toNat_measured _ d
  | b points =>
    rw [distances, measures, List.map_map, List.map_map]
    exact List.map_congr_left fun x _ => toNat_measured _ x.1
  | c points =>
    rw [distances, measures, List.map_map, List.map_map]
    refine List.map_congr_left fun w _ => ?_
    have hlow : (UInt32.ofNat (w.toNat % 2 ^ 20)).toNat = w.toNat % 2 ^ 20 :=
      UInt32.toNat_ofNat_of_lt' (by simp only [UInt32.size]; omega)
    have hmeasured := toNat_measured 0xFFFFF (UInt32.ofNat (w.toNat % 2 ^ 20))
    rwa [hlow] at hmeasured

theorem RawPayload.amplitudes_toNat (p : RawPayload) :
    p.amplitudes.map UInt32.toNat = p.measures.map Prod.snd := by
  cases p with
  | a points =>
    rw [amplitudes, measures, List.map_map, List.map_map]
    rfl
  | b points =>
    rw [amplitudes, measures, List.map_map, List.map_map]
    refine List.map_congr_left fun x _ => ?_
    have hx := x.2.toNat_lt
    exact UInt32.toNat_ofNat_of_lt' (by simp only [UInt32.size]; omega)
  | c points =>
    rw [amplitudes, measures, List.map_map, List.map_map]
    refine List.map_congr_left fun w _ => ?_
    have hw := w.toNat_lt
    exact UInt32.toNat_ofNat_of_lt' (by simp only [UInt32.size]; omega)

def SameReading (invalid : ℕ) (m m' : ℕ × ℕ) : Prop :=
  m = m' ∨ m.2 = m'.2 ∧ (m.1 = invalid ∧ m'.1 = 0 ∨ m.1 = 0 ∧ m'.1 = invalid)

theorem sameReading_iff (invalid : ℕ) (m m' : ℕ × ℕ) :
    decodedDistance invalid m = decodedDistance invalid m' ∧ m.2 = m'.2 ↔
      SameReading invalid m m' := by
  obtain ⟨d, a⟩ := m
  obtain ⟨d', a'⟩ := m'
  simp only [decodedDistance, SameReading, Prod.mk.injEq]
  split_ifs <;> omega

theorem map_eq_and_map_eq_iff {α β γ : Type} (f : α → β) (g : α → γ) (xs ys : List α) :
    xs.map f = ys.map f ∧ xs.map g = ys.map g ↔
      List.Forall₂ (fun x y => f x = f y ∧ g x = g y) xs ys := by
  induction xs generalizing ys with
  | nil => cases ys <;> simp
  | cons x xs ih =>
    cases ys with
    | nil => simp
    | cons y ys =>
      rw [List.forall₂_cons, ← ih]
      simp only [List.map_cons, List.cons.injEq]
      exact and_and_and_comm

def decodedPoints (packetType : UInt16) (l : List UInt8) (numberOfPoints : ℕ) :
    Except Fault (List UInt32 × List UInt32) :=
  (retrievePayload packetType l numberOfPoints).map fun payload =>
    (payload.distances, payload.amplitudes)

theorem decodedPoints_bytes (p : RawPayload) :
    decodedPoints p.packetType p.bytes p.count = .ok (p.distances, p.amplitudes) := by
  have h := retrievePayload_bytes p []
  rw [List.append_nil] at h
  rw [decodedPoints, h]
  rfl

theorem decodedPoints_eq_iff {p q : RawPayload} (htype : p.packetType = q.packetType) :
    decodedPoints p.packetType p.bytes p.count = decodedPoints q.packetType q.bytes q.count ↔
      List.Forall₂ (SameReading (invalidDistance p.packetType)) p.measures q.measures := by
  have htoNat : Function.Injective UInt32.toNat := fun _ _ h => UInt32.toNat_inj.mp h
  rw [decodedPoints_bytes, decodedPoints_bytes, Except.ok.injEq, Prod.mk.injEq,
    ← (List.map_injective_iff.mpr htoNat).eq_iff, ← (List.map_injective_iff.mpr htoNat).eq_iff,
    p.distances_toNat, q.distances_toNat, p.amplitudes_toNat, q.amplitudes_toNat, ← htype,
    map_eq_and_map_eq_iff]
  simp only [sameReading_iff]

/-- Different payloads that have the same measures, but for markers in place of zeros. -/
def MarkerForZero (p q : RawPayload) : Prop :=
  p ≠ q ∧ List.Forall₂ (SameReading (invalidDistance p.packetType)) p.measures q.measures

/-- Two payloads of complete points are those of some raw points; and they are decoded differently
exactly if these do not merely have the marker of an invalid distance in place of zeros. -/
theorem decoding_distinguishes_iff {packetType : UInt16} (hs : Supported packetType) {n : ℕ}
    {l l' : List UInt8} (hl : l.length = n * pointSize packetType)
    (hl' : l'.length = n * pointSize packetType) :
    ∃ p q : RawPayload, p.packetType = packetType ∧ p.bytes = l ∧ q.packetType = packetType ∧
      q.bytes = l' ∧
      ((l ≠ l' → decodedPoints packetType l n ≠ decodedPoints packetType l' n) ↔
        ¬ MarkerForZero p q) := by
  obtain ⟨p, rfl, rfl, rfl⟩ := exists_payload hs hl
  obtain ⟨q, htype, hcount, rfl⟩ := exists_payload hs hl'
  have hdecoded := decodedPoints_eq_iff htype.symm
  rw [htype, hcount] at hdecoded
  have hbytes : p.bytes = q.bytes ↔ p = q :=
    ⟨RawPayload.bytes_injective htype.symm hcount.symm, congrArg RawPayload.bytes⟩
  refine ⟨p, q, rfl, rfl, htype, rfl, ?_⟩
  rw [MarkerForZero, ← hdecoded, ne_eq, ne_eq, hbytes, not_and]

theorem decoding_distinguishes_iff_oneTwo :
    ∃ p q : RawPayload, p.packetType = packetTypeA ∧ p.bytes = [1, 0, 0, 0] ∧
      q.packetType = packetTypeA ∧ q.bytes = [2, 0, 0, 0] ∧
      (([1, 0, 0, 0] ≠ ([2, 0, 0, 0] : List UInt8) →
        decodedPoints packetTypeA [1, 0, 0, 0] 1 ≠ decodedPoints packetTypeA [2, 0, 0, 0] 1) ↔
        ¬ MarkerForZero p q) :=
  decoding_distinguishes_iff (Or.inl rfl) rfl rfl

theorem invalid_decoded_as_zero :
    ¬ ∀ (packetType : UInt16) (n : ℕ) (l l' : List UInt8), Supported packetType →
      l.length = n * pointSize packetType → l'.length = n * pointSize packetType → l ≠ l' →
      decodedPoints packetType l n ≠ decodedPoints packetType l' n := by
  intro hall
  exact hall packetTypeA 1 [0xFF, 0xFF, 0xFF, 0xFF] [0, 0, 0, 0] (Or.inl rfl) rfl rfl (by decide) rfl

end R2000Driver.PacketExtraction
