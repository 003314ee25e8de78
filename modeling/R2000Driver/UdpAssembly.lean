import Mathlib.Data.List.Induction
import R2000Driver.Links

/-!
# Scan assembly from UDP datagrams

One datagram carries one packet, so a link that is fed packets hands each of
them to its factory once (`Ready.receive`). The factory is then a list of
held packets: `collect` adds a packet to the held ones of the same scan, unless
it is number one, and gives the list up as soon as its points reach the number
that this packet announces.
-/

namespace R2000Driver.PacketExtraction
open Data ScanFactory

def points (ps : List Packet) : ℕ := (ps.map fun p => p.distances.length).sum

@[simp] theorem points_append (ps qs : List Packet) : points (ps ++ qs) = points ps + points qs := by
  simp [points]

def kept (held : List Packet) (p : Packet) : List Packet :=
  match held.getLast? with
  | none => []
  | some q =>
    if q.header.scanNumber = p.header.scanNumber ∧ p.header.packetNumber ≠ 1 then held else []

def Completes (held : List Packet) (p : Packet) : Prop :=
  p.header.numPointsScan.toNat ≤ points (kept held p ++ [p])

instance (held : List Packet) (p : Packet) : Decidable (Completes held p) :=
  inferInstanceAs (Decidable (_ ≤ _))

/-- The packets held afterwards, and those given up for a scan. -/
def collect (held : List Packet) (p : Packet) : List Packet × Option (List Packet) :=
  if Completes held p then ([], some (kept held p ++ [p])) else (kept held p ++ [p], none)

def collectAll (held : List Packet) : List Packet → List Packet × List (List Packet)
  | [] => (held, [])
  | p :: ps =>
    let first := collect held p
    let rest := collectAll first.1 ps
    (rest.1, first.2.toList ++ rest.2)

theorem collectAll_append (held ps qs : List Packet) :
    collectAll held (ps ++ qs) = ((collectAll (collectAll held ps).1 qs).1,
      (collectAll held ps).2 ++ (collectAll (collectAll held ps).1 qs).2) := by
  induction ps generalizing held with
  | nil => rfl
  | cons p ps ih => simp [collectAll, ih]

theorem mem_collectAll {held ps now : List Packet} :
    now ∈ (collectAll held ps).2 ↔ ∃ xs p ys, ps = xs ++ p :: ys ∧
      Completes (collectAll held xs).1 p ∧ now = kept (collectAll held xs).1 p ++ [p] := by
  induction ps generalizing held with
  | nil => simp [collectAll]
  | cons p ps ih =>
    have hstep : now ∈ (collect held p).2.toList ↔ Completes held p ∧ now = kept held p ++ [p] := by
      unfold collect
      split_ifs with h <;> simp [h]
    simp only [collectAll, List.mem_append, hstep, ih]
    constructor
    · rintro (⟨hc, hn⟩ | ⟨xs, q, ys, rfl, hc, hn⟩)
      · exact ⟨[], p, ps, rfl, hc, hn⟩
      · exact ⟨p :: xs, q, ys, rfl, hc, hn⟩
    · rintro ⟨xs, q, ys, hps, hc, hn⟩
      cases xs with
      | nil =>
        obtain ⟨rfl, -⟩ := List.cons.inj hps
        exact Or.inl ⟨hc, hn⟩
      | cons x xs =>
        obtain ⟨rfl, hrest⟩ := List.cons.inj hps
        exact Or.inr ⟨xs, q, ys, hrest, hc, hn⟩

theorem kept_nil (p : Packet) : kept [] p = [] := rfl

theorem kept_number_one (held : List Packet) {p : Packet} (h : p.header.packetNumber = 1) :
    kept held p = [] := by
  unfold kept
  split
  · rfl
  · exact if_neg fun hk => hk.2 h

theorem kept_other_scan {held : List Packet} {p : Packet}
    (h : ∀ q, held.getLast? = some q → q.header.scanNumber ≠ p.header.scanNumber) :
    kept held p = [] := by
  unfold kept
  split
  · rfl
  · next q hq => exact if_neg fun hk => h q hq hk.1

theorem getLast?_collectAll (ps : List Packet) {q : Packet}
    (h : (collectAll [] ps).1.getLast? = some q) : ps.getLast? = some q := by
  induction ps using List.reverseRecOn with
  | nil => exact h
  | append_singleton ps p _ =>
    rw [collectAll_append] at h
    simp only [collectAll, collect] at h
    split_ifs at h
    · cases h
    · rw [List.getLast?_concat] at h ⊢
      exact h

def concatenated (ps : List Packet) : Scan :=
  ⟨ps.flatMap Packet.distances, ps.flatMap Packet.amplitudes, ps.map Packet.header⟩

theorem toNat_points {ps : List Packet} (h : points ps < 2 ^ 32) :
    (UInt32.ofNat (points ps)).toNat = points ps :=
  UInt32.toNat_ofNat_of_lt' h

theorem toUInt32_inj (a b : UInt16) : a.toUInt32 = b.toUInt32 ↔ a = b := by
  rw [← UInt32.toNat_inj, UInt16.toNat_toUInt32, UInt16.toNat_toUInt32, UInt16.toNat_inj]

theorem points_kept_le (held : List Packet) (p : Packet) : points (kept held p) ≤ points held := by
  unfold kept
  split
  · exact Nat.zero_le _
  · split_ifs
    · exact Nat.le_refl _
    · exact Nat.zero_le _

theorem points_collect_lt (held : List Packet) (p : Packet) : points (collect held p).1 < 2 ^ 16 := by
  unfold collect
  split_ifs with h
  · exact Nat.two_pow_pos 16
  · have hlt := p.header.numPointsScan.toNat_lt
    simp only [Completes] at h
    change points (kept held p ++ [p]) < 2 ^ 16
    omega

structure Stores {F : Type} [ScanFactory F] (of : List Packet → F) : Prop where
  empty : ∀ held, empty (of held) = held.isEmpty
  equals : ∀ held q scanNumber, held.getLast? = some q →
    equals (of held) scanNumber = (q.header.scanNumber.toUInt32 == scanNumber)
  clear : ∀ held, clear (of held) = of []
  addPacket : ∀ held p,
    addPacket (of held) p.header p.distances p.amplitudes = of (held ++ [p])

section Stores
variable {F : Type} [ScanFactory F] {of : List Packet → F}

theorem Stores.clearedFor (h : Stores of) (held : List Packet) (p : Packet) :
    clearedFor (of held) p.header = of (kept held p) := by
  cases hlast : held.getLast? with
  | none =>
    obtain rfl := List.getLast?_eq_none_iff.mp hlast
    rw [ScanFactory.clearedFor, h.empty]
    rfl
  | some q =>
    have hne : held.isEmpty = false := by
      cases held with
      | nil => cases hlast
      | cons => rfl
    simp only [ScanFactory.clearedFor, kept, hlast, h.empty, hne, isDifferentScan, isNewScan,
      h.equals held q _ hlast]
    by_cases hscan : q.header.scanNumber = p.header.scanNumber
    · by_cases hone : p.header.packetNumber = 1
      · simp only [hone, hscan, beq_self_eq_true, Bool.not_false, Bool.or_true, Bool.and_self,
          ↓reduceIte, ne_eq, not_true_eq_false, and_false]
        exact h.clear held
      · simp [hone, hscan]
    · have hscan' : (q.header.scanNumber.toUInt32 == p.header.scanNumber.toUInt32) = false := by
        rw [beq_eq_false_iff_ne, ne_eq, toUInt32_inj]
        exact hscan
      simp only [hscan', hscan, Bool.not_false, Bool.true_or, Bool.and_self, ↓reduceIte, false_and]
      exact h.clear held

theorem Stores.offer [Lawful F] (h : Stores of) {held : List Packet} {p : Packet}
    (hcomplete : isComplete (of (kept held p ++ [p])) = decide (Completes held p)) :
    offer (of held) p = (of (collect held p).1,
      (collect held p).2.map fun now => (assemble (of now)).1) := by
  rw [ScanFactory.offer, h.clearedFor, h.addPacket, publish, hcomplete, collect]
  by_cases hc : Completes held p
  · simp only [hc, decide_true, ↓reduceIte, Option.map_some, Lawful.assemble_eq, h.clear]
  · simp only [hc, decide_false, Bool.false_eq_true, ↓reduceIte, Option.map_none]

end Stores

section Factory
variable [PacketSort]

def assembled (ps : List Packet) : Scan := concatenated (PacketSort.sort.run ps)

def holding (held : List Packet) : UdpScanFactory := ⟨held, UInt32.ofNat (points held)⟩

theorem stores_holding : Stores holding where
  empty _ := rfl
  equals held q scanNumber hlast := by
    change UdpScanFactory.equals (holding held) scanNumber = _
    simp only [UdpScanFactory.equals, holding, hlast]
  clear _ := rfl
  addPacket held p := by
    have hn : points [p] = p.distances.length := by simp [points]
    change UdpScanFactory.addPacket _ _ _ _ = _
    simp only [UdpScanFactory.addPacket, holding, points_append, hn, UInt32.ofNat_add]

theorem isComplete_holding {held : List Packet} {p : Packet} (hheld : points held < 2 ^ 16)
    (hp : p.distances.length < 2 ^ 16) :
    isComplete (holding (kept held p ++ [p])) = decide (Completes held p) := by
  have hle := points_kept_le held p
  have hn : points [p] = p.distances.length := by simp [points]
  have hlast : (kept held p ++ [p]).getLast? = some p := by simp
  have hpoints := toNat_points (show points (kept held p ++ [p]) < 2 ^ 32 by
    rw [points_append, hn]
    omega)
  change UdpScanFactory.isComplete _ = _
  simp only [UdpScanFactory.isComplete, holding, hlast, Completes, hpoints]
  rfl

theorem offer_holding {held : List Packet} {p : Packet} (hheld : points held < 2 ^ 16)
    (hp : p.distances.length < 2 ^ 16) :
    offer (holding held) p = (holding (collect held p).1, (collect held p).2.map assembled) :=
  stores_holding.offer (isComplete_holding hheld hp)

theorem offerAll_holding {held : List Packet} (hheld : points held < 2 ^ 16) {ps : List Packet}
    (hps : ∀ p ∈ ps, p.distances.length < 2 ^ 16) :
    offerAll (holding held) ps =
      (holding (collectAll held ps).1, (collectAll held ps).2.map assembled) := by
  induction ps generalizing held with
  | nil => rfl
  | cons p ps ih =>
    have hp := hps p List.mem_cons_self
    have hrest := ih (points_collect_lt held p) fun q hq => hps q (List.mem_cons_of_mem _ hq)
    simp only [offerAll, collectAll, offer_holding hheld hp, hrest, List.map_append,
      Prod.mk.injEq, true_and]
    cases (collect held p).2 <;> rfl

end Factory

theorem WirePacket.length_lt (p : WirePacket) : p.bytes.length < 2 ^ 19 := by
  have hs := p.packetSize
  have hn := p.numPointsPacket
  have hh := p.header.headerSize.toNat_lt
  have hc := p.header.numPointsPacket.toNat_lt
  have hp : pointSize p.payload.packetType ≤ 6 := by
    unfold pointSize
    split_ifs <;> decide
  have hmul : p.payload.count * pointSize p.payload.packetType ≤ p.payload.count * 6 :=
    Nat.mul_le_mul_left _ hp
  rw [p.length_bytes]
  omega

theorem ScanPacket.sizeofHeader_le (p : ScanPacket) : sizeofHeader ≤ p.bytes.length := by
  have hs := p.packetSize
  have hh := p.headerSize
  have hp : 4 ≤ pointSize p.payload.packetType := by
    unfold pointSize
    split_ifs <;> decide
  have hmul : 1 * 4 ≤ p.payload.count * pointSize p.payload.packetType := Nat.mul_le_mul p.hasPoint hp
  rw [p.length_bytes]
  simp only [sizeofHeader, wireHeaderSize] at hh ⊢
  omega

theorem ScanPacket.distances_lt (p : ScanPacket) : p.decoded.distances.length < 2 ^ 16 := by
  change p.payload.distances.length < 2 ^ 16
  rw [RawPayload.length_distances, ← p.numPointsPacket]
  exact p.header.numPointsPacket.toNat_lt

/-- Between datagrams the buffer holds nothing, or the zeros it was filled with. -/
def UDPLink.Ready (link : UDPLink) : Prop :=
  ∃ n ≤ datagramSize * 3 / 2, link.extractionByteBuffer = List.replicate n 0

theorem UDPLink.bound_ready : UDPLink.bound.Ready := ⟨_, Nat.le_refl _, rfl⟩

def datagrams (ps : List ScanPacket) : List (List UInt8) := ps.map fun p => p.bytes

section Receive
variable [PacketSort]

theorem UDPLink.onCompleteScan_scans (f : UdpScanFactory) (p : Packet) (output : List Scan) :
    offerOutput UDPLink.onCompleteScan f p output = output ++ (offer f p).2.toList := by
  rw [offerOutput, PacketExtraction.published, offer]
  cases (publish (addPacket (clearedFor f p.header) p.header p.distances p.amplitudes)).2 with
  | none => rw [Option.toList_none, List.append_nil]
  | some scan => rfl

theorem UDPLink.Ready.onBytesReceived {link : UDPLink} (h : link.Ready) (p : ScanPacket) :
    link.onBytesReceived p.bytes = .ok
      { link with
        extractionByteBuffer := []
        scanFactory := (offer link.scanFactory p.decoded).1
        published := link.published ++ (offer link.scanFactory p.decoded).2.toList
        receiving := true } := by
  obtain ⟨n, hn, hbuffer⟩ := h
  have hlow := p.sizeofHeader_le
  have hhigh := p.length_lt
  have hl : (List.replicate n (0 : UInt8) ++ (p.bytes ++ [])).length = n + p.bytes.length := by
    rw [List.append_nil, List.length_append, List.length_replicate]
  have hs : Searched (List.replicate n 0 ++ (p.bytes ++ [])) := by
    rw [Searched, hl, Nat.mod_eq_of_lt (by simp only [datagramSize] at hn; omega)]
    omega
  have hg := (noEarlierMagic_zeros n p.toWirePacket).append []
  obtain ⟨k, hk⟩ : ∃ k, n + p.bytes.length = k + 1 :=
    ⟨n + p.bytes.length - 1, by simp only [sizeofHeader] at hlow; omega⟩
  have hloop := extractionLoop_packet UDPLink.onCompleteScan p.toWirePacket _ [] hg hs (k + 1)
    link.scanFactory link.published
  rw [extractionLoop_nothing _ (findPacket_of_not_searched not_searched_nil) _
    (offer_not_complete _ _), UDPLink.onCompleteScan_scans, ← hk, ← hl, List.append_nil] at hloop
  simp only [UDPLink.onBytesReceived, UDPLink.tryExtractingScanFromByteRange, hbuffer, hloop]

theorem UDPLink.Ready.receive {link : UDPLink} (h : link.Ready) (ps : List ScanPacket) :
    ∃ link', link.receive (datagrams ps) = .ok link' ∧ link'.Ready ∧
      link'.scanFactory = (offerAll link.scanFactory (decodedPackets ps)).1 ∧
      link'.published = link.published ++ (offerAll link.scanFactory (decodedPackets ps)).2 := by
  induction ps generalizing link with
  | nil => exact ⟨link, rfl, h, rfl, (List.append_nil _).symm⟩
  | cons p ps ih =>
    have hp := h.onBytesReceived p
    obtain ⟨link', hlink, hready, hfactory, hpublished⟩ := ih (show UDPLink.Ready { link with
      extractionByteBuffer := []
      scanFactory := (offer link.scanFactory p.decoded).1
      published := link.published ++ (offer link.scanFactory p.decoded).2.toList
      receiving := true } from ⟨0, Nat.zero_le _, rfl⟩)
    refine ⟨link', ?_, hready, hfactory, ?_⟩
    · change UDPLink.receive link (p.bytes :: datagrams ps) = _
      rw [UDPLink.receive_cons hp]
      exact hlink
    · rw [hpublished, List.append_assoc]
      rfl

theorem UDPLink.Ready.receive_holding {link : UDPLink} (h : link.Ready) {held : List Packet}
    (hheld : points held < 2 ^ 16) (hfactory : link.scanFactory = holding held)
    (ps : List ScanPacket) :
    ∃ link', link.receive (datagrams ps) = .ok link' ∧ link'.Ready ∧
      link'.scanFactory = holding (collectAll held (decodedPackets ps)).1 ∧
      link'.published = link.published ++
        (collectAll held (decodedPackets ps)).2.map assembled := by
  have hps : ∀ p ∈ decodedPackets ps, p.distances.length < 2 ^ 16 := by
    intro p hp
    obtain ⟨q, -, rfl⟩ := List.mem_map.mp hp
    exact q.distances_lt
  have hall := h.receive ps
  rwa [hfactory, offerAll_holding hheld hps] at hall

end Receive

end R2000Driver.PacketExtraction
