import Mathlib.Data.List.Chain
import R2000Driver.UdpAssembly

/-!
# Scans of the device over a lossy link

A `DeviceScan` is the packets of one scan as the device numbers them. Since
every packet carries a point, a part of them has as many points as the scan
only when nothing is missing; this is what makes counting points enough when
packets are lost. It is not enough when they are repeated, and a scan whose
first packet is not the first to arrive is given up when that packet comes.
-/

namespace R2000Driver.PacketExtraction
open Data ScanFactory

structure DeviceScan where
  scanNumber : UInt16
  packets : List ScanPacket
  nonempty : packets ≠ []
  numbered : packets.map (fun p => p.header.packetNumber.toNat) = List.range' 1 packets.length
  sameScan : ∀ p ∈ packets, p.header.scanNumber = scanNumber
  total : ∀ p ∈ packets,
    p.header.numPointsScan.toNat = (packets.map fun p => p.header.numPointsPacket.toNat).sum

namespace DeviceScan

/-- The scan as a user expects it: the packets in the order of their numbers. -/
def scan (s : DeviceScan) : Scan := concatenated (decodedPackets s.packets)

def numPoints (s : DeviceScan) : ℕ := (s.packets.map fun p => p.payload.count).sum

theorem numPointsScan_eq (s : DeviceScan) {p : ScanPacket} (hp : p ∈ s.packets) :
    p.header.numPointsScan.toNat = s.numPoints := by
  have hcount : (fun p : ScanPacket => p.header.numPointsPacket.toNat) = fun p => p.payload.count :=
    funext fun p => p.numPointsPacket
  rw [s.total p hp, hcount, numPoints]

theorem points_decoded (ps : List ScanPacket) :
    points (decodedPackets ps) = (ps.map fun p => p.payload.count).sum := by
  induction ps with
  | nil => rfl
  | cons p ps ih =>
    have hp : p.decoded.distances.length = p.payload.count := p.payload.length_distances
    simp only [points, decodedPackets_cons, List.map_cons, List.sum_cons, hp] at ih ⊢
    rw [ih]

theorem perm_of_points (s : DeviceScan) {ps : List ScanPacket} (hsub : ps.Subperm s.packets)
    (h : s.numPoints ≤ points (decodedPackets ps)) : ps.Perm s.packets := by
  rw [points_decoded] at h
  exact perm_of_sum_le (fun p _ => p.hasPoint) hsub h

theorem strict (s : DeviceScan) :
    s.packets.Pairwise fun p q => p.header.packetNumber.toNat < q.header.packetNumber.toNat := by
  have h : (List.range' 1 s.packets.length).Pairwise (· < ·) := List.pairwise_lt_range'
  rw [← s.numbered, List.pairwise_map] at h
  exact h

theorem nodup (s : DeviceScan) : s.packets.Nodup :=
  s.strict.imp fun h heq => by
    rw [heq] at h
    exact Nat.lt_irrefl _ h

theorem number_pos (s : DeviceScan) {p : ScanPacket} (hp : p ∈ s.packets) :
    0 < p.header.packetNumber.toNat := by
  have hmem : p.header.packetNumber.toNat ∈ List.range' 1 s.packets.length := by
    rw [← s.numbered]
    exact List.mem_map_of_mem hp
  rw [List.mem_range'_1] at hmem
  omega

theorem number_head (s : DeviceScan) {p : ScanPacket} {ps : List ScanPacket}
    (h : s.packets = p :: ps) : p.header.packetNumber = 1 := by
  have hn := s.numbered
  rw [h, List.map_cons, List.length_cons, List.range'_succ] at hn
  have hone := (List.cons.inj hn).1
  exact UInt16.toNat_inj.mp hone

theorem assembled_of_perm [PacketSort] (s : DeviceScan) {ps : List ScanPacket}
    (h : ps.Perm s.packets) : assembled (decodedPackets ps) = s.scan := by
  have hrun : PacketSort.sort.run (decodedPackets ps) = decodedPackets s.packets := by
    apply PacketSort.sort.run_eq
    · exact (h.map _).symm
    · exact List.pairwise_map.mpr s.strict
  rw [assembled, hrun, scan]

theorem kept_same (s : DeviceScan) {ps : List ScanPacket} (hne : ps ≠ [])
    (hps : ∀ p ∈ ps, p ∈ s.packets) {q : ScanPacket} (hq : q ∈ s.packets)
    (hone : q.header.packetNumber ≠ 1) : kept (decodedPackets ps) q.decoded = decodedPackets ps := by
  have hlast : (decodedPackets ps).getLast? = some (ps.getLast hne).decoded := by
    rw [decodedPackets, List.getLast?_map, List.getLast?_eq_some_getLast hne]
    rfl
  have hscan : (ps.getLast hne).header.scanNumber = q.header.scanNumber := by
    rw [s.sameScan _ (hps _ (List.getLast_mem hne)), s.sameScan q hq]
  simp only [kept, hlast]
  exact if_pos ⟨hscan, hone⟩

def outcome (s : DeviceScan) (ps : List ScanPacket) : List Packet × List (List Packet) :=
  if s.numPoints ≤ points (decodedPackets ps) then ([], [decodedPackets ps])
  else (decodedPackets ps, [])

theorem collect_packet (s : DeviceScan) {held : List Packet} {a : List ScanPacket} {p : ScanPacket}
    (hp : p ∈ s.packets) (hkept : kept held p.decoded = decodedPackets a) :
    collect held p.decoded =
      if s.numPoints ≤ points (decodedPackets (a ++ [p])) then ([], some (decodedPackets (a ++ [p])))
      else (decodedPackets (a ++ [p]), none) := by
  have htotal : p.decoded.header.numPointsScan.toNat = s.numPoints := s.numPointsScan_eq hp
  have hnow : kept held p.decoded ++ [p.decoded] = decodedPackets (a ++ [p]) := by
    rw [hkept, decodedPackets_append]
    rfl
  have hiff : Completes held p.decoded ↔ s.numPoints ≤ points (decodedPackets (a ++ [p])) := by
    unfold Completes
    rw [hnow, htotal]
  simp only [collect, hiff, hnow]

theorem collectAll_packets (s : DeviceScan) {held : List Packet} {a b : List ScanPacket}
    {p : ScanPacket} (hsub : (a ++ p :: b).Subperm s.packets)
    (hone : ∀ q ∈ b, q.header.packetNumber ≠ 1) (hkept : kept held p.decoded = decodedPackets a) :
    collectAll held (decodedPackets (p :: b)) = s.outcome (a ++ p :: b) := by
  induction b generalizing held a p with
  | nil =>
    rw [decodedPackets_cons, collectAll, s.collect_packet (hsub.subset (by simp)) hkept, outcome]
    split_ifs <;> rfl
  | cons q b ih =>
    have hsnoc : a ++ p :: q :: b = (a ++ [p]) ++ q :: b := by
      rw [List.append_assoc, List.singleton_append]
    have hmem : ∀ r ∈ a ++ p :: q :: b, r ∈ s.packets := fun r hr => hsub.subset hr
    rw [decodedPackets_cons, collectAll, s.collect_packet (hmem p (by simp)) hkept]
    rw [hsnoc] at hsub ⊢
    by_cases hfull : s.numPoints ≤ points (decodedPackets (a ++ [p]))
    · -- The scan would be whole with packets of it still to come.
      have hperm := s.perm_of_points ((List.sublist_append_left _ _).subperm.trans hsub) hfull
      have hlen := hsub.length_le
      rw [← hperm.length_eq, List.length_append, List.length_cons] at hlen
      omega
    · have hnext : kept (decodedPackets (a ++ [p])) q.decoded = decodedPackets (a ++ [p]) := by
        apply s.kept_same (by simp)
        · intro r hr
          exact hsub.subset (List.mem_append_left _ hr)
        · exact hmem q (by simp)
        · exact hone q List.mem_cons_self
      have hrest := ih hsub (fun r hr => hone r (List.mem_cons_of_mem _ hr)) hnext
      rw [if_neg hfull]
      simp only [Option.toList_none, List.nil_append, hrest, Prod.mk.eta]

theorem outcome_perm (s : DeviceScan) {ps : List ScanPacket} (h : ps.Perm s.packets) :
    s.outcome ps = ([], [decodedPackets ps]) := by
  apply if_pos
  rw [points_decoded, numPoints]
  exact ((h.map _).sum_nat).ge

theorem outcome_part (s : DeviceScan) {ps : List ScanPacket} (hsub : ps.Subperm s.packets)
    (hlen : ps.length < s.packets.length) : s.outcome ps = (decodedPackets ps, []) := by
  apply if_neg
  intro hfull
  have := (s.perm_of_points hsub hfull).length_eq
  omega

theorem one_unique (s : DeviceScan) {u v : List ScanPacket} {p : ScanPacket}
    (hsub : (u ++ p :: v).Subperm s.packets) (hp : p.header.packetNumber = 1) {q : ScanPacket}
    (hq : q ∈ u ∨ q ∈ v) : q.header.packetNumber ≠ 1 := by
  have hnodup : ((u ++ p :: v).map fun p => p.header.packetNumber).Nodup := by
    have hs : (s.packets.map fun p => p.header.packetNumber).Nodup :=
      List.pairwise_map.mpr (s.strict.imp fun h heq => by
        rw [heq] at h
        exact Nat.lt_irrefl _ h)
    obtain ⟨r, hr, hsub⟩ := hsub
    exact (hr.map _).nodup_iff.mp (hs.sublist (hsub.map _))
  rw [(List.perm_middle.map _).nodup_iff, List.map_cons, List.nodup_cons] at hnodup
  intro hone
  apply hnodup.1
  rw [hp, ← hone]
  exact List.mem_map_of_mem (List.mem_append.mpr hq)

theorem exists_number_one (s : DeviceScan) : ∃ q ∈ s.packets, q.header.packetNumber = 1 := by
  obtain ⟨q, qs, hq⟩ := List.exists_cons_of_ne_nil s.nonempty
  exact ⟨q, by rw [hq]; exact List.mem_cons_self, s.number_head hq⟩

theorem collectAll_late (s : DeviceScan) {p : ScanPacket} {b : List ScanPacket}
    (hperm : (p :: b).Perm s.packets) (hp : p.header.packetNumber ≠ 1) :
    (collectAll [] (decodedPackets (p :: b))).2 = [] := by
  obtain ⟨q, hq, hone⟩ := s.exists_number_one
  have hqb : q ∈ b := by
    rcases List.mem_cons.mp (hperm.mem_iff.mpr hq) with rfl | hqb
    · exact absurd hone hp
    · exact hqb
  obtain ⟨u, v, rfl⟩ := List.append_of_mem hqb
  have hlen := hperm.length_eq
  simp only [List.length_cons, List.length_append] at hlen
  have hsplit : p :: (u ++ q :: v) = (p :: u) ++ q :: v := rfl
  rw [hsplit] at hperm ⊢
  have hbefore : (p :: u).Subperm s.packets := (List.sublist_append_left _ _).subperm.trans hperm.subperm
  have hafter : (q :: v).Subperm s.packets := (List.sublist_append_right _ _).subperm.trans hperm.subperm
  have hfirst := s.collectAll_packets (a := []) hbefore
    (fun r hr => s.one_unique hperm.subperm hone (Or.inl (List.mem_cons_of_mem p hr)))
    (kept_nil p.decoded)
  have hsecond := s.collectAll_packets (a := []) hafter
    (fun r hr => s.one_unique hperm.subperm hone (Or.inr hr))
    (kept_number_one (decodedPackets (p :: u)) hone)
  rw [List.nil_append, s.outcome_part hbefore (by simp only [List.length_cons]; omega)] at hfirst
  rw [List.nil_append, s.outcome_part hafter (by simp only [List.length_cons]; omega)] at hsecond
  rw [decodedPackets_append, collectAll_append, hfirst, hsecond]
  rfl

end DeviceScan

def pointPacket (scanNumber packetNumber : UInt16) : ScanPacket where
  toWirePacket := onePoint scanNumber packetNumber 3 packetNumber.toUInt32
  hasPoint := Nat.one_pos

def threePackets (scanNumber : UInt16) : DeviceScan where
  scanNumber := scanNumber
  packets := [pointPacket scanNumber 1, pointPacket scanNumber 2, pointPacket scanNumber 3]
  nonempty := List.cons_ne_nil _ _
  numbered := rfl
  sameScan := by simp [pointPacket, onePoint]
  total := by simp [pointPacket, onePoint]

section Order
variable [PacketSort]

theorem receive_permutation (s : DeviceScan) {ps : List ScanPacket} (hperm : ps.Perm s.packets)
    {link : UDPLink} (hready : link.Ready) (hempty : link.scanFactory = ⟨[], 0⟩) :
    ∃ link', link.receive (datagrams ps) = .ok link' ∧
      ((∃ p, ps.head? = some p ∧ p.header.packetNumber = 1) →
        link'.published = link.published ++ [s.scan]) ∧
      ((¬ ∃ p, ps.head? = some p ∧ p.header.packetNumber = 1) →
        link'.published = link.published) := by
  have hholding : link.scanFactory = holding [] := hempty
  obtain ⟨link', hlink, -, -, hpublished⟩ :=
    hready.receive_holding (show points [] < 2 ^ 16 from Nat.two_pow_pos 16) hholding ps
  refine ⟨link', hlink, ?_, ?_⟩
  · rintro ⟨p, hp, hone⟩
    obtain ⟨b, rfl⟩ := List.head?_eq_some_iff.mp hp
    have hcollect := s.collectAll_packets (a := []) hperm.subperm
      (fun q hq => s.one_unique (u := []) hperm.subperm hone (Or.inr hq)) (kept_nil p.decoded)
    rw [List.nil_append, s.outcome_perm hperm] at hcollect
    rw [hpublished, hcollect]
    simp only [List.map_cons, List.map_nil, s.assembled_of_perm hperm]
  · intro hlate
    cases ps with
    | nil => exact absurd hperm.symm.eq_nil s.nonempty
    | cons p b =>
      have hone : p.header.packetNumber ≠ 1 := fun hone => hlate ⟨p, rfl, hone⟩
      rw [hpublished, s.collectAll_late hperm hone, List.map_nil, List.append_nil]

theorem udp_permutation_iff (s : DeviceScan) {ps : List ScanPacket} (hperm : ps.Perm s.packets)
    {link : UDPLink} (hready : link.Ready) (hempty : link.scanFactory = ⟨[], 0⟩) :
    (∃ link', link.receive (datagrams ps) = .ok link' ∧
      link'.published = link.published ++ [s.scan]) ↔
    ∃ p, ps.head? = some p ∧ p.header.packetNumber = 1 := by
  obtain ⟨link', hlink, hfirst, hlate⟩ := receive_permutation s hperm hready hempty
  constructor
  · rintro ⟨link'', hlink', hpublished⟩
    by_contra hnot
    obtain rfl : link' = link'' := Except.ok.inj (hlink.symm.trans hlink')
    rw [hlate hnot] at hpublished
    simp at hpublished
  · intro hone
    exact ⟨link', hlink, hfirst hone⟩

end Order

section
attribute [local instance] insertionPacketSort

theorem udp_permutation_iff_reversed :
    (∃ link', UDPLink.bound.receive
        (datagrams [pointPacket 7 3, pointPacket 7 2, pointPacket 7 1]) = .ok link' ∧
      link'.published = [] ++ [(threePackets 7).scan]) ↔
    ∃ p, [pointPacket 7 3, pointPacket 7 2, pointPacket 7 1].head? = some p ∧
      p.header.packetNumber = 1 :=
  udp_permutation_iff (threePackets 7) (List.reverse_perm (threePackets 7).packets)
    UDPLink.bound_ready rfl

theorem udp_reversed_scan_lost :
    ¬ ∀ (_ : PacketSort) (s : DeviceScan) (ps : List ScanPacket), ps.Perm s.packets →
      ∃ link', UDPLink.bound.receive (datagrams ps) = .ok link' ∧ link'.published = [s.scan] := by
  intro hall
  have hperm := List.reverse_perm (threePackets 7).packets
  obtain ⟨link, hlink, hpublished⟩ := hall insertionPacketSort (threePackets 7) _ hperm
  obtain ⟨link', hlink', -, hlate⟩ :=
    receive_permutation (threePackets 7) hperm UDPLink.bound_ready rfl
  obtain rfl : link = link' := Except.ok.inj (hlink.symm.trans hlink')
  have hempty : link.published = [] := by
    apply hlate
    rintro ⟨p, hp, hone⟩
    cases hp
    revert hone
    decide
  rw [hempty] at hpublished
  cases hpublished

end

def sent (scans : ℕ → DeviceScan) (n : ℕ) : List (ℕ × ScanPacket) :=
  (List.range n).flatMap fun i => (scans i).packets.map fun p => (i, p)

theorem sent_succ (scans : ℕ → DeviceScan) (n : ℕ) :
    sent scans (n + 1) = sent scans n ++ (scans n).packets.map fun p => (n, p) := by
  simp [sent, List.range_succ]

theorem lt_of_mem_sent {scans : ℕ → DeviceScan} {n : ℕ} {x : ℕ × ScanPacket}
    (h : x ∈ sent scans n) : x.1 < n := by
  simp only [sent, List.mem_flatMap, List.mem_range, List.mem_map] at h
  obtain ⟨i, hi, p, -, rfl⟩ := h
  exact hi

theorem mem_of_mem_sent {scans : ℕ → DeviceScan} {n : ℕ} {x : ℕ × ScanPacket}
    (h : x ∈ sent scans n) : x.2 ∈ (scans x.1).packets := by
  simp only [sent, List.mem_flatMap, List.mem_range, List.mem_map] at h
  obtain ⟨i, -, p, hp, rfl⟩ := h
  exact hp

def arrivals (received : List (ℕ × ScanPacket)) : List ScanPacket := received.map Prod.snd

theorem getLast?_arrivals {received : List (ℕ × ScanPacket)} {q : Packet}
    (h : (decodedPackets (arrivals received)).getLast? = some q) :
    ∃ x, received.getLast? = some x ∧ x.2.decoded = q := by
  rw [decodedPackets, arrivals, List.getLast?_map, List.getLast?_map, Option.map_map] at h
  exact Option.map_eq_some_iff.mp h

def Whole (scans : ℕ → DeviceScan) (received : List (ℕ × ScanPacket)) (i : ℕ) : Prop :=
  ∀ p ∈ (scans i).packets, (i, p) ∈ received

instance (scans : ℕ → DeviceScan) (received : List (ℕ × ScanPacket)) :
    DecidablePred (Whole scans received) := fun i =>
  inferInstanceAs (Decidable (∀ p ∈ (scans i).packets, (i, p) ∈ received))

def Numbered (scans : ℕ → DeviceScan) (s0 : ℕ) : Prop :=
  ∀ i, (scans i).scanNumber = UInt16.ofNat (s0 + i)

theorem Numbered.ne {scans : ℕ → DeviceScan} {s0 : ℕ} (h : Numbered scans s0) {i j : ℕ}
    (hlt : i < j) (hnear : j < i + 65536) : (scans i).scanNumber ≠ (scans j).scanNumber := by
  rw [h i, h j]
  intro heq
  have hmod := congrArg UInt16.toNat heq
  rw [UInt16.toNat_ofNat', UInt16.toNat_ofNat'] at hmod
  omega

theorem whole_append_iff {scans : ℕ → DeviceScan} {n : ℕ} {u : List (ℕ × ScanPacket)}
    {l : List ScanPacket} {i : ℕ} (hi : i < n) :
    Whole scans (u ++ l.map fun p => (n, p)) i ↔ Whole scans u i := by
  have hne : n ≠ i := Nat.ne_of_gt hi
  simp [Whole, hne]

theorem whole_last_iff {scans : ℕ → DeviceScan} {n : ℕ} {u : List (ℕ × ScanPacket)}
    (hu : ∀ x ∈ u, x.1 < n) {l : List ScanPacket} :
    Whole scans (u ++ l.map fun p => (n, p)) n ↔ ∀ p ∈ (scans n).packets, p ∈ l := by
  have hn : ∀ p, (n, p) ∉ u := fun p hp => Nat.lt_irrefl n (hu _ hp)
  simp [Whole, hn]

theorem collectAll_part {s : DeviceScan} {held : List Packet} {l : List ScanPacket}
    (hl : l.Sublist s.packets) (hhead : ∀ p, l.head? = some p → kept held p.decoded = []) :
    (collectAll held (decodedPackets l)).2 =
      if ∀ p ∈ s.packets, p ∈ l then [decodedPackets s.packets] else [] := by
  cases l with
  | nil =>
    obtain ⟨q, hq, -⟩ := s.exists_number_one
    rw [if_neg fun hall => absurd (hall q hq) List.not_mem_nil]
    rfl
  | cons p b =>
    have hone : ∀ q ∈ b, q.header.packetNumber ≠ 1 := by
      intro q hq hone
      have hlt := List.rel_of_pairwise_cons (s.strict.sublist hl) hq
      have hpos := s.number_pos (hl.subset List.mem_cons_self)
      rw [hone] at hlt
      change _ < 1 at hlt
      omega
    have hcollect := s.collectAll_packets (a := []) hl.subperm hone (hhead p rfl)
    rw [List.nil_append] at hcollect
    rw [hcollect]
    by_cases hall : ∀ q ∈ s.packets, q ∈ p :: b
    · have heq := hl.eq_of_length_le (s.nodup.subperm hall).length_le
      rw [if_pos hall, s.outcome_perm (heq ▸ List.Perm.refl _), heq]
    · have hlen : (p :: b).length < s.packets.length := by
        by_contra hge
        have heq := hl.eq_of_length_le (Nat.le_of_not_lt hge)
        rw [heq] at hall
        exact hall fun _ hq => hq
      rw [if_neg hall, s.outcome_part hl.subperm hlen]

theorem collectAll_loss {scans : ℕ → DeviceScan} {s0 : ℕ} (hnum : Numbered scans s0) {n : ℕ}
    {received : List (ℕ × ScanPacket)} (hsub : received.Sublist (sent scans n))
    (hnear : received.IsChain fun x y => y.1 < x.1 + 65536) :
    (collectAll [] (decodedPackets (arrivals received))).2 =
      ((List.range n).filter fun i => Whole scans received i).map
        fun i => decodedPackets (scans i).packets := by
  induction n generalizing received with
  | zero =>
    obtain rfl : received = [] := List.sublist_nil.mp hsub
    rfl
  | succ n ih =>
    rw [sent_succ] at hsub
    obtain ⟨u, v, rfl, hu, hv⟩ := List.sublist_append_iff.mp hsub
    obtain ⟨l, hl, rfl⟩ := List.sublist_map_iff.mp hv
    have hearlier : ∀ x ∈ u, x.1 < n := fun x hx => lt_of_mem_sent (hu.subset hx)
    have hfilter : ((List.range n).filter fun i => Whole scans (u ++ l.map fun p => (n, p)) i) =
        (List.range n).filter fun i => Whole scans u i := by
      apply List.filter_congr
      intro i hi
      rw [decide_eq_decide]
      exact whole_append_iff (List.mem_range.mp hi)
    have harrivals : arrivals (u ++ l.map fun p => (n, p)) = arrivals u ++ l := by
      simp [arrivals, Function.comp_def]
    have hhead : ∀ p, l.head? = some p →
        kept (collectAll [] (decodedPackets (arrivals u))).1 p.decoded = [] := by
      intro p hp
      apply kept_other_scan
      intro q hq
      obtain ⟨x, hx, rfl⟩ := getLast?_arrivals (getLast?_collectAll _ hq)
      have hmem := mem_of_mem_sent (hu.subset (List.mem_of_getLast? hx))
      have hclose : n < x.1 + 65536 :=
        (List.isChain_append.mp hnear).2.2 x hx (n, p) (by simp [hp])
      change x.2.header.scanNumber ≠ p.header.scanNumber
      rw [(scans x.1).sameScan _ hmem, (scans n).sameScan p (hl.subset (List.mem_of_head? hp))]
      exact hnum.ne (hearlier x (List.mem_of_getLast? hx)) hclose
    rw [List.range_succ, List.filter_append, List.map_append, hfilter, harrivals,
      decodedPackets_append, collectAll_append, ih hu hnear.left_of_append,
      collectAll_part hl hhead]
    simp only [List.append_cancel_left_eq, List.filter_singleton, whole_last_iff hearlier,
      Bool.cond_decide]
    split_ifs <;> rfl

section Loss
variable [PacketSort]

/-- Loss neither mixes scans nor hides a whole one. -/
theorem udp_loss {scans : ℕ → DeviceScan} {s0 : ℕ} (hnum : Numbered scans s0) {n : ℕ}
    {received : List (ℕ × ScanPacket)} (hsub : received.Sublist (sent scans n))
    (hnear : received.IsChain fun x y => y.1 < x.1 + 65536) :
    ∃ link, UDPLink.bound.receive (datagrams (arrivals received)) = .ok link ∧
      link.published =
        ((List.range n).filter fun i => Whole scans received i).map fun i => (scans i).scan := by
  have hempty : UDPLink.bound.scanFactory = holding [] := rfl
  obtain ⟨link, hlink, -, -, hpublished⟩ := UDPLink.bound_ready.receive_holding
    (show points [] < 2 ^ 16 from Nat.two_pow_pos 16) hempty (arrivals received)
  refine ⟨link, hlink, ?_⟩
  have hscan : ∀ i, assembled (decodedPackets (scans i).packets) = (scans i).scan :=
    fun i => (scans i).assembled_of_perm (List.Perm.refl _)
  rw [hpublished, collectAll_loss hnum hsub hnear, List.map_map]
  change [] ++ _ = _
  simp only [List.nil_append, Function.comp_def, hscan]

end Loss

section
attribute [local instance] insertionPacketSort

theorem threePackets_numbered : Numbered (fun i => threePackets (UInt16.ofNat i)) 0 := by
  intro i
  rw [Nat.zero_add]
  rfl

theorem udp_loss_three :
    ∃ link, UDPLink.bound.receive (datagrams [pointPacket 0 1, pointPacket 0 2, pointPacket 0 3,
        pointPacket 1 1, pointPacket 1 3]) = .ok link ∧
      link.published = [(threePackets 0).scan] := by
  obtain ⟨link, hlink, hpublished⟩ := udp_loss threePackets_numbered
    (show [(0, pointPacket 0 1), (0, pointPacket 0 2), (0, pointPacket 0 3), (1, pointPacket 1 1),
      (1, pointPacket 1 3)].Sublist (sent (fun i => threePackets (UInt16.ofNat i)) 2) by decide)
    (by decide)
  exact ⟨link, hlink, hpublished.trans (by decide)⟩

end

structure Delivered (scans : ℕ → DeviceScan) (received : List (ℕ × ScanPacket)) : Prop where
  sent : ∀ x ∈ received, x.2 ∈ (scans x.1).packets
  near : received.IsChain fun x y => x.1 < y.1 + 65536 ∧ y.1 < x.1 + 65536

def OfLastScan (scans : ℕ → DeviceScan) (received : List (ℕ × ScanPacket)) (held : List Packet) :
    Prop :=
  ∃ ps, held = decodedPackets ps ∧
    ∀ p ∈ ps, ∃ x, received.getLast? = some x ∧ p ∈ (scans x.1).packets

theorem Delivered.left {scans : ℕ → DeviceScan} {u v : List (ℕ × ScanPacket)}
    (h : Delivered scans (u ++ v)) : Delivered scans u :=
  ⟨fun x hx => h.sent x (List.mem_append_left v hx), h.near.left_of_append⟩

theorem Numbered.eq_of_near {scans : ℕ → DeviceScan} {s0 : ℕ} (h : Numbered scans s0) {i j : ℕ}
    (heq : (scans i).scanNumber = (scans j).scanNumber) (hij : i < j + 65536)
    (hji : j < i + 65536) : i = j := by
  rcases Nat.lt_trichotomy i j with hlt | hsame | hlt
  · exact absurd heq (h.ne hlt hji)
  · exact hsame
  · exact absurd heq.symm (h.ne hlt hij)

theorem OfLastScan.kept {scans : ℕ → DeviceScan} {s0 : ℕ} (hnum : Numbered scans s0)
    {received : List (ℕ × ScanPacket)} {x : ℕ × ScanPacket}
    (hdel : Delivered scans (received ++ [x])) {held : List Packet}
    (h : OfLastScan scans received held) :
    ∃ a, kept held x.2.decoded = decodedPackets a ∧ ∀ p ∈ a, p ∈ (scans x.1).packets := by
  obtain ⟨ps, rfl, hps⟩ := h
  have hx : x.2 ∈ (scans x.1).packets := hdel.sent x (by simp)
  by_cases hother : ∀ q, (decodedPackets ps).getLast? = some q →
      q.header.scanNumber ≠ x.2.decoded.header.scanNumber
  · exact ⟨[], kept_other_scan hother, by simp⟩
  by_cases hone : x.2.header.packetNumber = 1
  · exact ⟨[], kept_number_one _ hone, by simp⟩
  simp only [not_forall, not_not] at hother
  obtain ⟨q, hq, hscan⟩ := hother
  rw [decodedPackets, List.getLast?_map] at hq
  obtain ⟨p, hp, rfl⟩ := Option.map_eq_some_iff.mp hq
  have hmem := List.mem_of_getLast? hp
  obtain ⟨y, hy, hpy⟩ := hps p hmem
  have hnear := (List.isChain_append.mp hdel.near).2.2 y hy x rfl
  have heq : y.1 = x.1 := by
    apply hnum.eq_of_near _ hnear.1 hnear.2
    rw [← (scans y.1).sameScan p hpy, ← (scans x.1).sameScan x.2 hx]
    exact hscan
  have hall : ∀ r ∈ ps, r ∈ (scans x.1).packets := by
    intro r hr
    obtain ⟨y', hy', hry⟩ := hps r hr
    obtain rfl : y = y' := Option.some.inj (hy.symm.trans hy')
    rwa [heq] at hry
  exact ⟨ps, (scans x.1).kept_same (List.ne_nil_of_mem hmem) hall hx hone, hall⟩

theorem arrivals_concat (received : List (ℕ × ScanPacket)) (x : ℕ × ScanPacket) :
    decodedPackets (arrivals (received ++ [x])) =
      decodedPackets (arrivals received) ++ [x.2.decoded] := by
  simp [arrivals]

theorem ofLastScan_collectAll {scans : ℕ → DeviceScan} {s0 : ℕ} (hnum : Numbered scans s0)
    {received : List (ℕ × ScanPacket)} (hdel : Delivered scans received) :
    OfLastScan scans received (collectAll [] (decodedPackets (arrivals received))).1 := by
  induction received using List.reverseRecOn with
  | nil => exact ⟨[], rfl, by simp⟩
  | append_singleton received x ih =>
    obtain ⟨a, hkept, ha⟩ := (ih hdel.left).kept hnum hdel
    have hx : x.2 ∈ (scans x.1).packets := hdel.sent x (by simp)
    have hlast : (received ++ [x]).getLast? = some x := List.getLast?_concat
    rw [arrivals_concat, collectAll_append]
    simp only [collectAll, (scans x.1).collect_packet hx hkept]
    split_ifs
    · exact ⟨[], rfl, by simp⟩
    · refine ⟨a ++ [x.2], rfl, fun p hp => ⟨x, hlast, ?_⟩⟩
      rcases List.mem_append.mp hp with hpa | hpx
      · exact ha p hpa
      · rwa [List.mem_singleton.mp hpx]

theorem mem_collectAll_arrivals {received : List (ℕ × ScanPacket)} {now : List Packet} :
    now ∈ (collectAll [] (decodedPackets (arrivals received))).2 ↔
      ∃ us x vs, received = us ++ x :: vs ∧
        Completes (collectAll [] (decodedPackets (arrivals us))).1 x.2.decoded ∧
        now = kept (collectAll [] (decodedPackets (arrivals us))).1 x.2.decoded ++ [x.2.decoded] := by
  rw [mem_collectAll]
  constructor
  · rintro ⟨us, p, vs, hsplit, hcomplete, rfl⟩
    rw [decodedPackets, arrivals, List.map_map] at hsplit
    obtain ⟨u, v, rfl, rfl, hv⟩ := List.map_eq_append_iff.mp hsplit
    obtain ⟨x, w, rfl, rfl, rfl⟩ := List.map_eq_cons_iff.mp hv
    rw [← List.map_map] at hcomplete ⊢
    exact ⟨u, x, w, rfl, hcomplete, rfl⟩
  · rintro ⟨us, x, vs, rfl, hcomplete, rfl⟩
    exact ⟨_, _, decodedPackets (arrivals vs), by simp [arrivals, decodedPackets], hcomplete, rfl⟩

section Repetition
variable [PacketSort]

theorem assembled_of_nodup {scans : ℕ → DeviceScan} {s0 : ℕ} (hnum : Numbered scans s0)
    {received : List (ℕ × ScanPacket)} {x : ℕ × ScanPacket}
    (hdel : Delivered scans (received ++ [x])) {held : List Packet}
    (hheld : OfLastScan scans received held) (hcomplete : Completes held x.2.decoded)
    (hnodup : (kept held x.2.decoded ++ [x.2.decoded]).Nodup) :
    assembled (kept held x.2.decoded ++ [x.2.decoded]) = (scans x.1).scan := by
  obtain ⟨a, hkept, ha⟩ := hheld.kept hnum hdel
  have hx : x.2 ∈ (scans x.1).packets := hdel.sent x (by simp)
  have hnow : kept held x.2.decoded ++ [x.2.decoded] = decodedPackets (a ++ [x.2]) := by
    rw [hkept, decodedPackets_append]
    rfl
  have hfull : (scans x.1).numPoints ≤ points (decodedPackets (a ++ [x.2])) := by
    unfold Completes at hcomplete
    rw [hnow] at hcomplete
    rwa [← (scans x.1).numPointsScan_eq hx]
  rw [hnow] at hnodup ⊢
  refine (scans x.1).assembled_of_perm ((scans x.1).perm_of_points ?_ hfull)
  apply (List.Nodup.of_map _ hnodup).subperm
  intro p hp
  rcases List.mem_append.mp hp with hpa | hpx
  · exact ha p hpa
  · rwa [List.mem_singleton.mp hpx]

theorem nodup_of_assembled {ps : List Packet} {s : DeviceScan} (h : assembled ps = s.scan) :
    ps.Nodup := by
  have hheaders : (PacketSort.sort.run ps).map Packet.header =
      (decodedPackets s.packets).map Packet.header := congrArg Scan.headers h
  have hnodup : ((decodedPackets s.packets).map Packet.header).Nodup := by
    rw [decodedPackets, List.map_map]
    refine List.pairwise_map.mpr (s.strict.imp fun {p q} hlt heq => ?_)
    have hnumber : p.header.packetNumber = q.header.packetNumber :=
      congrArg Header.packetNumber heq
    rw [hnumber] at hlt
    exact Nat.lt_irrefl _ hlt
  rw [← hheaders] at hnodup
  exact (PacketSort.sort.perm ps).nodup_iff.mp (List.Nodup.of_map _ hnodup)

/-- `p` does not complete a scan of which the factory holds a packet twice. -/
def CompletesOnce (link : UDPLink) (p : Packet) : Prop :=
  Completes link.scanFactory.packets p → (kept link.scanFactory.packets p ++ [p]).Nodup

theorem receive_arrivals (received : List (ℕ × ScanPacket)) :
    ∃ link, UDPLink.bound.receive (datagrams (arrivals received)) = .ok link ∧
      link.scanFactory.packets = (collectAll [] (decodedPackets (arrivals received))).1 ∧
      ∀ scan, scan ∈ link.published ↔ ∃ us x vs, received = us ++ x :: vs ∧
        Completes (collectAll [] (decodedPackets (arrivals us))).1 x.2.decoded ∧
        assembled (kept (collectAll [] (decodedPackets (arrivals us))).1 x.2.decoded ++
          [x.2.decoded]) = scan := by
  have hempty : UDPLink.bound.scanFactory = holding [] := rfl
  obtain ⟨link, hlink, -, hfactory, hpublished⟩ := UDPLink.bound_ready.receive_holding
    (show points [] < 2 ^ 16 from Nat.two_pow_pos 16) hempty (arrivals received)
  refine ⟨link, hlink, by rw [hfactory]; rfl, fun scan => ?_⟩
  rw [hpublished]
  change scan ∈ (collectAll [] (decodedPackets (arrivals received))).2.map assembled ↔ _
  simp only [List.mem_map, mem_collectAll_arrivals]
  constructor
  · rintro ⟨now, ⟨us, x, vs, hsplit, hcomplete, rfl⟩, hscan⟩
    exact ⟨us, x, vs, hsplit, hcomplete, hscan⟩
  · rintro ⟨us, x, vs, hsplit, hcomplete, hscan⟩
    exact ⟨_, ⟨us, x, vs, hsplit, hcomplete, rfl⟩, hscan⟩

/-- Every published scan is a scan of the device exactly when no packet
arrives that completes the count of points over a repeated packet. -/
theorem udp_repetition_iff {scans : ℕ → DeviceScan} {s0 : ℕ} (hnum : Numbered scans s0)
    {received : List (ℕ × ScanPacket)} (hdel : Delivered scans received) :
    ∃ link, UDPLink.bound.receive (datagrams (arrivals received)) = .ok link ∧
      ((∀ scan ∈ link.published, ∃ x ∈ received, scan = (scans x.1).scan) ↔
        ∀ us x vs before, received = us ++ x :: vs →
          UDPLink.bound.receive (datagrams (arrivals us)) = .ok before →
          CompletesOnce before x.2.decoded) := by
  obtain ⟨link, hlink, -, hpublished⟩ := receive_arrivals received
  refine ⟨link, hlink, ?_, ?_⟩
  · rintro hscans us x vs before hsplit hbefore hcomplete
    obtain ⟨before', hlink', hfactory, -⟩ := receive_arrivals us
    obtain rfl : before' = before := Except.ok.inj (hlink'.symm.trans hbefore)
    rw [hfactory] at hcomplete ⊢
    obtain ⟨y, -, hy⟩ := hscans _ ((hpublished _).mpr ⟨us, x, vs, hsplit, hcomplete, rfl⟩)
    exact nodup_of_assembled hy
  · intro honce scan hscan
    obtain ⟨us, x, vs, rfl, hcomplete, rfl⟩ := (hpublished scan).mp hscan
    obtain ⟨before, hlink', hfactory, -⟩ := receive_arrivals us
    have hnodup := honce us x vs before rfl hlink'
    rw [CompletesOnce, hfactory] at hnodup
    have hleft : Delivered scans (us ++ [x]) := by
      rw [← List.singleton_append, ← List.append_assoc] at hdel
      exact hdel.left
    exact ⟨x, by simp, assembled_of_nodup hnum hleft (ofLastScan_collectAll hnum hleft.left)
      hcomplete (hnodup hcomplete)⟩

end Repetition

section
attribute [local instance] insertionPacketSort

def repeatedSecond : List (ℕ × ScanPacket) :=
  [(0, pointPacket 0 1), (0, pointPacket 0 2), (0, pointPacket 0 2)]

theorem repeatedSecond_delivered :
    Delivered (fun i => threePackets (UInt16.ofNat i)) repeatedSecond := by
  refine ⟨?_, by decide⟩
  intro x hx
  simp only [repeatedSecond, List.mem_cons, List.not_mem_nil, or_false] at hx
  rcases hx with rfl | rfl | rfl <;> simp [threePackets]

theorem udp_repetition_iff_repeatedSecond :
    ∃ link, UDPLink.bound.receive (datagrams (arrivals repeatedSecond)) = .ok link ∧
      ((∀ scan ∈ link.published, ∃ x ∈ repeatedSecond,
          scan = (threePackets (UInt16.ofNat x.1)).scan) ↔
        ∀ us x vs before, repeatedSecond = us ++ x :: vs →
          UDPLink.bound.receive (datagrams (arrivals us)) = .ok before →
          CompletesOnce before x.2.decoded) :=
  udp_repetition_iff threePackets_numbered repeatedSecond_delivered

theorem udp_repeated_packet_published :
    ¬ ∀ (_ : PacketSort) (scans : ℕ → DeviceScan) (s0 : ℕ) (received : List (ℕ × ScanPacket)),
      Numbered scans s0 → Delivered scans received →
      ∀ link, UDPLink.bound.receive (datagrams (arrivals received)) = .ok link →
        ∀ scan ∈ link.published, ∃ x ∈ received, scan = (scans x.1).scan := by
  intro hall
  obtain ⟨link, hlink, -, hpublished⟩ := receive_arrivals repeatedSecond
  have hscan := (hpublished _).mpr ⟨[(0, pointPacket 0 1), (0, pointPacket 0 2)],
    (0, pointPacket 0 2), [], rfl, by decide, rfl⟩
  obtain ⟨x, -, hx⟩ := hall insertionPacketSort _ 0 _ threePackets_numbered
    repeatedSecond_delivered link hlink _ hscan
  have hnodup := nodup_of_assembled hx
  revert hnodup
  decide

end

end R2000Driver.PacketExtraction
