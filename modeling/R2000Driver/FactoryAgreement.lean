import Mathlib.Data.List.Chain
import R2000Driver.UdpAssembly

/-!
# The two scan factories on ordered packets

Where the packets of a scan come in the order of their numbers and announce
the same number of points, the two factories do the same. `flattened` is the
TCP factory that stores a list of packets and `holding` the UDP factory that
does; both follow `collect`. The held packets then have increasing numbers, so
the sort of the UDP factory leaves them in their order, and the first of them
announces what the last one does.
-/

namespace R2000Driver.PacketExtraction
open Data ScanFactory

/-- What the second of two consecutive packets owes to the first. -/
def InOrder (p q : Packet) : Prop :=
  p.header.scanNumber = q.header.scanNumber → q.header.packetNumber ≠ 1 →
    p.number < q.number ∧ q.header.numPointsScan = p.header.numPointsScan

def Ordered (ps : List Packet) : Prop := ps.IsChain InOrder

def flattened (held : List Packet) : TcpScanFactory :=
  ⟨held.flatMap Packet.distances, held.flatMap Packet.amplitudes, held.map Packet.header⟩

def SamePackets (tcp : TcpScanFactory) (udp : UdpScanFactory) : Prop := tcp = flattened udp.packets

theorem stores_flattened : Stores flattened where
  empty held := by
    change (held.map Packet.header).isEmpty = held.isEmpty
    exact List.isEmpty_map
  equals held q scanNumber hlast := by
    change TcpScanFactory.equals (flattened held) scanNumber = _
    simp only [TcpScanFactory.equals, flattened, List.getLast?_map, hlast, Option.map_some]
  clear _ := rfl
  addPacket held p := by
    change TcpScanFactory.addPacket _ _ _ _ = _
    simp [TcpScanFactory.addPacket, flattened]

structure Uniform (held : List Packet) : Prop where
  increasing : held.Pairwise fun p q => p.number < q.number
  numPointsScan : ∀ p ∈ held, ∀ q ∈ held, p.header.numPointsScan = q.header.numPointsScan

theorem uniform_nil : Uniform [] :=
  ⟨List.Pairwise.nil, fun _ hp => absurd hp List.not_mem_nil⟩

theorem uniform_singleton (p : Packet) : Uniform [p] where
  increasing := List.pairwise_singleton _ p
  numPointsScan q hq r hr := by rw [List.mem_singleton.mp hq, List.mem_singleton.mp hr]

theorem Uniform.concat {held : List Packet} {p q : Packet} (h : Uniform held)
    (hlast : held.getLast? = some q) (hnumber : q.number < p.number)
    (hpoints : p.header.numPointsScan = q.header.numPointsScan) : Uniform (held ++ [p]) := by
  have hq : q ∈ held := List.mem_of_getLast? hlast
  have hle : ∀ r ∈ held, r.number ≤ q.number := by
    intro r hr
    obtain ⟨before, rfl⟩ := List.getLast?_eq_some_iff.mp hlast
    rcases List.mem_append.mp hr with hr | hr
    · have hlt := (List.pairwise_append.mp h.increasing).2.2 r hr q (List.mem_singleton.mpr rfl)
      exact hlt.le
    · rw [List.mem_singleton.mp hr]
  constructor
  · rw [List.pairwise_append]
    refine ⟨h.increasing, List.pairwise_singleton _ p, fun r hr s hs => ?_⟩
    rw [List.mem_singleton.mp hs]
    exact (hle r hr).trans_lt hnumber
  · have hall : ∀ r ∈ held ++ [p], r.header.numPointsScan = q.header.numPointsScan := by
      intro r hr
      rcases List.mem_append.mp hr with hr | hr
      · exact h.numPointsScan r hr q hq
      · rw [List.mem_singleton.mp hr, hpoints]
    exact fun r hr s hs => (hall r hr).trans (hall s hs).symm

theorem uniform_kept {held : List Packet} {p : Packet} (h : Uniform held)
    (hlast : ∀ q, held.getLast? = some q → InOrder q p) : Uniform (kept held p ++ [p]) := by
  unfold kept
  split
  · exact uniform_singleton p
  · next q hq =>
    split_ifs with hk
    · obtain ⟨hnumber, hpoints⟩ := hlast q hq hk.1 hk.2
      exact h.concat hq hnumber hpoints
    · exact uniform_singleton p

theorem uniform_collect {held : List Packet} {p : Packet} (h : Uniform (kept held p ++ [p])) :
    Uniform (collect held p).1 := by
  unfold collect
  split_ifs
  · exact uniform_nil
  · exact h

theorem concatenated_distances (held : List Packet) :
    (concatenated held).distances.length = points held := by
  simp [concatenated, points, List.length_flatMap]

theorem isComplete_flattened {held : List Packet} {p : Packet} (h : Uniform (kept held p ++ [p])) :
    isComplete (flattened (kept held p ++ [p])) = decide (Completes held p) := by
  change TcpScanFactory.isComplete _ = _
  have hlength : (flattened (kept held p ++ [p])).distances.length = points (kept held p ++ [p]) :=
    concatenated_distances _
  cases hnow : kept held p ++ [p] with
  | nil => simp at hnow
  | cons q now =>
    have hpoints := h.numPointsScan q (by rw [hnow]; exact List.mem_cons_self) p (by simp)
    rw [hnow] at hlength
    simp only [TcpScanFactory.isComplete, hlength, Completes, hnow, ← hpoints]
    rfl

theorem offer_flattened {held : List Packet} {p : Packet} (h : Uniform (kept held p ++ [p])) :
    offer (flattened held) p =
      (flattened (collect held p).1, (collect held p).2.map concatenated) :=
  stores_flattened.offer (isComplete_flattened h)

section
variable [PacketSort]

theorem assembled_of_uniform {held : List Packet} (h : Uniform held) :
    assembled held = concatenated held := by
  rw [assembled, PacketSort.sort.run_eq (List.Perm.refl held) h.increasing]

structure Agree (ps : List Packet) : Prop where
  uniform : Uniform (collectAll [] ps).1
  flattened : offerAll (flattened []) ps =
    (flattened (collectAll [] ps).1, (collectAll [] ps).2.map concatenated)
  scans : (collectAll [] ps).2.map assembled = (collectAll [] ps).2.map concatenated

theorem Agree.concat {ps : List Packet} (h : Agree ps) {p : Packet}
    (hlast : ∀ q, ps.getLast? = some q → InOrder q p) : Agree (ps ++ [p]) := by
  have hnow : Uniform (kept (collectAll [] ps).1 p ++ [p]) :=
    uniform_kept h.uniform fun q hq => hlast q (getLast?_collectAll ps hq)
  have hcollect : collectAll [] (ps ++ [p]) = ((collect (collectAll [] ps).1 p).1,
      (collectAll [] ps).2 ++ (collect (collectAll [] ps).1 p).2.toList) := by
    rw [collectAll_append]
    simp [collectAll]
  constructor
  · rw [hcollect]
    exact uniform_collect hnow
  · rw [offerAll_append, h.flattened, hcollect]
    simp only [offerAll, offer_flattened hnow, List.append_nil, List.map_append]
    cases (collect (collectAll [] ps).1 p).2 <;> rfl
  · rw [hcollect, List.map_append, List.map_append, h.scans]
    unfold collect
    split_ifs
    · simp only [Option.toList_some, List.map_cons, List.map_nil, assembled_of_uniform hnow]
    · rfl

theorem agree_of_ordered {ps : List Packet} (h : Ordered ps) : Agree ps := by
  induction ps using List.reverseRecOn with
  | nil => exact ⟨uniform_nil, rfl, rfl⟩
  | append_singleton ps p ih =>
    rw [Ordered, List.isChain_append] at h
    exact (ih h.1).concat fun q hq => h.2.2 q hq p rfl

/-- On ordered packets the factories hold the same packets after every one of them, and publish
the same scans. -/
theorem factories_agree {ps : List Packet} (h : Ordered ps)
    (hps : ∀ p ∈ ps, p.distances.length = p.amplitudes.length ∧ p.distances.length ≤ 65535) :
    ∀ before after, ps = before ++ after →
      (offerAll (⟨[], [], []⟩ : TcpScanFactory) before).2 =
        (offerAll (⟨[], 0⟩ : UdpScanFactory) before).2 ∧
      SamePackets (offerAll (⟨[], [], []⟩ : TcpScanFactory) before).1
        (offerAll (⟨[], 0⟩ : UdpScanFactory) before).1 := by
  rintro before after rfl
  have hbefore : Ordered before := List.IsChain.left_of_append h
  have hagree := agree_of_ordered hbefore
  have hlength : ∀ p ∈ before, p.distances.length < 2 ^ 16 := fun p hp =>
    Nat.lt_succ_of_le (hps p (List.mem_append_left _ hp)).2
  have hnil : points [] < 2 ^ 16 := Nat.two_pow_pos 16
  have hudp := offerAll_holding hnil hlength
  change (offerAll (flattened []) before).2 = (offerAll (holding []) before).2 ∧
    SamePackets (offerAll (flattened []) before).1 (offerAll (holding []) before).1
  rw [hudp, hagree.flattened, hagree.scans]
  exact ⟨rfl, rfl⟩

end

section
attribute [local instance] insertionPacketSort

theorem factories_agree_three :
    (offerAll (⟨[], [], []⟩ : TcpScanFactory) [(onePoint 7 1 2 10).decoded,
        (onePoint 7 2 2 20).decoded, (onePoint 8 1 2 30).decoded]).2 =
      (offerAll (⟨[], 0⟩ : UdpScanFactory) [(onePoint 7 1 2 10).decoded,
        (onePoint 7 2 2 20).decoded, (onePoint 8 1 2 30).decoded]).2 ∧
    SamePackets (offerAll (⟨[], [], []⟩ : TcpScanFactory) [(onePoint 7 1 2 10).decoded,
        (onePoint 7 2 2 20).decoded, (onePoint 8 1 2 30).decoded]).1
      (offerAll (⟨[], 0⟩ : UdpScanFactory) [(onePoint 7 1 2 10).decoded,
        (onePoint 7 2 2 20).decoded, (onePoint 8 1 2 30).decoded]).1 := by
  refine factories_agree ?_ ?_ _ [] rfl
  · simp only [List.append_nil, Ordered, List.isChain_cons_cons, List.isChain_singleton, InOrder]
    decide
  · decide

end
end R2000Driver.PacketExtraction
