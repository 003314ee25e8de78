import R2000Driver.FactoryAgreement
import R2000Driver.LinkIterations

/-!
# What the scan factories hold between two calls of the extraction

Both factories store a list of packets (`flattened`, `holding`) and compare its
points with the number that one of its packets announces. Whatever the bytes
are, the packets held belong to one scan, only the first may have number one,
and each has as many amplitudes as distances (`WellHeld`). A factory that is
not complete holds fewer points than a 16 bit number announces; one call adds
at most as many as another announces; so the 32 bit count is the number of
points held.
-/

namespace R2000Driver.PacketExtraction
open Data ScanFactory Runs LoopState

structure WellHeld (held : List Packet) : Prop where
  scanNumber : ∀ p ∈ held, ∀ q ∈ held, p.header.scanNumber = q.header.scanNumber
  packetNumber : ∀ p ∈ held.tail, p.header.packetNumber ≠ 1
  amplitudes : ∀ p ∈ held, p.amplitudes.length = p.distances.length

theorem wellHeld_nil : WellHeld [] :=
  ⟨fun _ hp => absurd hp List.not_mem_nil, fun _ hp => absurd hp List.not_mem_nil,
    fun _ hp => absurd hp List.not_mem_nil⟩

theorem kept_cases (held : List Packet) (p : Packet) :
    kept held p = [] ∨ (kept held p = held ∧ p.header.packetNumber ≠ 1 ∧
      ∃ q ∈ held, q.header.scanNumber = p.header.scanNumber) := by
  unfold kept
  split
  · exact Or.inl rfl
  · next q hq =>
    split_ifs with hk
    · exact Or.inr ⟨rfl, hk.2, q, List.mem_of_getLast? hq, hk.1⟩
    · exact Or.inl rfl

theorem WellHeld.kept {held : List Packet} (h : WellHeld held) (p : Packet) :
    WellHeld (kept held p) := by
  rcases kept_cases held p with hnil | ⟨hheld, -, -⟩
  · rw [hnil]
    exact wellHeld_nil
  · rwa [hheld]

theorem WellHeld.add {held : List Packet} (h : WellHeld held) {p : Packet}
    (hp : p.amplitudes.length = p.distances.length) : WellHeld (PacketExtraction.kept held p ++ [p]) := by
  rcases kept_cases held p with hnil | ⟨hheld, hnumber, q, hq, hscan⟩
  · rw [hnil, List.nil_append]
    refine ⟨?_, fun _ hr => absurd hr List.not_mem_nil, ?_⟩
    · intro r hr s hs
      rw [List.mem_singleton.mp hr, List.mem_singleton.mp hs]
    · intro r hr
      rw [List.mem_singleton.mp hr, hp]
  · rw [hheld]
    have hall : ∀ r ∈ held ++ [p], r.header.scanNumber = p.header.scanNumber := by
      intro r hr
      rcases List.mem_append.mp hr with hr | hr
      · rw [h.scanNumber r hr q hq, hscan]
      · rw [List.mem_singleton.mp hr]
    refine ⟨fun r hr s hs => (hall r hr).trans (hall s hs).symm, ?_, ?_⟩
    · intro r hr
      rw [List.tail_append_of_ne_nil (List.ne_nil_of_mem hq)] at hr
      rcases List.mem_append.mp hr with hr | hr
      · exact h.packetNumber r hr
      · rw [List.mem_singleton.mp hr]
        exact hnumber
    · intro r hr
      rcases List.mem_append.mp hr with hr | hr
      · exact h.amplitudes r hr
      · rw [List.mem_singleton.mp hr, hp]

section
variable {F : Type} [ScanFactory F]

/-- A factory that stores packets and is complete when it has the points that one of them announces. -/
structure CountsPoints (of : List Packet → F) : Prop extends Stores of where
  announced : ∀ held, held ≠ [] → points held < 2 ^ 32 →
    ∃ p ∈ held, isComplete (of held) = decide (p.header.numPointsScan.toNat ≤ points held)

structure Holding (of : List Packet → F) (f : F) (held : List Packet) : Prop where
  stored : f = of held
  well : WellHeld held
  notComplete : isComplete f = false
  few : points held ≤ 65534

variable {of : List Packet → F}

theorem holding_nil [Lawful F] (h : CountsPoints of) : Holding of (of []) [] where
  stored := rfl
  well := wellHeld_nil
  notComplete := Lawful.not_complete _ (h.empty [])
  few := Nat.zero_le _

theorem holding_publish [Lawful F] (h : CountsPoints of) {held : List Packet} (hwell : WellHeld held)
    (hsmall : points held < 2 ^ 32) :
    ∃ held', held' <:+ held ∧ Holding of (publish (of held)).1 held' := by
  cases hcomplete : isComplete (of held) with
  | true =>
    refine ⟨[], List.nil_suffix, ?_⟩
    rw [publish, if_pos hcomplete, Lawful.assemble_eq, h.clear]
    exact holding_nil h
  | false =>
    refine ⟨held, List.suffix_rfl, ?_⟩
    rw [publish_of_not_complete hcomplete]
    refine ⟨rfl, hwell, hcomplete, ?_⟩
    cases held with
    | nil => exact Nat.zero_le _
    | cons q held =>
      obtain ⟨p, -, hp⟩ := h.announced (q :: held) (List.cons_ne_nil q held) hsmall
      have hlt := p.header.numPointsScan.toNat_lt
      have hfew := of_decide_eq_false (hp.symm.trans hcomplete)
      omega

theorem found_lengths {range : List UInt8} {header : Header} {payload : Payload}
    (h : findPacket range = .ok (.packet header payload)) :
    payload.amplitudes.length = payload.distances.length ∧ payload.distances.length ≤ 65535 := by
  obtain ⟨headerStart, -, -, -, hc⟩ := findPacket_eq_packet h
  have hlt := header.numPointsPacket.toNat_lt
  have hcount : payload.distances.length ≤ header.numPointsPacket.toNat := by
    rw [hc.distances]
    exact Nat.min_le_left _ _
  exact ⟨hc.amplitudes.trans hc.distances.symm, by omega⟩

def Found.held (held : List Packet) : Found → List Packet
  | .nothing => held
  | .missing _ header _ => kept held ⟨header, [], []⟩
  | .packet header payload =>
    kept held ⟨header, payload.distances, payload.amplitudes⟩ ++
      [⟨header, payload.distances, payload.amplitudes⟩]

theorem kept_suffix {held added : List Packet} (h : held <:+ added) (p : Packet) :
    kept held p <:+ added := by
  rcases kept_cases held p with hnil | ⟨hheld, -, -⟩
  · rw [hnil]
    exact List.nil_suffix
  · rwa [hheld]

theorem Found.held_suffix {held added : List Packet} (h : held <:+ added) (found : Found) :
    found.held held <:+ added ++ found.added := by
  cases found with
  | nothing => rwa [Found.added, List.append_nil]
  | missing headerStart header n =>
    rw [Found.added, List.append_nil]
    exact kept_suffix h _
  | packet header payload => exact List.suffix_append_self_iff.mpr (kept_suffix h _)

theorem Holding.deliver (h : CountsPoints of) {f : F} {held : List Packet} (hf : Holding of f held)
    {range : List UInt8} {found : Found} (hfound : findPacket range = .ok found) :
    (found.deliver f).2 = of (found.held held) ∧ WellHeld (found.held held) ∧
      points (found.held held) < 2 ^ 32 := by
  have hfew := hf.few
  cases found with
  | nothing => exact ⟨hf.stored, hf.well, Nat.lt_of_le_of_lt hfew (by decide)⟩
  | missing headerStart header n =>
    have hkept := points_kept_le held ⟨header, [], []⟩
    refine ⟨?_, hf.well.kept _, Nat.lt_of_le_of_lt (hkept.trans hfew) (by decide)⟩
    rw [hf.stored]
    exact h.clearedFor held ⟨header, [], []⟩
  | packet header payload =>
    obtain ⟨hlengths, hsmall⟩ := found_lengths hfound
    let p : Packet := ⟨header, payload.distances, payload.amplitudes⟩
    have hkept := points_kept_le held p
    have hone : points [p] = payload.distances.length := by simp [points, p]
    refine ⟨?_, hf.well.add hlengths, ?_⟩
    · rw [hf.stored]
      change addPacket (clearedFor (of held) p.header) p.header p.distances p.amplitudes =
        of (kept held p ++ [p])
      rw [h.clearedFor held p, h.addPacket]
    · change points (kept held p ++ [p]) < 2 ^ 32
      rw [points_append, hone]
      omega

theorem Holding.step [Lawful F] (h : CountsPoints of) {s s' : LoopState F} {e : LoopEvent}
    (hstep : LoopState.step s e = some s') (hs : ∃ held, Holding of s.scanFactory held) :
    ∃ held, Holding of s'.scanFactory held := by
  cases e with
  | deliver received =>
    rw [(step_deliver hstep).1]
    exact hs
  | extract =>
    obtain ⟨held, hheld⟩ := hs
    obtain ⟨found, hfound, hfactory, -⟩ := step_extract hstep
    obtain ⟨hnow, hwell, hsmall⟩ := hheld.deliver h hfound
    obtain ⟨held', -, hheld'⟩ := holding_publish h hwell hsmall
    rw [hfactory, hnow]
    exact ⟨held', hheld'⟩

theorem Holding.run [Lawful F] (h : CountsPoints of) {s s' : LoopState F} {events : List LoopEvent}
    (hrun : exec LoopState.step s events = some s') (hs : s.scanFactory = of []) :
    ∃ held, Holding of s'.scanFactory held :=
  exec_keeps (P := fun s => ∃ held, Holding of s.scanFactory held)
    (fun _ _ _ hstep hheld => Holding.step h hstep hheld) hrun ⟨[], hs ▸ holding_nil h⟩

structure Recorded (of : List Packet → F) (r : Recorder F) (held : List Packet) : Prop where
  holding : Holding of r.factory held
  suffix : held <:+ r.added

theorem Recorded.step [Lawful F] (h : CountsPoints of) {s s' : LoopState (Recorder F)} {e : LoopEvent}
    (hstep : LoopState.step s e = some s') (hs : ∃ held, Recorded of s.scanFactory held) :
    ∃ held, Recorded of s'.scanFactory held := by
  cases e with
  | deliver received =>
    rw [(step_deliver hstep).1]
    exact hs
  | extract =>
    obtain ⟨held, hheld⟩ := hs
    obtain ⟨found, hfound, hfactory, -⟩ := step_extract hstep
    obtain ⟨hnow, hwell, hsmall⟩ := hheld.holding.deliver h hfound
    obtain ⟨held', hsuffix, hheld'⟩ := holding_publish h hwell hsmall
    rw [hfactory, Found.deliver_recorder, Recorder.publish_eq, hnow]
    exact ⟨held', hheld', hsuffix.trans (found.held_suffix hheld.suffix)⟩

end

theorem flattened_countsPoints : CountsPoints flattened where
  toStores := stores_flattened
  announced held hne _ := by
    cases held with
    | nil => exact absurd rfl hne
    | cons q held =>
      refine ⟨q, List.mem_cons_self, ?_⟩
      have hlength : (flattened (q :: held)).distances.length = points (q :: held) :=
        concatenated_distances (q :: held)
      rw [← hlength]
      rfl

theorem holding_countsPoints [PacketSort] : CountsPoints holding where
  toStores := stores_holding
  announced held hne hsmall := by
    refine ⟨held.getLast hne, List.getLast_mem hne, ?_⟩
    change UdpScanFactory.isComplete (holding held) = _
    simp only [UdpScanFactory.isComplete, holding, List.getLast?_eq_some_getLast hne, toNat_points hsmall]

/-- `TcpScanFactory` does not keep the packets apart, so they are taken from the record. -/
structure TcpInvariant (r : Recorder TcpScanFactory) : Prop where
  scanNumber : ∀ h ∈ r.factory.headers, ∀ h' ∈ r.factory.headers, h.scanNumber = h'.scanNumber
  packetNumber : ∀ h ∈ r.factory.headers.tail, h.packetNumber ≠ 1
  amplitudes : r.factory.amplitudes.length = r.factory.distances.length
  packets : ∃ held, held <:+ r.added ∧ r.factory = flattened held ∧
    ∀ p ∈ held, p.amplitudes.length = p.distances.length
  empty : r.factory.headers = [] → r.factory.distances = []

structure UdpInvariant (f : UdpScanFactory) : Prop where
  scanNumber : ∀ p ∈ f.packets, ∀ q ∈ f.packets, p.header.scanNumber = q.header.scanNumber
  packetNumber : ∀ p ∈ f.packets.tail, p.header.packetNumber ≠ 1
  amplitudes : ∀ p ∈ f.packets, p.amplitudes.length = p.distances.length
  total : (f.packets.flatMap Packet.amplitudes).length = (f.packets.flatMap Packet.distances).length
  numberOfPoints : f.numberOfPoints.toNat = (f.packets.flatMap Packet.distances).length
  empty : f.packets = [] → f.numberOfPoints = 0

theorem WellHeld.lengths {held : List Packet} (h : WellHeld held) :
    (held.flatMap Packet.amplitudes).length = (held.flatMap Packet.distances).length := by
  rw [List.length_flatMap, List.length_flatMap]
  exact congrArg List.sum (List.map_congr_left h.amplitudes)

theorem WellHeld.tcp {held : List Packet} (h : WellHeld held) {r : Recorder TcpScanFactory}
    (hstored : r.factory = flattened held) (hsuffix : held <:+ r.added) : TcpInvariant r where
  scanNumber := by
    rw [hstored]
    intro a ha b hb
    obtain ⟨p, hp, rfl⟩ := List.mem_map.mp ha
    obtain ⟨q, hq, rfl⟩ := List.mem_map.mp hb
    exact h.scanNumber p hp q hq
  packetNumber := by
    rw [hstored]
    intro a ha
    change a ∈ (held.map Packet.header).tail at ha
    rw [← List.map_tail] at ha
    obtain ⟨p, hp, rfl⟩ := List.mem_map.mp ha
    exact h.packetNumber p hp
  amplitudes := by
    rw [hstored]
    exact h.lengths
  packets := ⟨held, hsuffix, hstored, h.amplitudes⟩
  empty := by
    rw [hstored]
    intro hempty
    rw [List.map_eq_nil_iff.mp hempty]
    rfl

theorem WellHeld.udp {held : List Packet} (h : WellHeld held) (hsmall : points held < 2 ^ 32) :
    UdpInvariant (holding held) where
  scanNumber := h.scanNumber
  packetNumber := h.packetNumber
  amplitudes := h.amplitudes
  total := h.lengths
  numberOfPoints := (toNat_points hsmall).trans (concatenated_distances held).symm
  empty := by
    intro hempty
    change held = [] at hempty
    rw [hempty]
    rfl

structure KeepsBetweenCalls {F : Type} [ScanFactory F] (invariant : F → Prop) (count : F → ℕ) (f : F) :
    Prop where
  holds : invariant f
  notComplete : isComplete f = false
  few : count f ≤ 65534
  afterCall : ∀ range extraction f', extractScanPacketFromByteRange range f = .ok (extraction, f') →
    invariant f'
  afterThrow : ∀ header, invariant (clearedFor f header)

theorem Holding.keeps {F : Type} [ScanFactory F] {of : List Packet → F} (h : CountsPoints of)
    {invariant : F → Prop} {count : F → ℕ}
    (hinvariant : ∀ held, WellHeld held → points held < 2 ^ 32 → invariant (of held))
    (hcount : ∀ held, points held < 2 ^ 32 → count (of held) = points held) {f : F}
    {held : List Packet} (hf : Holding of f held) : KeepsBetweenCalls invariant count f := by
  have hfew := hf.few
  have hsmall : points held < 2 ^ 32 := by omega
  refine ⟨?_, hf.notComplete, ?_, ?_, ?_⟩
  · rw [hf.stored]
    exact hinvariant held hf.well hsmall
  · rw [hf.stored, hcount held hsmall]
    exact hfew
  · intro range extraction f' hextract
    obtain ⟨found, hfound, hdeliver⟩ := extraction_cases hextract
    obtain ⟨hnow, hwell, hsmall'⟩ := hf.deliver h hfound
    have hf' : f' = of (found.held held) := (congrArg Prod.snd hdeliver).symm.trans hnow
    rw [hf']
    exact hinvariant _ hwell hsmall'
  · intro header
    have hkept := points_kept_le held ⟨header, [], []⟩
    have hcleared := h.clearedFor held ⟨header, [], []⟩
    rw [hf.stored]
    change invariant (clearedFor (of held) header)
    rw [hcleared]
    exact hinvariant _ (hf.well.kept _) (by omega)

theorem Recorded.keeps {r : Recorder TcpScanFactory} {held : List Packet}
    (hr : Recorded flattened r held) :
    KeepsBetweenCalls TcpInvariant (fun r => r.factory.distances.length) r := by
  refine ⟨hr.holding.well.tcp hr.holding.stored hr.suffix, hr.holding.notComplete, ?_, ?_, ?_⟩
  · have hcount : r.factory.distances.length = points held := by
      rw [hr.holding.stored]
      exact concatenated_distances held
    rw [hcount]
    exact hr.holding.few
  · intro range extraction r' hextract
    obtain ⟨found, hfound, hdeliver⟩ := extraction_cases hextract
    obtain ⟨hnow, hwell, -⟩ := hr.holding.deliver flattened_countsPoints hfound
    have hr' : r' = ⟨(found.deliver r.factory).2, r.added ++ found.added⟩ := by
      rw [Found.deliver_recorder] at hdeliver
      exact (congrArg Prod.snd hdeliver).symm
    rw [hr']
    exact hwell.tcp hnow (found.held_suffix hr.suffix)
  · intro header
    rw [Recorder.clearedFor_eq]
    refine (hr.holding.well.kept ⟨header, [], []⟩).tcp ?_ (kept_suffix hr.suffix _)
    rw [hr.holding.stored]
    exact flattened_countsPoints.clearedFor held ⟨header, [], []⟩

/-- In every state of a run of either link its factory keeps the invariant between two calls. -/
theorem scan_factories_keep_invariant [PacketSort] {tcpEvents udpEvents : List LoopEvent}
    {tcp : LoopState TcpScanFactory} {udp : LoopState UdpScanFactory}
    (htcp : exec LoopState.step (TCPLinkOver.connected ⟨[], [], []⟩).loopState tcpEvents = some tcp)
    (hudp : exec LoopState.step UDPLink.bound.loopState udpEvents = some udp) :
    (∃ recorded : LoopState (Recorder TcpScanFactory),
      exec LoopState.step (TCPLinkOver.connected ⟨⟨[], [], []⟩, []⟩).loopState tcpEvents =
        some recorded ∧ recorded.forget = tcp ∧
      KeepsBetweenCalls TcpInvariant (fun r => r.factory.distances.length) recorded.scanFactory) ∧
      KeepsBetweenCalls UdpInvariant (fun f => f.numberOfPoints.toNat) udp.scanFactory := by
  constructor
  · obtain ⟨recorded, hrecorded, hforget⟩ := exists_recorded
      (s := (TCPLinkOver.connected ⟨⟨[], [], []⟩, []⟩ :
        TCPLinkOver (Recorder TcpScanFactory)).loopState) htcp
    obtain ⟨held, hheld⟩ : ∃ held, Recorded flattened recorded.scanFactory held :=
      exec_keeps (P := fun s => ∃ held, Recorded flattened s.scanFactory held)
        (fun _ _ _ hstep hs => Recorded.step flattened_countsPoints hstep hs) hrecorded
        ⟨[], holding_nil flattened_countsPoints, List.nil_suffix⟩
    exact ⟨recorded, hrecorded, hforget, hheld.keeps⟩
  · obtain ⟨held, hheld⟩ := Holding.run holding_countsPoints hudp rfl
    exact hheld.keeps holding_countsPoints (fun _ hwell hsmall => hwell.udp hsmall)
      (fun _ hsmall => toNat_points hsmall)

section
attribute [local instance] insertionPacketSort

def announcing (packetNumber numPointsScan : UInt16) : ScanPacket where
  toWirePacket := onePoint 7 packetNumber numPointsScan 5
  hasPoint := Nat.one_pos

theorem scan_factories_keep_invariant_onePoint :
    ∃ tcp udp, exec LoopState.step (TCPLinkOver.connected (⟨[], [], []⟩ : TcpScanFactory)).loopState
        [.deliver (announcing 1 2).bytes, .extract] = some tcp ∧
      exec LoopState.step UDPLink.bound.loopState (datagramEvents (announcing 1 2)) = some udp ∧
      tcp.scanFactory.headers = [(announcing 1 2).header] ∧ udp.scanFactory.numberOfPoints = 1 ∧
      (∃ recorded : LoopState (Recorder TcpScanFactory),
        exec LoopState.step (TCPLinkOver.connected ⟨⟨[], [], []⟩, []⟩).loopState
          [.deliver (announcing 1 2).bytes, .extract] = some recorded ∧ recorded.forget = tcp ∧
        KeepsBetweenCalls TcpInvariant (fun r => r.factory.distances.length)
          recorded.scanFactory) ∧
      KeepsBetweenCalls UdpInvariant (fun f => f.numberOfPoints.toNat) udp.scanFactory := by
  have htcp : exec LoopState.step (TCPLinkOver.connected (⟨[], [], []⟩ : TcpScanFactory)).loopState
      [.deliver (announcing 1 2).bytes, .extract] =
        some ⟨[], true, ⟨[5], [0], [(announcing 1 2).header]⟩, []⟩ := rfl
  have hudp := UDPLink.bound_ready.loopState.datagram (announcing 1 2)
  exact ⟨_, _, htcp, hudp, rfl, rfl, scan_factories_keep_invariant htcp hudp⟩

end

end R2000Driver.PacketExtraction
