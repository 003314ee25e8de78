import Mathlib.Algebra.BigOperators.Group.List.Basic
import R2000Driver.FactoryInvariant

/-!
# Whether published scans are complete

A scan is complete when it has the points that its first header announces. The
TCP factory compares with the first header that it stores, which is the first
one of the scan. The UDP factory compares with the packet added last, and the
sort of the packets may put another one first. Where no packet announces fewer points
than the lowest-numbered one stored of its scan, the one that the sort puts first
announces no more than the last, and the scan is complete.
-/

namespace R2000Driver.PacketExtraction
open Data ScanFactory Runs LoopState

def AllComplete {F : Type} (s : LoopState F) : Prop := ∀ scan ∈ s.published, scan.isComplete = true

theorem allComplete_published {F : Type} {s s' : LoopState F} {scans : List Scan}
    (h : s'.published = s.published ++ scans) :
    AllComplete s' ↔ AllComplete s ∧ ∀ scan ∈ scans, scan.isComplete = true := by
  simp only [AllComplete, h, List.mem_append]
  constructor
  · intro hall
    exact ⟨fun scan hscan => hall scan (Or.inl hscan), fun scan hscan => hall scan (Or.inr hscan)⟩
  · rintro ⟨hold, hnew⟩ scan (hscan | hscan)
    · exact hold scan hscan
    · exact hnew scan hscan

theorem publish_tcp_complete {f : TcpScanFactory} {scan : Scan} (h : (publish f).2 = some scan) :
    scan.isComplete = true := by
  unfold publish at h
  split_ifs at h with hcomplete
  cases h
  exact hcomplete

theorem allComplete_tcp_step {s s' : LoopState TcpScanFactory} {e : LoopEvent}
    (h : step s e = some s') (hs : AllComplete s) : AllComplete s' := by
  cases e with
  | deliver received =>
    rw [AllComplete, (step_deliver h).2]
    exact hs
  | extract =>
    obtain ⟨found, -, -, hpublished⟩ := step_extract h
    rw [allComplete_published hpublished]
    refine ⟨hs, ?_⟩
    intro scan hscan
    exact publish_tcp_complete (Option.mem_toList.mp hscan)

theorem allComplete_tcp {s s' : LoopState TcpScanFactory} {events : List LoopEvent}
    (h : exec step s events = some s') (hs : AllComplete s) : Always step AllComplete s events := by
  rintro es fs mid rfl hes
  exact exec_keeps (fun _ _ _ hstep hp => allComplete_tcp_step hstep hp) hes hs

theorem points_perm {ps qs : List Packet} (h : ps.Perm qs) : points ps = points qs :=
  (h.map fun p : Packet => p.distances.length).sum_eq

/-- `q` is numbered no higher than the packets stored and than the one that comes. -/
def NumberedFirst (packets : List Packet) (header : Header) (q : Packet) : Prop :=
  q.header.packetNumber ≤ header.packetNumber ∧
    ∀ r ∈ packets, q.header.packetNumber ≤ r.header.packetNumber

instance (packets : List Packet) (header : Header) (q : Packet) :
    Decidable (NumberedFirst packets header q) := inferInstanceAs (Decidable (_ ∧ _))

/-- A packet behind the first of its scan announces as many points as the lowest-numbered packet
that is stored of this scan, unless it is numbered lower itself. -/
def AnnouncesInOrder (s : LoopState UdpScanFactory) (e : LoopEvent) : Prop :=
  e = .extract → ∀ header payload, findPacket s.position = .ok (.packet header payload) →
    header.packetNumber ≠ 1 → ∀ q ∈ s.scanFactory.packets,
      q.header.scanNumber = header.scanNumber →
        NumberedFirst s.scanFactory.packets header q →
          q.header.numPointsScan ≤ header.numPointsScan

section
variable [PacketSort]

theorem isComplete_assembled {now : List Packet} {first : Packet}
    (hfirst : (PacketSort.sort.run now).head? = some first)
    (henough : first.header.numPointsScan.toNat ≤ points now) :
    (assembled now).isComplete = true := by
  obtain ⟨rest, hrest⟩ := List.head?_eq_some_iff.mp hfirst
  have hlength : (assembled now).distances.length = points now := by
    rw [assembled, concatenated_distances, points_perm (PacketSort.sort.perm now)]
  rw [← hlength] at henough
  rw [assembled, hrest] at henough ⊢
  exact decide_eq_true henough

theorem exists_first {now : List Packet} (hne : now ≠ []) :
    ∃ first ∈ now, (PacketSort.sort.run now).head? = some first ∧
      ∀ p ∈ now, first.number ≤ p.number := by
  have hperm := PacketSort.sort.perm now
  cases hrun : PacketSort.sort.run now with
  | nil =>
    rw [hrun] at hperm
    exact absurd hperm.nil_eq.symm hne
  | cons first rest =>
    have hsorted := PacketSort.sort.sorted now
    rw [hrun] at hperm hsorted
    refine ⟨first, hperm.mem_iff.mp List.mem_cons_self, rfl, ?_⟩
    intro p hp
    rcases List.mem_cons.mp (hperm.mem_iff.mpr hp) with rfl | hrest
    · exact Nat.le_refl _
    · exact List.rel_of_pairwise_cons hsorted hrest

omit [PacketSort] in
theorem mem_kept {held : List Packet} (hwell : WellHeld held) {p q : Packet} (hq : q ∈ kept held p) :
    kept held p = held ∧ p.header.packetNumber ≠ 1 ∧
      q.header.scanNumber = p.header.scanNumber := by
  rcases kept_cases held p with hnil | ⟨hheld, hnumber, r, hr, hscan⟩
  · rw [hnil] at hq
    exact absurd hq List.not_mem_nil
  · rw [hheld] at hq
    exact ⟨hheld, hnumber, (hwell.scanNumber q hq r hr).trans hscan⟩

theorem publish_toList_of_not_complete {f : UdpScanFactory} (h : isComplete f = false) :
    (publish f).2.toList = [] := by
  rw [publish_of_not_complete h]
  rfl

theorem published_step {s s' : LoopState UdpScanFactory} (h : step s .extract = some s')
    {held : List Packet} (hs : Holding holding s.scanFactory held) :
    s'.published = s.published ∨ ∃ header payload,
      findPacket s.position = .ok (.packet header payload) ∧
      Completes held ⟨header, payload.distances, payload.amplitudes⟩ ∧
      s'.published = s.published ++ [assembled (kept held ⟨header, payload.distances,
        payload.amplitudes⟩ ++ [⟨header, payload.distances, payload.amplitudes⟩])] := by
  obtain ⟨found, hfound, -, hpublished⟩ := step_extract h
  cases found with
  | nothing =>
    left
    have hpub : s'.published = s.published ++ (publish s.scanFactory).2.toList := hpublished
    rw [hpub, publish_toList_of_not_complete hs.notComplete, List.append_nil]
  | missing headerStart header n =>
    left
    have hpub : s'.published = s.published ++ (publish (clearedFor s.scanFactory header)).2.toList :=
      hpublished
    rw [hpub, publish_toList_of_not_complete (clearedFor_not_complete hs.notComplete header),
      List.append_nil]
  | packet header payload =>
    let p : Packet := ⟨header, payload.distances, payload.amplitudes⟩
    obtain ⟨-, hsmall⟩ := found_lengths hfound
    have hfew := hs.few
    have hoffer := offer_holding (p := p) (show points held < 2 ^ 16 by omega)
      (show payload.distances.length < 2 ^ 16 by omega)
    have hscan : s'.published =
        s.published ++ ((collect held p).2.map assembled).toList := by
      rw [hpublished, hs.stored]
      exact congrArg (s.published ++ Option.toList ·) (congrArg Prod.snd hoffer)
    by_cases hc : Completes held p
    · right
      refine ⟨header, payload, hfound, hc, ?_⟩
      rw [hscan, collect, if_pos hc]
      rfl
    · left
      rw [hscan, collect, if_neg hc]
      exact List.append_nil _

theorem allComplete_udp_step {s s' : LoopState UdpScanFactory} {e : LoopEvent}
    (h : step s e = some s') (horder : AnnouncesInOrder s e)
    (hs : ∃ held, Holding holding s.scanFactory held) (hall : AllComplete s) : AllComplete s' := by
  cases e with
  | deliver received =>
    rw [AllComplete, (step_deliver h).2]
    exact hall
  | extract =>
    obtain ⟨held, hs⟩ := hs
    rcases published_step h hs with hsame | ⟨header, payload, hfound, hcompletes, hpublished⟩
    · rw [AllComplete, hsame]
      exact hall
    · let p : Packet := ⟨header, payload.distances, payload.amplitudes⟩
      have hcompletes : p.header.numPointsScan.toNat ≤ points (kept held p ++ [p]) := hcompletes
      obtain ⟨first, hmem, hfirst, hnumber⟩ :=
        exists_first (List.append_ne_nil_of_right_ne_nil (kept held p) (List.cons_ne_nil p []))
      have hannounced : first.header.numPointsScan.toNat ≤ p.header.numPointsScan.toNat := by
        rcases List.mem_append.mp hmem with hkept | hlast
        · obtain ⟨hheld, hnotOne, hscan⟩ := mem_kept hs.well hkept
          have hstored : s.scanFactory.packets = kept held p := by
            rw [hs.stored, hheld]
            rfl
          refine horder rfl header payload hfound hnotOne first (hstored ▸ hkept) hscan ⟨?_, ?_⟩
          · exact hnumber p (List.mem_append_right _ (List.mem_singleton.mpr rfl))
          · intro r hr
            exact hnumber r (List.mem_append_left _ (hstored ▸ hr))
        · rw [List.mem_singleton.mp hlast]
      have hcomplete := isComplete_assembled hfirst (hannounced.trans hcompletes)
      rw [allComplete_published hpublished]
      refine ⟨hall, fun scan hscan => ?_⟩
      rw [List.mem_singleton.mp hscan]
      exact hcomplete

theorem allComplete_udp {s s' : LoopState UdpScanFactory} {events : List LoopEvent}
    (h : exec step s events = some s') (horder : Meets step AnnouncesInOrder s events)
    (hs : ∃ held, Holding holding s.scanFactory held) (hall : AllComplete s) :
    Always step AllComplete s events := by
  rintro es fs mid rfl hes
  have hboth : (∃ held, Holding holding mid.scanFactory held) ∧ AllComplete mid :=
    exec_meets (P := fun t => (∃ held, Holding holding t.scanFactory held) ∧ AllComplete t)
      (fun _ _ _ hstep hc ht => ⟨Holding.step holding_countsPoints hstep ht.1,
        allComplete_udp_step hstep hc ht.1 ht.2⟩) hes horder.left ⟨hs, hall⟩
  exact hboth.2

/-- Every scan that the TCP link publishes is complete, and every scan that the UDP link publishes
in a run whose packets announce no fewer points than the first of their scan. What a link has
received is such a run. -/
theorem published_scans_complete {tcpEvents udpEvents : List LoopEvent}
    {tcp : LoopState TcpScanFactory} {udp : LoopState UdpScanFactory}
    (htcp : exec step (TCPLinkOver.connected ⟨[], [], []⟩).loopState tcpEvents = some tcp)
    (hudp : exec step UDPLink.bound.loopState udpEvents = some udp)
    (horder : Meets step AnnouncesInOrder UDPLink.bound.loopState udpEvents) :
    Always step AllComplete (TCPLinkOver.connected ⟨[], [], []⟩ : TCPLink).loopState tcpEvents ∧
      Always step AllComplete UDPLink.bound.loopState udpEvents ∧
      (∀ reads (link : TCPLink), (TCPLinkOver.connected ⟨[], [], []⟩).receive reads = .ok link →
        AllComplete link.loopState) ∧
      ∀ datagrams link, UDPLink.bound.receive datagrams = .ok link →
        ∃ events, exec step UDPLink.bound.loopState events = some link.loopState ∧
          (Meets step AnnouncesInOrder UDPLink.bound.loopState events →
            AllComplete link.loopState) := by
  have hnone : AllComplete (TCPLinkOver.connected ⟨[], [], []⟩ : TCPLink).loopState :=
    fun _ hscan => absurd hscan List.not_mem_nil
  have hudpRun : ∀ {events : List LoopEvent} {s : LoopState UdpScanFactory},
      exec step UDPLink.bound.loopState events = some s →
      Meets step AnnouncesInOrder UDPLink.bound.loopState events →
      Always step AllComplete UDPLink.bound.loopState events := fun h horder =>
    allComplete_udp h horder ⟨[], holding_nil holding_countsPoints⟩
      fun _ hscan => absurd hscan List.not_mem_nil
  refine ⟨allComplete_tcp htcp hnone, hudpRun hudp horder, ?_, ?_⟩
  · intro reads link hlink
    obtain ⟨events, hevents⟩ := TCPLinkOver.receive_steps hlink
    exact allComplete_tcp hevents hnone events [] _ (List.append_nil events).symm hevents
  · intro datagrams link hlink
    obtain ⟨events, hevents⟩ := UDPLink.receive_steps hlink
    refine ⟨events, hevents, fun horder => ?_⟩
    exact hudpRun hevents horder events [] _ (List.append_nil events).symm hevents

end

def mixed : List ScanPacket := [announcing 1 1000, announcing 2 2]

section
attribute [local instance] insertionPacketSort

theorem receive_mixed : ∃ link, UDPLink.bound.receive (datagrams mixed) = .ok link ∧
    ∃ scan ∈ link.published, scan.isComplete = false := by
  obtain ⟨link, hlink, -, -, hpublished⟩ := UDPLink.bound_ready.receive mixed
  refine ⟨link, hlink, ⟨[5, 5], [0, 0], mixed.map fun p => p.header⟩, ?_, rfl⟩
  have hscans : (offerAll UDPLink.bound.scanFactory (decodedPackets mixed)).2 =
      [⟨[5, 5], [0, 0], mixed.map fun p => p.header⟩] := rfl
  rw [hpublished, hscans]
  exact List.mem_append_right _ (List.mem_singleton.mpr rfl)

theorem meets_datagram {s : LoopState UdpScanFactory} (h : s.Ready) (p : ScanPacket)
    (horder : p.header.packetNumber ≠ 1 → ∀ q ∈ s.scanFactory.packets,
      q.header.scanNumber = p.header.scanNumber →
        NumberedFirst s.scanFactory.packets p.header q →
          q.header.numPointsScan ≤ p.header.numPointsScan) :
    Meets step AnnouncesInOrder s (datagramEvents p) := by
  refine (meets_cons_iff h.deliver).mpr ⟨nofun, (meets_cons_iff (h.extract p)).mpr ⟨?_, ?_⟩⟩
  · intro _ header payload hfound
    cases (h.findPacket p).symm.trans hfound
    exact horder
  · refine ⟨fun _ header payload hfound => ?_, fun _ _ => trivial⟩
    cases (findPacket_of_not_searched not_searched_nil).symm.trans hfound

def uneven : List LoopEvent :=
  datagramEvents (announcing 1 2) ++ (datagramEvents (announcing 2 3) ++
    datagramEvents (announcing 3 2))

theorem published_scans_complete_uneven :
    ∃ udp, exec step UDPLink.bound.loopState uneven = some udp ∧ udp.published ≠ [] ∧
      Always step AllComplete UDPLink.bound.loopState uneven := by
  have hready : UDPLink.bound.loopState.Ready := UDPLink.bound_ready.loopState
  have hfirst := hready.datagram (announcing 1 2)
  have hnext := fun (scanFactory : UdpScanFactory) published p =>
    (LoopState.Ready.idle scanFactory published).datagram p
  have hrun : exec step UDPLink.bound.loopState uneven = some _ :=
    exec_append.mpr ⟨_, hfirst, exec_append.mpr ⟨_, hnext _ _ _, hnext _ _ _⟩⟩
  have horder : Meets step AnnouncesInOrder UDPLink.bound.loopState uneven := by
    refine meets_append (meets_datagram hready _ (by decide)) fun mid hmid => ?_
    cases hfirst.symm.trans hmid
    refine meets_append (meets_datagram (.idle _ _) _ (by decide)) fun mid hmid => ?_
    cases (hnext _ _ _).symm.trans hmid
    exact meets_datagram (.idle _ _) _ (by decide)
  have htcp : exec step (TCPLinkOver.connected (⟨[], [], []⟩ : TcpScanFactory)).loopState
      [.deliver (onePoint 7 1 1 5).bytes, .extract] =
        some ⟨[], true, ⟨[], [], []⟩, [⟨[5], [0], [(onePoint 7 1 1 5).header]⟩]⟩ := rfl
  exact ⟨_, hrun, by decide, (published_scans_complete htcp hrun horder).2.1⟩

theorem incomplete_scan_published :
    ¬ ∀ (_ : PacketSort) (datagrams : List (List UInt8)) (link : UDPLink),
      UDPLink.bound.receive datagrams = .ok link → ∀ scan ∈ link.published, scan.isComplete = true := by
  intro hall
  obtain ⟨link, hlink, scan, hscan, hshort⟩ := receive_mixed
  have hcomplete := hall insertionPacketSort _ link hlink scan hscan
  exact absurd hcomplete (by rw [hshort]; decide)

end

end R2000Driver.PacketExtraction
