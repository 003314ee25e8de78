import R2000Driver.StreamPrefix

/-!
# Reassembly of a TCP stream cut into reads

Between two reads of a stream the link is in the state `Holds`: the packets
that have arrived whole are with the factory, and the buffer holds the
beginning of the next one. A read keeps this state when each packet that it
begins or continues has as many bytes by its end as a header has in memory
(`Keeps`). A read that does not loses bytes that no later read brings back.
-/

namespace R2000Driver.PacketExtraction
open Data ScanFactory

attribute [local irreducible] WirePacket.bytes

structure AfterRead {F : Type} (exit : LoopExit F (Option UInt32 × List Scan))
    (link : TCPLinkOver F) : Prop where
  buffer : link.extractionByteBuffer = exit.position
  published : link.published = exit.output.2
  scanFactory : link.scanFactory = exit.scanFactory

section Link
variable {F : Type} [ScanFactory F]

theorem onBytesReceived_cases (link : TCPLinkOver F) (received : List UInt8) :
    let range := link.extractionByteBuffer ++ received
    let result := extractionLoop TCPLinkOver.onCompleteScan (range.length + 1) range link.scanFactory
      (none, link.published)
    (∃ e, result = .error e ∧ link.onBytesReceived received = .error e) ∨
    (∃ exit link', result = .ok exit ∧ link.onBytesReceived received = .ok link' ∧
      AfterRead exit link') := by
  intro range result
  cases hr : result with
  | error e =>
    refine Or.inl ⟨e, rfl, ?_⟩
    simp only [TCPLinkOver.onBytesReceived, TCPLinkOver.tryExtractingScanFromByteRange]
    rw [show extractionLoop _ _ _ _ _ = _ from hr]
  | ok exit =>
    refine Or.inr ⟨exit, ?link, rfl, ?read, ?after⟩
    case read =>
      simp only [TCPLinkOver.onBytesReceived, TCPLinkOver.tryExtractingScanFromByteRange]
      rw [show extractionLoop _ _ _ _ _ = _ from hr]
    case after =>
      cases exit.output.1 with
      | none => exact ⟨rfl, rfl, rfl⟩
      | some size =>
        simp only [TCPLinkOver.resizeReceptionAndExtractionBuffers]
        split_ifs <;> exact ⟨rfl, rfl, rfl⟩

structure Holds (f : F) (received : List UInt8) (done rest : List ScanPacket)
    (link : TCPLinkOver F) : Prop where
  received : received = stream done ++ link.extractionByteBuffer
  cut : ∀ p qs, rest = p :: qs → link.extractionByteBuffer.length < p.bytes.length
  published : link.published = (offerAll f (decodedPackets done)).2
  factory : Looked (offerAll f (decodedPackets done)).1 rest link.scanFactory

/-- A read of `n` bytes behind `m` others: each packet with bytes in it, or
begun before it, has by its end the bytes that the search asks for. -/
def Keeps (packets : List ScanPacket) (m n : ℕ) : Prop :=
  ∀ ps p qs, packets = ps ++ p :: qs → m < (stream (ps ++ [p])).length →
    (stream ps).length < m + n → sizeofHeader ≤ (m + n - (stream ps).length) % 2 ^ 32

theorem Holds.keeps_iff {f : F} {received : List UInt8} {done rest : List ScanPacket}
    {link : TCPLinkOver F} (h : Holds f received done rest link) (n : ℕ) :
    Keeps (done ++ rest) received.length n ↔ Begun rest (link.extractionByteBuffer.length + n) := by
  have hl := congrArg List.length h.received
  rw [List.length_append] at hl
  constructor
  · intro hk ps p qs hr hlt
    have hbehind : link.extractionByteBuffer.length < (stream (ps ++ [p])).length := by
      cases ps with
      | nil => simpa using h.cut p qs hr
      | cons q ps =>
        have hcut := h.cut q _ hr
        simp only [List.cons_append, stream_cons, List.length_append]
        omega
    have hk' := hk (done ++ ps) p qs (by rw [hr, List.append_assoc])
    have hoff : received.length + n - (stream (done ++ ps)).length =
        link.extractionByteBuffer.length + n - (stream ps).length := by
      rw [hl, stream_append, List.length_append]
      omega
    rw [hoff] at hk'
    simp only [stream_append, List.length_append] at hk' hbehind
    exact hk' (by omega) (by omega)
  · intro hb ps p qs hr hlt hbegin
    rcases List.append_eq_append_iff.mp hr with ⟨as, rfl, hrest⟩ | ⟨bs, hdone, hqs⟩
    · have hoff : received.length + n - (stream (done ++ as)).length =
          link.extractionByteBuffer.length + n - (stream as).length := by
        rw [hl, stream_append, List.length_append]
        omega
      rw [hoff]
      apply hb as p qs hrest
      rw [stream_append, List.length_append] at hbegin
      omega
    · cases bs with
      | nil =>
        rw [List.append_nil] at hdone
        subst hdone
        have hoff : received.length + n - (stream done).length =
            link.extractionByteBuffer.length + n - (stream []).length := by
          rw [hl, stream_nil, List.length_nil]
          omega
        rw [hoff]
        apply hb [] p qs hqs.symm
        rw [stream_nil, List.length_nil]
        omega
      | cons q bs =>
        obtain ⟨rfl, -⟩ := List.cons.inj hqs
        have hd := congrArg (fun l => (stream l).length) hdone
        simp only [stream_append, stream_cons, stream_nil, List.length_append, List.length_nil] at hd hlt
        omega

theorem Looked.offer_eq [Lawful F] {f f' : F} {p : ScanPacket} {rest : List ScanPacket}
    (h : Looked f (p :: rest) f') (ps : List Packet) :
    offerAll f' (p.decoded :: ps) = offerAll f (p.decoded :: ps) := by
  rcases h with rfl | ⟨q, qs, hr, rfl⟩
  · rfl
  · obtain ⟨rfl, -⟩ := List.cons.inj hr
    have ho := offer_clearedFor f p.decoded
    simp only [offerAll]
    rw [show offer (clearedFor f p.header) p.decoded = _ from ho]

theorem Looked.trans [Lawful F] {f f₁ f₂ : F} {rest : List ScanPacket} (h₁ : Looked f rest f₁)
    (h₂ : Looked f₁ rest f₂) : Looked f rest f₂ := by
  rcases h₁ with rfl | ⟨p, qs, hr, rfl⟩
  · exact h₂
  · rcases h₂ with rfl | ⟨q, qs', hr', rfl⟩
    · exact Or.inr ⟨p, qs, hr, rfl⟩
    · obtain ⟨rfl, -⟩ := List.cons.inj (hr.symm.trans hr')
      exact Or.inr ⟨p, qs, hr, clearedFor_idem _ _⟩

theorem Looked.not_complete [Lawful F] {f f' : F} {rest : List ScanPacket}
    (h : Looked f rest f') (hf : isComplete f = false) : isComplete f' = false := by
  rcases h with rfl | ⟨p, qs, -, rfl⟩
  · exact hf
  · exact clearedFor_not_complete hf _

theorem Holds.onBytesReceived [Lawful F] {f : F} (hf : isComplete f = false)
    {received c tail : List UInt8} {done rest : List ScanPacket} {link : TCPLinkOver F}
    (h : Holds f received done rest link) (hstream : received ++ c ++ tail = stream (done ++ rest))
    (hk : Keeps (done ++ rest) received.length c.length) :
    ∃ link' done' rest', link.onBytesReceived c = .ok link' ∧ done ++ rest = done' ++ rest' ∧
      Holds f (received ++ c) done' rest' link' := by
  have hrange : (link.extractionByteBuffer ++ c) ++ tail = stream rest := by
    rw [h.received, stream_append] at hstream
    simpa only [List.append_assoc, List.append_cancel_left_eq] using hstream
  have hbegun : Begun rest (link.extractionByteBuffer ++ c).length := by
    rw [List.length_append]
    exact (h.keeps_iff _).mp hk
  have hbase := offerAll_not_complete hf (decodedPackets done)
  obtain ⟨exit, ps, qs, hloop, hrest, hps, hstops⟩ := extractionLoop_stopsBehind hrange hbegun
    (Nat.lt_succ_self _) (h.factory.not_complete hbase) (none, link.published)
  rcases onBytesReceived_cases link c with ⟨e, he, -⟩ | ⟨exit', link', hloop', hlink, hafter⟩
  · cases he.symm.trans hloop
  obtain rfl : exit' = exit := Except.ok.inj (hloop'.symm.trans hloop)
  refine ⟨link', done ++ ps, qs, hlink, by rw [hrest, List.append_assoc], ?_, ?_, ?_, ?_⟩
  · rw [h.received, List.append_assoc, hps, hafter.buffer, stream_append, List.append_assoc]
  · rw [hafter.buffer]
    exact hstops.cut
  · rw [hafter.published, hstops.published, decodedPackets_append, offerAll_append, h.published]
    cases ps with
    | nil => rfl
    | cons p ps =>
      have hl := h.factory
      rw [hrest] at hl
      rw [show decodedPackets (p :: ps) = p.decoded :: decodedPackets ps from rfl, hl.offer_eq]
  · rw [hafter.scanFactory, decodedPackets_append, offerAll_append]
    have hl := h.factory
    rw [hrest] at hl
    cases ps with
    | nil => exact hl.trans hstops.factory
    | cons p ps =>
      have hfac := hstops.factory
      rw [show decodedPackets (p :: ps) = p.decoded :: decodedPackets ps from rfl, hl.offer_eq] at hfac
      exact hfac

def Unsplit (packets : List ScanPacket) (reads : List (List UInt8)) : Prop :=
  ∀ xs c ys, reads = xs ++ c :: ys → Keeps packets xs.flatten.length c.length

theorem Holds.receive [Lawful F] {f : F} (hf : isComplete f = false) {packets : List ScanPacket}
    {xs ys : List (List UInt8)} {tail : List UInt8}
    (hstream : (xs ++ ys).flatten ++ tail = stream packets) (hk : Unsplit packets (xs ++ ys))
    {done rest : List ScanPacket} {link : TCPLinkOver F} (hp : packets = done ++ rest)
    (h : Holds f xs.flatten done rest link) :
    ∃ link' done' rest', link.receive ys = .ok link' ∧ packets = done' ++ rest' ∧
      Holds f (xs ++ ys).flatten done' rest' link' := by
  induction ys generalizing xs done rest link with
  | nil => exact ⟨link, done, rest, rfl, hp, by rwa [List.append_nil]⟩
  | cons c ys ih =>
    subst hp
    have hfl : (xs ++ c :: ys).flatten ++ tail = xs.flatten ++ c ++ (ys.flatten ++ tail) := by
      simp only [List.flatten_append, List.flatten_cons, List.append_assoc]
    have hc : (xs ++ [c]).flatten = xs.flatten ++ c := by simp
    have hsnoc : xs ++ c :: ys = (xs ++ [c]) ++ ys := by simp
    obtain ⟨link', done', rest', hlink, hp', h'⟩ :=
      h.onBytesReceived hf (hfl ▸ hstream) (hk xs c ys rfl)
    rw [← hc] at h'
    rw [hsnoc] at hstream hk ⊢
    obtain ⟨link'', done'', rest'', hlink', hp'', h''⟩ := ih hstream hk hp' h'
    refine ⟨link'', done'', rest'', ?_, hp'', h''⟩
    rw [TCPLinkOver.receive_cons hlink]
    exact hlink'

theorem holds_connected (f : F) (packets : List ScanPacket) :
    Holds f [] [] packets (TCPLinkOver.connected f) :=
  ⟨rfl, fun p _ _ => p.length_pos, rfl, Or.inl rfl⟩

theorem Holds.whole {f : F} {packets done rest : List ScanPacket} {link : TCPLinkOver F}
    (hp : packets = done ++ rest) (h : Holds f (stream packets) done rest link) : done = packets := by
  have hr := congrArg List.length h.received
  rw [hp, stream_append, List.length_append, List.length_append] at hr
  cases rest with
  | nil => rw [hp, List.append_nil]
  | cons p rest =>
    have hcut := h.cut p rest rfl
    rw [stream_cons, List.length_append] at hr
    omega

theorem receive_of_unsplit [Lawful F] (f : F) (hf : isComplete f = false)
    {packets : List ScanPacket} {reads : List (List UInt8)} (hstream : reads.flatten = stream packets)
    (hk : Unsplit packets reads) :
    ∃ link, (TCPLinkOver.connected f).receive reads = .ok link ∧
      link.published = (offerAll f (decodedPackets packets)).2 ∧
      Looked (offerAll f (decodedPackets packets)).1 [] link.scanFactory := by
  have hall : ([] ++ reads).flatten ++ [] = stream packets := by
    rw [List.nil_append, List.append_nil, hstream]
  obtain ⟨link, done, rest, hlink, hp, h⟩ := (holds_connected f packets).receive hf hall hk rfl
  rw [List.nil_append, hstream] at h
  obtain rfl := h.whole hp
  obtain rfl : rest = [] := by simpa using hp
  exact ⟨link, hlink, h.published, h.factory⟩

end Link

section Loss
variable {F : Type} [ScanFactory F]

def held (link : TCPLinkOver (Recorder F)) : ℕ :=
  weight link.scanFactory.added + link.extractionByteBuffer.length

theorem held_onBytesReceived {link link' : TCPLinkOver (Recorder F)} {c : List UInt8}
    (h : link.onBytesReceived c = .ok link') : held link' ≤ held link + c.length := by
  rcases onBytesReceived_cases link c with ⟨e, -, he⟩ | ⟨exit, link'', hloop, hlink, hafter⟩
  · cases he.symm.trans h
  obtain rfl : link'' = link' := Except.ok.inj (hlink.symm.trans h)
  have hw := extractionLoop_weight hloop
  rw [held, held, hafter.buffer, hafter.scanFactory]
  rw [List.length_append] at hw
  omega

theorem held_receive {link link' : TCPLinkOver (Recorder F)} {reads : List (List UInt8)}
    (h : link.receive reads = .ok link') : held link' ≤ held link + reads.flatten.length := by
  induction reads generalizing link with
  | nil =>
    cases h
    exact Nat.le_add_right _ _
  | cons c reads ih =>
    obtain ⟨next, hread, hrest⟩ := TCPLinkOver.exists_of_receive_cons h
    have hone := held_onBytesReceived hread
    have hmore := ih hrest
    rw [List.flatten_cons, List.length_append]
    omega

theorem held_loses [Lawful F] {rest : List ScanPacket} {link link' : TCPLinkOver (Recorder F)}
    {c tail : List UInt8} (hstream : (link.extractionByteBuffer ++ c) ++ tail = stream rest)
    (hbegun : ¬ Begun rest (link.extractionByteBuffer ++ c).length)
    (h : link.onBytesReceived c = .ok link') : held link' < held link + c.length := by
  rcases onBytesReceived_cases link c with ⟨e, -, he⟩ | ⟨exit, link'', hloop, hlink, hafter⟩
  · cases he.symm.trans h
  obtain rfl : link'' = link' := Except.ok.inj (hlink.symm.trans h)
  have hw := extractionLoop_loses hstream hbegun hloop
  rw [held, held, hafter.buffer, hafter.scanFactory]
  rw [List.length_append] at hw
  omega

theorem unsplit_of_held [Lawful F] {r : Recorder F} (hr : isComplete r = false)
    {packets : List ScanPacket} {xs ys : List (List UInt8)}
    (hstream : (xs ++ ys).flatten = stream packets) {done rest : List ScanPacket}
    {link link' : TCPLinkOver (Recorder F)} (hp : packets = done ++ rest)
    (h : Holds r xs.flatten done rest link) (hlink : link.receive ys = .ok link')
    (hheld : held link + ys.flatten.length ≤ held link') :
    ∀ us c vs, ys = us ++ c :: vs → Keeps packets (xs ++ us).flatten.length c.length := by
  induction ys generalizing xs done rest link with
  | nil =>
    intro us c vs hus
    simp at hus
  | cons c ys ih =>
    subst hp
    have hfl : (xs ++ c :: ys).flatten = xs.flatten ++ c ++ ys.flatten := by simp
    have hc : (xs ++ [c]).flatten = xs.flatten ++ c := by simp
    have hsnoc : xs ++ c :: ys = (xs ++ [c]) ++ ys := by simp
    obtain ⟨next, hnext, hlink⟩ := TCPLinkOver.exists_of_receive_cons hlink
    have hlater := held_receive hlink
    rw [List.flatten_cons, List.length_append] at hheld
    have hkeeps : Keeps (done ++ rest) xs.flatten.length c.length := by
      rw [h.keeps_iff, ← List.length_append]
      by_contra hbegun
      have hrange : (link.extractionByteBuffer ++ c) ++ ys.flatten = stream rest := by
        rw [hfl, h.received, stream_append] at hstream
        simpa only [List.append_assoc, List.append_cancel_left_eq] using hstream
      have hloses := held_loses hrange hbegun hnext
      omega
    obtain ⟨link'', done', rest', hlink'', hp', h'⟩ := h.onBytesReceived hr (hfl ▸ hstream) hkeeps
    obtain rfl : link'' = next := Except.ok.inj (hlink''.symm.trans hnext)
    rw [← hc] at h'
    have hone := held_onBytesReceived hnext
    have hrest := ih (hsnoc ▸ hstream) hp' h' hlink (by omega)
    intro us d vs hus
    cases us with
    | nil =>
      obtain ⟨rfl, -⟩ := List.cons.inj hus
      rwa [List.append_nil]
    | cons u us =>
      obtain ⟨rfl, hys⟩ := List.cons.inj hus
      have hd := hrest us d vs hys
      rwa [List.append_assoc] at hd

theorem keeps_of_added [Lawful F] {f : F} (hf : isComplete f = false) {packets : List ScanPacket}
    {reads : List (List UInt8)} (hstream : reads.flatten = stream packets)
    {link : TCPLinkOver (Recorder F)}
    (hlink : (TCPLinkOver.connected (Recorder.mk f [])).receive reads = .ok link)
    (hadded : link.scanFactory.added = decodedPackets packets) : Unsplit packets reads := by
  have hzero : held (TCPLinkOver.connected (Recorder.mk f [])) = 0 := rfl
  have hheld : held (TCPLinkOver.connected (Recorder.mk f [])) + reads.flatten.length ≤ held link := by
    have hlink : held link = (stream packets).length + link.extractionByteBuffer.length := by
      rw [held, hadded, weight_decodedPackets]
    rw [hzero, hstream, hlink]
    omega
  have hall : ([] ++ reads).flatten = stream packets := by rw [List.nil_append, hstream]
  exact unsplit_of_held hf hall rfl (holds_connected _ packets) hlink hheld

end Loss

def publishedFrom (reads : List (List UInt8)) : Except Fault (List Scan) :=
  ((TCPLinkOver.connected ⟨[], [], []⟩ : TCPLink).receive reads).map fun link => link.published

def addedFrom (reads : List (List UInt8)) : Except Fault (List Packet) :=
  ((TCPLinkOver.connected ⟨⟨[], [], []⟩, []⟩ : TCPLinkOver (Recorder TcpScanFactory)).receive
    reads).map fun link => link.scanFactory.added

/-- The link takes the reads, and so does the one that also records, with these packets added. -/
def Delivers (reads : List (List UInt8)) (added : List Packet) : Prop :=
  ∃ recorded : TCPLinkOver (Recorder TcpScanFactory),
    (TCPLinkOver.connected ⟨⟨[], [], []⟩, []⟩).receive reads = .ok recorded ∧
    (TCPLinkOver.connected ⟨[], [], []⟩ : TCPLink).receive reads = .ok recorded.forget ∧
    recorded.scanFactory.added = added

theorem delivers_iff {reads : List (List UInt8)} {added : List Packet} :
    Delivers reads added ↔ addedFrom reads = .ok added := by
  rw [addedFrom]
  constructor
  · rintro ⟨recorded, hrecorded, -, hadded⟩
    rw [hrecorded, ← hadded]
    rfl
  · intro h
    cases hrecorded : (TCPLinkOver.connected ⟨⟨[], [], []⟩, []⟩ :
        TCPLinkOver (Recorder TcpScanFactory)).receive reads with
    | error e =>
      rw [hrecorded] at h
      cases h
    | ok recorded =>
      rw [hrecorded] at h
      have hplain := receive_forget (TCPLinkOver.connected ⟨⟨[], [], []⟩, []⟩ :
        TCPLinkOver (Recorder TcpScanFactory)) reads
      rw [hrecorded] at hplain
      exact ⟨recorded, hrecorded, hplain.symm, Except.ok.inj h⟩

def Reassembles (packets : List ScanPacket) (reads : List (List UInt8)) : Prop :=
  (∃ scans, publishedFrom reads = .ok scans ∧ publishedFrom [reads.flatten] = .ok scans) ∧
  Delivers reads (decodedPackets packets) ∧ Delivers [reads.flatten] (decodedPackets packets)

theorem publishedFrom_of_unsplit {packets : List ScanPacket} {reads : List (List UInt8)}
    (hstream : reads.flatten = stream packets) (hk : Unsplit packets reads) :
    publishedFrom reads =
      .ok (offerAll (⟨[], [], []⟩ : TcpScanFactory) (decodedPackets packets)).2 := by
  obtain ⟨link, hlink, hpub, -⟩ :=
    receive_of_unsplit (⟨[], [], []⟩ : TcpScanFactory) rfl hstream hk
  rw [publishedFrom, hlink, ← hpub]
  rfl

theorem addedFrom_of_unsplit {packets : List ScanPacket} {reads : List (List UInt8)}
    (hstream : reads.flatten = stream packets) (hk : Unsplit packets reads) :
    addedFrom reads = .ok (decodedPackets packets) := by
  obtain ⟨link, hlink, -, hfac⟩ :=
    receive_of_unsplit (⟨⟨[], [], []⟩, []⟩ : Recorder TcpScanFactory) rfl hstream hk
  have hadded : link.scanFactory.added = decodedPackets packets := by
    rcases hfac with hfac | ⟨p, qs, hnil, -⟩
    · rw [hfac, Recorder.added_offerAll]
      rfl
    · cases hnil
  rw [addedFrom, hlink, ← hadded]
  rfl

theorem unsplit_of_addedFrom {packets : List ScanPacket} {reads : List (List UInt8)}
    (hstream : reads.flatten = stream packets) (h : addedFrom reads = .ok (decodedPackets packets)) :
    Unsplit packets reads := by
  rw [addedFrom] at h
  cases hlink : (TCPLinkOver.connected ⟨⟨[], [], []⟩, []⟩ :
      TCPLinkOver (Recorder TcpScanFactory)).receive reads with
  | error e =>
    rw [hlink] at h
    cases h
  | ok link =>
    rw [hlink] at h
    exact keeps_of_added rfl hstream hlink (Except.ok.inj h)

/-- The scans are independent of the reads, and no packet is lost, exactly
when no read leaves fewer bytes of a packet than a header has in memory. -/
theorem tcp_reassembles_iff {packets : List ScanPacket} {reads : List (List UInt8)}
    (hstream : reads.flatten = stream packets) :
    Reassembles packets reads ↔ Unsplit packets reads ∧ Unsplit packets [reads.flatten] := by
  have hone : [reads.flatten].flatten = stream packets := by rw [List.flatten_singleton, hstream]
  constructor
  · rintro ⟨-, hreads, hwhole⟩
    exact ⟨unsplit_of_addedFrom hstream (delivers_iff.mp hreads),
      unsplit_of_addedFrom hone (delivers_iff.mp hwhole)⟩
  · rintro ⟨hreads, hwhole⟩
    exact ⟨⟨_, publishedFrom_of_unsplit hstream hreads, publishedFrom_of_unsplit hone hwhole⟩,
      delivers_iff.mpr (addedFrom_of_unsplit hstream hreads),
      delivers_iff.mpr (addedFrom_of_unsplit hone hwhole)⟩

theorem packetSize_zeroPoints (numPoints : UInt16) : (76 + 4 * numPoints.toUInt32).toNat =
    (76 : UInt16).toNat + (List.replicate numPoints.toNat (0 : UInt32)).length * pointSize 0x0041 := by
  have hn := numPoints.toNat_lt
  have hp : pointSize 0x0041 = 4 := rfl
  have h4 : (4 : UInt32).toNat = 4 := rfl
  have h76 : (76 : UInt32).toNat = 76 := rfl
  have h76' : (76 : UInt16).toNat = 76 := rfl
  rw [UInt32.toNat_add, UInt32.toNat_mul, UInt16.toNat_toUInt32, List.length_replicate, hp, h4, h76,
    h76']
  omega

def zeroPoints (scanNumber numPoints : UInt16) (h : 0 < numPoints.toNat) : ScanPacket where
  header := ⟨0xa25c, 0x0041, 76 + 4 * numPoints.toUInt32, 76, scanNumber, 1, 0, 0, 0, 0, numPoints,
    numPoints, 0, 0, 0, 0, 0, 0, 0⟩
  padding := []
  payload := .a (List.replicate numPoints.toNat 0)
  magic := rfl
  packetType := rfl
  headerSize := rfl
  numPointsPacket := List.length_replicate.symm
  packetSize := packetSize_zeroPoints numPoints
  hasPoint := by simpa [RawPayload.count] using h

theorem onBytesReceived_of_loop {F : Type} [ScanFactory F] {link : TCPLinkOver F}
    {received range : List UInt8} (hr : link.extractionByteBuffer ++ received = range)
    {exit : LoopExit F (Option UInt32 × List Scan)}
    (h : extractionLoop TCPLinkOver.onCompleteScan (range.length + 1) range link.scanFactory
      (none, link.published) = .ok exit) :
    ∃ link', link.onBytesReceived received = .ok link' ∧ AfterRead exit link' := by
  subst hr
  rcases onBytesReceived_cases link received with ⟨e, he, -⟩ | ⟨exit', link', hloop, hlink, hafter⟩
  · cases he.symm.trans h
  · obtain rfl : exit' = exit := Except.ok.inj (hloop.symm.trans h)
    exact ⟨link', hlink, hafter⟩

theorem onBytesReceived_drops {F : Type} [ScanFactory F] [Lawful F] (link : TCPLinkOver F)
    (hbuffer : link.extractionByteBuffer = []) (p : WirePacket) (l : List UInt8)
    (hs : Searched (p.bytes ++ l)) (hshort : ¬ Searched l) :
    ∃ link', link.onBytesReceived (p.bytes ++ l) = .ok link' ∧ link'.extractionByteBuffer = [] ∧
      link'.published = link.published ++ (offer link.scanFactory p.decoded).2.toList ∧
      link'.scanFactory = (offer link.scanFactory p.decoded).1 := by
  obtain ⟨n, hn⟩ : ∃ n, (p.bytes ++ l).length = n + 1 :=
    ⟨(p.bytes ++ l).length - 1, by have := hs.le_length; simp only [sizeofHeader] at this; omega⟩
  have hstep := extractionLoop_packet TCPLinkOver.onCompleteScan p [] l
    (fun k hk => absurd hk k.not_lt_zero) hs (n + 1) link.scanFactory (none, link.published)
  rw [extractionLoop_nothing _ (findPacket_of_not_searched hshort) _ (offer_not_complete _ _)] at hstep
  rw [List.nil_append, ← hn] at hstep
  have hr : link.extractionByteBuffer ++ (p.bytes ++ l) = p.bytes ++ l := by
    rw [hbuffer, List.nil_append]
  obtain ⟨link', hlink, hafter⟩ := onBytesReceived_of_loop hr hstep
  exact ⟨link', hlink, hafter.buffer, hafter.published.trans (onCompleteScan_scans _ _ _),
    hafter.scanFactory⟩

theorem onBytesReceived_nothing {F : Type} [ScanFactory F] (link : TCPLinkOver F)
    (hbuffer : link.extractionByteBuffer = []) {received : List UInt8}
    (h : findPacket received = .ok .nothing) (hf : isComplete link.scanFactory = false) :
    ∃ link', link.onBytesReceived received = .ok link' ∧ link'.published = link.published := by
  have hloop := extractionLoop_nothing TCPLinkOver.onCompleteScan h received.length hf
    (none, link.published)
  have hr : link.extractionByteBuffer ++ received = received := by
    rw [hbuffer, List.nil_append]
  obtain ⟨link', hlink, hafter⟩ := onBytesReceived_of_loop hr hloop
  exact ⟨link', hlink, hafter.published⟩

theorem retrievePacketMagic_of_not_mem {range : List UInt8} (h : (0xa2 : UInt8) ∉ range) :
    retrievePacketMagic range = none := by
  cases hm : retrievePacketMagic range with
  | none => rfl
  | some headerStart =>
    obtain ⟨g, hg, ⟨rest, hs⟩, -⟩ := retrievePacketMagic_eq_some hm
    rw [hg, ← hs] at h
    simp at h

theorem zeroPoints_bytes (scanNumber numPoints : UInt16) (h : 0 < numPoints.toNat) :
    (zeroPoints scanNumber numPoints h).bytes =
      (zeroPoints scanNumber numPoints h).header.bytes ++ List.replicate (4 * numPoints.toNat) 0 := by
  have hz : uint32Bytes 0 = List.replicate 4 0 := by decide
  unfold WirePacket.bytes
  simp only [zeroPoints, RawPayload.bytes, List.append_nil, List.append_cancel_left_eq]
  rw [List.flatMap_replicate, hz, List.flatten_replicate_replicate, Nat.mul_comm]

def Packet.scan (p : Packet) : Scan := ⟨p.distances, p.amplitudes, [p.header]⟩

theorem offer_zeroPoints (scanNumber numPoints : UInt16) (h : 0 < numPoints.toNat) :
    offer (⟨[], [], []⟩ : TcpScanFactory) (zeroPoints scanNumber numPoints h).decoded =
      (⟨[], [], []⟩, some (zeroPoints scanNumber numPoints h).decoded.scan) := by
  let p := zeroPoints scanNumber numPoints h
  have hc : isComplete (addPacket (⟨[], [], []⟩ : TcpScanFactory) p.header p.decoded.distances
      p.decoded.amplitudes) = true := by
    change decide (numPoints.toNat ≤ ([] ++ p.payload.distances).length) = true
    rw [List.nil_append, RawPayload.length_distances]
    simp [p, zeroPoints, RawPayload.count]
  have hcleared : clearedFor (⟨[], [], []⟩ : TcpScanFactory) p.header = ⟨[], [], []⟩ := rfl
  change offer (⟨[], [], []⟩ : TcpScanFactory) p.decoded = _
  rw [offer, show p.decoded.header = p.header from rfl, hcleared, publish, if_pos hc]
  rfl

def firstScan : ScanPacket := zeroPoints 1 1001 (by decide)
def secondScan : ScanPacket := zeroPoints 2 1009 (by decide)

theorem length_firstScan : firstScan.bytes.length = 4080 := firstScan.length_bytes

theorem length_secondScan : secondScan.bytes.length = 4112 := secondScan.length_bytes

def defaultReads : List (List UInt8) :=
  [(stream [firstScan, secondScan]).take 4096, (stream [firstScan, secondScan]).drop 4096]

theorem flatten_defaultReads : defaultReads.flatten = stream [firstScan, secondScan] := by
  simp [defaultReads]

theorem tcp_reassembles_iff_defaultReads :
    Reassembles [firstScan, secondScan] defaultReads ↔
      Unsplit [firstScan, secondScan] defaultReads ∧
        Unsplit [firstScan, secondScan] [defaultReads.flatten] :=
  tcp_reassembles_iff flatten_defaultReads

theorem defaultReads_eq :
    defaultReads = [firstScan.bytes ++ secondScan.bytes.take 16, secondScan.bytes.drop 16] := by
  have hs : stream [firstScan, secondScan] = firstScan.bytes ++ secondScan.bytes := by simp
  rw [defaultReads, hs, List.take_append, List.drop_append, length_firstScan,
    List.take_of_length_le (by rw [length_firstScan]; decide),
    List.drop_of_length_le (by rw [length_firstScan]; decide), List.nil_append]

theorem findPacket_second_read : findPacket (secondScan.bytes.drop 16) = .ok .nothing := by
  apply findPacket_of_no_magic
  apply retrievePacketMagic_of_not_mem
  have hb := zeroPoints_bytes 2 1009 (by decide)
  have hh : 16 ≤ secondScan.header.bytes.length := by
    rw [Header.length_bytes]
    decide
  have hmem : (0xa2 : UInt8) ∉ secondScan.header.bytes.drop 16 := by decide
  change (0xa2 : UInt8) ∉ secondScan.bytes.drop 16
  rw [show secondScan.bytes = secondScan.header.bytes ++ _ from hb, List.drop_append_of_le_length hh]
  simp only [List.mem_append, List.mem_replicate, not_or]
  exact ⟨hmem, by decide⟩

theorem publishedFrom_defaultReads :
    publishedFrom defaultReads = .ok [firstScan.decoded.scan] := by
  have hl : (firstScan.bytes ++ secondScan.bytes.take 16).length = 4096 := by
    rw [List.length_append, List.length_take, length_firstScan, length_secondScan]
    rfl
  have hs : Searched (firstScan.bytes ++ secondScan.bytes.take 16) := by
    rw [Searched, hl]
    decide
  have hshort : ¬ Searched (secondScan.bytes.take 16) := by
    rw [Searched, List.length_take, length_secondScan]
    decide
  have hoffer := offer_zeroPoints 1 1001 (by decide)
  let start : TCPLink := TCPLinkOver.connected ⟨[], [], []⟩
  obtain ⟨link, hlink, hbuffer, hpub, hfac⟩ :=
    onBytesReceived_drops start rfl firstScan.toWirePacket (secondScan.bytes.take 16) hs hshort
  change link.published = [] ++ (offer (⟨[], [], []⟩ : TcpScanFactory) firstScan.decoded).2.toList at hpub
  change link.scanFactory = (offer (⟨[], [], []⟩ : TcpScanFactory) firstScan.decoded).1 at hfac
  rw [show offer _ firstScan.decoded = _ from hoffer] at hpub hfac
  have hincomplete : isComplete link.scanFactory = false := by
    rw [hfac]
    rfl
  obtain ⟨link', hlink', hpub'⟩ :=
    onBytesReceived_nothing link hbuffer findPacket_second_read hincomplete
  rw [publishedFrom, defaultReads_eq, TCPLinkOver.receive, show start.onBytesReceived _ = _ from hlink]
  simp only [TCPLinkOver.receive, hlink']
  exact congrArg Except.ok (hpub'.trans hpub)

theorem unsplit_defaultReads : Unsplit [firstScan, secondScan] [defaultReads.flatten] := by
  intro xs c ys hxs
  obtain ⟨rfl, hc⟩ : xs = [] ∧ defaultReads.flatten = c := by
    cases xs with
    | nil => exact ⟨rfl, (List.cons.inj hxs).1⟩
    | cons x xs => simp at hxs
  have hl : c.length = 4080 + 4112 := by
    rw [← hc, flatten_defaultReads, stream_cons, stream_cons, stream_nil, List.append_nil,
      List.length_append, length_firstScan, length_secondScan]
  rintro ps p qs hps - -
  rw [List.flatten_nil, List.length_nil, hl]
  match ps, hps with
  | [], _ => decide
  | [q], hps =>
    obtain ⟨rfl, -⟩ := List.cons.inj hps
    rw [stream_cons, stream_nil, List.append_nil, length_firstScan]
    decide
  | [_, _], hps => simp at hps
  | _ :: _ :: _ :: _, hps => simp at hps

theorem publishedFrom_whole : publishedFrom [defaultReads.flatten] =
    .ok [firstScan.decoded.scan, secondScan.decoded.scan] := by
  have hone : [defaultReads.flatten].flatten = stream [firstScan, secondScan] := by
    rw [List.flatten_singleton, flatten_defaultReads]
  rw [publishedFrom_of_unsplit hone unsplit_defaultReads]
  simp only [firstScan, secondScan, decodedPackets, List.map_cons, List.map_nil, offerAll,
    offer_zeroPoints]
  rfl

theorem tcp_reads_lose_a_scan :
    ¬ ∀ (packets : List ScanPacket) (reads : List (List UInt8)), reads.flatten = stream packets →
      ∃ scans, publishedFrom reads = .ok scans ∧ publishedFrom [reads.flatten] = .ok scans := by
  intro hall
  obtain ⟨scans, hreads, hwhole⟩ := hall _ defaultReads flatten_defaultReads
  rw [publishedFrom_defaultReads] at hreads
  rw [publishedFrom_whole] at hwhole
  cases hreads
  injection hwhole with h
  simp at h

end R2000Driver.PacketExtraction
