import R2000Driver.TcpReassembly

/-!
# The sizes of the reads of the TCP link

Every handler asks for the next read: as many bytes as the loop misses, at most
the size of the reception buffer before it is resized. The sizes stay within
their bounds in every run (`Sized`). When the beginning of a packet is left, no
iteration before its end completes a scan, so the following reads ask for what
is missing, in pieces of the size of the buffer, and the last one ends where the
packet ends.
-/

namespace R2000Driver.PacketExtraction
open Data ScanFactory

theorem toNat_min (a b : UInt32) : (min a b).toNat = min a.toNat b.toNat := by
  change (if a ≤ b then a else b).toNat = _
  split_ifs with h
  · exact (Nat.min_eq_left h).symm
  · exact (Nat.min_eq_right (Nat.le_of_not_le h)).symm

theorem toNat_max (a b : UInt32) : (max a b).toNat = max a.toNat b.toNat := by
  change (if a ≤ b then b else a).toNat = _
  split_ifs with h
  · exact (Nat.max_eq_right h).symm
  · exact (Nat.max_eq_left (Nat.le_of_not_le h)).symm

theorem missing_of_exit {last position missing : List UInt8} {n : UInt32}
    (h : (findPacket last = .ok .nothing ∧ position = [] ∧ n = 0) ∨
      ∃ header, findPacket last = .ok (.missing position header n))
    {p : WirePacket} (hb : p.bytes = position ++ missing) (hlength : sizeofHeader ≤ position.length) :
    n = UInt32.ofNat missing.length := by
  simp only [sizeofHeader] at hlength
  rcases h with ⟨-, rfl, -⟩ | ⟨header, hmissing⟩
  · cases hlength
  · obtain ⟨hat, hcount⟩ := findPacket_eq_missing hmissing
    have hheader := hat.header
    rw [fromByteRange_of_cut hb (by simp only [wireHeaderSize]; omega)] at hheader
    cases hheader
    rw [hcount, missingBytes_of_cut hb]

section
variable {F : Type} [ScanFactory F]

theorem computeBounded_bounds (f : F) :
    4096 ≤ (TCPLinkOver.computeBoundedRequiredBufferSizeToHostAFullScan f).toNat ∧
      (TCPLinkOver.computeBoundedRequiredBufferSizeToHostAFullScan f).toNat ≤ 32768 := by
  have hmax : maxReceptionBufferSize.toNat = 32768 := rfl
  have hdefault : defaultReceptionBufferSize.toNat = 4096 := rfl
  unfold TCPLinkOver.computeBoundedRequiredBufferSizeToHostAFullScan
  rw [toNat_min, toNat_max, hmax, hdefault]
  omega

structure ReadsValid (link : TCPLinkOver F) : Prop where
  least : 4096 ≤ link.receptionByteBufferSize
  most : link.receptionByteBufferSize ≤ 32768
  asked : ∀ n, link.pendingRead = some n → 1 ≤ n.toNat ∧ n.toNat ≤ link.receptionByteBufferSize

/-- The sizes are valid, and the next read does not go past the end of a packet that has begun. -/
structure Sized (link : TCPLinkOver F) : Prop where
  valid : ReadsValid link
  notComplete : isComplete link.scanFactory = false
  exact : ∀ (p : WirePacket) (missing : List UInt8), p.bytes = link.extractionByteBuffer ++ missing →
    missing ≠ [] → sizeofHeader ≤ link.extractionByteBuffer.length →
    ∃ n, link.pendingRead = some n ∧ n.toNat ≤ missing.length

theorem sized_connected {f : F} (hf : isComplete f = false) : Sized (TCPLinkOver.connected f) := by
  have hsize : (TCPLinkOver.connected f).receptionByteBufferSize = 4096 := rfl
  refine ⟨⟨Nat.le_of_eq hsize.symm, by rw [hsize]; decide, ?_⟩, hf, ?_⟩
  · intro n hn
    cases hn
    exact ⟨by decide, Nat.le_refl _⟩
  · intro p missing hb hne hlength
    cases hlength

theorem onBytesReceived_asks {link link' : TCPLinkOver F} {c : List UInt8}
    (h : link.onBytesReceived c = .ok link') :
    ∃ exit : LoopExit F (Option UInt32 × List Scan),
      extractionLoop TCPLinkOver.onCompleteScan ((link.extractionByteBuffer ++ c).length + 1)
        (link.extractionByteBuffer ++ c) link.scanFactory (none, link.published) = .ok exit ∧
      AfterRead exit link' ∧
      link'.pendingRead = some (if exit.numberOfMissingBytes ≠ 0 then
        min exit.numberOfMissingBytes (UInt32.ofNat link.receptionByteBufferSize)
        else UInt32.ofNat link.receptionByteBufferSize) ∧
      link'.receptionByteBufferSize =
        exit.output.1.elim link.receptionByteBufferSize
          fun size => max link.receptionByteBufferSize size.toNat := by
  simp only [TCPLinkOver.onBytesReceived, TCPLinkOver.tryExtractingScanFromByteRange] at h
  cases hloop : extractionLoop TCPLinkOver.onCompleteScan ((link.extractionByteBuffer ++ c).length + 1)
      (link.extractionByteBuffer ++ c) link.scanFactory (none, link.published) with
  | error e =>
    simp only [hloop] at h
    cases h
  | ok exit =>
    refine ⟨exit, rfl, ?_⟩
    simp only [hloop] at h
    cases hsize : exit.output.1 with
    | none =>
      simp only [hsize] at h
      cases h
      exact ⟨⟨rfl, rfl, rfl⟩, rfl, rfl⟩
    | some size =>
      simp only [hsize, TCPLinkOver.resizeReceptionAndExtractionBuffers] at h
      by_cases hgrow : link.receptionByteBufferSize < size.toNat
      · simp only [if_pos hgrow] at h
        cases h
        exact ⟨⟨rfl, rfl, rfl⟩, rfl, (Nat.max_eq_right (Nat.le_of_lt hgrow)).symm⟩
      · simp only [if_neg hgrow] at h
        cases h
        exact ⟨⟨rfl, rfl, rfl⟩, rfl, (Nat.max_eq_left (Nat.le_of_not_lt hgrow)).symm⟩

theorem extractionLoop_size {fuel : ℕ} {range : List UInt8} {f : F} {scans : List Scan}
    {exit : LoopExit F (Option UInt32 × List Scan)}
    (h : extractionLoop TCPLinkOver.onCompleteScan fuel range f (none, scans) = .ok exit) :
    ∀ size, exit.output.1 = some size → 4096 ≤ size.toNat ∧ size.toNat ≤ 32768 := by
  refine extractionLoop_keeps (I := fun _ output => ∀ size, output.1 = some size →
    4096 ≤ size.toNat ∧ size.toNat ≤ 32768) ?_ h nofun
  intro _ found f output _ hi size hsize
  unfold published at hsize
  cases hscan : (publish (found.deliver f).2).2 with
  | none =>
    rw [hscan] at hsize
    exact hi size hsize
  | some scan =>
    rw [hscan] at hsize
    cases hsize
    exact computeBounded_bounds _

variable [Lawful F]

theorem Sized.onBytesReceived {link link' : TCPLinkOver F} (hs : Sized link) {c : List UInt8}
    (h : link.onBytesReceived c = .ok link') :
    Sized link' ∧ link.receptionByteBufferSize ≤ link'.receptionByteBufferSize := by
  obtain ⟨exit, hloop, hafter, hpending, hsize⟩ := onBytesReceived_asks h
  have hbounds := extractionLoop_size hloop
  have hleast := hs.valid.least
  have hmost := hs.valid.most
  have hcapacity : (UInt32.ofNat link.receptionByteBufferSize).toNat = link.receptionByteBufferSize :=
    UInt32.toNat_ofNat_of_lt' (by simp only [UInt32.size]; omega)
  have hgrows : link.receptionByteBufferSize ≤ link'.receptionByteBufferSize ∧
      link'.receptionByteBufferSize ≤ 32768 := by
    rw [hsize]
    cases hoption : exit.output.1 with
    | none => exact ⟨Nat.le_refl _, hmost⟩
    | some size => exact ⟨Nat.le_max_left _ _, Nat.max_le.mpr ⟨hmost, (hbounds size hoption).2⟩⟩
  refine ⟨⟨⟨by omega, hgrows.2, ?_⟩, ?_, ?_⟩, hgrows.1⟩
  · intro n hn
    rw [hpending] at hn
    cases hn
    split_ifs with hmissing
    · have hpos : exit.numberOfMissingBytes.toNat ≠ 0 := fun hz => hmissing (UInt32.toNat_inj.mp hz)
      rw [toNat_min, hcapacity]
      omega
    · omega
  · rw [hafter.scanFactory]
    exact extractionLoop_keeps (I := fun f _ => isComplete f = false)
      (fun _ found f output _ _ => publish_not_complete _) hloop hs.notComplete
  · intro p missing hb hne hlength
    rw [hafter.buffer] at hb hlength
    obtain ⟨last, hlast⟩ := extractionLoop_exit hloop
    have hcount := missing_of_exit hlast hb hlength
    have hbound := p.header.packetSize.toNat_lt
    have hsum := congrArg List.length hb
    rw [p.length_bytes, List.length_append] at hsum
    have hnat : exit.numberOfMissingBytes.toNat = missing.length := by
      rw [hcount, UInt32.toNat_ofNat_of_lt' (by simp only [UInt32.size]; omega)]
    have hpos : 0 < missing.length := List.length_pos_of_ne_nil hne
    have hne' : exit.numberOfMissingBytes ≠ 0 := by
      intro hz
      rw [hz] at hnat
      exact absurd hnat (Nat.ne_of_lt hpos)
    refine ⟨_, hpending, ?_⟩
    rw [if_pos hne', toNat_min, hnat]
    exact Nat.min_le_left _ _

theorem Sized.receive {link link' : TCPLinkOver F} (hs : Sized link) {reads : List (List UInt8)}
    (h : link.receive reads = .ok link') :
    Sized link' ∧ link.receptionByteBufferSize ≤ link'.receptionByteBufferSize := by
  induction reads generalizing link with
  | nil =>
    cases h
    exact ⟨hs, Nat.le_refl _⟩
  | cons c reads ih =>
    obtain ⟨next, hread, hrest⟩ := TCPLinkOver.exists_of_receive_cons h
    obtain ⟨hnext, hle⟩ := hs.onBytesReceived hread
    obtain ⟨hlink', hle'⟩ := ih hnext hrest
    exact ⟨hlink', Nat.le_trans hle hle'⟩

end

def Asked {F : Type} [ScanFactory F] : TCPLinkOver F → List (List UInt8) → Prop
  | _, [] => True
  | link, c :: reads =>
    (∃ n, link.pendingRead = some n ∧ c.length = n.toNat) ∧
      ∀ link', link.onBytesReceived c = .ok link' → Asked link' reads

section
variable {F : Type} [ScanFactory F]

structure CompletesPacket (link : TCPLinkOver (Recorder F)) (p : WirePacket) (missing : List UInt8)
    (reads : List (List UInt8)) : Prop where
  whole : reads.flatten = missing
  asked : Asked link reads
  delivered : ∃ link', link.receive reads = .ok link' ∧ link'.extractionByteBuffer = [] ∧
    link'.scanFactory.added = link.scanFactory.added ++ [p.decoded]
  before : ∀ xs ys, reads = xs ++ ys → ys ≠ [] → ∃ mid, link.receive xs = .ok mid ∧
    mid.extractionByteBuffer = link.extractionByteBuffer ++ xs.flatten ∧
    mid.scanFactory.added = link.scanFactory.added

theorem CompletesPacket.last {link link' : TCPLinkOver (Recorder F)} {p : WirePacket} {c : List UInt8}
    {n : UInt32} (hn : link.pendingRead = some n) (hc : c.length = n.toNat)
    (hlink : link.onBytesReceived c = .ok link') (hbuffer : link'.extractionByteBuffer = [])
    (hadded : link'.scanFactory.added = link.scanFactory.added ++ [p.decoded]) :
    CompletesPacket link p c [c] := by
  refine ⟨List.flatten_singleton, ⟨⟨n, hn, hc⟩, fun _ _ => trivial⟩, ⟨link', ?_, hbuffer, hadded⟩, ?_⟩
  · rw [TCPLinkOver.receive_cons hlink]
    rfl
  · intro xs ys hxs hys
    cases xs with
    | nil => exact ⟨link, rfl, (List.append_nil _).symm, rfl⟩
    | cons x xs =>
      obtain ⟨-, hnil⟩ := List.cons.inj hxs
      exact absurd (List.append_eq_nil_iff.mp hnil.symm).2 hys

theorem CompletesPacket.cons {link link' : TCPLinkOver (Recorder F)} {p : WirePacket}
    {c cut : List UInt8} {reads : List (List UInt8)} {n : UInt32} (hn : link.pendingRead = some n)
    (hc : c.length = n.toNat) (hlink : link.onBytesReceived c = .ok link')
    (hbuffer : link'.extractionByteBuffer = link.extractionByteBuffer ++ c)
    (hadded : link'.scanFactory.added = link.scanFactory.added)
    (h : CompletesPacket link' p cut reads) : CompletesPacket link p (c ++ cut) (c :: reads) := by
  refine ⟨?_, ⟨⟨n, hn, hc⟩, ?_⟩, ?_, ?_⟩
  · rw [List.flatten_cons, h.whole]
  · intro link'' hlink''
    cases hlink.symm.trans hlink''
    exact h.asked
  · obtain ⟨last, hlast, hempty, hdelivered⟩ := h.delivered
    refine ⟨last, ?_, hempty, by rw [hdelivered, hadded]⟩
    rw [TCPLinkOver.receive_cons hlink]
    exact hlast
  · intro xs ys hxs hys
    cases xs with
    | nil => exact ⟨link, rfl, (List.append_nil _).symm, rfl⟩
    | cons x xs =>
      obtain ⟨rfl, hrest⟩ := List.cons.inj hxs
      obtain ⟨mid, hmid, hmidBuffer, hmidAdded⟩ := h.before xs ys hrest hys
      refine ⟨mid, ?_, ?_, by rw [hmidAdded, hadded]⟩
      · rw [TCPLinkOver.receive_cons hlink]
        exact hmid
      · rw [hmidBuffer, hbuffer, List.flatten_cons, List.append_assoc]

variable [Lawful F]

theorem searched_of_prefix {p : WirePacket} {range cut : List UInt8} (hb : p.bytes = range ++ cut)
    (hlength : sizeofHeader ≤ range.length) : Searched range := by
  have hbound := p.header.packetSize.toNat_lt
  have hsum := congrArg List.length hb
  rw [p.length_bytes, List.length_append] at hsum
  rw [Searched, Nat.mod_eq_of_lt (by omega)]
  exact hlength

theorem Sized.onBytesReceived_of_cut {link : TCPLinkOver (Recorder F)} (hs : Sized link)
    {p : WirePacket} {c cut : List UInt8} (hb : p.bytes = link.extractionByteBuffer ++ c ++ cut)
    (hne : cut ≠ []) (hlength : sizeofHeader ≤ link.extractionByteBuffer.length) :
    ∃ link', link.onBytesReceived c = .ok link' ∧
      link'.extractionByteBuffer = link.extractionByteBuffer ++ c ∧
      link'.scanFactory.added = link.scanFactory.added := by
  have hsearched : Searched (link.extractionByteBuffer ++ c) := by
    apply searched_of_prefix hb
    rw [List.length_append]
    omega
  have hcut : (link.extractionByteBuffer ++ c).length < p.bytes.length := by
    have hpos := List.length_pos_of_ne_nil hne
    have hsum := congrArg List.length hb
    rw [List.length_append] at hsum
    omega
  have hloop := extractionLoop_missing TCPLinkOver.onCompleteScan (findPacket_of_cut hb hsearched hcut)
    (link.extractionByteBuffer ++ c).length hs.notComplete (none, link.published)
  rcases onBytesReceived_cases link c with ⟨e, he, -⟩ | ⟨exit, link', hexit, hlink, hafter⟩
  · cases he.symm.trans hloop
  · cases hexit.symm.trans hloop
    exact ⟨link', hlink, hafter.buffer, by rw [hafter.scanFactory, Recorder.added_clearedFor]⟩

theorem onBytesReceived_of_end {link : TCPLinkOver (Recorder F)} {p : WirePacket} {c : List UInt8}
    (hb : p.bytes = link.extractionByteBuffer ++ c) (hlength : sizeofHeader ≤ p.bytes.length) :
    ∃ link', link.onBytesReceived c = .ok link' ∧ link'.extractionByteBuffer = [] ∧
      link'.scanFactory.added = link.scanFactory.added ++ [p.decoded] := by
  have hsearched : Searched ([] ++ (p.bytes ++ [])) := by
    rw [List.nil_append, List.append_nil]
    exact searched_of_prefix (List.append_nil p.bytes).symm hlength
  have hpos : ∃ fuel, (link.extractionByteBuffer ++ c).length = fuel + 1 := by
    refine ⟨p.bytes.length - 1, ?_⟩
    rw [← hb]
    simp only [sizeofHeader] at hlength
    omega
  obtain ⟨fuel, hfuel⟩ := hpos
  have hloop := extractionLoop_packet TCPLinkOver.onCompleteScan p [] []
    (fun k hk => absurd hk k.not_lt_zero) hsearched (fuel + 1) link.scanFactory (none, link.published)
  rw [extractionLoop_nothing _ (findPacket_of_not_searched not_searched_nil) _ (offer_not_complete _ _),
    List.nil_append, List.append_nil, hb, ← hfuel] at hloop
  rcases onBytesReceived_cases link c with ⟨e, he, -⟩ | ⟨exit, link', hexit, hlink, hafter⟩
  · cases he.symm.trans hloop
  · cases hexit.symm.trans hloop
    exact ⟨link', hlink, hafter.buffer, by rw [hafter.scanFactory, Recorder.added_offer]⟩

theorem Sized.completes {link : TCPLinkOver (Recorder F)} (hs : Sized link) {p : WirePacket}
    {missing : List UInt8} (hb : p.bytes = link.extractionByteBuffer ++ missing) (hne : missing ≠ [])
    (hlength : sizeofHeader ≤ link.extractionByteBuffer.length) :
    ∃ reads, CompletesPacket link p missing reads := by
  induction hm : missing.length using Nat.strongRecOn generalizing link missing with
  | ind m ih =>
    obtain ⟨n, hn, hle⟩ := hs.exact p missing hb hne hlength
    obtain ⟨hpos, -⟩ := hs.valid.asked n hn
    have hsplit := List.take_append_drop n.toNat missing
    have hc : (missing.take n.toNat).length = n.toNat := by
      rw [List.length_take]
      omega
    generalize missing.take n.toNat = c at hsplit hc
    generalize missing.drop n.toNat = cut at hsplit
    subst hsplit
    cases cut with
    | nil =>
      rw [List.append_nil] at hb ⊢
      have hwhole : sizeofHeader ≤ p.bytes.length := by
        rw [hb, List.length_append]
        omega
      obtain ⟨link', hlink, hbuffer, hadded⟩ := onBytesReceived_of_end hb hwhole
      exact ⟨[c], CompletesPacket.last hn hc hlink hbuffer hadded⟩
    | cons b cut =>
      rw [← List.append_assoc] at hb
      obtain ⟨link', hlink, hbuffer, hadded⟩ :=
        hs.onBytesReceived_of_cut hb (List.cons_ne_nil b cut) hlength
      have hnext : p.bytes = link'.extractionByteBuffer ++ b :: cut := by rw [hbuffer, hb]
      have hlength' : sizeofHeader ≤ link'.extractionByteBuffer.length := by
        rw [hbuffer, List.length_append]
        omega
      have hlt : (b :: cut).length < m := by
        rw [← hm, List.length_append]
        omega
      obtain ⟨reads, hreads⟩ := ih _ hlt (hs.onBytesReceived hlink).1 hnext (List.cons_ne_nil b cut) hlength' rfl
      exact ⟨c :: reads, hreads.cons hn hc hlink hbuffer hadded⟩

end

/-- In every run of the link the sizes of the reads are valid and the buffer never shrinks; and
wherever a handler leaves the beginning of a packet, the next reads end with that packet. -/
theorem read_sizes_land_on_packet_ends {reads : List (List UInt8)}
    {link : TCPLinkOver (Recorder TcpScanFactory)}
    (h : (TCPLinkOver.connected ⟨⟨[], [], []⟩, []⟩).receive reads = .ok link) :
    ReadsValid link ∧
    (∀ more link', link.receive more = .ok link' →
      ReadsValid link' ∧ link.receptionByteBufferSize ≤ link'.receptionByteBufferSize) ∧
    ∀ (p : WirePacket) (missing : List UInt8), p.bytes = link.extractionByteBuffer ++ missing →
      missing ≠ [] → sizeofHeader ≤ link.extractionByteBuffer.length →
      ∃ reads, CompletesPacket link p missing reads := by
  have hconnected : Sized (TCPLinkOver.connected (⟨⟨[], [], []⟩, []⟩ : Recorder TcpScanFactory)) :=
    sized_connected rfl
  obtain ⟨hs, -⟩ := hconnected.receive h
  refine ⟨hs.valid, ?_, ?_⟩
  · intro more link' hmore
    obtain ⟨hs', hle⟩ := hs.receive hmore
    exact ⟨hs'.valid, hle⟩
  · intro p missing hb hne hlength
    exact hs.completes hb hne hlength

def twoPoints : WirePacket where
  header := ⟨0xa25c, 0x0041, 84, 76, 1, 1, 0, 0, 0, 0, 2, 2, 0, 0, 0, 0, 0, 0, 0⟩
  padding := []
  payload := .a [5, 6]
  magic := rfl
  packetType := rfl
  headerSize := rfl
  numPointsPacket := rfl
  packetSize := rfl

def withoutLastPoint : TCPLinkOver (Recorder TcpScanFactory) where
  receptionByteBufferSize := 4096
  extractionByteBuffer := twoPoints.bytes.take 80
  scanFactory := ⟨⟨[], [], []⟩, []⟩
  published := []
  isConnected := true
  connectionLostEvents := 0
  pendingRead := some 4

theorem read_sizes_land_on_packet_ends_twoPoints :
    ReadsValid withoutLastPoint ∧
    (∀ more link', withoutLastPoint.receive more = .ok link' →
      ReadsValid link' ∧ 4096 ≤ link'.receptionByteBufferSize) ∧
    ∀ (p : WirePacket) (missing : List UInt8), p.bytes = twoPoints.bytes.take 80 ++ missing →
      missing ≠ [] → sizeofHeader ≤ (twoPoints.bytes.take 80).length →
      ∃ reads, CompletesPacket withoutLastPoint p missing reads := by
  have hreceive : (TCPLinkOver.connected (⟨⟨[], [], []⟩, []⟩ : Recorder TcpScanFactory)).receive
      [twoPoints.bytes.take 80] = .ok withoutLastPoint := rfl
  exact read_sizes_land_on_packet_ends hreceive

end R2000Driver.PacketExtraction
