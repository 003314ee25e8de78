import Mathlib.Data.List.Infix
import R2000Driver.TcpReassembly
import R2000Driver.UdpAssembly

/-!
# Packets among noise

A stream may hold bytes that belong to no packet, before, between and behind the
packets. When no packet seems to begin in them, the link finds every packet, and
the reads may cut the noise anywhere: what is left of it is dropped, and what comes
of it later is noise again (`noisy_stream_reassembles`).
-/

namespace R2000Driver.PacketExtraction
open Data ScanFactory

section
attribute [local irreducible] WirePacket.bytes

/-- No packet seems to begin in the bytes. -/
def Quiet (noise : List UInt8) : Prop := ∀ k < noise.length, ¬ StartsWithMagic (noise.drop k)

structure NoisyPacket where
  noise : List UInt8
  packet : ScanPacket
  quiet : NoEarlierMagic noise packet.toWirePacket

def NoisyPacket.bytes (p : NoisyPacket) : List UInt8 := p.noise ++ p.packet.bytes

def noisyStream (packets : List NoisyPacket) (ending : List UInt8) : List UInt8 :=
  packets.flatMap NoisyPacket.bytes ++ ending

def carried (packets : List NoisyPacket) : List ScanPacket := packets.map NoisyPacket.packet

def starts : List NoisyPacket → List ℕ
  | [] => []
  | p :: packets => p.noise.length :: (starts packets).map fun start => p.bytes.length + start

/-- Of every packet that begins in the first `n` bytes, enough are among them for the search to look
at it. -/
def Uncut (packets : List NoisyPacket) (n : ℕ) : Prop :=
  ∀ start ∈ starts packets, start < n → start + sizeofHeader ≤ n

instance (packets : List NoisyPacket) (n : ℕ) : Decidable (Uncut packets n) :=
  inferInstanceAs (Decidable (∀ start ∈ starts packets, _))

theorem noisyStream_cons (p : NoisyPacket) (packets : List NoisyPacket) (ending : List UInt8) :
    noisyStream (p :: packets) ending =
      p.noise ++ (p.packet.bytes ++ noisyStream packets ending) := by
  simp [noisyStream, NoisyPacket.bytes]

theorem Quiet.of_append {noise more : List UInt8} (h : Quiet (noise ++ more)) :
    Quiet noise ∧ Quiet more := by
  constructor
  · intro k hk hmagic
    refine h k (by rw [List.length_append]; omega) ?_
    rw [List.drop_append_of_le_length (by omega)]
    exact hmagic.append more
  · intro k hk hmagic
    refine h (noise.length + k) (by rw [List.length_append]; omega) ?_
    rwa [← List.drop_drop, List.drop_left]

theorem NoEarlierMagic.of_append {noise more : List UInt8} {p : WirePacket}
    (h : NoEarlierMagic (noise ++ more) p) : Quiet noise ∧ NoEarlierMagic more p := by
  constructor
  · intro k hk hmagic
    refine h k (by rw [List.length_append]; omega) ?_
    rw [List.append_assoc, List.drop_append_of_le_length (by omega)]
    exact hmagic.append _
  · intro k hk hmagic
    refine h (noise.length + k) (by rw [List.length_append]; omega) ?_
    rwa [List.append_assoc, ← List.drop_drop, List.drop_left]

theorem findPacket_of_quiet {noise : List UInt8} (h : Quiet noise) :
    findPacket noise = .ok .nothing := by
  apply findPacket_of_no_magic
  cases hmagic : retrievePacketMagic noise with
  | none => rfl
  | some headerStart =>
    obtain ⟨g, rfl, hstart, -⟩ := retrievePacketMagic_eq_some hmagic
    have hpos : 0 < headerStart.length := hstart.length_le.trans' (by decide)
    refine absurd hstart ?_
    have hquiet := h g.length (by rw [List.length_append]; omega)
    rwa [List.drop_left] at hquiet

theorem findPacket_behind {noise range : List UInt8}
    (hquiet : ∀ k < noise.length, ¬ StartsWithMagic ((noise ++ range).drop k))
    (hs : Searched range) (hnoisy : Searched (noise ++ range)) :
    findPacket (noise ++ range) = findPacket range := by
  have hle := hs.le_length
  simp only [sizeofHeader] at hle
  have hmagic := retrievePacketMagic_append noise range hquiet (by omega)
  cases hstart : retrievePacketMagic range with
  | none =>
    rw [findPacket_of_no_magic hstart, findPacket_of_no_magic (hmagic.trans hstart)]
  | some headerStart =>
    by_cases hl : headerStart.length < wireHeaderSize
    · rw [findPacket_of_cut_header hs hstart hl,
        findPacket_of_cut_header hnoisy (hmagic.trans hstart) hl]
    · obtain ⟨header, hheader, -⟩ := Header.fromByteRange_eq (Nat.le_of_not_lt hl)
      rw [findPacket_of_magic hs hstart hheader,
        findPacket_of_magic hnoisy (hmagic.trans hstart) hheader]

theorem uncut_of_cons {p : NoisyPacket} {packets : List NoisyPacket} {n : ℕ}
    (h : Uncut (p :: packets) (p.bytes.length + n)) : Uncut packets n := by
  intro start hstart hlt
  have hmem : p.bytes.length + start ∈ starts (p :: packets) :=
    List.mem_cons_of_mem _ (List.mem_map_of_mem hstart)
  have hle := h _ hmem (by omega)
  omega

theorem noisy_cases {p : NoisyPacket} {packets : List NoisyPacket} {ending range tail : List UInt8}
    (h : range ++ tail = noisyStream (p :: packets) ending) :
    (∃ more, p.noise = range ++ more ∧
        tail = more ++ (p.packet.bytes ++ noisyStream packets ending)) ∨
      (∃ range', range = p.noise ++ (p.packet.bytes ++ range') ∧
        range' ++ tail = noisyStream packets ending) ∨
      ∃ begun cut, range = p.noise ++ begun ∧ p.packet.bytes = begun ++ cut ∧ 0 < begun.length ∧
        begun.length < p.packet.bytes.length ∧ tail = cut ++ noisyStream packets ending := by
  rw [noisyStream_cons] at h
  rcases List.append_eq_append_iff.mp h with ⟨more, hnoise, htail⟩ | ⟨begun, hrange, hbytes⟩
  · exact Or.inl ⟨more, hnoise, htail⟩
  cases begun with
  | nil =>
    refine Or.inl ⟨[], ?_, hbytes.symm⟩
    rw [hrange, List.append_nil, List.append_nil]
  | cons b begun =>
    rcases List.append_eq_append_iff.mp hbytes with ⟨range', hb, hstream⟩ | ⟨cut, hp, htail⟩
    · exact Or.inr (Or.inl ⟨range', by rw [hrange, hb], hstream.symm⟩)
    cases cut with
    | nil =>
      refine Or.inr (Or.inl ⟨[], ?_, htail⟩)
      rw [hrange, hp, List.append_nil, List.append_nil]
    | cons c cut =>
      refine Or.inr (Or.inr ⟨b :: begun, c :: cut, hrange, hp, Nat.succ_pos _, ?_, htail⟩)
      have hlen : (b :: begun ++ c :: cut).length = (b :: begun).length + (c :: cut).length :=
        List.length_append
      rw [hp, hlen]
      exact Nat.lt_add_of_pos_right (Nat.succ_pos _)

structure TakesFrom {F : Type} [ScanFactory F] (packets : List NoisyPacket) (n : ℕ)
    (tail : List UInt8) (f : F) (scans : List Scan) (done : List ScanPacket)
    (rest : List NoisyPacket) (ending : List UInt8)
    (exit : LoopExit F (Option UInt32 × List Scan)) : Prop where
  carries : carried packets = done ++ carried rest
  stream : exit.position ++ tail = noisyStream rest ending
  quiet : Quiet ending
  begins : ∃ taken, n = taken + exit.position.length ∧
    ∀ start ∈ starts rest, taken + start ∈ starts packets
  cut : ∀ p more, rest = p :: more → exit.position.length < p.packet.bytes.length
  whole : rest = [] → exit.position = []
  published : exit.output.2 = scans ++ (offerAll f (decodedPackets done)).2
  factory : Looked (offerAll f (decodedPackets done)).1 (carried rest) exit.scanFactory

section
variable {F : Type} [ScanFactory F]

theorem TakesFrom.of_noise {packets rest : List NoisyPacket} {n : ℕ} {tail ending : List UInt8}
    {f : F} {output : Option UInt32 × List Scan} (hcarried : carried packets = carried rest)
    (hstream : tail = noisyStream rest ending) (hquiet : Quiet ending)
    (hstarts : ∀ start ∈ starts rest, n + start ∈ starts packets) :
    TakesFrom packets n tail f output.2 [] rest ending ⟨[], 0, f, output⟩ where
  carries := hcarried
  stream := hstream
  quiet := hquiet
  begins := ⟨n, rfl, hstarts⟩
  cut p _ _ := p.packet.length_pos
  whole _ := rfl
  published := (List.append_nil _).symm
  factory := Or.inl rfl

theorem TakesFrom.of_packet {p : NoisyPacket} {packets rest : List NoisyPacket} {n : ℕ}
    {tail ending : List UInt8} {f : F} {done : List ScanPacket}
    {output : Option UInt32 × List Scan} {exit : LoopExit F (Option UInt32 × List Scan)}
    (h : TakesFrom packets n tail (offer f p.packet.decoded).1
      (offerOutput TCPLinkOver.onCompleteScan f p.packet.decoded output).2 done rest ending exit) :
    TakesFrom (p :: packets) (p.bytes.length + n) tail f output.2 (p.packet :: done) rest ending
      exit where
  carries := congrArg (p.packet :: ·) h.carries
  stream := h.stream
  quiet := h.quiet
  begins := by
    obtain ⟨taken, hn, hstarts⟩ := h.begins
    refine ⟨p.bytes.length + taken, by omega, fun start hstart => ?_⟩
    rw [Nat.add_assoc]
    exact List.mem_cons_of_mem _ (List.mem_map_of_mem (hstarts start hstart))
  cut := h.cut
  whole := h.whole
  published := by
    rw [h.published, onCompleteScan_scans, List.append_assoc]
    rfl
  factory := h.factory

variable [Lawful F]

theorem extractionLoop_noisy {packets : List NoisyPacket} {ending range tail : List UInt8}
    (hstream : range ++ tail = noisyStream packets ending) (hquiet : Quiet ending)
    (huncut : Uncut packets range.length) (hlt : range.length < 2 ^ 32) {fuel : ℕ}
    (hfuel : range.length < fuel) {f : F} (hf : isComplete f = false)
    (output : Option UInt32 × List Scan) :
    ∃ exit done rest left, extractionLoop TCPLinkOver.onCompleteScan fuel range f output =
      .ok exit ∧ TakesFrom packets range.length tail f output.2 done rest left exit := by
  obtain ⟨fuel, rfl⟩ : ∃ k, fuel = k + 1 := ⟨fuel - 1, by omega⟩
  induction packets generalizing range fuel f output with
  | nil =>
    have hsplit : range ++ tail = ending := hstream
    obtain ⟨hrange, htail⟩ := (hsplit ▸ hquiet).of_append
    exact ⟨_, _, _, _, extractionLoop_nothing _ (findPacket_of_quiet hrange) _ hf output,
      .of_noise rfl rfl htail fun _ hstart => absurd hstart List.not_mem_nil⟩
  | cons p packets ih =>
    rcases noisy_cases hstream with ⟨more, hnoise, htail⟩ | ⟨range', rfl, hrest⟩ |
      ⟨begun, cut, rfl, hp, hpos, hcut, htail⟩
    · -- The range ends in the noise: the rest of the noise is in front of the packet.
      obtain ⟨hrange, hmore⟩ := (hnoise ▸ p.quiet).of_append
      refine ⟨_, _, ⟨more, p.packet, hmore⟩ :: packets, _,
        extractionLoop_nothing _ (findPacket_of_quiet hrange) _ hf output,
        .of_noise rfl ?_ hquiet ?_⟩
      · rw [noisyStream_cons]
        exact htail
      have hlen : p.noise.length = range.length + more.length := by
        rw [hnoise, List.length_append]
      intro start hstart
      rcases List.mem_cons.mp hstart with rfl | hstart
      · exact List.mem_cons.mpr (Or.inl hlen.symm)
      · obtain ⟨behind, hbehind, rfl⟩ := List.mem_map.mp hstart
        refine List.mem_cons_of_mem _ (List.mem_map.mpr ⟨behind, hbehind, ?_⟩)
        simp only [NoisyPacket.bytes, List.length_append]
        omega
    · -- The packet is whole: one iteration adds it, the rest is the induction hypothesis.
      have hle := p.packet.sizeofHeader_le
      have hlen : (p.noise ++ (p.packet.bytes ++ range')).length =
          p.bytes.length + range'.length := by
        simp only [NoisyPacket.bytes, List.length_append]
        omega
      have hbytes : sizeofHeader ≤ p.bytes.length := by
        rw [NoisyPacket.bytes, List.length_append]
        omega
      have hs : Searched (p.noise ++ (p.packet.bytes ++ range')) := by
        rw [Searched, Nat.mod_eq_of_lt hlt]
        omega
      rw [hlen] at huncut hlt hfuel ⊢
      simp only [sizeofHeader] at hbytes
      obtain ⟨exit, done, rest, left, hloop, htakes⟩ := ih hrest
        (uncut_of_cons huncut) (by omega) (offer_not_complete f p.packet.decoded)
        (offerOutput TCPLinkOver.onCompleteScan f p.packet.decoded output) (fuel - 1) (by omega)
      have hfuel' : fuel - 1 + 1 = fuel := by omega
      rw [hfuel'] at hloop
      refine ⟨exit, _, rest, left, ?_, htakes.of_packet⟩
      rw [← hloop]
      exact extractionLoop_packet _ p.packet.toWirePacket p.noise range' (p.quiet.append range')
        hs fuel f output
    · -- The packet is cut: the noise is dropped and the bytes of the packet are left.
      have hbegin : p.noise.length ∈ starts (p :: packets) := List.mem_cons_self
      have hlen : (p.noise ++ begun).length = p.noise.length + begun.length := List.length_append
      have hsize := huncut _ hbegin (by omega)
      have hs : Searched begun := by
        rw [Searched, Nat.mod_eq_of_lt (by omega)]
        omega
      have hnoisy : Searched (p.noise ++ begun) := by
        rw [Searched, Nat.mod_eq_of_lt hlt]
        omega
      have hbehind : ∀ k < p.noise.length, ¬ StartsWithMagic ((p.noise ++ begun).drop k) := by
        intro k hk hmagic
        refine p.quiet k hk ?_
        rw [hp, ← List.append_assoc, List.drop_append_of_le_length (by omega)]
        exact hmagic.append cut
      have hfind := (findPacket_behind hbehind hs hnoisy).trans (findPacket_of_cut hp hs hcut)
      have hnone : NoEarlierMagic [] p.packet.toWirePacket := fun k hk => absurd hk k.not_lt_zero
      refine ⟨_, [], ⟨[], p.packet, hnone⟩ :: packets, ending,
        extractionLoop_missing _ hfind _ hf output, rfl, ?_, hquiet, ?_, ?_, ?_, ?_, ?_⟩
      · rw [noisyStream_cons, List.nil_append, htail, hp, List.append_assoc]
      · refine ⟨p.noise.length, hlen, fun start hstart => ?_⟩
        rcases List.mem_cons.mp hstart with rfl | hstart
        · exact hbegin
        · obtain ⟨behind, hmem, rfl⟩ := List.mem_map.mp hstart
          refine List.mem_cons_of_mem _ (List.mem_map.mpr ⟨behind, hmem, ?_⟩)
          simp only [NoisyPacket.bytes, List.length_append, List.length_nil]
          omega
      · rintro q more hq
        obtain ⟨rfl, -⟩ := List.cons.inj hq
        exact hcut
      · intro hnil
        cases hnil
      · exact (List.append_nil _).symm
      · exact Or.inr ⟨p.packet, carried packets, rfl, rfl⟩

theorem Looked.offerAll_eq {f f' : F} {rest : List ScanPacket} (h : Looked f rest f')
    {done rest' : List ScanPacket} (hrest : rest = done ++ rest') :
    (offerAll f' (decodedPackets done)).2 = (offerAll f (decodedPackets done)).2 ∧
      ∀ f'', Looked (offerAll f' (decodedPackets done)).1 rest' f'' →
        Looked (offerAll f (decodedPackets done)).1 rest' f'' := by
  subst hrest
  cases done with
  | nil => exact ⟨rfl, fun _ hnext => h.trans hnext⟩
  | cons p done =>
    rw [decodedPackets_cons, h.offer_eq]
    exact ⟨rfl, fun _ hnext => hnext⟩

structure HoldsNoisy (f : F) (remaining : List UInt8) (done : List ScanPacket)
    (rest : List NoisyPacket) (ending : List UInt8) (link : TCPLinkOver F) : Prop where
  stream : link.extractionByteBuffer ++ remaining = noisyStream rest ending
  quiet : Quiet ending
  cut : ∀ p more, rest = p :: more → link.extractionByteBuffer.length < p.packet.bytes.length
  whole : rest = [] → link.extractionByteBuffer = []
  published : link.published = (offerAll f (decodedPackets done)).2
  factory : Looked (offerAll f (decodedPackets done)).1 (carried rest) link.scanFactory

omit [Lawful F] in
theorem HoldsNoisy.length_lt {f : F} {remaining : List UInt8} {done : List ScanPacket}
    {rest : List NoisyPacket} {ending : List UInt8} {link : TCPLinkOver F}
    (h : HoldsNoisy f remaining done rest ending link) :
    link.extractionByteBuffer.length < 2 ^ 19 := by
  cases rest with
  | nil =>
    rw [h.whole rfl]
    decide
  | cons p rest =>
    have hcut := h.cut p rest rfl
    have hlt := p.packet.length_lt
    omega

theorem HoldsNoisy.onBytesReceived {f : F} (hf : isComplete f = false) {c remaining : List UInt8}
    {done : List ScanPacket} {rest : List NoisyPacket} {ending : List UInt8} {link : TCPLinkOver F}
    (h : HoldsNoisy f (c ++ remaining) done rest ending link)
    (hsize : c.length ≤ maxReceptionBufferSize.toNat)
    (huncut : Uncut rest (link.extractionByteBuffer.length + c.length)) :
    ∃ link' done' rest' ending', link.onBytesReceived c = .ok link' ∧
      HoldsNoisy f remaining (done ++ done') rest' ending' link' ∧
      carried rest = done' ++ carried rest' ∧
      ∃ taken, link.extractionByteBuffer.length + c.length =
          taken + link'.extractionByteBuffer.length ∧
        ∀ start ∈ starts rest', taken + start ∈ starts rest := by
  have hbuffer := h.length_lt
  have hmax : maxReceptionBufferSize.toNat = 32768 := rfl
  have hstream : (link.extractionByteBuffer ++ c) ++ remaining = noisyStream rest ending := by
    rw [List.append_assoc]
    exact h.stream
  have hlen : (link.extractionByteBuffer ++ c).length =
      link.extractionByteBuffer.length + c.length := List.length_append
  have hbase := offerAll_not_complete hf (decodedPackets done)
  obtain ⟨exit, done', rest', left, hloop, htakes⟩ := extractionLoop_noisy hstream h.quiet
    (hlen ▸ huncut) (by omega) (Nat.lt_succ_self _) (h.factory.not_complete hbase)
    (none, link.published)
  obtain ⟨link', hlink, hafter⟩ := onBytesReceived_of_loop rfl hloop
  obtain ⟨hpublished, hfactory⟩ := h.factory.offerAll_eq htakes.carries
  refine ⟨link', done', rest', left, hlink, ⟨?_, htakes.quiet, ?_, ?_, ?_, ?_⟩, htakes.carries, ?_⟩
  · rw [hafter.buffer]
    exact htakes.stream
  · rw [hafter.buffer]
    exact htakes.cut
  · rw [hafter.buffer]
    exact htakes.whole
  · rw [hafter.published, htakes.published, hpublished, h.published, decodedPackets_append,
      offerAll_append]
  · rw [hafter.scanFactory, decodedPackets_append, offerAll_append]
    exact hfactory _ htakes.factory
  · rw [hafter.buffer, ← hlen]
    exact htakes.begins

theorem HoldsNoisy.receive {f : F} (hf : isComplete f = false) {reads : List (List UInt8)}
    (hsizes : ∀ c ∈ reads, c.length ≤ maxReceptionBufferSize.toNat) {done : List ScanPacket}
    {rest : List NoisyPacket} {ending : List UInt8} {link : TCPLinkOver F}
    (huncut : ∀ xs ∈ reads.inits,
      Uncut rest (link.extractionByteBuffer.length + xs.flatten.length))
    (h : HoldsNoisy f reads.flatten done rest ending link) :
    ∃ link', link.receive reads = .ok link' ∧
      link'.published = (offerAll f (decodedPackets (done ++ carried rest))).2 ∧
      Looked (offerAll f (decodedPackets (done ++ carried rest))).1 [] link'.scanFactory := by
  induction reads generalizing done rest ending link with
  | nil =>
    have hstream := congrArg List.length h.stream
    cases rest with
    | nil =>
      rw [show carried [] = [] from rfl, List.append_nil]
      exact ⟨link, rfl, h.published, h.factory⟩
    | cons p rest =>
      have hcut := h.cut p rest rfl
      rw [noisyStream_cons] at hstream
      simp only [List.flatten_nil, List.length_append, List.length_nil] at hstream
      omega
  | cons c reads ih =>
    have hfirst : Uncut rest (link.extractionByteBuffer.length + c.length) := by
      simpa using huncut [c] ((List.mem_inits _ _).mpr ⟨reads, rfl⟩)
    obtain ⟨next, done', rest', ending', hnext, hholds, hcarried, taken, htaken, hstarts⟩ :=
      h.onBytesReceived hf (hsizes c List.mem_cons_self) hfirst
    have huncut' : ∀ xs ∈ reads.inits,
        Uncut rest' (next.extractionByteBuffer.length + xs.flatten.length) := by
      intro xs hxs start hstart hlt
      have hprefix : c :: xs <+: c :: reads :=
        List.cons_prefix_cons.mpr ⟨rfl, (List.mem_inits _ _).mp hxs⟩
      have hle := huncut (c :: xs) ((List.mem_inits _ _).mpr hprefix) _ (hstarts start hstart)
      rw [List.flatten_cons, List.length_append] at hle
      have hsize := hle (by omega)
      omega
    obtain ⟨link', hlink, hpublished, hfactory⟩ :=
      ih (fun d hd => hsizes d (List.mem_cons_of_mem c hd)) huncut' hholds
    rw [List.append_assoc, ← hcarried] at hpublished hfactory
    exact ⟨link', (TCPLinkOver.receive_cons hnext reads).trans hlink, hpublished, hfactory⟩

omit [Lawful F] in
theorem holdsNoisy_connected {f : F} {packets : List NoisyPacket} {ending : List UInt8}
    (hquiet : Quiet ending) :
    HoldsNoisy f (noisyStream packets ending) [] packets ending (TCPLinkOver.connected f) where
  stream := rfl
  quiet := hquiet
  cut p _ _ := p.packet.length_pos
  whole _ := rfl
  published := rfl
  factory := Or.inl rfl

theorem receive_noisy (f : F) (hf : isComplete f = false) {packets : List NoisyPacket}
    {ending : List UInt8} {reads : List (List UInt8)}
    (hstream : reads.flatten = noisyStream packets ending) (hquiet : Quiet ending)
    (hsizes : ∀ c ∈ reads, c.length ≤ maxReceptionBufferSize.toNat)
    (huncut : ∀ xs ∈ reads.inits, Uncut packets xs.flatten.length) :
    ∃ link, (TCPLinkOver.connected f).receive reads = .ok link ∧
      link.published = (offerAll f (decodedPackets (carried packets))).2 ∧
      link.scanFactory = (offerAll f (decodedPackets (carried packets))).1 := by
  have hholds : HoldsNoisy f (noisyStream packets ending) [] packets ending
      (TCPLinkOver.connected f) := holdsNoisy_connected hquiet
  rw [← hstream] at hholds
  have hempty : (TCPLinkOver.connected f).extractionByteBuffer.length = 0 := rfl
  have huncut' : ∀ xs ∈ reads.inits,
      Uncut packets ((TCPLinkOver.connected f).extractionByteBuffer.length + xs.flatten.length) := by
    rw [hempty]
    simpa only [Nat.zero_add] using huncut
  obtain ⟨link, hlink, hpublished, hfactory⟩ := hholds.receive hf hsizes huncut'
  refine ⟨link, hlink, hpublished, ?_⟩
  rcases hfactory with hfactory | ⟨p, more, hnil, -⟩
  · exact hfactory
  · cases hnil

end

/-- The link finds every packet of a noisy stream, in reads of any sizes that its buffer can have,
as long as none ends in the first bytes of a packet: it publishes what the factory makes of the
packets alone. -/
theorem noisy_stream_reassembles {packets : List NoisyPacket} {ending : List UInt8}
    {reads : List (List UInt8)} (hstream : reads.flatten = noisyStream packets ending)
    (hquiet : Quiet ending) (hsizes : ∀ c ∈ reads, c.length ≤ maxReceptionBufferSize.toNat)
    (huncut : ∀ xs ∈ reads.inits, Uncut packets xs.flatten.length) :
    addedFrom reads = .ok (decodedPackets (carried packets)) ∧
      publishedFrom reads =
        .ok (offerAll (⟨[], [], []⟩ : TcpScanFactory) (decodedPackets (carried packets))).2 ∧
      ∀ clean, clean.flatten = stream (carried packets) → Unsplit (carried packets) clean →
        publishedFrom reads = publishedFrom clean := by
  have hpublished : publishedFrom reads =
      .ok (offerAll (⟨[], [], []⟩ : TcpScanFactory) (decodedPackets (carried packets))).2 := by
    obtain ⟨link, hlink, hscans, -⟩ :=
      receive_noisy (⟨[], [], []⟩ : TcpScanFactory) rfl hstream hquiet hsizes huncut
    rw [publishedFrom, hlink, ← hscans]
    rfl
  refine ⟨?_, hpublished, fun clean hclean hunsplit => ?_⟩
  · obtain ⟨link, hlink, -, hfactory⟩ :=
      receive_noisy (⟨⟨[], [], []⟩, []⟩ : Recorder TcpScanFactory) rfl hstream hquiet hsizes huncut
    have hadded := Recorder.added_offerAll (⟨⟨[], [], []⟩, []⟩ : Recorder TcpScanFactory)
      (decodedPackets (carried packets))
    rw [← hfactory] at hadded
    rw [addedFrom, hlink]
    exact congrArg Except.ok hadded
  · rw [hpublished, publishedFrom_of_unsplit hclean hunsplit]

end

def noisyPackets : List NoisyPacket :=
  [⟨[0x00, 0x5c], zeroPoints 1 1 (by decide), by unfold NoEarlierMagic; decide⟩]

theorem noisy_stream_reassembles_cutNoise :
    addedFrom [[0x00], (noisyStream noisyPackets [0x5c]).drop 1] =
      .ok [(zeroPoints 1 1 (by decide)).decoded] :=
  (@noisy_stream_reassembles noisyPackets [0x5c] _ (by decide) (by unfold Quiet; decide)
    (by decide) (by decide)).1

end R2000Driver.PacketExtraction
