import R2000Driver.Links

/-!
# The extraction loop on the beginning of a packet stream

A stream is the concatenation of packets with points. On a range that is the
beginning of one, the loop adds the whole packets and stops behind them, as
long as each packet begun in the range has as many bytes there as a header has
in memory (`Begun`). Otherwise the bytes of that packet are dropped: what the
loop adds and leaves weighs less than the range.
-/

namespace R2000Driver.PacketExtraction
open Data ScanFactory

attribute [local irreducible] WirePacket.bytes

def stream (packets : List ScanPacket) : List UInt8 := packets.flatMap fun p => p.bytes

@[simp] theorem stream_nil : stream [] = [] := rfl

@[simp] theorem stream_cons (p : ScanPacket) (ps : List ScanPacket) :
    stream (p :: ps) = p.bytes ++ stream ps := rfl

@[simp] theorem stream_append (ps qs : List ScanPacket) :
    stream (ps ++ qs) = stream ps ++ stream qs := List.flatMap_append

/-- Of every packet that begins in the first `n` bytes, enough bytes are among
them for the search to look at it. The code counts them modulo `2 ^ 32`. -/
def Begun (rest : List ScanPacket) (n : ℕ) : Prop :=
  ∀ ps p qs, rest = ps ++ p :: qs → (stream ps).length < n →
    sizeofHeader ≤ (n - (stream ps).length) % 2 ^ 32

theorem searched_iff (range : List UInt8) :
    Searched range ↔ sizeofHeader ≤ (range.length - (stream []).length) % 2 ^ 32 := by
  rw [stream_nil, List.length_nil, Nat.sub_zero, Searched]

theorem Begun.searched {p : ScanPacket} {rest : List ScanPacket} {range : List UInt8}
    (h : Begun (p :: rest) range.length) (hr : 0 < range.length) : Searched range :=
  (searched_iff range).mpr (h [] p rest rfl hr)

theorem begun_cons_iff {p : ScanPacket} {rest : List ScanPacket} {range : List UInt8}
    (hs : Searched (p.bytes ++ range)) :
    Begun (p :: rest) (p.bytes ++ range).length ↔ Begun rest range.length := by
  have hl : (p.bytes ++ range).length = p.bytes.length + range.length := List.length_append
  constructor
  · intro h ps q qs hr hlt
    have hq := h (p :: ps) q qs (by rw [hr]; rfl)
    rw [stream_cons, List.length_append, hl, Nat.add_sub_add_left] at hq
    exact hq (by omega)
  · intro h ps q qs hr hlt
    cases ps with
    | nil => exact (searched_iff _).mp hs
    | cons p' ps =>
      obtain ⟨rfl, hr'⟩ := List.cons.inj hr
      rw [stream_cons, List.length_append, hl] at hlt
      rw [stream_cons, List.length_append, List.length_append, Nat.add_sub_add_left]
      exact h ps q qs hr' (by omega)

theorem begun_of_cut {p : ScanPacket} {rest : List ScanPacket} {range : List UInt8}
    (hs : Searched range) (hcut : range.length < p.bytes.length) :
    Begun (p :: rest) range.length := by
  intro ps q qs hr hlt
  cases ps with
  | nil => exact (searched_iff _).mp hs
  | cons p' ps =>
    obtain ⟨rfl, -⟩ := List.cons.inj hr
    rw [stream_cons, List.length_append] at hlt
    omega

theorem prefix_cases {p : ScanPacket} {rest : List ScanPacket} {range tail : List UInt8}
    (h : range ++ tail = stream (p :: rest)) :
    (∃ range', p.bytes ++ range' = range ∧ range' ++ tail = stream rest) ∨
    (∃ cut, p.bytes = range ++ cut ∧ range.length < p.bytes.length) := by
  rw [stream_cons] at h
  rcases List.append_eq_append_iff.mp h with ⟨cut, hb, ht⟩ | ⟨range', hr, hs⟩
  · cases cut with
    | nil => exact Or.inl ⟨[], by rw [hb, List.append_nil, List.append_nil], by simpa using ht⟩
    | cons b cut =>
      refine Or.inr ⟨b :: cut, hb, ?_⟩
      rw [hb, List.length_append, List.length_cons]
      omega
  · exact Or.inl ⟨range', hr.symm, hs.symm⟩

theorem fromByteRange_of_cut {p : WirePacket} {range cut : List UInt8}
    (hb : p.bytes = range ++ cut) (hl : wireHeaderSize ≤ range.length) :
    Header.fromByteRange range = .ok p.header := by
  have hh := Header.length_bytes p.header
  unfold WirePacket.bytes at hb
  rw [List.append_assoc] at hb
  have hheader : p.header.bytes <+: range ++ cut := by
    rw [← hb]
    exact List.prefix_append _ _
  obtain ⟨more, hr⟩ : p.header.bytes <+: range :=
    List.prefix_of_prefix_length_le hheader (List.prefix_append _ _) (by rwa [hh])
  rw [← hr, Header.fromByteRange_bytes]

theorem missingBytes_of_cut {p : WirePacket} {range cut : List UInt8} (hb : p.bytes = range ++ cut) :
    UInt32.ofInt ((payloadSize p.header).toNat - numberOfBytesAvailable range p.header) =
      UInt32.ofNat cut.length := by
  have hl := congrArg List.length hb
  have hsize := p.packetSize
  rw [p.length_bytes, List.length_append] at hl
  have hcount : ((payloadSize p.header).toNat : ℤ) - numberOfBytesAvailable range p.header =
      cut.length := by
    rw [p.payloadSize_eq, numberOfBytesAvailable]
    omega
  have hbound := p.header.packetSize.toNat_lt
  have hnat : ((cut.length : ℤ) % 2 ^ 32).toNat = cut.length := by omega
  rw [hcount, UInt32.ofInt, hnat]

theorem findPacket_of_cut {p : WirePacket} {range cut : List UInt8} (hb : p.bytes = range ++ cut)
    (hs : Searched range) (hcut : range.length < p.bytes.length) :
    findPacket range = .ok (.missing range p.header (UInt32.ofNat cut.length)) := by
  have hle := hs.le_length
  simp only [sizeofHeader] at hle
  have hm : StartsWithMagic range := by
    have := p.startsWithMagic
    rwa [hb, startsWithMagic_append_iff (by omega)] at this
  have hf : ¬ PayloadFits range p.header := by
    have hsize := p.packetSize
    rw [PayloadFits, p.payloadSize_eq, ← p.packetSize, ← p.length_bytes]
    omega
  have hh := fromByteRange_of_cut hb (by simp only [wireHeaderSize]; omega)
  rw [findPacket_of_magic hs (retrievePacketMagic_of_startsWith hm) hh, findPacketAt_of_not_fits hf,
    missingBytes_of_cut hb]

section Run
variable {F : Type} [ScanFactory F]

/-- The factory, or the factory after a look at the next packet's header. -/
def Looked (f : F) (rest : List ScanPacket) (f' : F) : Prop :=
  f' = f ∨ ∃ p qs, rest = p :: qs ∧ f' = clearedFor f p.header

structure StopsBehind (ps qs : List ScanPacket) (f : F) (scans : List Scan)
    (exit : LoopExit F (Option UInt32 × List Scan)) : Prop where
  cut : ∀ p rest, qs = p :: rest → exit.position.length < p.bytes.length
  published : exit.output.2 = scans ++ (offerAll f (decodedPackets ps)).2
  factory : Looked (offerAll f (decodedPackets ps)).1 qs exit.scanFactory

theorem onCompleteScan_scans (f : F) (p : Packet) (output : Option UInt32 × List Scan) :
    (offerOutput TCPLinkOver.onCompleteScan f p output).2 = output.2 ++ (offer f p).2.toList := by
  rw [offerOutput, published, offer]
  cases (publish (addPacket (clearedFor f p.header) p.header p.distances p.amplitudes)).2 with
  | none => rw [Option.toList_none, List.append_nil]
  | some scan => rfl

variable [Lawful F]

theorem extractionLoop_stopsBehind {rest : List ScanPacket} {range tail : List UInt8}
    (hstream : range ++ tail = stream rest) (hbegun : Begun rest range.length)
    {fuel : ℕ} (hfuel : range.length < fuel) {f : F} (hf : isComplete f = false)
    (output : Option UInt32 × List Scan) :
    ∃ exit ps qs, extractionLoop TCPLinkOver.onCompleteScan fuel range f output = .ok exit ∧
      rest = ps ++ qs ∧ range = stream ps ++ exit.position ∧
      StopsBehind ps qs f output.2 exit := by
  induction rest generalizing range fuel f output with
  | nil =>
    obtain ⟨rfl, -⟩ := List.append_eq_nil_iff.mp hstream
    obtain ⟨fuel, rfl⟩ := Nat.exists_eq_add_of_lt hfuel
    refine ⟨⟨[], 0, f, output⟩, [], [], ?_, rfl, rfl, ?_⟩
    · exact extractionLoop_nothing _ (findPacket_of_not_searched not_searched_nil) _ hf output
    · exact ⟨fun p rest h => (List.cons_ne_nil p rest h.symm).elim, (List.append_nil _).symm, Or.inl rfl⟩
  | cons p rest ih =>
    obtain ⟨fuel, rfl⟩ : ∃ k, fuel = k + 1 := ⟨fuel - 1, by omega⟩
    rcases prefix_cases hstream with ⟨range', rfl, hstream'⟩ | ⟨cut, hb, hcut⟩
    · -- The packet is whole: one iteration adds it, the rest is the induction hypothesis.
      have hp := p.length_pos
      rw [List.length_append] at hfuel
      have hs : Searched (p.bytes ++ range') := by
        apply hbegun.searched
        rw [List.length_append]
        omega
      obtain ⟨exit, ps, qs, hloop, hrest, hrange, hstops⟩ := ih hstream' ((begun_cons_iff hs).mp hbegun)
        (show range'.length < fuel by omega) (offer_not_complete f p.decoded)
        (offerOutput TCPLinkOver.onCompleteScan f p.decoded output)
      refine ⟨exit, p :: ps, qs, ?_, ?_, ?_, hstops.cut, ?_, hstops.factory⟩
      · rw [← hloop]
        exact extractionLoop_packet _ p.toWirePacket [] range' (fun k hk => absurd hk k.not_lt_zero) hs
          fuel f output
      · rw [hrest, List.cons_append]
      · rw [stream_cons, List.append_assoc, ← hrange]
      · rw [hstops.published, onCompleteScan_scans, List.append_assoc]
        rfl
    · by_cases hr : 0 < range.length
      · have hs := hbegun.searched hr
        have hfind := findPacket_of_cut hb hs hcut
        refine ⟨_, [], p :: rest, extractionLoop_missing _ hfind _ hf output, rfl, rfl, ?_⟩
        refine ⟨fun q qs h => ?_, (List.append_nil _).symm, Or.inr ⟨p, rest, rfl, rfl⟩⟩
        obtain ⟨rfl, -⟩ := List.cons.inj h
        exact hcut
      · obtain rfl : range = [] := List.eq_nil_of_length_eq_zero (by omega)
        refine ⟨_, [], p :: rest, extractionLoop_nothing _
          (findPacket_of_not_searched not_searched_nil) _ hf output, rfl, rfl, ?_⟩
        exact ⟨fun q qs _ => q.length_pos, (List.append_nil _).symm, Or.inl rfl⟩

end Run

def Packet.weight (p : Packet) : ℕ :=
  p.header.headerSize.toNat + pointSize p.header.packetType * p.distances.length

def weight (ps : List Packet) : ℕ := (ps.map Packet.weight).sum

@[simp] theorem weight_append (ps qs : List Packet) : weight (ps ++ qs) = weight ps + weight qs := by
  simp [weight]

@[simp] theorem weight_singleton (p : Packet) : weight [p] = p.weight := by
  simp [weight]

theorem weight_decoded (p : WirePacket) : p.decoded.weight = p.bytes.length := by
  rw [Packet.weight, WirePacket.decoded, p.length_bytes, p.packetSize, RawPayload.length_distances,
    p.packetType, Nat.mul_comm]

theorem weight_decodedPackets (packets : List ScanPacket) :
    weight (decodedPackets packets) = (stream packets).length := by
  induction packets with
  | nil => rfl
  | cons p ps ih =>
    have hp := weight_decoded p.toWirePacket
    simp only [weight, decodedPackets, List.map_cons, List.sum_cons] at ih ⊢
    rw [hp, ih, stream_cons, List.length_append]

theorem weight_of_found {range : List UInt8} {header : Header} {payload : Payload}
    (h : findPacket range = .ok (.packet header payload)) :
    Packet.weight ⟨header, payload.distances, payload.amplitudes⟩ + payload.position.length ≤
      range.length := by
  obtain ⟨headerStart, hat, hf, -, hc⟩ := findPacket_eq_packet h
  have hle := hat.le_length
  have hfits : header.headerSize.toNat ≤ headerStart.length := (Nat.le_add_right _ _).trans hf
  have hcount := pointBytes_le header.packetType (headerStart.drop header.headerSize.toNat)
    header.numPointsPacket.toNat
  simp only [Packet.weight, hc.distances, hc.position, List.length_drop] at hcount ⊢
  omega

section Weight
variable {F : Type} [ScanFactory F]

theorem Recorder.added_offer (r : Recorder F) (p : Packet) : (offer r p).1.added = r.added ++ [p] := by
  rw [Recorder.offer_eq]

theorem Recorder.added_offerAll (r : Recorder F) (ps : List Packet) :
    (offerAll r ps).1.added = r.added ++ ps := by
  induction ps generalizing r with
  | nil => exact (List.append_nil _).symm
  | cons p ps ih =>
    rw [offerAll, ih, Recorder.added_offer, List.append_assoc]
    rfl

theorem Recorder.added_publish (r : Recorder F) : (publish r).1.added = r.added := by
  rw [Recorder.publish_eq]

theorem Recorder.added_clearedFor (r : Recorder F) (header : Header) :
    (clearedFor r header).added = r.added := by
  rw [Recorder.clearedFor_eq]

theorem extractionLoop_weight {σ : Type} {onComplete : Recorder F → Scan → σ → σ} {fuel : ℕ}
    {range : List UInt8} {r : Recorder F} {output : σ} {exit : LoopExit (Recorder F) σ}
    (h : extractionLoop onComplete fuel range r output = .ok exit) :
    weight exit.scanFactory.added + exit.position.length ≤ weight r.added + range.length := by
  induction fuel generalizing range r output with
  | zero => cases h
  | succ fuel ih =>
    have hs := findPacket_searches range
    rw [extractionLoop_succ] at h
    cases hp : findPacket range with
    | error e =>
      rw [hp] at h
      cases h
    | ok found =>
      rw [hp] at h hs
      cases found with
      | nothing =>
        cases h
        rw [Recorder.added_publish, List.length_nil]
        omega
      | missing headerStart header n =>
        cases h
        cases hs with
        | missing hat =>
          have hle := hat.le_length
          simp only [Recorder.added_publish, Recorder.added_clearedFor]
          omega
      | packet header payload =>
        have hw := weight_of_found hp
        have hadded := Recorder.added_offer r ⟨header, payload.distances, payload.amplitudes⟩
        have hrest := ih h
        rw [← offer.eq_1 r ⟨header, payload.distances, payload.amplitudes⟩, hadded, weight_append,
          weight_singleton] at hrest
        omega

theorem extractionLoop_loses [Lawful F] {rest : List ScanPacket} {range tail : List UInt8}
    (hstream : range ++ tail = stream rest) (hbegun : ¬ Begun rest range.length) {σ : Type}
    {onComplete : Recorder F → Scan → σ → σ} {fuel : ℕ} {r : Recorder F} {output : σ}
    {exit : LoopExit (Recorder F) σ}
    (h : extractionLoop onComplete fuel range r output = .ok exit) :
    weight exit.scanFactory.added + exit.position.length < weight r.added + range.length := by
  induction rest generalizing range fuel r output with
  | nil =>
    refine absurd ?_ hbegun
    intro ps p qs hr
    simp at hr
  | cons p rest ih =>
    cases fuel with
    | zero => cases h
    | succ fuel =>
      by_cases hs : Searched range
      · rcases prefix_cases hstream with ⟨range', rfl, hstream'⟩ | ⟨cut, hb, hcut⟩
        · rw [begun_cons_iff hs] at hbegun
          have hloop := extractionLoop_packet onComplete p.toWirePacket [] range'
            (fun k hk => absurd hk k.not_lt_zero) hs fuel r output
          rw [List.nil_append, h] at hloop
          have hrest := ih hstream' hbegun hloop.symm
          rw [Recorder.added_offer, weight_append, weight_singleton, weight_decoded] at hrest
          rw [List.length_append]
          omega
        · exact absurd (begun_of_cut hs hcut) hbegun
      · have hpos : 0 < range.length := by
          by_contra hzero
          refine hbegun fun ps q qs _ hlt => ?_
          omega
        rw [extractionLoop_succ, findPacket_of_not_searched hs] at h
        cases h
        rw [Recorder.added_publish, List.length_nil]
        omega

end Weight

end R2000Driver.PacketExtraction
