import Mathlib.Logic.Relation
import R2000Driver.ScanFactories

/-!
# The extraction loops

The `for(;;)` loop of both links with what is done to a complete scan as a
parameter. It runs on fuel: `extractionLoop_fuel` says that a fuel above the
number of bytes decides every loop that nowhere stalls, and
`extractionLoop_returns_iff` which loops come back at all.

The loop stays on one position exactly at a header that announces no bytes
and no points (`Stalls`). Positions are followed by `Visits`, which looks at
the bytes only.
-/

namespace R2000Driver.PacketExtraction
open Data ScanFactory Relation

structure LoopExit (F σ : Type) where
  position : List UInt8
  numberOfMissingBytes : UInt32
  scanFactory : F
  output : σ

section Loop
variable {F σ : Type} [ScanFactory F]

def published (onComplete : F → Scan → σ → σ) (scanFactory : F) (output : σ) : σ :=
  match (publish scanFactory).2 with
  | none => output
  | some scan => onComplete scanFactory scan output

def extractionLoop (onComplete : F → Scan → σ → σ) :
    ℕ → List UInt8 → F → σ → Except Fault (LoopExit F σ)
  | 0, _, _, _ => .error .endless
  | fuel + 1, position, scanFactory, output =>
    match extractScanPacketFromByteRange position scanFactory with
    | .error e => .error e
    | .ok (extraction, scanFactory) =>
      let output := published onComplete scanFactory output
      let scanFactory := (publish scanFactory).1
      if extraction.hadEnoughBytes then
        extractionLoop onComplete fuel extraction.position scanFactory output
      else .ok ⟨extraction.position, extraction.numberOfMissingBytes, scanFactory, output⟩

theorem extractionLoop_succ (onComplete : F → Scan → σ → σ) (fuel : ℕ) (position : List UInt8)
    (scanFactory : F) (output : σ) :
    extractionLoop onComplete (fuel + 1) position scanFactory output =
      match findPacket position with
      | .error e => .error e
      | .ok .nothing => .ok ⟨[], 0, (publish scanFactory).1, published onComplete scanFactory output⟩
      | .ok (.missing headerStart header n) =>
        .ok ⟨headerStart, n, (publish (clearedFor scanFactory header)).1,
          published onComplete (clearedFor scanFactory header) output⟩
      | .ok (.packet header payload) =>
        let added := addPacket (clearedFor scanFactory header) header payload.distances
          payload.amplitudes
        extractionLoop onComplete fuel payload.position (publish added).1
          (published onComplete added output) := by
  rw [extractionLoop, extractScanPacketFromByteRange_eq]
  cases findPacket position with
  | error e => rfl
  | ok found => cases found <;> rfl

variable {onComplete : F → Scan → σ → σ}

theorem extractionLoop_keeps {I : F → σ → Prop}
    (hstep : ∀ (range : List UInt8) (found : Found) (f : F) (output : σ), findPacket range = .ok found →
      I f output → I (publish (found.deliver f).2).1 (published onComplete (found.deliver f).2 output))
    {fuel : ℕ} {range : List UInt8} {f : F} {output : σ} {exit : LoopExit F σ}
    (h : extractionLoop onComplete fuel range f output = .ok exit) (hi : I f output) :
    I exit.scanFactory exit.output := by
  induction fuel generalizing range f output with
  | zero => cases h
  | succ fuel ih =>
    rw [extractionLoop_succ] at h
    cases hp : findPacket range with
    | error e =>
      rw [hp] at h
      cases h
    | ok found =>
      rw [hp] at h
      have hnext := hstep range found f output hp hi
      cases found with
      | nothing =>
        cases h
        exact hnext
      | missing headerStart header n =>
        cases h
        exact hnext
      | packet header payload => exact ih h hnext

theorem extractionLoop_exit {fuel : ℕ} {range : List UInt8} {f : F} {output : σ}
    {exit : LoopExit F σ} (h : extractionLoop onComplete fuel range f output = .ok exit) :
    ∃ last, (findPacket last = .ok .nothing ∧ exit.position = [] ∧ exit.numberOfMissingBytes = 0) ∨
      ∃ header, findPacket last = .ok (.missing exit.position header exit.numberOfMissingBytes) := by
  induction fuel generalizing range f output with
  | zero => cases h
  | succ fuel ih =>
    rw [extractionLoop_succ] at h
    cases hp : findPacket range with
    | error e =>
      rw [hp] at h
      cases h
    | ok found =>
      rw [hp] at h
      cases found with
      | nothing =>
        cases h
        exact ⟨range, Or.inl ⟨hp, rfl, rfl⟩⟩
      | missing headerStart header n =>
        cases h
        exact ⟨range, Or.inr ⟨header, hp⟩⟩
      | packet header payload => exact ih h

end Loop

def packetEnd (headerStart : List UInt8) (header : Header) : List UInt8 :=
  let payloadStart := headerStart.drop header.headerSize.toNat
  payloadStart.drop (pointSize header.packetType *
    pointCount header.packetType payloadStart header.numPointsPacket.toNat)

def CutPoint (headerStart : List UInt8) (header : Header) : Prop :=
  header.packetType = packetTypeB ∧
    Overruns48 (headerStart.drop header.headerSize.toNat) header.numPointsPacket.toNat

def Hop (range next : List UInt8) : Prop :=
  ∃ headerStart header, HeaderAt range headerStart header ∧ PayloadFits headerStart header ∧
    Supported header.packetType ∧ ¬ CutPoint headerStart header ∧ next = packetEnd headerStart header

def Visits : List UInt8 → List UInt8 → Prop := ReflTransGen Hop

/-- A header on the position itself that announces neither bytes nor points. -/
def Stalls (range : List UInt8) : Prop :=
  ∃ header, HeaderAt range range header ∧ Supported header.packetType ∧
    header.headerSize = 0 ∧ header.numPointsPacket = 0 ∧ header.packetSize.toNat ≤ range.length

/-- A read past the end: a header cut by the end of the range, or a cut point. -/
def ReadsBeyond (range : List UInt8) : Prop :=
  (∃ headerStart, Searched range ∧ retrievePacketMagic range = some headerStart ∧
    headerStart.length < wireHeaderSize) ∨
  (∃ headerStart header, HeaderAt range headerStart header ∧ PayloadFits headerStart header ∧
    CutPoint headerStart header)

theorem HeaderAt.unique {range h₁ h₂ : List UInt8} {header₁ header₂ : Header}
    (h : HeaderAt range h₁ header₁) (h' : HeaderAt range h₂ header₂) :
    h₁ = h₂ ∧ header₁ = header₂ := by
  have hm := h.magic.symm.trans h'.magic
  injection hm with hm
  subst hm
  have hh := h.header.symm.trans h'.header
  injection hh with hh
  exact ⟨rfl, hh⟩

theorem supported_of_b {packetType : UInt16} (h : packetType = packetTypeB) : Supported packetType :=
  Or.inr (Or.inl h)

inductive Searches (range : List UInt8) : Except Fault Found → Prop
  | nothing : ¬ ReadsBeyond range → (∀ next, ¬ Hop range next) → Searches range (.ok .nothing)
  | missing {headerStart header n} : HeaderAt range headerStart header →
      ¬ PayloadFits headerStart header → Searches range (.ok (.missing headerStart header n))
  | unsupported {headerStart header} : HeaderAt range headerStart header →
      ¬ Supported header.packetType →
      Searches range (.error (unsupportedPayloadType header.packetType))
  | beyond : ReadsBeyond range → Searches range (.error .outOfRange)
  | packet {headerStart header payload} : HeaderAt range headerStart header →
      PayloadFits headerStart header → Supported header.packetType →
      ¬ CutPoint headerStart header → payload.position = packetEnd headerStart header →
      Searches range (.ok (.packet header payload))

theorem not_headerAt_of_nothing {range headerStart : List UInt8} {header : Header}
    (h : findPacket range = .ok .nothing) : ¬ HeaderAt range headerStart header := by
  intro hat
  rw [findPacket_of_magic hat.searched hat.magic hat.header] at h
  by_cases hf : PayloadFits headerStart header
  · rw [findPacketAt_of_fits hf] at h
    rcases retrievePayload_cases header.packetType (headerStart.drop header.headerSize.toNat)
      header.numPointsPacket.toNat with ⟨_, hp⟩ | ⟨_, _, hp⟩ | ⟨_, _, _, hp, _⟩ <;>
    · rw [hp] at h
      cases h
  · rw [findPacketAt_of_not_fits hf] at h
    cases h

theorem findPacket_searches (range : List UInt8) : Searches range (findPacket range) := by
  rcases findPacket_cases range with he | ⟨headerStart, hs, hm, hl, he⟩ | ⟨headerStart, header, hat, he⟩
  · rw [he]
    refine .nothing ?_ ?_
    · rintro (⟨headerStart, hs, hm, hl⟩ | ⟨headerStart, header, hat, -, -⟩)
      · rw [findPacket_of_cut_header hs hm hl] at he
        cases he
      · exact not_headerAt_of_nothing he hat
    · rintro next ⟨headerStart, header, hat, -⟩
      exact not_headerAt_of_nothing he hat
  · rw [he]
    exact .beyond (Or.inl ⟨headerStart, hs, hm, hl⟩)
  · rw [he]
    by_cases hf : PayloadFits headerStart header
    · rw [findPacketAt_of_fits hf]
      rcases retrievePayload_cases header.packetType (headerStart.drop header.headerSize.toNat)
        header.numPointsPacket.toNat with ⟨hu, hp⟩ | ⟨hb, ho, hp⟩ | ⟨hs, hc, payload, hp, hpc⟩
      · rw [hp]
        exact .unsupported hat hu
      · rw [hp]
        exact .beyond (Or.inr ⟨headerStart, header, hat, hf, hb, ho⟩)
      · rw [hp]
        exact .packet hat hf hs hc hpc.position
    · rw [findPacketAt_of_not_fits hf]
      exact .missing hat hf

theorem hop_of_packet {range : List UInt8} {header : Header} {payload : Payload}
    (h : findPacket range = .ok (.packet header payload)) : Hop range payload.position := by
  have hs := findPacket_searches range
  rw [h] at hs
  cases hs with
  | packet hat hf hsup hcut hpos => exact ⟨_, header, hat, hf, hsup, hcut, hpos⟩

theorem Hop.packet {range next : List UInt8} (h : Hop range next) :
    ∃ header payload, findPacket range = .ok (.packet header payload) ∧
      payload.position = next := by
  obtain ⟨headerStart, header, hat, hf, hsup, hcut, rfl⟩ := h
  rcases retrievePayload_cases header.packetType (headerStart.drop header.headerSize.toNat)
    header.numPointsPacket.toNat with ⟨hu, -⟩ | ⟨hb, ho, -⟩ | ⟨-, -, payload, hp, hpc⟩
  · exact absurd hsup hu
  · exact absurd ⟨hb, ho⟩ hcut
  · refine ⟨header, payload, ?_, hpc.position⟩
    rw [findPacket_of_magic hat.searched hat.magic hat.header, findPacketAt_of_fits hf, hp]
    rfl

theorem packetEnd_length_le (headerStart : List UInt8) (header : Header) :
    (packetEnd headerStart header).length ≤ headerStart.length := by
  simp only [packetEnd, List.length_drop]
  omega

theorem Searched.le_length {range : List UInt8} (h : Searched range) :
    sizeofHeader ≤ range.length := h.trans (Nat.mod_le _ _)

theorem HeaderAt.eq_of_length {range headerStart : List UInt8} {header : Header}
    (h : HeaderAt range headerStart header) (hl : headerStart.length = range.length) :
    headerStart = range := by
  obtain ⟨g, hg, -, -⟩ := retrievePacketMagic_eq_some h.magic
  have hg0 : g = [] := by
    apply List.eq_nil_of_length_eq_zero
    have := congrArg List.length hg
    rw [List.length_append] at this
    omega
  rw [hg, hg0, List.nil_append]

theorem payloadSize_of_headerSize_zero {header : Header} (h : header.headerSize = 0) :
    payloadSize header = header.packetSize := by
  rw [payloadSize, h]
  exact UInt32.sub_zero _

theorem Hop.length_lt_iff {range next : List UInt8} (h : Hop range next) :
    next.length < range.length ↔ ¬ Stalls range := by
  obtain ⟨headerStart, header, hat, hf, hsup, -, rfl⟩ := h
  have hle := hat.le_length
  constructor
  · rintro hlt ⟨header', hat', -, hz, hn, -⟩
    obtain ⟨rfl, rfl⟩ := hat.unique hat'
    simp [packetEnd, hz, hn, pointCount] at hlt
  · intro hns
    by_contra hge
    have hp := packetEnd_length_le headerStart header
    have hstart := hat.eq_of_length (by omega)
    subst hstart
    have hsz := hat.searched.le_length
    simp only [sizeofHeader] at hsz
    have heq : (packetEnd headerStart header).length = headerStart.length := by omega
    simp only [packetEnd, List.length_drop] at heq
    have hh : header.headerSize.toNat = 0 := by omega
    have hz : header.headerSize = 0 := UInt16.toNat_inj.mp hh
    have hcount : pointSize header.packetType *
        pointCount header.packetType (headerStart.drop 0) header.numPointsPacket.toNat = 0 := by
      rw [hh] at heq
      omega
    have hn : header.numPointsPacket.toNat = 0 := by
      simp only [List.drop_zero, pointCount, pointSize] at hcount
      split_ifs at hcount <;> omega
    refine hns ⟨header, hat, hsup, hz, UInt16.toNat_inj.mp hn, ?_⟩
    rwa [PayloadFits, hh, Nat.zero_add, payloadSize_of_headerSize_zero hz] at hf

theorem Stalls.hop {range : List UInt8} (h : Stalls range) : Hop range range := by
  obtain ⟨header, hat, hsup, hz, hn, hs⟩ := h
  have hz0 : header.headerSize.toNat = 0 := by rw [hz]; rfl
  have hn0 : header.numPointsPacket.toNat = 0 := by rw [hn]; rfl
  refine ⟨range, header, hat, ?_, hsup, ?_, ?_⟩
  · rwa [PayloadFits, hz0, Nat.zero_add, payloadSize_of_headerSize_zero hz]
  · rintro ⟨-, ho, -⟩
    omega
  · simp [packetEnd, hz0, hn0, pointCount]

def Returns {α : Type} (result : Except Fault α) : Prop :=
  (∃ x, result = .ok x) ∨ ∃ what, result = .error (.runtimeError what)

section Fuel
variable {F σ : Type} [ScanFactory F] (onComplete : F → Scan → σ → σ)

theorem extractionLoop_hop {range next : List UInt8} (h : Hop range next) (scanFactory : F)
    (output : σ) : ∃ scanFactory' output', ∀ fuel,
      extractionLoop onComplete (fuel + 1) range scanFactory output =
        extractionLoop onComplete fuel next scanFactory' output' := by
  obtain ⟨header, payload, hp, rfl⟩ := h.packet
  let added := addPacket (clearedFor scanFactory header) header payload.distances payload.amplitudes
  refine ⟨(publish added).1, published onComplete added output, fun fuel => ?_⟩
  rw [extractionLoop_succ, hp]

theorem extractionLoop_stalls {range : List UInt8} (h : Stalls range) (fuel : ℕ) (scanFactory : F)
    (output : σ) : extractionLoop onComplete fuel range scanFactory output = .error .endless := by
  induction fuel generalizing scanFactory output with
  | zero => rfl
  | succ fuel ih =>
    obtain ⟨scanFactory', output', hl⟩ := extractionLoop_hop onComplete h.hop scanFactory output
    rw [hl, ih]

/-- More fuel than bytes decides the loop when it nowhere stalls. -/
theorem extractionLoop_fuel {range : List UInt8} (hclear : ∀ r, Visits range r → ¬ Stalls r)
    {fuel : ℕ} (hf : range.length < fuel) (scanFactory : F) (output : σ) :
    extractionLoop onComplete fuel range scanFactory output ≠ .error .endless ∧
    ∀ more, fuel ≤ more → extractionLoop onComplete more range scanFactory output =
      extractionLoop onComplete fuel range scanFactory output := by
  induction fuel generalizing range scanFactory output with
  | zero => omega
  | succ fuel ih =>
    have hs := findPacket_searches range
    constructor
    · rw [extractionLoop_succ]
      cases hp : findPacket range with
      | error e =>
        rw [hp] at hs
        cases hs <;> simp [unsupportedPayloadType]
      | ok found =>
        cases found with
        | nothing => simp
        | missing => simp
        | packet header payload =>
          have hhop := hop_of_packet hp
          have hlt := hhop.length_lt_iff.mpr (hclear range ReflTransGen.refl)
          exact (ih (fun r hr => hclear r (ReflTransGen.head hhop hr)) (by omega) _ _).1
    · intro more hm
      obtain ⟨more, rfl⟩ : ∃ k, more = k + 1 := ⟨more - 1, by omega⟩
      rw [extractionLoop_succ, extractionLoop_succ]
      cases hp : findPacket range with
      | error e => rfl
      | ok found =>
        cases found with
        | nothing => rfl
        | missing => rfl
        | packet header payload =>
          have hhop := hop_of_packet hp
          have hlt := hhop.length_lt_iff.mpr (hclear range ReflTransGen.refl)
          exact (ih (fun r hr => hclear r (ReflTransGen.head hhop hr)) (by omega) _ _).2 more
            (by omega)

theorem extractionLoop_returns {range : List UInt8}
    (hclear : ∀ r, Visits range r → ¬ Stalls r ∧ ¬ ReadsBeyond r) {fuel : ℕ}
    (hf : range.length < fuel) (scanFactory : F) (output : σ) :
    Returns (extractionLoop onComplete fuel range scanFactory output) := by
  induction fuel generalizing range scanFactory output with
  | zero => omega
  | succ fuel ih =>
    have hs := findPacket_searches range
    have hc := hclear range ReflTransGen.refl
    rw [extractionLoop_succ]
    cases hp : findPacket range with
    | error e =>
      rw [hp] at hs
      cases hs with
      | unsupported => exact Or.inr ⟨_, rfl⟩
      | beyond hb => exact absurd hb hc.2
    | ok found =>
      cases found with
      | nothing => exact Or.inl ⟨_, rfl⟩
      | missing => exact Or.inl ⟨_, rfl⟩
      | packet header payload =>
        have hhop := hop_of_packet hp
        have hlt := hhop.length_lt_iff.mpr hc.1
        exact ih (fun r hr => hclear r (ReflTransGen.head hhop hr)) (by omega) _ _

theorem findPacket_of_readsBeyond {range : List UInt8} (h : ReadsBeyond range) :
    findPacket range = .error .outOfRange := by
  rcases h with ⟨headerStart, hs, hm, hl⟩ | ⟨headerStart, header, hat, hf, hb, ho⟩
  · exact findPacket_of_cut_header hs hm hl
  · rw [findPacket_of_magic hat.searched hat.magic hat.header, findPacketAt_of_fits hf]
    rcases retrievePayload_cases header.packetType (headerStart.drop header.headerSize.toNat)
      header.numPointsPacket.toNat with ⟨hu, -⟩ | ⟨-, -, hp⟩ | ⟨-, hc, -⟩
    · exact absurd (supported_of_b hb) hu
    · rw [hp]
      rfl
    · exact absurd ⟨hb, ho⟩ hc

theorem extractionLoop_readsBeyond {range : List UInt8} (h : ReadsBeyond range) (fuel : ℕ)
    (scanFactory : F) (output : σ) :
    ¬ Returns (extractionLoop onComplete fuel range scanFactory output) := by
  cases fuel with
  | zero => rintro (⟨x, hx⟩ | ⟨what, hx⟩) <;> cases hx
  | succ fuel =>
    rw [extractionLoop_succ, findPacket_of_readsBeyond h]
    rintro (⟨x, hx⟩ | ⟨what, hx⟩) <;> cases hx

theorem clear_of_extractionLoop_returns {range : List UInt8} {fuel : ℕ} {scanFactory : F}
    {output : σ} (h : Returns (extractionLoop onComplete fuel range scanFactory output))
    {r : List UInt8} (hr : Visits range r) : ¬ Stalls r ∧ ¬ ReadsBeyond r := by
  induction hr using ReflTransGen.head_induction_on generalizing fuel scanFactory output with
  | refl =>
    refine ⟨fun hs => ?_, fun hb => extractionLoop_readsBeyond onComplete hb _ _ _ h⟩
    rw [extractionLoop_stalls onComplete hs] at h
    rcases h with ⟨x, hx⟩ | ⟨what, hx⟩ <;> cases hx
  | head hhop _ ih =>
    obtain ⟨scanFactory', output', hl⟩ := extractionLoop_hop onComplete hhop scanFactory output
    cases fuel with
    | zero => rcases h with ⟨x, hx⟩ | ⟨what, hx⟩ <;> cases hx
    | succ fuel =>
      rw [hl] at h
      exact ih h

theorem extractionLoop_returns_iff (range : List UInt8) (scanFactory : F) (output : σ) :
    (∃ fuel, Returns (extractionLoop onComplete fuel range scanFactory output)) ↔
      ∀ r, Visits range r → ¬ Stalls r ∧ ¬ ReadsBeyond r :=
  ⟨fun ⟨_, h⟩ _ hr => clear_of_extractionLoop_returns onComplete h hr,
    fun h => ⟨range.length + 1, extractionLoop_returns onComplete h (Nat.lt_succ_self _) _ _⟩⟩

end Fuel

end R2000Driver.PacketExtraction
