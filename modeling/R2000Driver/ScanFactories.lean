import R2000Driver.Lists
import R2000Driver.PacketExtraction

/-!
# The scan factories of the two links

`TcpScanFactory` concatenates what it is given and reads the announced number
of points from its first header. `UdpScanFactory` keeps whole packets, counts
their points, reads the announced number from the packet added last, and sorts
by packet number when the scan is assembled. The sort of the standard library
is a parameter: it promises no order among equal packet numbers.

`ScanFactory.offer` is what one delivered packet does to a factory inside the
extraction loops: make room, add, and publish when complete.
-/

namespace R2000Driver.PacketExtraction
open Data

structure TcpScanFactory where
  distances : List UInt32
  amplitudes : List UInt32
  headers : List Header
  deriving DecidableEq, Repr

namespace TcpScanFactory

def addPacket (f : TcpScanFactory) (header : Header) (inputDistances inputAmplitudes : List UInt32) :
    TcpScanFactory :=
  ⟨f.distances ++ inputDistances, f.amplitudes ++ inputAmplitudes, f.headers ++ [header]⟩

def empty (f : TcpScanFactory) : Bool := f.headers.isEmpty

def isComplete (f : TcpScanFactory) : Bool :=
  match f.headers with
  | [] => false
  | header :: _ => header.numPointsScan.toNat ≤ f.distances.length

def clear (_ : TcpScanFactory) : TcpScanFactory := ⟨[], [], []⟩

def assemble (f : TcpScanFactory) : Scan × TcpScanFactory :=
  (⟨f.distances, f.amplitudes, f.headers⟩, f.clear)

def equals (f : TcpScanFactory) (scanNumber : UInt32) : Bool :=
  match f.headers.getLast? with
  | none => false
  | some header => header.scanNumber.toUInt32 == scanNumber

def getHeaders (f : TcpScanFactory) : List Header := f.headers

end TcpScanFactory

instance : ScanFactory TcpScanFactory where
  addPacket := TcpScanFactory.addPacket
  empty := TcpScanFactory.empty
  isComplete := TcpScanFactory.isComplete
  assemble := TcpScanFactory.assemble
  clear := TcpScanFactory.clear
  equals := TcpScanFactory.equals
  getHeaders := TcpScanFactory.getHeaders

structure Packet where
  header : Header
  distances : List UInt32
  amplitudes : List UInt32
  deriving DecidableEq, Repr

def Packet.number (p : Packet) : ℕ := p.header.packetNumber.toNat

/-- The `std::sort` of the program at hand. -/
class PacketSort where
  sort : KeySort Packet Packet.number

@[reducible] def insertionPacketSort : PacketSort := ⟨KeySort.insertionSort Packet Packet.number⟩

structure UdpScanFactory where
  packets : List Packet
  numberOfPoints : UInt32
  deriving DecidableEq, Repr

namespace UdpScanFactory

def addPacket (f : UdpScanFactory) (header : Header) (inputDistances inputAmplitudes : List UInt32) :
    UdpScanFactory :=
  ⟨f.packets ++ [⟨header, inputDistances, inputAmplitudes⟩],
    f.numberOfPoints + UInt32.ofNat inputDistances.length⟩

def empty (f : UdpScanFactory) : Bool := f.packets.isEmpty

def isComplete (f : UdpScanFactory) : Bool :=
  match f.packets.getLast? with
  | none => false
  | some packet => packet.header.numPointsScan.toNat ≤ f.numberOfPoints.toNat

def clear (_ : UdpScanFactory) : UdpScanFactory := ⟨[], 0⟩

def assemble [PacketSort] (f : UdpScanFactory) : Scan × UdpScanFactory :=
  let packets := PacketSort.sort.run f.packets
  (⟨packets.flatMap Packet.distances, packets.flatMap Packet.amplitudes,
    packets.map Packet.header⟩, f.clear)

def equals (f : UdpScanFactory) (scanNumber : UInt32) : Bool :=
  match f.packets.getLast? with
  | none => false
  | some packet => packet.header.scanNumber.toUInt32 == scanNumber

def getHeaders (f : UdpScanFactory) : List Header := f.packets.map Packet.header

end UdpScanFactory

instance [PacketSort] : ScanFactory UdpScanFactory where
  addPacket := UdpScanFactory.addPacket
  empty := UdpScanFactory.empty
  isComplete := UdpScanFactory.isComplete
  assemble := UdpScanFactory.assemble
  clear := UdpScanFactory.clear
  equals := UdpScanFactory.equals
  getHeaders := UdpScanFactory.getHeaders

namespace ScanFactory

variable {F : Type} [ScanFactory F]

def publish (f : F) : F × Option Scan :=
  if isComplete f then ((assemble f).2, some (assemble f).1) else (f, none)

theorem publish_of_not_complete {f : F} (h : isComplete f = false) : publish f = (f, none) := by
  simp [publish, h]

def offer (f : F) (p : Packet) : F × Option Scan :=
  publish (addPacket (clearedFor f p.header) p.header p.distances p.amplitudes)

def offerAll (f : F) : List Packet → F × List Scan
  | [] => (f, [])
  | p :: ps =>
    let first := offer f p
    let rest := offerAll first.1 ps
    (rest.1, first.2.toList ++ rest.2)

theorem offerAll_append (f : F) (ps qs : List Packet) :
    offerAll f (ps ++ qs) =
      ((offerAll (offerAll f ps).1 qs).1, (offerAll f ps).2 ++ (offerAll (offerAll f ps).1 qs).2) := by
  induction ps generalizing f with
  | nil => rfl
  | cons p ps ih => simp [offerAll, ih]

/-- What the loops rely on: a cleared factory is empty, an empty one is not
complete, and assembling clears. -/
class Lawful (F : Type) [ScanFactory F] : Prop where
  empty_clear : ∀ f : F, empty (clear f) = true
  not_complete : ∀ f : F, empty f = true → isComplete f = false
  assemble_eq : ∀ f : F, (assemble f).2 = clear f

end ScanFactory

open ScanFactory

instance : Lawful TcpScanFactory where
  empty_clear _ := rfl
  not_complete f h := by
    obtain ⟨d, a, hs⟩ := f
    cases hs with
    | nil => rfl
    | cons => cases h
  assemble_eq _ := rfl

instance [PacketSort] : Lawful UdpScanFactory where
  empty_clear _ := rfl
  not_complete f h := by
    obtain ⟨ps, n⟩ := f
    cases ps with
    | nil => rfl
    | cons => cases h
  assemble_eq _ := rfl

namespace ScanFactory

variable {F : Type} [ScanFactory F] [Lawful F]

theorem publish_not_complete (f : F) : isComplete (publish f).1 = false := by
  unfold publish
  split_ifs with h
  · rw [Lawful.assemble_eq]
    exact Lawful.not_complete _ (Lawful.empty_clear f)
  · simpa using h

theorem clearedFor_not_complete {f : F} (h : isComplete f = false) (header : Header) :
    isComplete (clearedFor f header) = false := by
  unfold clearedFor
  split_ifs
  · exact Lawful.not_complete _ (Lawful.empty_clear f)
  · exact h

theorem clearedFor_idem (f : F) (header : Header) :
    clearedFor (clearedFor f header) header = clearedFor f header := by
  by_cases h : (!empty f && (isDifferentScan f header || isNewScan header)) = true
  · have hc : clearedFor f header = clear f := by rw [clearedFor, if_pos h]
    rw [hc, clearedFor, Lawful.empty_clear]
    rfl
  · have hc : clearedFor f header = f := by rw [clearedFor, if_neg h]
    rw [hc, hc]

theorem offer_clearedFor (f : F) (p : Packet) : offer (clearedFor f p.header) p = offer f p := by
  rw [offer, clearedFor_idem, offer]

theorem offer_not_complete (f : F) (p : Packet) : isComplete (offer f p).1 = false :=
  publish_not_complete _

theorem offerAll_not_complete {f : F} (h : isComplete f = false) (ps : List Packet) :
    isComplete (offerAll f ps).1 = false := by
  induction ps generalizing f with
  | nil => exact h
  | cons p ps ih => exact ih (offer_not_complete f p)

end ScanFactory

end R2000Driver.PacketExtraction
