import R2000Driver.PacketExtraction

/-!
# The integer loops by their positions

The two loops as they move through the range: the position is a number, the
bytes left are the distance to the end as an unsigned number, and each byte is
read through the iterator, without a result behind the end. A loop whose guard
asks for as many bytes as a block has stays inside every range. One that asks
for fewer leaves it when blocks are wanted behind the last whole one and the
rest of the range still passes the guard (`loop_cases`).

`retrieve32Bits_positions` and `retrieve48bits_positions` say that these are the
loops of the extraction.
-/

namespace R2000Driver.IntegerLoops
open Data PacketExtraction

def readByte (range : List UInt8) (position : ℕ) : Except Fault UInt8 :=
  match range[position]? with
  | some byte => .ok byte
  | none => .error .outOfRange

/-- The distance to the end as a `long unsigned int`. -/
def remainingBytes (range : List UInt8) (position : ℕ) : ℕ :=
  if position ≤ range.length then range.length - position
  else 2 ^ 64 - (position - range.length)

def readUint32 (range : List UInt8) (position : ℕ) : Except Fault UInt32 := do
  let b0 ← readByte range position
  let b1 ← readByte range (position + 1)
  let b2 ← readByte range (position + 2)
  let b3 ← readByte range (position + 3)
  return b0.toUInt32 ||| (b1.toUInt32 <<< 8) ||| (b2.toUInt32 <<< 16) ||| (b3.toUInt32 <<< 24)

def readUint32AndUint16 (range : List UInt8) (position : ℕ) : Except Fault (UInt32 × UInt16) := do
  let uint32Value ← readUint32 range position
  let b4 ← readByte range (position + 4)
  let b5 ← readByte range (position + 4 + 1)
  return (uint32Value, b4.toUInt16 ||| (b5.toUInt16 <<< 8))

section
variable {α : Type} (guardBytes blockBytes : ℕ) (readBlock : List UInt8 → ℕ → Except Fault α)

def loop (range : List UInt8) : ℕ → ℕ → Except Fault (List α × ℕ)
  | position, 0 => .ok ([], position)
  | position, numberOfIntegersToExtract + 1 =>
    if guardBytes ≤ remainingBytes range position then do
      let value ← readBlock range position
      let tail ← loop range (position + blockBytes) numberOfIntegersToExtract
      return (value :: tail.1, tail.2)
    else .ok ([], position)

end

def retrieve32BitsUnsignedIntegersFromByteRange (range : List UInt8) (numberOfIntegersToExtract : ℕ) :
    Except Fault (List UInt32 × ℕ) :=
  loop 4 4 readUint32 range 0 numberOfIntegersToExtract

-- The guard asks for the bytes of the first integer only.
def retrieve48bitsUnsignedIntegersFromByteRange (range : List UInt8) (numberOfIntegersToExtract : ℕ) :
    Except Fault (List (UInt32 × UInt16) × ℕ) :=
  loop 4 6 readUint32AndUint16 range 0 numberOfIntegersToExtract

theorem readByte_of_lt {range : List UInt8} {position : ℕ} (h : position < range.length) :
    readByte range position = .ok range[position] := by
  rw [readByte, List.getElem?_eq_getElem h]

theorem readByte_of_le {range : List UInt8} {position : ℕ} (h : range.length ≤ position) :
    readByte range position = .error .outOfRange := by
  rw [readByte, List.getElem?_eq_none h]

structure ReadsBlock {α : Type} (blockBytes : ℕ) (readBlock : List UInt8 → ℕ → Except Fault α) :
    Prop where
  inside : ∀ range position, position + blockBytes ≤ range.length →
    ∃ value, readBlock range position = .ok value
  beyond : ∀ range position, position ≤ range.length → range.length < position + blockBytes →
    readBlock range position = .error .outOfRange

theorem readsBlock_pure {α : Type} (value : α) : ReadsBlock 0 fun _ _ => .ok value where
  inside _ _ _ := ⟨value, rfl⟩
  beyond _ _ hle hlt := absurd hle (Nat.not_le_of_lt hlt)

theorem ReadsBlock.bind {α β : Type} {m n : ℕ} {first : List UInt8 → ℕ → Except Fault α}
    {second : α → List UInt8 → ℕ → Except Fault β} (hfirst : ReadsBlock m first)
    (hsecond : ∀ value, ReadsBlock n (second value)) :
    ReadsBlock (m + n) fun range position =>
      first range position >>= fun value => second value range (position + m) where
  inside range position h := by
    obtain ⟨value, hvalue⟩ := hfirst.inside range position (by omega)
    rw [hvalue]
    exact (hsecond value).inside range (position + m) (by omega)
  beyond range position hle hlt := by
    by_cases hm : position + m ≤ range.length
    · obtain ⟨value, hvalue⟩ := hfirst.inside range position hm
      rw [hvalue]
      exact (hsecond value).beyond range (position + m) hm (by omega)
    · rw [hfirst.beyond range position hle (Nat.lt_of_not_le hm)]
      rfl

theorem readsBlock_readByte : ReadsBlock 1 readByte where
  inside _ _ h := ⟨_, readByte_of_lt h⟩
  beyond _ _ _ hlt := readByte_of_le (Nat.le_of_lt_succ hlt)

theorem readsBlock_readUint32 : ReadsBlock 4 readUint32 :=
  readsBlock_readByte.bind fun _ => readsBlock_readByte.bind fun _ =>
    readsBlock_readByte.bind fun _ => readsBlock_readByte.bind fun _ => readsBlock_pure _

theorem readsBlock_readUint32AndUint16 : ReadsBlock 6 readUint32AndUint16 :=
  readsBlock_readUint32.bind fun _ => readsBlock_readByte.bind fun _ =>
    readsBlock_readByte.bind fun _ => readsBlock_pure _

/-- More blocks are wanted than the bytes left hold, and what the blocks leave passes the guard. -/
def Overruns (guardBytes blockBytes left n : ℕ) : Prop :=
  left / blockBytes < n ∧ guardBytes ≤ left % blockBytes

section
variable {α : Type} {guardBytes blockBytes : ℕ} {readBlock : List UInt8 → ℕ → Except Fault α}

theorem remainingBytes_of_le {range : List UInt8} {position : ℕ} (h : position ≤ range.length) :
    remainingBytes range position = range.length - position := if_pos h

theorem loop_of_short {range : List UInt8} {position : ℕ} (hposition : position ≤ range.length)
    (hshort : range.length - position < guardBytes) (n : ℕ) :
    loop guardBytes blockBytes readBlock range position n = .ok ([], position) := by
  cases n with
  | zero => rfl
  | succ n => rw [loop, remainingBytes_of_le hposition, if_neg (Nat.not_le_of_lt hshort)]

theorem loop_of_read {range : List UInt8} {position : ℕ} (hposition : position ≤ range.length)
    (hpasses : guardBytes ≤ range.length - position) {value : α}
    (hvalue : readBlock range position = .ok value) (n : ℕ) :
    loop guardBytes blockBytes readBlock range position (n + 1) =
      (loop guardBytes blockBytes readBlock range (position + blockBytes) n).map
        fun tail => (value :: tail.1, tail.2) := by
  rw [loop, remainingBytes_of_le hposition, if_pos hpasses, hvalue]
  cases loop guardBytes blockBytes readBlock range (position + blockBytes) n with
  | error fault => rfl
  | ok tail => rfl

theorem loop_of_beyond (hreads : ReadsBlock blockBytes readBlock) {range : List UInt8}
    {position : ℕ} (hposition : position ≤ range.length)
    (hpasses : guardBytes ≤ range.length - position)
    (hbeyond : range.length < position + blockBytes) (n : ℕ) :
    loop guardBytes blockBytes readBlock range position (n + 1) = .error .outOfRange := by
  rw [loop, remainingBytes_of_le hposition, if_pos hpasses,
    hreads.beyond range position hposition hbeyond]
  rfl

theorem div_of_fits (hblock : 0 < blockBytes) {length position : ℕ}
    (hfits : position + blockBytes ≤ length) :
    (length - position) / blockBytes = (length - (position + blockBytes)) / blockBytes + 1 := by
  have hleft : length - position = length - (position + blockBytes) + blockBytes := by omega
  rw [hleft, Nat.add_div_right _ hblock]

theorem overruns_of_fits (hblock : 0 < blockBytes) {length position : ℕ}
    (hfits : position + blockBytes ≤ length) (n : ℕ) :
    Overruns guardBytes blockBytes (length - position) (n + 1) ↔
      Overruns guardBytes blockBytes (length - (position + blockBytes)) n := by
  have hleft : length - position = length - (position + blockBytes) + blockBytes := by omega
  rw [Overruns, Overruns, div_of_fits hblock hfits, Nat.succ_lt_succ_iff, hleft, Nat.add_mod_right]

theorem loop_cases (hreads : ReadsBlock blockBytes readBlock) (hguard : guardBytes ≤ blockBytes)
    (hblock : 0 < blockBytes) (range : List UInt8) {position : ℕ}
    (hposition : position ≤ range.length) (n : ℕ) :
    (Overruns guardBytes blockBytes (range.length - position) n ∧
      loop guardBytes blockBytes readBlock range position n = .error .outOfRange) ∨
    (¬ Overruns guardBytes blockBytes (range.length - position) n ∧
      ∃ values, loop guardBytes blockBytes readBlock range position n =
          .ok (values, position + blockBytes * min n ((range.length - position) / blockBytes)) ∧
        values.length = min n ((range.length - position) / blockBytes)) := by
  induction n generalizing position with
  | zero =>
    refine Or.inr ⟨fun h => absurd h.1 (Nat.not_lt_zero _), [], ?_, (Nat.zero_min _).symm⟩
    rw [Nat.zero_min, Nat.mul_zero, loop]
    rfl
  | succ n ih =>
    by_cases hfits : position + blockBytes ≤ range.length
    · obtain ⟨value, hvalue⟩ := hreads.inside range position hfits
      rw [loop_of_read hposition (by omega) hvalue, overruns_of_fits hblock hfits,
        div_of_fits hblock hfits, Nat.succ_min_succ]
      rcases ih hfits with ⟨hover, he⟩ | ⟨hover, values, hvalues, hlength⟩
      · rw [he]
        exact Or.inl ⟨hover, rfl⟩
      · rw [hvalues]
        refine Or.inr ⟨hover, value :: values, ?_, congrArg (· + 1) hlength⟩
        rw [Nat.mul_succ, Nat.add_comm (blockBytes * _), ← Nat.add_assoc]
        rfl
    · have hlt : range.length - position < blockBytes := by omega
      rw [Overruns, Nat.div_eq_of_lt hlt, Nat.mod_eq_of_lt hlt]
      by_cases hpasses : guardBytes ≤ range.length - position
      · exact Or.inl ⟨⟨Nat.succ_pos n, hpasses⟩,
          loop_of_beyond hreads hposition hpasses (Nat.lt_of_not_le hfits) n⟩
      · refine Or.inr ⟨fun h => hpasses h.2, [], ?_, (Nat.min_zero _).symm⟩
        rw [loop_of_short hposition (Nat.lt_of_not_le hpasses), Nat.min_zero, Nat.mul_zero]
        rfl

end

theorem readByte_drop (range : List UInt8) (position i : ℕ) :
    readByte range (position + i) = readByte (range.drop position) i := by
  rw [readByte, readByte, List.getElem?_drop]

theorem readUint32_of_drop {range : List UInt8} {position : ℕ} {b0 b1 b2 b3 : UInt8}
    {rest : List UInt8} (h : range.drop position = b0 :: b1 :: b2 :: b3 :: rest) :
    readUint32 range position =
      .ok (b0.toUInt32 ||| (b1.toUInt32 <<< 8) ||| (b2.toUInt32 <<< 16) ||| (b3.toUInt32 <<< 24)) := by
  have hfirst := readByte_drop range position 0
  rw [Nat.add_zero] at hfirst
  rw [readUint32, hfirst, readByte_drop, readByte_drop, readByte_drop, h]
  rfl

theorem readUint32AndUint16_of_drop {range : List UInt8} {position : ℕ} {b0 b1 b2 b3 b4 b5 : UInt8}
    {rest : List UInt8} (h : range.drop position = b0 :: b1 :: b2 :: b3 :: b4 :: b5 :: rest) :
    readUint32AndUint16 range position =
      .ok (b0.toUInt32 ||| (b1.toUInt32 <<< 8) ||| (b2.toUInt32 <<< 16) ||| (b3.toUInt32 <<< 24),
        b4.toUInt16 ||| (b5.toUInt16 <<< 8)) := by
  rw [readUint32AndUint16, readUint32_of_drop h, readByte_drop, Nat.add_assoc, readByte_drop, h]
  rfl

section
variable {α : Type} {guardBytes blockBytes : ℕ} {readBlock : List UInt8 → ℕ → Except Fault α}

structure TakesBlocks (guardBytes blockBytes : ℕ) (readBlock : List UInt8 → ℕ → Except Fault α)
    (retrieve : List UInt8 → ℕ → Except Fault (List α × List UInt8)) : Prop where
  none : ∀ l, retrieve l 0 = .ok ([], l)
  whole : ∀ range position n, position + blockBytes ≤ range.length →
    ∃ value, readBlock range position = .ok value ∧
      retrieve (range.drop position) (n + 1) =
        (retrieve (range.drop (position + blockBytes)) n).map fun tail => (value :: tail.1, tail.2)
  overrun : ∀ l n, l.length < blockBytes → guardBytes ≤ l.length →
    retrieve l (n + 1) = .error .outOfRange
  short : ∀ l n, l.length < guardBytes → retrieve l (n + 1) = .ok ([], l)

theorem TakesBlocks.loop_eq {retrieve : List UInt8 → ℕ → Except Fault (List α × List UInt8)}
    (h : TakesBlocks guardBytes blockBytes readBlock retrieve)
    (hreads : ReadsBlock blockBytes readBlock) (range : List UInt8) {position : ℕ}
    (hposition : position ≤ range.length) (n : ℕ) :
    (loop guardBytes blockBytes readBlock range position n).map
        (fun result => (result.1, range.drop result.2)) = retrieve (range.drop position) n := by
  induction n generalizing position with
  | zero =>
    rw [h.none, loop]
    rfl
  | succ n ih =>
    have hlength : (range.drop position).length = range.length - position := List.length_drop
    by_cases hpasses : guardBytes ≤ range.length - position
    · by_cases hfits : position + blockBytes ≤ range.length
      · obtain ⟨value, hvalue, hretrieve⟩ := h.whole range position n hfits
        rw [loop_of_read hposition hpasses hvalue, hretrieve, ← ih hfits]
        cases loop guardBytes blockBytes readBlock range (position + blockBytes) n with
        | error fault => rfl
        | ok tail => rfl
      · rw [loop_of_beyond hreads hposition hpasses (Nat.lt_of_not_le hfits),
          h.overrun _ n (by omega) (by omega)]
        rfl
    · rw [loop_of_short hposition (Nat.lt_of_not_le hpasses), h.short _ n (by omega)]
      rfl

end

theorem drop_eq_append (range : List UInt8) (position n : ℕ) :
    range.drop position = (range.drop position).take n ++ range.drop (position + n) := by
  rw [← List.drop_drop, List.take_append_drop]

theorem length_take_drop {range : List UInt8} {position n : ℕ} (h : position + n ≤ range.length) :
    ((range.drop position).take n).length = n := by
  rw [List.length_take, List.length_drop]
  omega

theorem retrieve32Bits_takesBlocks : TakesBlocks 4 4 readUint32 fun l n =>
    .ok (PacketExtraction.retrieve32BitsUnsignedIntegersFromByteRange l n) where
  none l := by
    rw [PacketExtraction.retrieve32BitsUnsignedIntegersFromByteRange]
    intro _ _ _ _ _ _ _ h
    cases h
  whole range position n h := by
    obtain ⟨b0, b1, b2, b3, hblock⟩ := list_of_length_four (length_take_drop h)
    have hdrop := drop_eq_append range position 4
    rw [hblock] at hdrop
    refine ⟨_, readUint32_of_drop hdrop, ?_⟩
    rw [hdrop]
    rfl
  overrun l n hlt hle := absurd hle (Nat.not_le_of_lt hlt)
  short l n h := by
    obtain ⟨hcount, hposition⟩ := retrieve32Bits_spec l (n + 1)
    rw [Nat.div_eq_of_lt h, Nat.min_zero] at hcount hposition
    rw [← List.eq_nil_of_length_eq_zero hcount]
    exact congrArg Except.ok (Prod.ext rfl hposition)

theorem retrieve48bits_takesBlocks : TakesBlocks 4 6 readUint32AndUint16
    PacketExtraction.retrieve48bitsUnsignedIntegersFromByteRange where
  none l := by rw [PacketExtraction.retrieve48bitsUnsignedIntegersFromByteRange]
  whole range position n h := by
    obtain ⟨b0, b1, b2, b3, hfour⟩ := list_of_length_four
      (length_take_drop (show position + 4 ≤ range.length by omega))
    obtain ⟨b4, b5, htwo⟩ := list_of_length_two
      (length_take_drop (show position + 4 + 2 ≤ range.length by omega))
    have hdrop := drop_eq_append range position 4
    rw [hfour, drop_eq_append range (position + 4) 2, htwo] at hdrop
    refine ⟨_, readUint32AndUint16_of_drop hdrop, ?_⟩
    rw [hdrop]
    rfl
  overrun l n hlt hle := by
    rcases retrieve48bits_spec l (n + 1) with ⟨-, he⟩ | ⟨hover, -⟩
    · exact he
    · refine absurd ⟨?_, ?_⟩ hover
      · rw [Nat.div_eq_of_lt hlt]
        exact Nat.succ_pos n
      · rwa [Nat.mod_eq_of_lt hlt]
  short l n h := by
    rcases retrieve48bits_spec l (n + 1) with ⟨hover, -⟩ | ⟨-, points, hpoints, hcount⟩
    · exact absurd hover.2 (by omega)
    · rw [Nat.div_eq_of_lt (by omega), Nat.min_zero] at hpoints hcount
      rw [hpoints, List.eq_nil_of_length_eq_zero hcount]
      rfl

theorem retrieve32Bits_positions (range : List UInt8) (n : ℕ) :
    (retrieve32BitsUnsignedIntegersFromByteRange range n).map
        (fun result => (result.1, range.drop result.2)) =
      .ok (PacketExtraction.retrieve32BitsUnsignedIntegersFromByteRange range n) :=
  retrieve32Bits_takesBlocks.loop_eq readsBlock_readUint32 range (Nat.zero_le _) n

theorem retrieve48bits_positions (range : List UInt8) (n : ℕ) :
    (retrieve48bitsUnsignedIntegersFromByteRange range n).map
        (fun result => (result.1, range.drop result.2)) =
      PacketExtraction.retrieve48bitsUnsignedIntegersFromByteRange range n :=
  retrieve48bits_takesBlocks.loop_eq readsBlock_readUint32AndUint16 range (Nat.zero_le _) n

/-- The callback is called once for each whole block up to the number wanted, and the position is
the one behind these blocks. A loop that reads a byte behind the end has no result. -/
structure Exact {α : Type} (result : Except Fault (List α × ℕ)) (range : List UInt8)
    (blockBytes n : ℕ) : Prop where
  calls : ∃ values, result = .ok (values, blockBytes * min n (range.length / blockBytes)) ∧
    values.length = min n (range.length / blockBytes)
  inside : blockBytes * min n (range.length / blockBytes) ≤ range.length

theorem loop_exact_iff {α : Type} {guardBytes blockBytes : ℕ}
    {readBlock : List UInt8 → ℕ → Except Fault α} (hreads : ReadsBlock blockBytes readBlock)
    (hguard : guardBytes ≤ blockBytes) (hblock : 0 < blockBytes) (range : List UInt8) (n : ℕ) :
    Exact (loop guardBytes blockBytes readBlock range 0 n) range blockBytes n ↔
      ¬ Overruns guardBytes blockBytes range.length n := by
  have hcases := loop_cases hreads hguard hblock range (Nat.zero_le _) n
  rw [Nat.sub_zero, Nat.zero_add] at hcases
  constructor
  · intro hexact hover
    obtain ⟨values, hvalues, -⟩ := hexact.calls
    rcases hcases with ⟨-, he⟩ | ⟨hnot, -⟩
    · cases he.symm.trans hvalues
    · exact hnot hover
  · intro hnot
    rcases hcases with ⟨hover, -⟩ | ⟨-, hcalls⟩
    · exact absurd hover hnot
    · refine ⟨hcalls, ?_⟩
      exact Nat.le_trans (Nat.mul_le_mul_left _ (Nat.min_le_right _ _)) (Nat.mul_div_le _ _)

/-- The loop over four bytes is exact for every range; the loop over six bytes exactly if no block
is wanted behind the last whole one, or fewer than four bytes are left there. -/
theorem integer_loops_exact_iff (range : List UInt8) (n : ℕ) :
    Exact (retrieve32BitsUnsignedIntegersFromByteRange range n) range 4 n ∧
      (Exact (retrieve48bitsUnsignedIntegersFromByteRange range n) range 6 n ↔
        ¬ Overruns48 range n) := by
  constructor
  · refine (loop_exact_iff readsBlock_readUint32 (Nat.le_refl 4) (by decide) range n).mpr ?_
    intro hover
    exact absurd hover.2 (Nat.not_le_of_lt (Nat.mod_lt _ (by decide)))
  · exact loop_exact_iff readsBlock_readUint32AndUint16 (by decide) (by decide) range n

theorem sixth_byte_read_beyond :
    ¬ ∀ (range : List UInt8) (n : ℕ),
      Exact (retrieve48bitsUnsignedIntegersFromByteRange range n) range 6 n := by
  intro hall
  obtain ⟨values, hvalues, -⟩ := (hall [0, 0, 0, 0] 1).calls
  cases hvalues

end R2000Driver.IntegerLoops
