import Mathlib.Data.Int.Notation
import Mathlib.Data.List.TakeWhile

/-!
# Formatted input from a stream of characters

The part of the standard input stream that reads words, integers and lines
from a buffer which may grow between two reads. A read that finds the end of
the buffer sets `eofbit`; one that extracts nothing sets `failbit`; and a
stream with a flag set reads nothing more until it is cleared.
-/

namespace R2000Driver

structure TextStream where
  buffer : List Char
  eofbit : Bool
  failbit : Bool
  deriving DecidableEq, Repr

namespace TextStream

def ofBuffer (buffer : List Char) : TextStream := ⟨buffer, false, false⟩

def good (s : TextStream) : Bool := !s.eofbit && !s.failbit

def isSpace (c : Char) : Bool := c == ' ' || ('\t' ≤ c && c ≤ '\r')

def readWord (s : TextStream) : List Char × TextStream :=
  if s.good then
    let start := s.buffer.dropWhile isSpace
    if start.isEmpty then ([], ⟨[], true, true⟩)
    else
      let rest := start.dropWhile fun c => !isSpace c
      (start.takeWhile fun c => !isSpace c, ⟨rest, rest.isEmpty, false⟩)
  else ([], { s with failbit := true })

def digitsValue (digits : List Char) : ℕ :=
  digits.foldl (fun n c => 10 * n + (c.toNat - '0'.toNat)) 0

def withoutSign : List Char → List Char
  | '-' :: rest => rest
  | '+' :: rest => rest
  | chars => chars

/-- A 32 bit integer: sign and decimal digits; out of range, the nearest bound and a failure. -/
def readInt (s : TextStream) : ℤ × TextStream :=
  if s.good then
    let start := s.buffer.dropWhile isSpace
    if start.isEmpty then (0, ⟨[], true, true⟩)
    else
      let digits := (withoutSign start).takeWhile Char.isDigit
      let rest := (withoutSign start).dropWhile Char.isDigit
      let value : ℤ := if start.head? = some '-' then -digitsValue digits else digitsValue digits
      if digits.isEmpty then (0, ⟨rest, rest.isEmpty, true⟩)
      else if value > 2147483647 then (2147483647, ⟨rest, rest.isEmpty, true⟩)
      else if value < -2147483648 then (-2147483648, ⟨rest, rest.isEmpty, true⟩)
      else (value, ⟨rest, rest.isEmpty, false⟩)
  else (0, { s with failbit := true })

def getLine (s : TextStream) : Option (List Char) × TextStream :=
  if s.good then
    let line := s.buffer.takeWhile fun c => c != '\n'
    match s.buffer.dropWhile fun c => c != '\n' with
    | _ :: rest => (some line, ofBuffer rest)
    | [] => (if line.isEmpty then none else some line, ⟨[], true, line.isEmpty⟩)
  else (none, { s with failbit := true })

theorem getLine_of_line {line : List Char} (h : '\n' ∉ line) (rest : List Char) :
    (ofBuffer (line ++ '\n' :: rest)).getLine = (some line, ofBuffer rest) := by
  have hline : ∀ c ∈ line, (c != '\n') = true := by
    intro c hc
    rw [bne_iff_ne]
    rintro rfl
    exact h hc
  have htake : (line ++ '\n' :: rest).takeWhile (fun c => c != '\n') = line := by
    rw [List.takeWhile_append_of_pos hline]
    simp
  have hdrop : (line ++ '\n' :: rest).dropWhile (fun c => c != '\n') = '\n' :: rest := by
    rw [List.dropWhile_append_of_pos hline]
    simp
  simp only [getLine, ofBuffer, good, htake, hdrop]
  rfl

theorem getLine_of_no_end {buffer : List Char} (h : '\n' ∉ buffer) :
    (ofBuffer buffer).getLine =
      (if buffer.isEmpty then none else some buffer, ⟨[], true, buffer.isEmpty⟩) := by
  have hall : ∀ c ∈ buffer, (c != '\n') = true := by
    intro c hc
    rw [bne_iff_ne]
    rintro rfl
    exact h hc
  have htake : buffer.takeWhile (fun c => c != '\n') = buffer :=
    List.takeWhile_eq_self_iff.mpr hall
  have hdrop : buffer.dropWhile (fun c => c != '\n') = [] := List.dropWhile_eq_nil_iff.mpr hall
  simp only [getLine, ofBuffer, good, htake, hdrop]
  rfl

theorem getLine_of_not_good {s : TextStream} (h : s.good = false) :
    s.getLine = (none, { s with failbit := true }) := by
  rw [getLine, h]
  rfl

theorem line_cases (buffer : List Char) :
    '\n' ∉ buffer ∨ ∃ line rest, buffer = line ++ '\n' :: rest ∧ '\n' ∉ line := by
  by_cases h : '\n' ∈ buffer
  · obtain ⟨line, rest, hsplit, hline⟩ := List.eq_append_cons_of_mem h
    exact Or.inr ⟨line, rest, hsplit, hline⟩
  · exact Or.inl h

theorem readWord_ofBuffer {word : List Char} (hne : word ≠ []) (hword : ∀ c ∈ word, isSpace c = false)
    {c : Char} (hc : isSpace c = true) (rest : List Char) :
    (ofBuffer (word ++ c :: rest)).readWord = (word, ofBuffer (c :: rest)) := by
  have hstart : (word ++ c :: rest).dropWhile isSpace = word ++ c :: rest := by
    cases word with
    | nil => exact absurd rfl hne
    | cons d word =>
      rw [List.cons_append, List.dropWhile_cons_of_neg]
      rw [hword d List.mem_cons_self]
      exact Bool.false_ne_true
  have hpos : ∀ c ∈ word, (!isSpace c) = true := by
    intro d hd
    rw [hword d hd]
    rfl
  have htake : (word ++ c :: rest).takeWhile (fun c => !isSpace c) = word := by
    rw [List.takeWhile_append_of_pos hpos, List.takeWhile_cons_of_neg (by rw [hc]; decide),
      List.append_nil]
  have hdrop : (word ++ c :: rest).dropWhile (fun c => !isSpace c) = c :: rest := by
    rw [List.dropWhile_append_of_pos hpos, List.dropWhile_cons_of_neg (by rw [hc]; decide)]
  have hnonempty : (word ++ c :: rest).isEmpty = false := by simp
  simp only [readWord, ofBuffer, good, hstart, hnonempty, htake, hdrop]
  rfl

theorem not_space_of_digit {c : Char} (h : c.isDigit = true) : isSpace c = false := by
  simp [isSpace, Char.isDigit, Char.le_def, UInt32.le_iff_toNat_le, Char.ext_iff,
    ← UInt32.toNat_inj] at *
  omega

theorem withoutSign_of_digit {c : Char} (h : c.isDigit = true) (rest : List Char) :
    withoutSign (c :: rest) = c :: rest := by
  unfold withoutSign
  split
  · next heq =>
    obtain ⟨rfl, -⟩ := List.cons.inj heq
    cases h
  · next heq =>
    obtain ⟨rfl, -⟩ := List.cons.inj heq
    cases h
  · rfl

theorem readWord_spaces {spaces : List Char} (h : ∀ c ∈ spaces, isSpace c = true)
    (rest : List Char) : (ofBuffer (spaces ++ rest)).readWord = (ofBuffer rest).readWord := by
  simp only [readWord, ofBuffer, good, List.dropWhile_append_of_pos h]
  rfl

theorem readInt_spaces {spaces : List Char} (h : ∀ c ∈ spaces, isSpace c = true)
    (rest : List Char) : (ofBuffer (spaces ++ rest)).readInt = (ofBuffer rest).readInt := by
  simp only [readInt, ofBuffer, good, List.dropWhile_append_of_pos h]
  rfl

inductive Sign
  | absent
  | plus
  | minus
  deriving DecidableEq, Repr

def Sign.text : Sign → List Char
  | absent => []
  | plus => ['+']
  | minus => ['-']

def Sign.apply : Sign → ℕ → ℤ
  | minus, n => -n
  | _, n => n

def FitsInt (value : ℤ) : Prop := -2147483648 ≤ value ∧ value ≤ 2147483647

instance (value : ℤ) : Decidable (FitsInt value) := inferInstanceAs (Decidable (_ ∧ _))

theorem withoutSign_text (sign : Sign) {d : Char} (hd : d.isDigit = true) (rest : List Char) :
    withoutSign (sign.text ++ d :: rest) = d :: rest := by
  cases sign with
  | absent => exact withoutSign_of_digit hd rest
  | plus => rfl
  | minus => rfl

theorem dropWhile_of_withoutSign {chars rest : List Char} {d : Char}
    (h : withoutSign chars = d :: rest) (hd : d.isDigit = true) :
    chars.dropWhile isSpace = chars := by
  cases chars with
  | nil => rfl
  | cons c chars =>
    have hc : isSpace c = false := by
      by_cases hminus : c = '-'
      · rw [hminus]
        rfl
      by_cases hplus : c = '+'
      · rw [hplus]
        rfl
      rw [withoutSign] at h
      · cases h
        exact not_space_of_digit hd
      · simpa using hminus
      · simpa using hplus
    rw [List.dropWhile_cons_of_neg]
    rw [hc]
    exact Bool.false_ne_true

theorem dropWhile_text (sign : Sign) {d : Char} (hd : d.isDigit = true) (rest : List Char) :
    (sign.text ++ d :: rest).dropWhile isSpace = sign.text ++ d :: rest :=
  dropWhile_of_withoutSign (withoutSign_text sign hd rest) hd

theorem apply_of_text (sign : Sign) {d : Char} (hd : d.isDigit = true) (rest : List Char) (n : ℕ) :
    (if (sign.text ++ d :: rest).head? = some '-' then (-n : ℤ) else n) = sign.apply n := by
  cases sign with
  | absent =>
    rw [if_neg]
    · rfl
    · rw [Sign.text, List.nil_append, List.head?_cons]
      rintro ⟨⟩
      cases hd
  | plus => rfl
  | minus => rfl

theorem readInt_signed (sign : Sign) {digits : List Char} (hne : digits ≠ [])
    (hdigits : ∀ c ∈ digits, c.isDigit = true) {c : Char} (hc : c.isDigit = false)
    (rest : List Char) :
    if FitsInt (sign.apply (digitsValue digits)) then
      (ofBuffer (sign.text ++ (digits ++ c :: rest))).readInt =
        (sign.apply (digitsValue digits), ofBuffer (c :: rest))
    else (ofBuffer (sign.text ++ (digits ++ c :: rest))).readInt.2 = ⟨c :: rest, false, true⟩ := by
  cases digits with
  | nil => exact absurd rfl hne
  | cons d ds =>
    have hd := hdigits d List.mem_cons_self
    have hstart : (sign.text ++ (d :: ds ++ c :: rest)).dropWhile isSpace =
        sign.text ++ (d :: ds ++ c :: rest) := dropWhile_text sign hd _
    have hsign : withoutSign (sign.text ++ (d :: ds ++ c :: rest)) = d :: ds ++ c :: rest :=
      withoutSign_text sign hd _
    have htake : (d :: ds ++ c :: rest).takeWhile Char.isDigit = d :: ds := by
      rw [List.takeWhile_append_of_pos hdigits, List.takeWhile_cons_of_neg (by rw [hc]; decide),
        List.append_nil]
    have hdrop : (d :: ds ++ c :: rest).dropWhile Char.isDigit = c :: rest := by
      rw [List.dropWhile_append_of_pos hdigits, List.dropWhile_cons_of_neg (by rw [hc]; decide)]
    have hvalue : (if (sign.text ++ (d :: ds ++ c :: rest)).head? = some '-' then
        (-digitsValue (d :: ds) : ℤ) else digitsValue (d :: ds)) =
        sign.apply (digitsValue (d :: ds)) := apply_of_text sign hd _ _
    have hnonempty : (sign.text ++ (d :: ds ++ c :: rest)).isEmpty = false := by simp
    simp only [readInt, ofBuffer, good, hstart, hsign, htake, hdrop, hvalue, hnonempty]
    simp only [Bool.not_false, Bool.and_self, ↓reduceIte, List.isEmpty_cons, Bool.false_eq_true,
      FitsInt]
    split_ifs <;> first | rfl | omega

theorem getLine_length_lt {s : TextStream} {line : List Char} (h : s.getLine.1 = some line) :
    s.getLine.2.buffer.length < s.buffer.length := by
  unfold getLine at h ⊢
  split at h
  · next hgood =>
    rw [if_pos hgood]
    have hsplit := List.takeWhile_append_dropWhile (p := fun c => c != '\n') (l := s.buffer)
    cases hrest : s.buffer.dropWhile (fun c => c != '\n') with
    | nil =>
      simp only [hrest] at h ⊢
      split_ifs at h with hempty
      cases hbuffer : s.buffer with
      | nil => simp [hbuffer] at hempty
      | cons => simp
    | cons c rest =>
      simp only [ofBuffer]
      rw [← hsplit, hrest, List.length_append, List.length_cons]
      omega
  · cases h

theorem digit_of_mem_repr {n : ℕ} {c : Char} (h : c ∈ n.repr.toList) : c.isDigit = true := by
  rw [Nat.repr_eq_ofList_toDigits, String.toList_ofList] at h
  exact Nat.isDigit_of_mem_toDigits (by decide) (by decide) h

theorem repr_ne_nil (n : ℕ) : n.repr.toList ≠ [] := by
  rw [Nat.repr_eq_ofList_toDigits, String.toList_ofList]
  exact List.ne_nil_of_length_pos Nat.length_toDigits_pos

theorem digitsValue_concat (digits : List Char) (c : Char) :
    digitsValue (digits ++ [c]) = 10 * digitsValue digits + (c.toNat - 48) := by
  rw [digitsValue, List.foldl_append]
  rfl

theorem digitsValue_toDigits (n : ℕ) : digitsValue (Nat.toDigits 10 n) = n := by
  induction n using Nat.strongRecOn with
  | ind n ih =>
    rw [Nat.toDigits_eq_if (by decide)]
    by_cases hn : n < 10
    · rw [if_pos hn, ← List.nil_append [Nat.digitChar n], digitsValue_concat,
        Nat.toNat_digitChar_sub_48_of_lt_ten hn]
      exact Nat.zero_add n
    · rw [if_neg hn, digitsValue_concat, ih (n / 10) (by omega),
        Nat.toNat_digitChar_sub_48_of_lt_ten (by omega)]
      omega

theorem digitsValue_repr (n : ℕ) : digitsValue n.repr.toList = n := by
  rw [Nat.repr_eq_ofList_toDigits, String.toList_ofList, digitsValue_toDigits]

end TextStream
end R2000Driver
