import Mathlib.Data.Nat.Notation
import Mathlib.Data.Nat.Bitwise
import Mathlib.Tactic.Ring

/-!
# Little-endian words and fixed-width readers

`bytes w n` writes the natural number `n` on `w` bytes, least significant
first, and `value` reads such a list back. The second half is about readers
that take their input from the front of a byte list: a reader of fixed width
fails exactly on the inputs that are too short, and otherwise depends on its
own bytes only. Both notions compose along `bind`.
-/

namespace R2000Driver.LittleEndian

def value : List UInt8 → ℕ
  | [] => 0
  | b :: bs => b.toNat + 256 * value bs

def bytes : ℕ → ℕ → List UInt8
  | 0, _ => []
  | w + 1, n => UInt8.ofNat (n % 256) :: bytes w (n / 256)

@[simp] theorem length_bytes (w n : ℕ) : (bytes w n).length = w := by
  induction w generalizing n with
  | zero => rfl
  | succ w ih => simp [bytes, ih]

theorem value_bytes (w n : ℕ) : value (bytes w n) = n % 256 ^ w := by
  induction w generalizing n with
  | zero => simp [bytes, value, Nat.mod_one]
  | succ w ih =>
    have hlow : n % 256 % 2 ^ 8 = n % 256 := Nat.mod_eq_of_lt (by omega)
    rw [bytes, value, ih, UInt8.toNat_ofNat', hlow, pow_succ', Nat.mod_mul]

theorem value_bytes_of_lt {w n : ℕ} (h : n < 256 ^ w) : value (bytes w n) = n := by
  rw [value_bytes, Nat.mod_eq_of_lt h]

theorem bytes_value (l : List UInt8) : bytes l.length (value l) = l := by
  induction l with
  | nil => rfl
  | cons b l ih =>
    have hb := b.toNat_lt
    have hlow : (b.toNat + 256 * value l) % 256 = b.toNat := by omega
    have hhigh : (b.toNat + 256 * value l) / 256 = value l := by omega
    rw [List.length_cons, value, bytes, hlow, hhigh, ih, UInt8.ofNat_toNat]

theorem or_shiftLeft {a k : ℕ} (b : ℕ) (h : a < 2 ^ k) : a ||| (b <<< k) = a + 2 ^ k * b := by
  rw [Nat.or_comm, ← Nat.shiftLeft_add_eq_or_of_lt h b, Nat.shiftLeft_eq]
  ring

theorem value_lt (l : List UInt8) : value l < 2 ^ (8 * l.length) := by
  induction l with
  | nil => exact Nat.two_pow_pos 0
  | cons b l ih =>
    have hb := b.toNat_lt
    rw [value, List.length_cons, Nat.mul_succ, Nat.pow_add]
    omega

theorem value_concat (l : List UInt8) (b : UInt8) :
    value (l ++ [b]) = value l + 2 ^ (8 * l.length) * b.toNat := by
  induction l with
  | nil => simp [value]
  | cons c l ih =>
    rw [List.cons_append, value, value, ih, List.length_cons, Nat.mul_succ, Nat.pow_add]
    ring

theorem value_or_shiftLeft (l : List UInt8) (b : UInt8) {k : ℕ} (hk : k = 8 * l.length) :
    value l ||| (b.toNat <<< k) = value (l ++ [b]) := by
  rw [or_shiftLeft b.toNat (hk ▸ value_lt l), hk, value_concat]

theorem shiftLeft_mod (b : UInt8) {k n : ℕ} (h : k + 8 ≤ n) :
    b.toNat <<< k % 2 ^ n = b.toNat <<< k := by
  apply Nat.mod_eq_of_lt
  calc b.toNat <<< k = b.toNat * 2 ^ k := Nat.shiftLeft_eq _ _
    _ < 2 ^ 8 * 2 ^ k := Nat.mul_lt_mul_of_pos_right b.toNat_lt (Nat.two_pow_pos k)
    _ = 2 ^ (k + 8) := by rw [Nat.mul_comm, ← Nat.pow_add]
    _ ≤ 2 ^ n := Nat.pow_le_pow_right Nat.two_pos h

theorem value_singleton (b : UInt8) : value [b] = b.toNat := by simp [value]

abbrev Reader (ε α : Type) := StateT (List UInt8) (Except ε) α

variable {ε α β : Type}

structure FixedWidth (e : ε) (r : Reader ε α) (n : ℕ) : Prop where
  short : ∀ l : List UInt8, l.length < n → r.run l = .error e
  long : ∀ l : List UInt8, l.length = n → ∃ a, ∀ s, r.run (l ++ s) = .ok (a, s)

theorem FixedWidth.pure (e : ε) (a : α) : FixedWidth e (pure a : Reader ε α) 0 where
  short l h := absurd h (Nat.not_lt_zero _)
  long l h := ⟨a, fun s => by rw [List.eq_nil_of_length_eq_zero h]; rfl⟩

theorem FixedWidth.bind {e : ε} {r : Reader ε α} {f : α → Reader ε β} {m n : ℕ}
    (hr : FixedWidth e r m) (hf : ∀ a, FixedWidth e (f a) n) :
    FixedWidth e (r >>= f) (m + n) where
  short l h := by
    by_cases hm : l.length < m
    · simp [hr.short l hm]
      rfl
    · obtain ⟨a, ha⟩ := hr.long (l.take m) (List.length_take_of_le (by omega))
      have hl := ha (l.drop m)
      rw [List.take_append_drop] at hl
      have hs := (hf a).short (l.drop m) (by rw [List.length_drop]; omega)
      rw [StateT.run_bind, hl]
      exact hs
  long l h := by
    obtain ⟨a, ha⟩ := hr.long (l.take m) (List.length_take_of_le (by omega))
    obtain ⟨b, hb⟩ := (hf a).long (l.drop m) (by rw [List.length_drop]; omega)
    refine ⟨b, fun s => ?_⟩
    have hl := ha (l.drop m ++ s)
    rw [← List.append_assoc, List.take_append_drop] at hl
    rw [StateT.run_bind, hl]
    exact hb s

theorem FixedWidth.congr {e : ε} {r : Reader ε α} {m n : ℕ} (h : FixedWidth e r m) (hmn : m = n) :
    FixedWidth e r n := hmn ▸ h

theorem FixedWidth.run_eq {e : ε} {r : Reader ε α} {n : ℕ} (h : FixedWidth e r n)
    {l : List UInt8} (hl : n ≤ l.length) : ∃ a, r.run l = .ok (a, l.drop n) ∧
      ∀ s, r.run (l.take n ++ s) = .ok (a, s) := by
  obtain ⟨a, ha⟩ := h.long (l.take n) (List.length_take_of_le hl)
  refine ⟨a, ?_, ha⟩
  have hd := ha (l.drop n)
  rwa [List.take_append_drop] at hd

/-- `r` reads back what `write` puts in front of any input. -/
def Inverts (r : Reader ε α) (write : α → List UInt8) : Prop :=
  ∀ a s, r.run (write a ++ s) = .ok (a, s)

theorem Inverts.bind_run {r : Reader ε α} {write : α → List UInt8} (h : Inverts r write)
    (f : α → Reader ε β) (a : α) (s : List UInt8) :
    (r >>= f).run (write a ++ s) = (f a).run s := by
  rw [StateT.run_bind, h a s]
  rfl

end R2000Driver.LittleEndian
