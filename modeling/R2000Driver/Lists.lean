import Mathlib.Algebra.GroupWithZero.Nat
import Mathlib.Data.List.Nodup
import Mathlib.Data.List.Perm.Subperm
import Mathlib.Data.List.Sort

/-!
# Lists with a numeric key or weight

A sorting routine is known by what it promises: the output holds the same
elements with their keys in nondecreasing order. The order among elements of
equal key is left open. Where the keys are pairwise different the output is
determined.

An element taken out by its index changes the count of its key only; one put in
the place of another with the same image leaves the images alone. What a lookup
finds behind such a change, or behind an appended element, was there before or
is the new element.

A part of a list that weighs as much as the whole list is the whole list, when
every element has a positive weight.
-/

namespace R2000Driver

structure KeySort (α : Type) (key : α → ℕ) where
  run : List α → List α
  perm : ∀ l, (run l).Perm l
  sorted : ∀ l, (run l).Pairwise fun a b => key a ≤ key b

namespace KeySort
variable {α : Type} {key : α → ℕ}

/-- A permutation of `l` in which the keys increase strictly is what every
sorting routine returns. -/
theorem run_eq (sort : KeySort α key) {l l' : List α} (hl : l'.Perm l)
    (hs : l'.Pairwise fun a b => key a < key b) : sort.run l = l' := by
  have hle : l'.Pairwise fun a b => key a ≤ key b := hs.imp Nat.le_of_lt
  refine ((sort.perm l).trans hl.symm).eq_of_pairwise ?_ (sort.sorted l) hle
  intro a b ha hb hab hba
  have hal : a ∈ l' := hl.mem_iff.mpr ((sort.perm l).mem_iff.mp ha)
  have hnodup : (l'.map key).Nodup := List.pairwise_map.mpr (hs.imp Nat.ne_of_lt)
  exact List.inj_on_of_nodup_map hnodup hal hb (Nat.le_antisymm hab hba)

def insertionSort (α : Type) (key : α → ℕ) : KeySort α key where
  run := List.insertionSort fun a b => key a ≤ key b
  perm := List.perm_insertionSort _
  sorted l :=
    have : Std.Total fun a b : α => key a ≤ key b := ⟨fun a b => Nat.le_total (key a) (key b)⟩
    have : IsTrans α fun a b : α => key a ≤ key b := ⟨fun _ _ _ => Nat.le_trans⟩
    List.pairwise_insertionSort _ l

end KeySort

section Index
variable {α β : Type}

theorem count_eraseIdx (f : α → ℕ) {l : List α} {index : ℕ} {a : α} (h : l[index]? = some a)
    (id : ℕ) :
    (l.map f).count id = ((l.eraseIdx index).map f).count id + if f a = id then 1 else 0 := by
  induction l generalizing index with
  | nil => simp at h
  | cons b l ih =>
    cases index with
    | zero =>
      obtain rfl : b = a := by simpa using h
      simp only [List.eraseIdx_cons_zero, List.map_cons, List.count_cons, beq_iff_eq]
    | succ index =>
      simp only [List.eraseIdx_cons_succ, List.map_cons, List.count_cons, ih (by simpa using h)]
      omega

theorem map_set_of_eq (f : α → β) {l : List α} {index : ℕ} {a b : α} (h : l[index]? = some a)
    (hf : f b = f a) : (l.set index b).map f = l.map f := by
  induction l generalizing index with
  | nil => rfl
  | cons c l ih =>
    cases index with
    | zero =>
      obtain rfl : c = a := by simpa using h
      simp [hf]
    | succ index => simp [ih (by simpa using h)]

theorem getElem?_set_cases {l : List α} {index other : ℕ} {a b : α}
    (h : (l.set index a)[other]? = some b) : l[other]? = some b ∨ other = index ∧ b = a := by
  by_cases hother : other = index
  · subst hother
    have hlt : other < (l.set other a).length := (List.getElem?_eq_some_iff.mp h).1
    rw [List.length_set] at hlt
    rw [List.getElem?_set_self hlt] at h
    exact Or.inr ⟨rfl, (Option.some.inj h).symm⟩
  · rw [List.getElem?_set_ne (Ne.symm hother)] at h
    exact Or.inl h

theorem getElem?_concat_cases {l : List α} {index : ℕ} {a b : α}
    (h : (l ++ [a])[index]? = some b) : l[index]? = some b ∨ b = a := by
  by_cases hindex : index < l.length
  · rw [List.getElem?_append_left hindex] at h
    exact Or.inl h
  · rw [List.getElem?_append_right (Nat.le_of_not_lt hindex)] at h
    exact Or.inr (List.mem_singleton.mp (List.mem_of_getElem? h))

theorem getElem?_concat_place {l : List α} {index : ℕ} {a b : α}
    (h : (l ++ [a])[index]? = some b) : l[index]? = some b ∨ index = l.length ∧ b = a := by
  rcases getElem?_concat_cases h with hold | rfl
  · exact Or.inl hold
  · have hlength := (List.getElem?_eq_some_iff.mp h).1
    rw [List.length_append, List.length_singleton] at hlength
    rcases Nat.lt_succ_iff_lt_or_eq.mp hlength with hlt | rfl
    · rw [List.getElem?_append_left hlt] at h
      exact Or.inl h
    · exact Or.inr ⟨rfl, rfl⟩

theorem elim_concat {f : α → ℕ} {a : α} (ha : f a = 0) (l : List α) (index : ℕ) :
    ((l ++ [a])[index]?).elim 0 f = (l[index]?).elim 0 f := by
  by_cases hindex : index < l.length
  · rw [List.getElem?_append_left hindex]
  · rw [List.getElem?_eq_none (Nat.le_of_not_lt hindex), Option.elim_none]
    cases h : (l ++ [a])[index]? with
    | none => rfl
    | some b =>
      rcases getElem?_concat_cases h with hold | rfl
      · exact absurd (List.getElem?_eq_some_iff.mp hold).1 hindex
      · exact ha

end Index

section Weight
variable {α : Type} {w : α → ℕ}

theorem eq_nil_of_sum_eq_zero {l : List α} (hpos : ∀ a ∈ l, 0 < w a) (h : (l.map w).sum = 0) :
    l = [] := by
  cases l with
  | nil => rfl
  | cons a l =>
    have ha := hpos a List.mem_cons_self
    rw [List.map_cons, List.sum_cons] at h
    omega

theorem perm_of_sum_le {l l' : List α} (hpos : ∀ a ∈ l', 0 < w a) (hsub : l.Subperm l')
    (h : (l'.map w).sum ≤ (l.map w).sum) : l.Perm l' := by
  obtain ⟨r, hr, hsub⟩ := hsub
  obtain ⟨rest, hrest⟩ := hsub.exists_perm_append
  have hsum := (hrest.map w).sum_nat
  have hr' := (hr.map w).sum_nat
  rw [List.map_append, List.sum_append] at hsum
  have hnil : rest = [] := by
    apply eq_nil_of_sum_eq_zero (w := w)
    · intro a ha
      exact hpos a (hrest.mem_iff.mpr (List.mem_append_right _ ha))
    · omega
  rw [hnil, List.append_nil] at hrest
  exact hr.symm.trans hrest.symm

end Weight
end R2000Driver
