/-!
# Texts joined with a separator

Pieces are written one after the other, each with a separator behind it; without
the last separator this is `List.intercalate` (`joined_eq`). What splitting gives
never holds the separator (`not_mem_of_mem_splitOn`).
-/

namespace R2000Driver.JoinedText

section
variable {α : Type}

/-- The pieces with the separator behind each of them. -/
def joined (sep : α) (pieces : List (List α)) : List α :=
  pieces.flatMap fun piece => piece ++ [sep]

theorem joined_eq (sep : α) {pieces : List (List α)} (h : pieces ≠ []) :
    joined sep pieces = [sep].intercalate pieces ++ [sep] := by
  induction pieces with
  | nil => exact absurd rfl h
  | cons piece pieces ih =>
    cases pieces with
    | nil => simp [joined, List.intercalate]
    | cons next pieces =>
      have htail := ih (List.cons_ne_nil next pieces)
      rw [joined, List.flatMap_cons]
      rw [joined] at htail
      rw [htail]
      rw [List.intercalate_cons_cons]
      simp only [List.append_assoc]

theorem mem_intercalate {sep c : α} {pieces : List (List α)}
    (h : c ∈ [sep].intercalate pieces) : c = sep ∨ ∃ piece ∈ pieces, c ∈ piece := by
  cases pieces with
  | nil => simp [List.intercalate] at h
  | cons piece pieces =>
    have hjoined : c ∈ joined sep (piece :: pieces) := by
      rw [joined_eq sep (List.cons_ne_nil piece pieces)]
      exact List.mem_append_left _ h
    obtain ⟨p, hp, hc⟩ := List.mem_flatMap.mp hjoined
    rcases List.mem_append.mp hc with hc | hc
    · exact Or.inr ⟨p, hp, hc⟩
    · exact Or.inl (List.mem_singleton.mp hc)

theorem mem_intercalate_of_mem (sep : α) {c : α} {pieces : List (List α)} {piece : List α}
    (hpiece : piece ∈ pieces) (hc : c ∈ piece) : c ∈ [sep].intercalate pieces := by
  induction pieces with
  | nil => cases hpiece
  | cons first pieces ih =>
    cases pieces with
    | nil =>
      rw [List.mem_singleton] at hpiece
      simpa [List.intercalate, ← hpiece] using hc
    | cons next pieces =>
      have hsplit : [sep].intercalate (first :: next :: pieces) =
          first ++ sep :: [sep].intercalate (next :: pieces) := by simp
      rw [hsplit, List.mem_append, List.mem_cons]
      rcases List.mem_cons.mp hpiece with rfl | hmem
      · exact Or.inl hc
      · exact Or.inr (Or.inr (ih hmem))

end

section
variable {α : Type} [DecidableEq α]

theorem not_mem_of_mem_splitOn {sep : α} {text piece : List α} (h : piece ∈ text.splitOn sep) :
    sep ∉ piece := by
  induction text generalizing piece with
  | nil =>
    rw [List.splitOn_nil, List.mem_singleton] at h
    simp [h]
  | cons c text ih =>
    rw [List.splitOn_cons_eq_if_modifyHead] at h
    by_cases hc : (c == sep) = true
    · rw [if_pos hc] at h
      rcases List.mem_cons.mp h with rfl | h
      · exact List.not_mem_nil
      · exact ih h
    · rw [if_neg hc] at h
      cases hpieces : text.splitOn sep with
      | nil =>
        rw [hpieces] at h
        simp at h
      | cons first pieces =>
        rw [hpieces] at h
        rcases List.mem_cons.mp h with rfl | h
        · intro hmem
          rcases List.mem_cons.mp hmem with rfl | hmem
          · exact hc BEq.rfl
          · exact ih (by rw [hpieces]; exact List.mem_cons_self) hmem
        · exact ih (by rw [hpieces]; exact List.mem_cons_of_mem first h)

end
end R2000Driver.JoinedText
