import Mathlib.Data.List.AList

/-!
# Maps of parameters

An unordered map from names to values is an association list without repeated
names. Its order means nothing: what depends on the order in which the program
iterates over a map is stated for every permutation of its entries.
-/

namespace R2000Driver.Parameters

abbrev ParametersList := List String
abbrev ParametersMap := AList fun _ : String => String

namespace ParametersMap

def assign (m : ParametersMap) (name value : String) : ParametersMap := AList.insert name value m

/-- `insert` leaves an entry of this name as it is. -/
def insertNew (m : ParametersMap) (name value : String) : ParametersMap :=
  if name ∈ m then m else AList.insert name value m

def insertAll (m other : ParametersMap) : ParametersMap := m ∪ other

def pairs (m : ParametersMap) : List (String × String) := m.entries.map fun e => (e.1, e.2)

/-- An order in which the entries can be iterated. -/
def Iterates (m : ParametersMap) (iteration : List (String × String)) : Prop :=
  iteration.Perm m.pairs

theorem lookup_insertNew (m : ParametersMap) (name value key : String) :
    (m.insertNew name value).lookup key =
      if key = name ∧ name ∉ m then some value else m.lookup key := by
  unfold insertNew
  by_cases hm : name ∈ m
  · simp [hm]
  · by_cases hk : key = name
    · subst hk
      simp [hm]
    · simp [hm, hk, AList.lookup_insert_ne]

theorem mem_insertNew (m : ParametersMap) (name value key : String) :
    key ∈ m.insertNew name value ↔ key = name ∨ key ∈ m := by
  unfold insertNew
  split_ifs with hm
  · constructor
    · exact Or.inr
    · rintro (rfl | hkey)
      · exact hm
      · exact hkey
  · exact AList.mem_insert m

theorem mem_pairs {m : ParametersMap} {name value : String} :
    (name, value) ∈ m.pairs ↔ m.lookup name = some value := by
  rw [← Option.mem_def, AList.mem_lookup_iff, pairs, List.mem_map]
  constructor
  · rintro ⟨⟨n, v⟩, he, heq⟩
    cases heq
    exact he
  · intro he
    exact ⟨⟨name, value⟩, he, rfl⟩

end ParametersMap
end R2000Driver.Parameters
