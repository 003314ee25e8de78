import Mathlib.Data.List.AList
import Mathlib.Data.List.Induction

/-!
# Sequences of writes to a map

Each call writes one value under one key. After a sequence of calls a key holds
the value of the last call that wrote it (`lookup_writeAll`). The calls belong
to settings; a setting may be written by several kinds of calls. When calls of
different settings write different keys (`Separates`), each setting has the
value of its own last call, in whatever way the calls of different settings are
interleaved (`lookup_interleaved`).
-/

namespace R2000Driver.LastWrite

section
variable {C : Type} (p : C → Bool)

def last (calls : List C) : Option C := (calls.filter p).getLast?

theorem last_concat (calls : List C) (c : C) :
    last p (calls ++ [c]) = if p c then some c else last p calls := by
  unfold last
  rw [List.filter_append]
  cases hc : p c <;> simp [hc]

variable {p}

theorem mem_of_last {calls : List C} {c : C} (h : last p calls = some c) :
    c ∈ calls ∧ p c = true := List.mem_filter.mp (List.mem_of_getLast? h)

theorem last_of_mem {calls : List C} {c : C} (hc : c ∈ calls) (hp : p c = true) :
    ∃ d, last p calls = some d := by
  have hfilter : c ∈ calls.filter p := List.mem_filter.mpr ⟨hc, hp⟩
  exact ⟨_, List.getLast?_eq_some_getLast (List.ne_nil_of_mem hfilter)⟩

theorem last_congr {q : C → Bool} {calls : List C} (h : ∀ c ∈ calls, p c = q c) :
    last p calls = last q calls := by
  unfold last
  rw [List.filter_congr h]

end

section
variable {C K V : Type} [DecidableEq K] (key : C → K) (value : C → V)

def writeAll (calls : List C) : AList fun _ : K => V :=
  calls.foldl (fun m c => m.insert (key c) (value c)) ∅

theorem writeAll_concat (calls : List C) (c : C) :
    writeAll key value (calls ++ [c]) = (writeAll key value calls).insert (key c) (value c) := by
  rw [writeAll, List.foldl_append]
  rfl

theorem lookup_writeAll (calls : List C) (k : K) :
    (writeAll key value calls).lookup k = (last (fun c => key c = k) calls).map value := by
  induction calls using List.reverseRecOn with
  | nil => exact AList.lookup_empty k
  | append_singleton calls c ih =>
    rw [writeAll_concat, last_concat]
    by_cases hc : key c = k
    · subst hc
      simp
    · rw [AList.lookup_insert_ne (Ne.symm hc), ih]
      simp [hc]

theorem mem_writeAll (calls : List C) (k : K) :
    k ∈ writeAll key value calls ↔ ∃ c ∈ calls, key c = k := by
  rw [← AList.lookup_isSome, lookup_writeAll, Option.isSome_map, Option.isSome_iff_exists]
  constructor
  · intro h
    obtain ⟨c, hc⟩ := h
    obtain ⟨hmem, hkey⟩ := mem_of_last hc
    exact ⟨c, hmem, of_decide_eq_true hkey⟩
  · intro h
    obtain ⟨c, hmem, hkey⟩ := h
    exact last_of_mem hmem (decide_eq_true hkey)

end

section
variable {C K V S : Type} [DecidableEq S] {setting : C → S} {key : C → K}

/-- Calls of different settings write different keys. -/
def Separates (setting : C → S) (key : C → K) (calls : List C) : Prop :=
  ∀ c ∈ calls, ∀ d ∈ calls, setting c ≠ setting d → key c ≠ key d

def Interleaved (setting : C → S) (calls calls' : List C) : Prop :=
  ∀ s, calls'.filter (fun c => setting c = s) = calls.filter fun c => setting c = s

theorem Interleaved.mem_iff {calls calls' : List C} (h : Interleaved setting calls calls') (c : C) :
    c ∈ calls' ↔ c ∈ calls := by
  have hc := h (setting c)
  have hmem : c ∈ calls'.filter (fun d => setting d = setting c) ↔
      c ∈ calls.filter fun d => setting d = setting c := by rw [hc]
  simpa using hmem

theorem Interleaved.separates {calls calls' : List C} (h : Interleaved setting calls calls')
    (hsep : Separates setting key calls) : Separates setting key calls' := by
  intro c hc d hd
  exact hsep c ((h.mem_iff c).mp hc) d ((h.mem_iff d).mp hd)

variable [DecidableEq K] (value : C → V)

theorem last_of_separates (hkey : ∀ c d, setting c = setting d → key c = key d) {calls : List C}
    (hsep : Separates setting key calls) {c : C} (hc : c ∈ calls) :
    last (fun d => key d = key c) calls = last (fun d => setting d = setting c) calls := by
  apply last_congr
  intro d hd
  rw [decide_eq_decide]
  constructor
  · intro h
    by_contra hne
    exact hsep d hd c hc hne h
  · exact hkey d c

theorem lookup_setting (hkey : ∀ c d, setting c = setting d → key c = key d) {calls : List C}
    (hsep : Separates setting key calls) {c d : C} (hc : c ∈ calls)
    (hlast : last (fun e => setting e = setting c) calls = some d) :
    (writeAll key value calls).lookup (key c) = some (value d) := by
  rw [lookup_writeAll, last_of_separates hkey hsep hc, hlast]
  rfl

theorem lookup_interleaved (hkey : ∀ c d, setting c = setting d → key c = key d)
    {calls calls' : List C} (hsep : Separates setting key calls)
    (h : Interleaved setting calls calls') (k : K) :
    (writeAll key value calls').lookup k = (writeAll key value calls).lookup k := by
  by_cases hk : ∃ c ∈ calls, key c = k
  · obtain ⟨c, hc, rfl⟩ := hk
    rw [lookup_writeAll, lookup_writeAll, last_of_separates hkey hsep hc,
      last_of_separates hkey (h.separates hsep) ((h.mem_iff c).mpr hc), last, last, h]
  · have hk' : ¬ ∃ c ∈ calls', key c = k := by
      intro hc
      obtain ⟨c, hc, hkc⟩ := hc
      exact hk ⟨c, (h.mem_iff c).mp hc, hkc⟩
    rw [AList.lookup_eq_none.mpr (mt (mem_writeAll key value calls' k).mp hk'),
      AList.lookup_eq_none.mpr (mt (mem_writeAll key value calls k).mp hk)]

end
end R2000Driver.LastWrite
