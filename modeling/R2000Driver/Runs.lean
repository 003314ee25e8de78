import Mathlib.Data.List.Basic

/-!
# Runs of a transition system

A system is a partial step function: `step s e` is the state after event `e`,
or `none` when `e` cannot happen in `s`. Its runs are lists of events. What
every step keeps holds after every run (`exec_keeps`); a condition on states
and events limits this to the runs all of whose steps meet it (`Meets`). Where
breaking the condition also ends the property, those are exactly the runs
throughout which the property holds (`always_iff`).
-/

namespace R2000Driver.Runs

theorem exists_of_guarded {A B : Type} {found : Option A} {guard : A → Prop} [DecidablePred guard]
    {next : A → B} {b : B}
    (h : (found.bind fun a => if guard a then some (next a) else none) = some b) :
    ∃ a, found = some a ∧ guard a ∧ next a = b := by
  obtain ⟨a, ha, hstep⟩ := Option.bind_eq_some_iff.mp h
  obtain ⟨hguard, hnext⟩ := Option.ite_none_right_eq_some.mp hstep
  exact ⟨a, ha, hguard, Option.some.inj hnext⟩

section
variable {S E : Type} (step : S → E → Option S)

def exec : S → List E → Option S
  | s, [] => some s
  | s, e :: events => (step s e).bind fun s' => exec s' events

/-- Every step of the run meets the condition in the state that it starts from. -/
def Meets (C : S → E → Prop) : S → List E → Prop
  | _, [] => True
  | s, e :: events => C s e ∧ ∀ s', step s e = some s' → Meets C s' events

def Always (P : S → Prop) (s : S) (events : List E) : Prop :=
  ∀ es fs mid, events = es ++ fs → exec step s es = some mid → P mid

variable {step}

theorem exec_cons {s s' : S} {e : E} {events : List E} :
    exec step s (e :: events) = some s' ↔ ∃ mid, step s e = some mid ∧ exec step mid events = some s' :=
  Option.bind_eq_some_iff

theorem exec_append {s s' : S} {es fs : List E} :
    exec step s (es ++ fs) = some s' ↔ ∃ mid, exec step s es = some mid ∧ exec step mid fs = some s' := by
  induction es generalizing s with
  | nil => simp [exec]
  | cons e es ih =>
    simp only [List.cons_append, exec_cons, ih]
    constructor
    · rintro ⟨a, ha, b, hb, hs⟩
      exact ⟨b, ⟨a, ha, hb⟩, hs⟩
    · rintro ⟨b, ⟨a, ha, hb⟩, hs⟩
      exact ⟨a, ha, b, hb, hs⟩

variable {P : S → Prop} {C : S → E → Prop}

theorem meets_cons_iff {s s' : S} {e : E} {events : List E} (h : step s e = some s') :
    Meets step C s (e :: events) ↔ C s e ∧ Meets step C s' events := by
  constructor
  · intro hm
    exact ⟨hm.1, hm.2 s' h⟩
  · rintro ⟨hc, hm⟩
    refine ⟨hc, fun t ht => ?_⟩
    obtain rfl : s' = t := Option.some.inj (h.symm.trans ht)
    exact hm

theorem meets_cons_stuck {s : S} {e : E} {events : List E} (h : step s e = none) :
    Meets step C s (e :: events) ↔ C s e := by
  constructor
  · exact And.left
  · intro hc
    refine ⟨hc, fun t ht => ?_⟩
    cases h.symm.trans ht

instance decidableMeets [∀ s e, Decidable (C s e)] :
    ∀ (s : S) (events : List E), Decidable (Meets step C s events)
  | _, [] => isTrue trivial
  | s, e :: events =>
    match h : step s e with
    | none => decidable_of_iff _ (meets_cons_stuck h).symm
    | some s' =>
      have := decidableMeets s' events
      decidable_of_iff _ (meets_cons_iff h).symm

theorem exec_meets (hstep : ∀ s e s', step s e = some s' → C s e → P s → P s') {s s' : S}
    {events : List E} (h : exec step s events = some s') (hmeets : Meets step C s events)
    (hs : P s) : P s' := by
  induction events generalizing s with
  | nil =>
    cases h
    exact hs
  | cons e events ih =>
    obtain ⟨mid, hmid, hrest⟩ := exec_cons.mp h
    exact ih hrest (hmeets.2 mid hmid) (hstep s e mid hmid hmeets.1 hs)

theorem exec_keeps (hstep : ∀ s e s', step s e = some s' → P s → P s') {s s' : S}
    {events : List E} (h : exec step s events = some s') (hs : P s) : P s' := by
  induction events generalizing s with
  | nil =>
    cases h
    exact hs
  | cons e events ih =>
    obtain ⟨mid, hmid, hrest⟩ := exec_cons.mp h
    exact ih hrest (hstep s e mid hmid hs)

theorem Meets.left {s : S} {es fs : List E} (h : Meets step C s (es ++ fs)) : Meets step C s es := by
  induction es generalizing s with
  | nil => trivial
  | cons e es ih => exact ⟨h.1, fun s' hs' => ih (h.2 s' hs')⟩

theorem exists_break {s s' : S} {events : List E} (h : exec step s events = some s')
    (hnot : ¬ Meets step C s events) :
    ∃ es e fs mid next, events = es ++ e :: fs ∧ exec step s es = some mid ∧
      Meets step C s es ∧ ¬ C mid e ∧ step mid e = some next ∧ exec step next fs = some s' := by
  induction events generalizing s with
  | nil => exact absurd trivial hnot
  | cons e events ih =>
    obtain ⟨next, hnext, hrest⟩ := exec_cons.mp h
    by_cases hc : C s e
    · have hlater : ¬ Meets step C next events := by
        intro hm
        refine hnot ⟨hc, fun s₁ hs₁ => ?_⟩
        obtain rfl : next = s₁ := Option.some.inj (hnext.symm.trans hs₁)
        exact hm
      obtain ⟨es, f, fs, mid, after, rfl, hes, hmeets, hbreak, hstep, hfs⟩ := ih hrest hlater
      refine ⟨e :: es, f, fs, mid, after, rfl, ?_, ⟨hc, ?_⟩, hbreak, hstep, hfs⟩
      · exact exec_cons.mpr ⟨next, hnext, hes⟩
      · intro s₁ hs₁
        obtain rfl : next = s₁ := Option.some.inj (hnext.symm.trans hs₁)
        exact hmeets
    · exact ⟨[], e, events, s, next, rfl, rfl, trivial, hc, hnext, hrest⟩

/-- A property that every step keeps and every step that breaks the condition ends, with the help
of an invariant, holds throughout exactly the runs that meet the condition. -/
theorem always_iff {P I : S → Prop} {B : S → E → Prop}
    (hinv : ∀ s e s', step s e = some s' → I s → I s')
    (hkeep : ∀ s e s', step s e = some s' → ¬ B s e → I s → P s → P s')
    (hbreak : ∀ s e s', step s e = some s' → B s e → I s → P s → ¬ P s')
    {s s' : S} {events : List E} (h : exec step s events = some s') (hi : I s) (hp : P s) :
    Always step P s events ↔ Meets step (fun s e => ¬ B s e) s events := by
  have hboth : ∀ s e s', step s e = some s' → ¬ B s e → I s ∧ P s → I s' ∧ P s' :=
    fun s e s' hstep hb hs => ⟨hinv s e s' hstep hs.1, hkeep s e s' hstep hb hs.1 hs.2⟩
  constructor
  · intro halways
    by_contra hnot
    obtain ⟨es, e, fs, mid, next, rfl, hes, hmeets, hb, hstep, hfs⟩ := exists_break h hnot
    have hmid : I mid ∧ P mid := exec_meets hboth hes hmeets ⟨hi, hp⟩
    have hnext : exec step s (es ++ [e]) = some next :=
      exec_append.mpr ⟨mid, hes, exec_cons.mpr ⟨next, hstep, rfl⟩⟩
    exact hbreak mid e next hstep (not_not.mp hb) hmid.1 hmid.2
      (halways (es ++ [e]) fs next (by simp) hnext)
  · rintro hmeets es fs mid rfl hes
    have hmid : I mid ∧ P mid := exec_meets hboth hes hmeets.left ⟨hi, hp⟩
    exact hmid.2

theorem meets_of_forall (h : ∀ s e, C s e) (s : S) (events : List E) : Meets step C s events := by
  induction events generalizing s with
  | nil => trivial
  | cons e events ih => exact ⟨h s e, fun s' _ => ih s'⟩

theorem Meets.and {D : S → E → Prop} {s : S} {events : List E} (hc : Meets step C s events)
    (hd : Meets step D s events) : Meets step (fun s e => C s e ∧ D s e) s events := by
  induction events generalizing s with
  | nil => trivial
  | cons e events ih => exact ⟨⟨hc.1, hd.1⟩, fun s' hs' => ih (hc.2 s' hs') (hd.2 s' hs')⟩

theorem Meets.imp {D : S → E → Prop} {s : S} {events : List E} (hc : Meets step C s events)
    (h : ∀ s e, C s e → D s e) : Meets step D s events := by
  induction events generalizing s with
  | nil => trivial
  | cons e events ih => exact ⟨h s e hc.1, fun s' hs' => ih (hc.2 s' hs')⟩

theorem meets_append {s : S} {es fs : List E} (hes : Meets step C s es)
    (hfs : ∀ mid, exec step s es = some mid → Meets step C mid fs) : Meets step C s (es ++ fs) := by
  induction es generalizing s with
  | nil => exact hfs s rfl
  | cons e es ih =>
    refine ⟨hes.1, fun s' hs' => ih (hes.2 s' hs') fun mid hmid => hfs mid ?_⟩
    exact exec_cons.mpr ⟨s', hs', hmid⟩

theorem Meets.right {s mid : S} {es fs : List E} (h : Meets step C s (es ++ fs))
    (hes : exec step s es = some mid) : Meets step C mid fs := by
  induction es generalizing s with
  | nil =>
    cases hes
    exact h
  | cons e es ih =>
    obtain ⟨next, hnext, hrest⟩ := exec_cons.mp hes
    exact ih (h.2 next hnext) hrest

/-- A state that only some steps reach and none leaves is reached by exactly the runs with one of
those steps. -/
theorem reached_iff {Sets : S → E → Prop}
    (hstep : ∀ s e s', step s e = some s' → (P s' ↔ P s ∨ Sets s e)) {s s' : S} {events : List E}
    (h : exec step s events = some s') :
    P s' ↔ P s ∨ ∃ es e fs mid, events = es ++ e :: fs ∧ exec step s es = some mid ∧ Sets mid e := by
  induction events generalizing s with
  | nil =>
    cases h
    simp
  | cons e events ih =>
    obtain ⟨mid, hmid, hrest⟩ := exec_cons.mp h
    rw [ih hrest, hstep s e mid hmid, or_assoc]
    refine or_congr_right ?_
    constructor
    · rintro (hsets | ⟨es, f, fs, t, rfl, hes, hsets⟩)
      · exact ⟨[], e, events, s, rfl, rfl, hsets⟩
      · exact ⟨e :: es, f, fs, t, rfl, exec_cons.mpr ⟨mid, hmid, hes⟩, hsets⟩
    · rintro ⟨es, f, fs, t, hevents, hes, hsets⟩
      cases es with
      | nil =>
        obtain ⟨rfl, rfl⟩ := List.cons.inj hevents
        cases hes
        exact Or.inl hsets
      | cons e' es =>
        obtain ⟨rfl, rfl⟩ := List.cons.inj hevents
        obtain ⟨mid', hmid', hes'⟩ := exec_cons.mp hes
        obtain rfl : mid = mid' := Option.some.inj (hmid.symm.trans hmid')
        exact Or.inr ⟨es, f, fs, t, rfl, hes', hsets⟩

theorem exec_part_meets {T F : Type} {inner : T → F → Option T} {D : T → F → Prop} (part : S → T)
    (hstep : ∀ s e s', step s e = some s' → C s e →
      ∃ fs, exec inner (part s) fs = some (part s') ∧ Meets inner D (part s) fs)
    {s s' : S} {events : List E} (h : exec step s events = some s') (hmeets : Meets step C s events) :
    ∃ fs, exec inner (part s) fs = some (part s') ∧ Meets inner D (part s) fs := by
  induction events generalizing s with
  | nil =>
    cases h
    exact ⟨[], rfl, trivial⟩
  | cons e events ih =>
    obtain ⟨mid, hmid, hrest⟩ := exec_cons.mp h
    obtain ⟨fs, hfs, hfsMeets⟩ := hstep s e mid hmid hmeets.1
    obtain ⟨gs, hgs, hgsMeets⟩ := ih hrest (hmeets.2 mid hmid)
    refine ⟨fs ++ gs, exec_append.mpr ⟨part mid, hfs, hgs⟩, meets_append hfsMeets ?_⟩
    intro t ht
    obtain rfl : part mid = t := Option.some.inj (hfs.symm.trans ht)
    exact hgsMeets

theorem exec_part {T F : Type} {inner : T → F → Option T} (part : S → T)
    (hstep : ∀ s e s', step s e = some s' → ∃ fs, exec inner (part s) fs = some (part s'))
    {s s' : S} {events : List E} (h : exec step s events = some s') :
    ∃ fs, exec inner (part s) fs = some (part s') := by
  have hboth : ∀ s e s', step s e = some s' → True →
      ∃ fs, exec inner (part s) fs = some (part s') ∧ Meets inner (fun _ _ => True) (part s) fs := by
    intro s e s' hs _
    obtain ⟨fs, hfs⟩ := hstep s e s' hs
    exact ⟨fs, hfs, meets_of_forall (fun _ _ => trivial) _ fs⟩
  obtain ⟨fs, hfs, -⟩ := exec_part_meets (C := fun _ _ => True) part hboth h
    (meets_of_forall (fun _ _ => trivial) s events)
  exact ⟨fs, hfs⟩

theorem meets_of_forall_mem {D : E → Prop} {s : S} {events : List E} (h : ∀ e ∈ events, D e) :
    Meets step (fun _ e => D e) s events := by
  induction events generalizing s with
  | nil => trivial
  | cons e events ih =>
    exact ⟨h e List.mem_cons_self, fun s' _ => ih fun f hf => h f (List.mem_cons_of_mem e hf)⟩

/-- Where some allowed step always comes nearer to a goal, allowed steps reach it. -/
theorem exists_exec_of_decreasing {Goal : S → Prop} {Allowed : E → Prop} (rank : S → ℕ)
    (hstep : ∀ s, P s → ¬ Goal s →
      ∃ e s', Allowed e ∧ step s e = some s' ∧ P s' ∧ rank s' < rank s) {s : S} (hs : P s) :
    ∃ events s', (∀ e ∈ events, Allowed e) ∧ exec step s events = some s' ∧ P s' ∧ Goal s' := by
  induction hrank : rank s using Nat.strongRecOn generalizing s with
  | _ n ih =>
    by_cases hgoal : Goal s
    · exact ⟨[], s, nofun, rfl, hs, hgoal⟩
    obtain ⟨e, mid, hallowed, hmid, hp, hlt⟩ := hstep s hs hgoal
    obtain ⟨events, s', hevents, hrest, hs'⟩ := ih (rank mid) (hrank ▸ hlt) hp rfl
    refine ⟨e :: events, s', ?_, exec_cons.mpr ⟨mid, hmid, hrest⟩, hs'⟩
    intro f hf
    rcases List.mem_cons.mp hf with rfl | hf
    · exact hallowed
    · exact hevents f hf

theorem exec_map {T : Type} {other : T → E → Option T} (f : S → T)
    (hstep : ∀ s e, (step s e).map f = other (f s) e) (s : S) (events : List E) :
    (exec step s events).map f = exec other (f s) events := by
  induction events generalizing s with
  | nil => rfl
  | cons e events ih =>
    rw [exec, exec, ← hstep]
    cases step s e with
    | none => rfl
    | some s' => exact ih s'

theorem exec_single {s s' : S} {e : E} (h : step s e = some s') : exec step s [e] = some s' :=
  exec_cons.mpr ⟨s', h, rfl⟩

end
end R2000Driver.Runs
