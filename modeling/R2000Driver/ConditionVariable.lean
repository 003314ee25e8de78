import Mathlib.Data.Nat.Notation

/-!
# A condition variable without a lock

One thread waits on the variable; other threads change what it waits for and
notify it afterwards. The lock orders none of these steps, so a notification
that comes before the wait begins is lost. `toNotify` counts the notifications
that are still to come. The waiting thread is stranded when what it waits for
is there, it is blocked, and no notification is to come. Of all operations
only the beginning of a wait can strand it (`stranded_block_iff`).
-/

namespace R2000Driver

structure ConditionVariable where
  blocked : Bool
  toNotify : ℕ
  deriving DecidableEq, Repr

namespace ConditionVariable

def init : ConditionVariable := ⟨false, 0⟩

def block (c : ConditionVariable) : ConditionVariable := { c with blocked := true }

/-- A notification will come. -/
def announce (c : ConditionVariable) : ConditionVariable := { c with toNotify := c.toNotify + 1 }

def notify (c : ConditionVariable) : ConditionVariable := ⟨false, c.toNotify - 1⟩

def wake (c : ConditionVariable) : ConditionVariable := { c with blocked := false }

def Stranded (wanted : Prop) (c : ConditionVariable) : Prop :=
  wanted ∧ c.blocked = true ∧ c.toNotify = 0

instance (wanted : Prop) [Decidable wanted] (c : ConditionVariable) :
    Decidable (Stranded wanted c) :=
  inferInstanceAs (Decidable (_ ∧ _ ∧ _))

variable {wanted : Prop} {c : ConditionVariable}

theorem not_stranded_of_unblocked (h : c.blocked = false) : ¬ Stranded wanted c := by
  intro hs
  cases h.symm.trans hs.2.1

theorem not_stranded_of_toNotify (h : 0 < c.toNotify) : ¬ Stranded wanted c := by
  intro hs
  exact absurd hs.2.2 (Nat.pos_iff_ne_zero.mp h)

theorem not_stranded_notify : ¬ Stranded wanted c.notify := not_stranded_of_unblocked rfl

theorem not_stranded_wake : ¬ Stranded wanted c.wake := not_stranded_of_unblocked rfl

theorem not_stranded_announce : ¬ Stranded wanted c.announce :=
  not_stranded_of_toNotify (Nat.succ_pos _)

theorem stranded_block_iff : Stranded wanted c.block ↔ wanted ∧ c.toNotify = 0 := by
  constructor
  · intro h
    exact ⟨h.1, h.2.2⟩
  · intro h
    exact ⟨h.1, rfl, h.2⟩

end ConditionVariable
end R2000Driver
