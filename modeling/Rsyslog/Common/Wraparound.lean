import Mathlib.Data.Nat.Basic
import Mathlib.Algebra.Group.Nat.Defs

/-!
# Serial-number order on a wrapping 64-bit counter

A counter that is only ever incremented modulo `2 ^ 64` can still be ordered locally: `c` is
ahead of `r` when the forward distance from `r` to `c` around the circle is non-zero and
less than half the circle. This is the serial-number comparison of the kind RFC 1982 uses
for DNS serials. It is not transitive, but a successor is always ahead of its predecessor,
also across the wrap from `2 ^ 64 - 1` to `0`, and two counters are never ahead of each other.
-/

namespace Rsyslog.Common

/-- The forward distance from `r` to `c` is non-zero and below `2 ^ 63`. -/
def SerialAhead (c r : UInt64) : Prop :=
  c ≠ r ∧ (c - r).toNat < 2 ^ 63

instance (c r : UInt64) : Decidable (SerialAhead c r) :=
  inferInstanceAs (Decidable (c ≠ r ∧ (c - r).toNat < 2 ^ 63))

/-- The forward distance in natural numbers. -/
theorem sub_toNat (c r : UInt64) : (c - r).toNat = (2 ^ 64 - r.toNat + c.toNat) % 2 ^ 64 :=
  UInt64.toNat_sub c r

/-- Distinct counters have distinct values. -/
theorem toNat_ne_of_ne {c r : UInt64} (h : c ≠ r) : c.toNat ≠ r.toNat :=
  fun heq => h (UInt64.toNat_inj.mp heq)

/-- Every counter value is ahead of the value before it, including across the wrap. -/
theorem serialAhead_succ (g : UInt64) : SerialAhead (g + 1) g := by
  have hg := g.toNat_lt
  have hsucc : (g + 1).toNat = (g.toNat + 1) % 2 ^ 64 := by
    rw [UInt64.toNat_add, UInt64.toNat_one]
  refine ⟨fun h => ?_, ?_⟩
  · have := congrArg UInt64.toNat h
    omega
  · rw [sub_toNat, hsucc]
    omega

/-- Two counters are never ahead of each other. -/
theorem not_serialAhead_of_serialAhead {c r : UInt64} (h : SerialAhead c r) :
    ¬ SerialAhead r c := by
  rintro ⟨hne, hlt⟩
  obtain ⟨-, hlt'⟩ := h
  have hc := c.toNat_lt
  have hr := r.toNat_lt
  have hne' := toNat_ne_of_ne hne
  rw [sub_toNat] at hlt hlt'
  omega

/-- A counter is never ahead of its successor. -/
theorem not_serialAhead_pred (g : UInt64) : ¬ SerialAhead g (g + 1) :=
  not_serialAhead_of_serialAhead (serialAhead_succ g)

end Rsyslog.Common
