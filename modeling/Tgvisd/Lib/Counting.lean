import Mathlib.Algebra.Group.Nat.Defs
import Mathlib.Data.Set.Card

/-!
# Counters

A counter counts the things that have a property when its value is the number of these things.
Giving the property to one more thing raises the count by one, and taking it from one of them
lowers it by one; nothing else about the things matters.

A counter of 64 bits that is incremented by one hands out the natural numbers modulo `2 ^ 64`. The
first `2 ^ 64` numbers are distinct.
-/

namespace Tgvisd

universe u

def Counts {α : Type u} (property : α → Prop) (count : ℕ) : Prop :=
  {a | property a}.encard = count

namespace Counts

variable {α : Type u} {before after : α → Prop} {count : ℕ} {a : α}

theorem of_none (h : ∀ a, ¬ before a) : Counts before 0 := by
  have hempty : {a | before a} = ∅ := Set.eq_empty_of_forall_notMem h
  simp [Counts, hempty]

theorem of_iff (h : Counts before count) (heq : ∀ b, after b ↔ before b) : Counts after count := by
  have hset : {b | after b} = {b | before b} := Set.ext heq
  rwa [Counts, hset]

theorem acquire (h : Counts before count) (ha : ¬ before a)
    (hafter : ∀ b, after b ↔ b = a ∨ before b) : Counts after (count + 1) := by
  have hset : {b | after b} = insert a {b | before b} := Set.ext hafter
  have hfresh : a ∉ {b | before b} := ha
  rw [Counts, hset, Set.encard_insert_of_notMem hfresh, h]
  rfl

theorem release (h : Counts before count) (ha : before a)
    (hafter : ∀ b, after b ↔ before b ∧ b ≠ a) : ∃ rest, count = rest + 1 ∧ Counts after rest := by
  have hset : {b | after b} = {b | before b} \ {a} := Set.ext hafter
  have hsum := Set.encard_sdiff_singleton_add_one (show a ∈ {b | before b} from ha)
  rw [← hset, h] at hsum
  have hfinite : {b | after b}.encard ≠ ⊤ := by
    intro htop
    rw [htop] at hsum
    exact absurd hsum (by simp)
  obtain ⟨rest, hrest⟩ := ENat.ne_top_iff_exists.mp hfinite
  refine ⟨rest, ?_, hrest.symm⟩
  rw [← hrest] at hsum
  exact_mod_cast hsum.symm

theorem pos (h : Counts before count) (ha : before a) : 0 < count := by
  have hothers (b : α) : (before b ∧ b ≠ a) ↔ before b ∧ b ≠ a := Iff.rfl
  obtain ⟨rest, hrest, -⟩ := h.release ha hothers
  omega

theorem eq_zero_iff (h : Counts before count) : count = 0 ↔ ∀ a, ¬ before a := by
  constructor
  · intro hzero a ha
    exact absurd (h.pos ha) (by omega)
  · intro hnone
    have hcast : ((0 : ℕ) : ℕ∞) = count := (of_none hnone).symm.trans h
    exact_mod_cast hcast.symm

end Counts

/-! ## Numbers drawn from a 64-bit counter -/

namespace WrappingCounter

theorem ofNat_succ (count : ℕ) : UInt64.ofNat count + 1 = UInt64.ofNat (count + 1) := by
  rw [UInt64.ofNat_add]
  rfl

theorem ofNat_inj_of_lt {first second : ℕ} (hfirst : first < 2 ^ 64) (hsecond : second < 2 ^ 64)
    (h : UInt64.ofNat first = UInt64.ofNat second) : first = second := by
  have hnat : (UInt64.ofNat first).toNat = (UInt64.ofNat second).toNat := congrArg UInt64.toNat h
  rwa [UInt64.toNat_ofNat_of_lt' hfirst, UInt64.toNat_ofNat_of_lt' hsecond] at hnat

theorem ofNat_ne_zero {count : ℕ} (hpos : 0 < count) (hlt : count < 2 ^ 64) :
    UInt64.ofNat count ≠ 0 := by
  intro h
  have hzero : count = 0 :=
    ofNat_inj_of_lt hlt (by decide) (show UInt64.ofNat count = UInt64.ofNat 0 from h)
  omega

end WrappingCounter

end Tgvisd
