import Mathlib.Algebra.Ring.Nat
import Mathlib.Tactic.Common

/-! Waits that double up to a cap, and how often something happens that waits in between. -/
namespace LakeFsAuth.Library.Backoff

/-- The wait that follows a wait. -/
def next (cap wait : Nat) : Nat := min (wait * 2) cap

/-- The waits in their order. -/
def wait (first cap : Nat) : Nat → Nat
  | 0 => first
  | count + 1 => next cap (wait first cap count)

section Waits
variable {first cap : Nat}

theorem wait_eq (h : first ≤ cap) (count : Nat) : wait first cap count = min (first * 2 ^ count) cap := by
  induction count with
  | zero => simp [wait, h]
  | succ count ih =>
    simp only [wait, next, ih, Nat.pow_succ, ← Nat.mul_assoc]
    omega

theorem wait_le (h : first ≤ cap) (count : Nat) : wait first cap count ≤ cap := by
  rw [wait_eq h]
  exact Nat.min_le_right _ _

theorem le_wait (h : first ≤ cap) (count : Nat) : first ≤ wait first cap count := by
  rw [wait_eq h]
  exact Nat.le_min.mpr ⟨Nat.le_mul_of_pos_right _ (Nat.two_pow_pos count), h⟩

/-- From some wait on it is the cap. -/
theorem wait_eq_cap (h : first ≤ cap) {enough count : Nat} (reached : cap ≤ first * 2 ^ enough)
    (later : enough ≤ count) : wait first cap count = cap := by
  rw [wait_eq h]
  have hmono : first * 2 ^ enough ≤ first * 2 ^ count :=
    Nat.mul_le_mul_left _ (Nat.pow_le_pow_right (by omega) later)
  exact Nat.min_eq_right (Nat.le_trans reached hmono)

end Waits

/-- Instants, the latest first, of which any `n + 1` take no less than `n * rate` but for a slack.
The last ones leave a credit at the present instant. -/
structure Spaced (rate slack credit now : Nat) (instants : List Nat) : Prop where
  window : ∀ i j later earlier, i ≤ j → instants[i]? = some later → instants[j]? = some earlier →
    rate * (j - i) ≤ (later - earlier) + slack
  present : ∀ i earlier, instants[i]? = some earlier →
    earlier ≤ now ∧ rate * i + credit ≤ (now - earlier) + slack

namespace Spaced
variable {rate slack credit now : Nat} {instants : List Nat}

theorem start (h : credit ≤ slack) : Spaced rate slack credit now [now] where
  window := by
    intro i j later earlier hle hi hj
    rw [List.getElem?_singleton] at hi hj
    split at hi
    · split at hj
      · subst_vars
        simp
      · cases hj
    · cases hi
  present := by
    intro i earlier hi
    rw [List.getElem?_singleton] at hi
    split at hi
    · cases hi
      subst_vars
      simpa using h
    · cases hi

/-- The credit grows with the time that passes. -/
theorem later {credit' now' : Nat} (spaced : Spaced rate slack credit now instants)
    (passed : now ≤ now') (paid : credit' ≤ credit + (now' - now)) :
    Spaced rate slack credit' now' instants where
  window := spaced.window
  present := by
    intro i earlier hi
    obtain ⟨hpast, hpaid⟩ := spaced.present i earlier hi
    omega

/-- One more instant costs the rate. -/
theorem push {credit' : Nat} (spaced : Spaced rate slack credit now instants)
    (paid : rate + credit' ≤ credit) (full : credit' ≤ slack) :
    Spaced rate slack credit' now (now :: instants) where
  window := by
    intro i j later earlier hle hi hj
    cases i with
    | zero =>
      obtain rfl : now = later := by simpa using hi
      cases j with
      | zero => simp
      | succ j =>
        obtain ⟨_, hpaid⟩ := spaced.present j earlier (by simpa using hj)
        rw [Nat.sub_zero, Nat.mul_succ]
        omega
    | succ i =>
      cases j with
      | zero => omega
      | succ j =>
        rw [Nat.add_sub_add_right]
        exact spaced.window i j later earlier (by omega) (by simpa using hi) (by simpa using hj)
  present := by
    intro i earlier hi
    cases i with
    | zero =>
      obtain rfl : now = earlier := by simpa using hi
      simpa using full
    | succ i =>
      obtain ⟨hpast, hpaid⟩ := spaced.present i earlier (by simpa using hi)
      rw [Nat.mul_succ]
      omega

end Spaced

end LakeFsAuth.Library.Backoff
