import Mathlib.Data.List.Count
import Mathlib.Data.List.Perm.Basic
import Mathlib.Data.List.Nodup

/-! # A ledger of resources

Resources are numbered in the order in which they are created, and every release is written down.
`Owned` says which resources are still to be released: what was created has been released once, or
is held once.
-/
namespace MiniHil

structure Ledger where
  created : ℕ := 0
  released : List ℕ := []
  deriving DecidableEq, Repr

namespace Ledger
variable {l : Ledger} {held : List ℕ} {n : ℕ}

/-- The new resource has the number `l.created`. -/
def create (l : Ledger) : Ledger := { l with created := l.created + 1 }

def release (l : Ledger) (n : ℕ) : Ledger := { l with released := n :: l.released }

def live (l : Ledger) : List ℕ := (List.range l.created).filter fun n => n ∉ l.released

def Owned (l : Ledger) (held : List ℕ) : Prop :=
  ∀ n, l.released.count n + held.count n = if n < l.created then 1 else 0

theorem owned_initial : Owned {} [] := fun _ => rfl

theorem Owned.create (h : l.Owned held) : l.create.Owned (l.created :: held) := by
  intro n
  have hn := h n
  change l.released.count n + (l.created :: held).count n = if n < l.created + 1 then 1 else 0
  rw [List.count_cons, ← Nat.add_assoc, hn]
  rcases Nat.lt_trichotomy n l.created with hlt | rfl | hgt
  · simp [hlt, Nat.lt_succ_of_lt hlt, Nat.ne_of_gt hlt]
  · simp
  · simp [Nat.not_lt_of_gt hgt, Nat.ne_of_lt hgt, Nat.not_lt_of_ge (Nat.succ_le_of_lt hgt)]

theorem Owned.release (h : l.Owned (n :: held)) : (l.release n).Owned held := by
  intro k
  have hk := h k
  rw [List.count_cons] at hk
  change (n :: l.released).count k + held.count k = if k < l.created then 1 else 0
  rw [List.count_cons, ← hk]
  omega

theorem Owned.count_le_one (h : l.Owned held) (n : ℕ) : l.released.count n ≤ 1 := by
  have hn := h n
  split_ifs at hn <;> omega

theorem Owned.count_eq (h : l.Owned []) (n : ℕ) : l.released.count n = if n < l.created then 1 else 0 := h n

theorem Owned.live_perm (h : l.Owned held) : l.live.Perm held := by
  rw [List.perm_iff_count]
  intro n
  have hn := h n
  have hrange : (List.range l.created).count n = if n < l.created then 1 else 0 := by
    split_ifs with hlt
    · exact List.count_eq_one_of_mem List.nodup_range (List.mem_range.mpr hlt)
    · exact List.count_eq_zero.mpr fun hmem => hlt (List.mem_range.mp hmem)
  by_cases hmem : n ∈ l.released
  · have hzero : l.live.count n = 0 := by
      apply List.count_eq_zero.mpr
      intro hlive
      exact of_decide_eq_true (List.mem_filter.mp hlive).2 hmem
    have hpos := List.count_pos_iff.mpr hmem
    split_ifs at hn <;> omega
  · have hlive : l.live.count n = (List.range l.created).count n := List.count_filter (decide_eq_true hmem)
    rw [hlive, hrange, ← hn, List.count_eq_zero.mpr hmem, Nat.zero_add]

theorem Owned.live_eq {held : Option ℕ} (h : l.Owned held.toList) : l.live = held.toList := by
  cases held with
  | none => exact h.live_perm.eq_nil
  | some n => exact List.perm_singleton.mp h.live_perm

end Ledger
end MiniHil
