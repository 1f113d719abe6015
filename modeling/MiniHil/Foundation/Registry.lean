import Mathlib.Data.Finset.Card
import Mathlib.Data.Finset.Insert
import Mathlib.Logic.Function.Basic

/-! # Tables of shared keys

Holders enter their key in a table and remove one entry with it when they leave. Keys may be shared, and
a holder cannot tell its own entry from another one with its key. Each key is then in the table as often
as it is held, and the table is empty only when nobody is left.
-/
namespace MiniHil.Registry

variable {ι κ : Type*} [DecidableEq κ]
variable {S : Finset ι} {holder : ι → Option κ} {entries : List κ} {i : ι} {k : κ}

def held (S : Finset ι) (holder : ι → Option κ) (k : κ) : Finset ι := S.filter fun i => holder i = some k

def Matches (S : Finset ι) (holder : ι → Option κ) (entries : List κ) : Prop :=
  ∀ k, entries.count k = (held S holder k).card

theorem mem_held_iff : i ∈ held S holder k ↔ i ∈ S ∧ holder i = some k := Finset.mem_filter

theorem matches_empty (holder : ι → Option κ) : Matches ∅ holder [] := fun _ => rfl

theorem Matches.eq_none (h : Matches S holder []) (hi : i ∈ S) : holder i = none := by
  cases hk : holder i with
  | none => rfl
  | some k =>
    have hcard : (held S holder k).card = 0 := (h k).symm
    have hmem : i ∈ held S holder k := mem_held_iff.mpr ⟨hi,hk⟩
    rw [Finset.card_eq_zero.mp hcard] at hmem
    exact absurd hmem (Finset.notMem_empty i)

theorem Matches.mem (h : Matches S holder entries) (hi : i ∈ S) (hk : holder i = some k) : k ∈ entries := by
  rw [← List.count_pos_iff, h k, Finset.card_pos]
  exact ⟨i,mem_held_iff.mpr ⟨hi,hk⟩⟩

theorem Matches.exists_holder (h : Matches S holder entries) (hk : k ∈ entries) : ∃ i ∈ S, holder i = some k := by
  rw [← List.count_pos_iff, h k, Finset.card_pos] at hk
  obtain ⟨i,hi⟩ := hk
  exact ⟨i,mem_held_iff.mp hi⟩

variable [DecidableEq ι]

theorem held_update_some (hi : i ∈ S) (hnone : holder i = none) (l : κ) :
    held S (Function.update holder i (some k)) l = if k = l then insert i (held S holder l) else held S holder l := by
  ext j
  by_cases hj : j = i
  · subst hj
    by_cases hkl : k = l <;> simp [held, hkl, hi, hnone]
  · by_cases hkl : k = l <;> simp [held, hkl, hj]

theorem held_update_none (hsome : holder i = some k) (l : κ) :
    held S (Function.update holder i none) l = if k = l then (held S holder l).erase i else held S holder l := by
  ext j
  by_cases hj : j = i
  · subst hj
    by_cases hkl : k = l <;> simp [held, hkl, hsome]
  · by_cases hkl : k = l <;> simp [held, hkl, hj]

theorem Matches.add (h : Matches S holder entries) (hi : i ∈ S) (hnone : holder i = none) (k : κ) :
    Matches S (Function.update holder i (some k)) (entries ++ [k]) := by
  intro l
  rw [List.count_append, h l, held_update_some hi hnone]
  by_cases hkl : k = l
  · subst hkl
    have hno : i ∉ held S holder k := by
      intro hmem
      rw [(mem_held_iff.mp hmem).2] at hnone
      cases hnone
    rw [if_pos rfl, Finset.card_insert_of_notMem hno, List.count_singleton_self]
  · rw [if_neg hkl, List.count_singleton, if_neg (by simpa using hkl)]
    omega

theorem Matches.remove (h : Matches S holder entries) (hi : i ∈ S) (hsome : holder i = some k) :
    Matches S (Function.update holder i none) (entries.erase k) := by
  intro l
  rw [held_update_none hsome]
  by_cases hkl : k = l
  · subst hkl
    have hmem : i ∈ held S holder k := mem_held_iff.mpr ⟨hi,hsome⟩
    rw [if_pos rfl, Finset.card_erase_of_mem hmem, List.count_erase_self, h k]
  · rw [if_neg hkl, List.count_erase_of_ne (Ne.symm hkl), h l]

theorem Matches.join (h : Matches S holder entries) (hnone : holder i = none) :
    Matches (insert i S) holder entries := by
  intro k
  have hno : ¬holder i = some k := by rw [hnone]; exact nofun
  rw [h k, held, held, Finset.filter_insert, if_neg hno]

end MiniHil.Registry
