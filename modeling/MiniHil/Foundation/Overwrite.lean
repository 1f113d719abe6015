import Mathlib.Data.List.Induction
import Mathlib.Data.List.Nodup
import Mathlib.Logic.Function.Basic

/-! # A store that is written in order

Writes to places of a store, each over what was there before: what a place holds in the end is what was
written to it last, or what it held at the beginning.
-/
namespace MiniHil.Overwrite

variable {κ β : Type*} [DecidableEq κ] {store : κ → β} {writes more : List (κ × β)} {k : κ}

def write (store : κ → β) (w : κ × β) : κ → β := Function.update store w.1 w.2

def writeAll (store : κ → β) (writes : List (κ × β)) : κ → β := writes.foldl write store

/-- The last value that is written to a place. -/
def lastWritten (writes : List (κ × β)) (k : κ) : Option β := ((writes.filter fun w => w.1 = k).getLast?).map Prod.snd

theorem writeAll_append : writeAll store (writes ++ more) = writeAll (writeAll store writes) more :=
  List.foldl_append

theorem lastWritten_concat (w : κ × β) :
    lastWritten (writes ++ [w]) k = if w.1 = k then some w.2 else lastWritten writes k := by
  unfold lastWritten
  by_cases hw : w.1 = k
  · simp [hw]
  · simp [hw]

theorem lastWritten_mem {v : β} (h : lastWritten writes k = some v) : (k,v) ∈ writes := by
  obtain ⟨w,hlast,rfl⟩ := Option.map_eq_some_iff.mp h
  obtain ⟨hmem,hkey⟩ := List.mem_filter.mp (List.mem_of_getLast? hlast)
  obtain rfl : w.1 = k := of_decide_eq_true hkey
  exact hmem

theorem lastWritten_ne_none {v : β} (hmem : (k,v) ∈ writes) : lastWritten writes k ≠ none := by
  rw [lastWritten, Ne, Option.map_eq_none_iff, List.getLast?_eq_none_iff]
  exact List.ne_nil_of_mem (List.mem_filter.mpr ⟨hmem,decide_eq_true rfl⟩)

theorem lastWritten_of_nodup {v : β} (hd : (writes.map Prod.fst).Nodup) (hmem : (k,v) ∈ writes) :
    lastWritten writes k = some v := by
  obtain ⟨pre,post,rfl⟩ := List.append_of_mem hmem
  rw [List.map_append, List.map_cons, List.nodup_middle, List.nodup_cons, List.mem_append, not_or] at hd
  have hnone : ∀ ws : List (κ × β), k ∉ ws.map Prod.fst → (ws.filter fun w => w.1 = k) = [] := by
    intro ws hk
    rw [List.filter_eq_nil_iff]
    intro w hw heq
    exact hk (of_decide_eq_true heq ▸ List.mem_map_of_mem hw)
  unfold lastWritten
  rw [List.filter_append, hnone pre hd.1.1, List.filter_cons_of_pos (by simp), hnone post hd.1.2]
  rfl

theorem writeAll_apply : writeAll store writes k = (lastWritten writes k).getD (store k) := by
  induction writes using List.reverseRecOn with
  | nil => rfl
  | append_singleton writes w ih =>
    rw [writeAll_append, lastWritten_concat]
    change Function.update (writeAll store writes) w.1 w.2 k = _
    by_cases hw : w.1 = k
    · subst hw
      rw [Function.update_self, if_pos rfl]
      rfl
    · rw [Function.update_of_ne (Ne.symm hw), if_neg hw, ih]

/-- A place is as it was exactly if nothing else was the last to be written there. -/
theorem writeAll_apply_eq_iff : writeAll store writes k = store k ↔ ∀ v, lastWritten writes k = some v → v = store k := by
  rw [writeAll_apply]
  cases hlast : lastWritten writes k with
  | none => simp
  | some v => simp

end MiniHil.Overwrite
