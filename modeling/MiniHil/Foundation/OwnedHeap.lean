import Mathlib.Data.List.Nodup
import Mathlib.Data.List.Count

/-! # Programs over a heap

Stateful programs that may do something undefined, with total specifications: a program that meets its
specification does nothing undefined and ends as the specification says. A heap holds objects under numbers that
are not used again; reading, changing or freeing what is not there is undefined.
-/
namespace MiniHil

/-- A program whose result is `none` where it does something undefined. -/
abbrev Checked (σ α : Type) := StateT σ Option α

namespace Checked
variable {σ α β : Type} {P : σ → Prop} {Q : α → σ → Prop} {R : β → σ → Prop} {x : Checked σ α}
  {f : α → Checked σ β}

def Spec (P : σ → Prop) (x : Checked σ α) (Q : α → σ → Prop) : Prop := ∀ s, P s → ∃ a t, x.run s = some (a,t) ∧ Q a t

theorem Spec.pure {a : α} (h : ∀ s, P s → Q a s) : Spec P (pure a) Q := fun s hs => ⟨a,s,rfl,h s hs⟩

theorem Spec.bind (hx : Spec P x Q) (hf : ∀ a, Spec (Q a) (f a) R) : Spec P (x >>= f) R := by
  intro s hs
  obtain ⟨a,t,hrun,ha⟩ := hx s hs
  obtain ⟨b,u,hrun',hb⟩ := hf a t ha
  refine ⟨b,u,?_,hb⟩
  rw [StateT.run_bind, hrun]
  exact hrun'

theorem Spec.map {g : α → β} (hx : Spec P x fun a => R (g a)) : Spec P (g <$> x) R := by
  intro s hs
  obtain ⟨a,t,hrun,ha⟩ := hx s hs
  refine ⟨g a,t,?_,ha⟩
  rw [StateT.run_map, hrun]
  rfl

theorem Spec.get_bind {f : σ → Checked σ β} (hf : ∀ s, P s → Spec P (f s) R) : Spec P (get >>= f) R := fun s hs => hf s hs s hs

theorem Spec.modify {Q : σ → Prop} {f : σ → σ} (h : ∀ s, P s → Q (f s)) : Spec P (modify f) fun _ => Q :=
  fun s hs => ⟨⟨⟩,f s,rfl,h s hs⟩

theorem Spec.assume {p : Prop} (hx : p → Spec P x Q) : Spec (fun s => p ∧ P s) x Q := fun s hs => hx hs.1 s hs.2

theorem Spec.choose {ι : Type} {P : ι → σ → Prop} (hx : ∀ i, Spec (P i) x Q) : Spec (fun s => ∃ i, P i s) x Q := by
  rintro s ⟨i,hs⟩
  exact hx i s hs

end Checked

structure Heap (β : Type) where
  objects : List (ℕ × β) := []
  next : ℕ := 0

namespace Heap
variable {β : Type} {h : Heap β} {objs pre post : List (ℕ × β)} {n : ℕ} {b b' : β}

def alloc (b : β) (h : Heap β) : ℕ × Heap β := (h.next,{ objects := (h.next,b) :: h.objects, next := h.next + 1 })

def get (n : ℕ) (h : Heap β) : Option β := (h.objects.find? fun p => p.1 = n).map Prod.snd

def set (n : ℕ) (b : β) (h : Heap β) : Option (Heap β) :=
  if n ∈ h.objects.map Prod.fst then
    some { h with objects := h.objects.map fun p => if p.1 = n then (n,b) else p }
  else none

def free (n : ℕ) (h : Heap β) : Option (Heap β) :=
  if n ∈ h.objects.map Prod.fst then some { h with objects := h.objects.filter fun p => p.1 ≠ n } else none

structure Is (h : Heap β) (objs : List (ℕ × β)) : Prop where
  objects : h.objects = objs
  nodup : (objs.map Prod.fst).Nodup
  fresh : ∀ n ∈ objs.map Prod.fst, n < h.next

theorem Is.alloc (hi : h.Is objs) (b : β) : (h.alloc b).2.Is (((h.alloc b).1,b) :: objs) where
  objects := congrArg _ hi.objects
  nodup := List.nodup_cons.mpr ⟨fun hmem => Nat.lt_irrefl _ (hi.fresh _ hmem),hi.nodup⟩
  fresh n hmem := by
    rcases List.mem_cons.mp hmem with rfl | hmem
    · exact Nat.lt_succ_self _
    · exact Nat.lt_succ_of_lt (hi.fresh n hmem)

theorem Is.notMem (hi : h.Is (pre ++ (n,b) :: post)) : n ∉ pre.map Prod.fst ∧ n ∉ post.map Prod.fst := by
  have hnodup := hi.nodup
  rw [List.map_append, List.map_cons, List.nodup_middle, List.nodup_cons, List.mem_append, not_or] at hnodup
  exact hnodup.1

theorem Is.mem (hi : h.Is (pre ++ (n,b) :: post)) : n ∈ h.objects.map Prod.fst := by
  rw [hi.objects, List.map_append]
  exact List.mem_append_right _ List.mem_cons_self

theorem Is.get (hi : h.Is (pre ++ (n,b) :: post)) : h.get n = some b := by
  have hpre : pre.find? (fun p => p.1 = n) = none := by
    rw [List.find?_eq_none]
    intro p hmem heq
    exact hi.notMem.1 (of_decide_eq_true heq ▸ List.mem_map_of_mem hmem)
  rw [Heap.get, hi.objects, List.find?_append, hpre, List.find?_cons_of_pos (by simp)]
  rfl

theorem ne_of_notMem {objs : List (ℕ × β)} (hn : n ∉ objs.map Prod.fst) : ∀ p ∈ objs, p.1 ≠ n := by
  rintro p hmem rfl
  exact hn (List.mem_map_of_mem hmem)

theorem Is.set (hi : h.Is (pre ++ (n,b) :: post)) (b' : β) : ∃ h', h.set n b' = some h' ∧ h'.Is (pre ++ (n,b') :: post) := by
  have hsame : ∀ objs : List (ℕ × β), n ∉ objs.map Prod.fst → (objs.map fun p => if p.1 = n then (n,b') else p) = objs := by
    intro objs hn
    refine (List.map_congr_left fun p hmem => ?_).trans (List.map_id _)
    exact if_neg (ne_of_notMem hn p hmem)
  obtain ⟨hpre,hpost⟩ := hi.notMem
  refine ⟨_,if_pos hi.mem,?_,?_,?_⟩
  · simp only [hi.objects, List.map_append, List.map_cons, hsame _ hpre, hsame _ hpost, if_pos]
  · have hkeys := hi.nodup
    rwa [List.map_append, List.map_cons] at hkeys ⊢
  · have hkeys := hi.fresh
    rwa [List.map_append, List.map_cons] at hkeys ⊢

theorem Is.free (hi : h.Is (pre ++ (n,b) :: post)) : ∃ h', h.free n = some h' ∧ h'.Is (pre ++ post) := by
  have hsame : ∀ objs : List (ℕ × β), n ∉ objs.map Prod.fst → (objs.filter fun p => p.1 ≠ n) = objs := by
    intro objs hn
    exact List.filter_eq_self.mpr fun p hmem => decide_eq_true (ne_of_notMem hn p hmem)
  obtain ⟨hpre,hpost⟩ := hi.notMem
  have hsub : ((pre ++ post).map Prod.fst).Sublist ((pre ++ (n,b) :: post).map Prod.fst) :=
    ((List.sublist_cons_self _ _).append_left pre).map _
  refine ⟨_,if_pos hi.mem,?_,hi.nodup.sublist hsub,fun k hk => hi.fresh k (hsub.subset hk)⟩
  simp only [hi.objects, List.filter_append, hsame _ hpre]
  rw [List.filter_cons_of_neg (by simp), hsame _ hpost]

end Heap
end MiniHil
