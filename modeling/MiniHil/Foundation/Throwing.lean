import Mathlib.Control.Basic

/-! # Stateful computations that may throw

The state survives an exception, as object state does in the source language. `exec` runs a
computation; its simp lemmas evaluate one step of it.
-/
namespace MiniHil

abbrev Throwing (ε σ α : Type) := ExceptT ε (StateM σ) α

theorem bind_eq_ok_iff {ε α β : Type} {x : Except ε α} {f : α → Except ε β} {b : β} :
    (x >>= f) = .ok b ↔ ∃ a, x = .ok a ∧ f a = .ok b := by
  cases x <;> simp [bind, Except.bind]

theorem bind_eq_error_iff {ε α β : Type} {x : Except ε α} {f : α → Except ε β} {e : ε} :
    (x >>= f) = .error e ↔ x = .error e ∨ ∃ a, x = .ok a ∧ f a = .error e := by
  cases x <;> simp [bind, Except.bind]

namespace Throwing
variable {ε σ α β : Type} {s t : σ}

/-- The outcome and the final state. -/
def exec (m : Throwing ε σ α) (s : σ) : Except ε α × σ := StateT.run (ExceptT.run m) s

@[simp] theorem exec_get : exec (get : Throwing ε σ σ) s = (.ok s,s) := rfl

@[simp] theorem exec_set : exec (set t : Throwing ε σ PUnit) s = (.ok ⟨⟩,t) := rfl

@[simp] theorem exec_lift (x : Except ε α) : exec (liftM x : Throwing ε σ α) s = (x,s) := rfl

theorem exec_bind (m : Throwing ε σ α) (f : α → Throwing ε σ β) :
    exec (m >>= f) s = match exec m s with
      | (.ok a,t) => exec (f a) t
      | (.error e,t) => (.error e,t) := by
  unfold exec ExceptT.run StateT.run
  simp only [bind, ExceptT.bind, ExceptT.mk, StateT.bind, ExceptT.bindCont]
  rcases m s with ⟨a | e,t⟩ <;> rfl

theorem exec_bind_ok {m : Throwing ε σ α} {f : α → Throwing ε σ β} {a : α} (h : exec m s = (.ok a,t)) :
    exec (m >>= f) s = exec (f a) t := by
  rw [exec_bind, h]

theorem exec_bind_error {m : Throwing ε σ α} {f : α → Throwing ε σ β} {e : ε} (h : exec m s = (.error e,t)) :
    exec (m >>= f) s = (.error e,t) := by
  rw [exec_bind, h]

theorem exec_bind_congr {m : Throwing ε σ α} {f g : α → Throwing ε σ β} (h : ∀ a t, exec (f a) t = exec (g a) t) (s : σ) :
    exec (m >>= f) s = exec (m >>= g) s := by
  rw [exec_bind, exec_bind]
  split
  · exact h _ _
  · rfl

theorem exec_bind_eq_ok {m : Throwing ε σ α} {f : α → Throwing ε σ β} {b : β} (h : exec (m >>= f) s = (.ok b,t)) :
    ∃ a u, exec m s = (.ok a,u) ∧ exec (f a) u = (.ok b,t) := by
  rcases hm : exec m s with ⟨e | a,u⟩
  · rw [exec_bind_error hm] at h
    cases h
  · rw [exec_bind_ok hm] at h
    exact ⟨a,u,rfl,h⟩

theorem exec_tryCatch (m : Throwing ε σ α) (handler : ε → Throwing ε σ α) :
    exec (tryCatch m handler) s = match exec m s with
      | (.ok a,t) => (.ok a,t)
      | (.error e,t) => exec (handler e) t := by
  unfold exec ExceptT.run StateT.run
  simp only [tryCatch, tryCatchThe, MonadExceptOf.tryCatch, ExceptT.tryCatch, ExceptT.mk, bind, StateT.bind]
  rcases m s with ⟨a | e,t⟩ <;> rfl

end Throwing
end MiniHil
