import Mathlib.Algebra.BigOperators.Group.List.Basic
import Mathlib.Algebra.Ring.Nat
import Mathlib.Data.Int.Basic
import Mathlib.Data.List.Basic

/-! # Messages that are written piece by piece

A loop hands the rest of a message to a write that takes a part of it, as long as there is a rest. A write
that takes nothing ends the loop. The pieces that were taken are always a prefix of the message.
-/
namespace MiniHil.PartialWrites

variable {α : Type*}

structure Progress (α : Type*) where
  totalSent : ℕ := 0
  pieces : List (List α) := []
  returns : List ℤ := []

/-- All that was taken. -/
def Progress.accepted (p : Progress α) : List α := p.pieces.flatten

def writeAll (write : ℕ → ℕ → ℤ) (message : List α) : ℕ → Progress α → Option (Bool × Progress α)
  | 0, _ => none
  | fuel + 1, p =>
    if p.totalSent < message.length then
      let sent := write p.returns.length (message.length - p.totalSent)
      if sent ≤ 0 then some (false,{ p with returns := p.returns ++ [sent] })
      else writeAll write message fuel
        { totalSent := p.totalSent + sent.toNat
          pieces := p.pieces ++ [(message.drop p.totalSent).take sent.toNat]
          returns := p.returns ++ [sent] }
    else some (true,p)

/-- The pieces of a message that writes with these returns take. -/
def cut : List ℤ → List α → List (List α)
  | [], _ => []
  | sent :: returns, message =>
    if message = [] ∨ sent ≤ 0 then [] else message.take sent.toNat :: cut returns (message.drop sent.toNat)

/-- Writes are made one after the other, each for what those before it left of a message of some length. -/
def Made (write : ℕ → ℕ → ℤ) (length : ℕ) (returns : List ℤ) : Prop :=
  ∀ k sent, returns[k]? = some sent → sent = write k (length - ((returns.take k).map Int.toNat).sum)

structure Reached (write : ℕ → ℕ → ℤ) (message : List α) (p : Progress α) : Prop where
  totalSent_le : p.totalSent ≤ message.length
  accepted : p.accepted = message.take p.totalSent
  cut_append : ∀ returns, cut (p.returns ++ returns) message = p.pieces ++ cut returns (message.drop p.totalSent)
  made : Made write message.length p.returns
  sum : (p.returns.map Int.toNat).sum = p.totalSent

structure Ended (write : ℕ → ℕ → ℤ) (message : List α) (ok : Bool) (p : Progress α) : Prop where
  totalSent_le : p.totalSent ≤ message.length
  accepted : p.accepted = message.take p.totalSent
  pieces : p.pieces = cut p.returns message
  ok_iff : ok = true ↔ p.accepted = message
  made : Made write message.length p.returns
  failed : ok = false → ∃ sent, p.returns.getLast? = some sent ∧ sent ≤ 0

variable {write : ℕ → ℕ → ℤ} {message : List α} {p : Progress α} {n : ℕ} {sent : ℤ}

theorem Made.concat {length : ℕ} {returns : List ℤ} (h : Made write length returns)
    (hsent : write returns.length (length - (returns.map Int.toNat).sum) = sent) : Made write length (returns ++ [sent]) := by
  intro k sent' hk
  rw [List.getElem?_append] at hk
  split_ifs at hk with hlt
  · rw [List.take_append_of_le_length hlt.le]
    exact h k sent' hk
  · obtain ⟨hpos,rfl⟩ := List.getElem?_eq_some_iff.mp hk
    rw [List.length_singleton] at hpos
    obtain rfl : k = returns.length := by omega
    rw [List.take_left, hsent, List.getElem_singleton]

theorem reached_start (write : ℕ → ℕ → ℤ) (message : List α) : Reached write message {} where
  totalSent_le := Nat.zero_le _
  accepted := rfl
  cut_append _ := rfl
  made _ _ h := by cases h
  sum := rfl

theorem reached_piece (hp : Reached write message p) (hrest : p.totalSent < message.length)
    (hwritten : write p.returns.length (message.length - p.totalSent) = sent) (hpos : 0 < sent)
    (hsent : sent ≤ (message.length - p.totalSent : ℕ)) :
    Reached write message
      { totalSent := p.totalSent + sent.toNat
        pieces := p.pieces ++ [(message.drop p.totalSent).take sent.toNat]
        returns := p.returns ++ [sent] } where
  totalSent_le := by
    dsimp only
    omega
  accepted := by
    have haccepted := hp.accepted
    unfold Progress.accepted at haccepted ⊢
    rw [List.flatten_append, haccepted, List.flatten_singleton, List.take_add]
  cut_append returns := by
    have hdrop : message.drop p.totalSent ≠ [] := by
      intro hnil
      rw [List.drop_eq_nil_iff] at hnil
      omega
    have hcut : cut (sent :: returns) (message.drop p.totalSent) =
        (message.drop p.totalSent).take sent.toNat :: cut returns (message.drop (p.totalSent + sent.toNat)) := by
      rw [← List.drop_drop]
      exact if_neg (by simpa [hdrop] using hpos)
    rw [List.append_assoc, List.singleton_append, hp.cut_append, hcut, List.append_assoc, List.singleton_append]
  made := hp.made.concat (by rwa [hp.sum])
  sum := by
    rw [List.map_append, List.sum_append, hp.sum]
    rfl

theorem ended_failure (hp : Reached write message p) (hrest : p.totalSent < message.length)
    (hwritten : write p.returns.length (message.length - p.totalSent) = sent) (hsent : sent ≤ 0) :
    Ended write message false { p with returns := p.returns ++ [sent] } where
  totalSent_le := hp.totalSent_le
  accepted := hp.accepted
  pieces := by
    have hcut : cut [sent] (message.drop p.totalSent) = [] := if_pos (.inr hsent)
    rw [hp.cut_append, hcut, List.append_nil]
  ok_iff := by
    have hlength := congrArg List.length hp.accepted
    rw [List.length_take] at hlength
    apply iff_of_false Bool.false_ne_true
    intro hall
    have hall' : p.accepted.length = message.length := congrArg List.length hall
    omega
  made := hp.made.concat (by rwa [hp.sum])
  failed _ := ⟨sent,List.getLast?_concat,hsent⟩

theorem ended_success (hp : Reached write message p) (hrest : ¬p.totalSent < message.length) : Ended write message true p where
  totalSent_le := hp.totalSent_le
  accepted := hp.accepted
  pieces := by
    have hcut := hp.cut_append []
    rw [List.append_nil] at hcut
    rw [hcut]
    exact (List.append_nil _).symm
  ok_iff := by
    apply iff_of_true rfl
    rw [hp.accepted, List.take_of_length_le]
    omega
  made := hp.made
  failed h := by cases h

theorem Ended.totalSent_eq {ok : Bool} (h : Ended write message ok p) : p.totalSent = p.accepted.length := by
  rw [h.accepted, List.length_take, Nat.min_eq_left h.totalSent_le]

theorem Ended.isPrefix {ok : Bool} (h : Ended write message ok p) : p.accepted <+: message := by
  rw [h.accepted]
  exact List.take_prefix _ _

theorem writeAll_success (hrest : ¬p.totalSent < message.length) (fuel : ℕ) :
    writeAll write message (fuel + 1) p = some (true,p) := if_neg hrest

theorem writeAll_failure (hrest : p.totalSent < message.length)
    (hwritten : write p.returns.length (message.length - p.totalSent) = sent) (hsent : sent ≤ 0) (fuel : ℕ) :
    writeAll write message (fuel + 1) p = some (false,{ p with returns := p.returns ++ [sent] }) := by
  rw [writeAll, if_pos hrest, hwritten]
  exact if_pos hsent

theorem writeAll_piece (hrest : p.totalSent < message.length)
    (hwritten : write p.returns.length (message.length - p.totalSent) = sent) (hpos : ¬sent ≤ 0) (fuel : ℕ) :
    writeAll write message (fuel + 1) p = writeAll write message fuel
      { totalSent := p.totalSent + sent.toNat
        pieces := p.pieces ++ [(message.drop p.totalSent).take sent.toNat]
        returns := p.returns ++ [sent] } := by
  rw [writeAll, if_pos hrest, hwritten]
  exact if_neg hpos

theorem writeAll_ends (hwrite : ∀ k n, 0 < write k n → write k n ≤ n) (hp : Reached write message p)
    (hn : message.length - p.totalSent ≤ n) :
    ∃ ok p', (∀ fuel, writeAll write message (fuel + n + 1) p = some (ok,p')) ∧ Ended write message ok p' := by
  induction n generalizing p with
  | zero =>
    have hrest : ¬p.totalSent < message.length := by omega
    exact ⟨true,p,fun fuel => writeAll_success hrest _,ended_success hp hrest⟩
  | succ n ih =>
    by_cases hrest : p.totalSent < message.length
    · generalize hwritten : write p.returns.length (message.length - p.totalSent) = sent
      by_cases hsent : sent ≤ 0
      · exact ⟨false,_,fun fuel => writeAll_failure hrest hwritten hsent _,ended_failure hp hrest hwritten hsent⟩
      · have hle : sent ≤ (message.length - p.totalSent : ℕ) := by
          rw [← hwritten] at hsent ⊢
          exact hwrite _ _ (Int.not_le.mp hsent)
        have hpiece := reached_piece hp hrest hwritten (Int.not_le.mp hsent) hle
        obtain ⟨ok,p',hrun,hend⟩ := ih hpiece (by dsimp only; omega)
        refine ⟨ok,p',?_,hend⟩
        intro fuel
        exact (writeAll_piece hrest hwritten hsent _).trans (hrun fuel)
    · exact ⟨true,p,fun fuel => writeAll_success hrest _,ended_success hp hrest⟩

end MiniHil.PartialWrites
