import Mathlib.Data.List.Chain
import MiniHil.Core.RelayInvariant

/-! # Ticks with no command in between

How long ago a program began, in the widths the code compares it in, and what a run without a
command for a channel does to that channel: one tick after the other.
-/
namespace MiniHil
open Runs

section Elapsed
variable {start now later : TimePoint}

theorem elapsedMs_eq (h : start ≤ now) : elapsedMs now start = ((now.val - start.val) / 1000000 : ℕ) := by
  have hv : start.val ≤ now.val := h
  unfold elapsedMs
  rw [← Int.ofNat_sub hv]
  rfl

theorem elapsedMs_nonneg (h : start ≤ now) : 0 ≤ elapsedMs now start := by
  rw [elapsedMs_eq h]
  exact Int.natCast_nonneg _

theorem elapsedMs_lt (h : start ≤ now) : elapsedMs now start < 2 ^ 64 := by
  have hv := now.isLt
  rw [elapsedMs_eq h]
  omega

theorem elapsedMs_mono (h : start ≤ now) (hl : now ≤ later) : elapsedMs now start ≤ elapsedMs later start := by
  have hv : now.val ≤ later.val := hl
  rw [elapsedMs_eq h, elapsedMs_eq (h.trans hl)]
  omega

theorem toNat_elapsedMs_uint64 (h : start ≤ now) :
    ((UInt64.ofInt (elapsedMs now start)).toNat : ℤ) = elapsedMs now start := by
  have hn := elapsedMs_nonneg h
  have hlt := elapsedMs_lt h
  rw [UInt64.ofInt, UInt64.toNat_ofNat']
  omega

theorem toNat_elapsedMs_uint32 (now start : TimePoint) :
    ((UInt32.ofInt (elapsedMs now start)).toNat : ℤ) = elapsedMs now start % 2 ^ 32 := by
  rw [UInt32.ofInt, UInt32.toNat_ofNat']
  omega

theorem le_elapsedMs_of_uint32 {duration : UInt32} (h : start ≤ now)
    (hle : duration ≤ UInt32.ofInt (elapsedMs now start)) : (duration.toNat : ℤ) ≤ elapsedMs now start := by
  have hn := elapsedMs_nonneg h
  have ht := toNat_elapsedMs_uint32 now start
  have hv : duration.toNat ≤ (UInt32.ofInt (elapsedMs now start)).toNat := UInt32.le_iff_toNat_le.mp hle
  omega

end Elapsed

namespace BaseRelayController
variable {H : Type*} {hw : Hardware H} {c c' : BaseRelayController H} {relayId : ℤ} {now later : TimePoint}
  {es : List (TimePoint × Event)}

def tickTimes (es : List (TimePoint × Event)) : List TimePoint :=
  es.filterMap fun e => if e.2 = .tick then some e.1 else none

/-- The commands of a run are all for other channels. -/
def NoCommandFor (relayId : ℤ) (es : List (TimePoint × Event)) : Prop :=
  ∀ e ∈ es, ∀ cmd, e.2 = .command cmd → cmd.relayId ≠ relayId

theorem NoCommandFor.select (h : NoCommandFor relayId es) :
    es.filterMap (Channel.select relayId) = (tickTimes es).map fun now => (now,.tick) := by
  induction es with
  | nil => rfl
  | cons e es ih =>
    have hes := ih fun e he => h e (List.mem_cons_of_mem _ he)
    have hcmd := h e List.mem_cons_self
    rcases e with ⟨now,e⟩
    cases e with
    | command cmd =>
      have hne : Channel.select relayId (now,.command cmd) = none := if_neg (hcmd cmd rfl)
      rw [List.filterMap_cons_none hne, hes]
      simp [tickTimes]
    | tick =>
      have htick : Channel.select relayId (now,.tick) = some (now,.tick) := rfl
      rw [List.filterMap_cons_some htick, hes]
      simp [tickTimes]
    | getRelay | getAllStates | getRelayStatus =>
      rw [List.filterMap_cons_none rfl, hes]
      simp [tickTimes]

theorem channel_run_ticks (h : c.HasEight) (hr : 1 ≤ relayId ∧ relayId ≤ 8) (hes : NoCommandFor relayId es) :
    (es.foldl (handle hw) c).channel relayId = (tickTimes es).foldl (fun ch now => ch.tick now) (c.channel relayId) := by
  rw [channel_run h hr, hes.select, List.foldl_map]
  rfl

theorem timedRun_eq (hrun : Run (timedStep hw) (now,c) es (later,c')) : c' = es.foldl (handle hw) c := by
  generalize hs : (now,c) = s at hrun
  generalize ht : (later,c') = t at hrun
  induction hrun generalizing now c with
  | refl =>
    subst hs
    exact congrArg Prod.snd ht
  | step he _ ih =>
    subst hs
    obtain ⟨_,rfl⟩ := he
    exact ih rfl ht

theorem timedRun_sorted (hrun : Run (timedStep hw) (now,c) es (later,c')) :
    (now :: tickTimes es).IsChain (· ≤ ·) ∧ ∀ tick ∈ now :: tickTimes es, tick ≤ later := by
  generalize hs : (now,c) = s at hrun
  generalize ht : (later,c') = t at hrun
  induction hrun generalizing now c with
  | refl =>
    subst hs
    obtain ⟨rfl,_⟩ := Prod.mk.inj ht
    simp [tickTimes]
  | @step s u t e es he _ ih =>
    subst hs
    obtain ⟨hle,rfl⟩ := he
    obtain ⟨hchain,hlast⟩ := ih rfl ht
    have hend : e.1 ≤ later := hlast e.1 List.mem_cons_self
    by_cases htick : e.2 = .tick
    · have hcons : tickTimes (e :: es) = e.1 :: tickTimes es := by simp [tickTimes, htick]
      rw [hcons]
      refine ⟨List.isChain_cons_cons.mpr ⟨hle,hchain⟩,?_⟩
      intro tick hmem
      rcases List.mem_cons.mp hmem with rfl | hmem
      · exact hle.trans hend
      · exact hlast tick hmem
    · have hskip : tickTimes (e :: es) = tickTimes es := by simp [tickTimes, htick]
      rw [hskip]
      refine ⟨?_,?_⟩
      · cases htimes : tickTimes es with
        | nil => exact List.isChain_singleton _
        | cons first rest =>
          rw [htimes, List.isChain_cons_cons] at hchain
          exact List.isChain_cons_cons.mpr ⟨hle.trans hchain.1,hchain.2⟩
      · intro tick hmem
        rcases List.mem_cons.mp hmem with rfl | hmem
        · exact hle.trans hend
        · exact hlast tick (List.mem_cons_of_mem _ hmem)

end BaseRelayController
end MiniHil
