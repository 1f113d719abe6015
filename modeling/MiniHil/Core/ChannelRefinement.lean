import MiniHil.Core.ChannelMachine

/-! # The controller is eight independent channels

The step lemmas of the single-channel machine, lifted to ticks, events and whole runs.
-/
namespace MiniHil
open Runs

namespace BaseRelayController
variable {H : Type*} {hw : Hardware H} {c d : BaseRelayController H} {relayId : ℤ}

theorem HasEight.tick (h : c.HasEight) (now : TimePoint) : (c.tick hw now).HasEight := by
  have hfold : ∀ (ids : List ℤ) (c : BaseRelayController H), c.HasEight →
      (∀ id ∈ ids, 1 ≤ id ∧ id ≤ 8) → (ids.foldl (BaseRelayController.tickRelay hw now) c).HasEight := by
    intro ids
    induction ids with
    | nil => exact fun _ h _ => h
    | cons id ids ih =>
      intro c h hids
      exact ih _ (h.tickRelay (hids id List.mem_cons_self) now)
        (fun k hk => hids k (List.mem_cons_of_mem _ hk))
  exact hfold _ c h (fun id hid => (h id).mp (Std.ExtTreeMap.mem_keys.mp hid))

theorem channel_tick (h : c.HasEight) (hr : 1 ≤ relayId ∧ relayId ≤ 8) (now : TimePoint) :
    (c.tick hw now).channel relayId = (c.channel relayId).tick now := by
  have hmem : relayId ∈ c.relayStates.keys := Std.ExtTreeMap.mem_keys.mpr ((h relayId).mpr hr)
  obtain ⟨s₀,hs₀,he⟩ := foldl_view_of_mem (tickRelay hw now) (channel relayId)
    (fun s i hi => channel_tickRelay_ne hi.symm now) Std.ExtTreeMap.nodup_keys hmem c
  rw [tick, he, channel_tickRelay_self, hs₀]

theorem HasEight.handle (h : c.HasEight) (e : TimePoint × Event) : (c.handle hw e).HasEight := by
  rcases e with ⟨now,e⟩
  cases e with
  | command cmd => exact h.execute now cmd
  | tick => exact h.tick now
  | getRelay | getAllStates | getRelayStatus => exact h

theorem channel_handle_none {e : TimePoint × Event} (he : Channel.select relayId e = none) :
    (c.handle hw e).channel relayId = c.channel relayId := by
  rcases e with ⟨now,e⟩
  cases e with
  | command cmd =>
    have hne : relayId ≠ cmd.relayId := by
      intro h
      simp [Channel.select, h] at he
    exact channel_execute_ne hne
  | tick => simp [Channel.select] at he
  | getRelay | getAllStates | getRelayStatus => rfl

theorem channel_handle_some (h : c.HasEight) (hr : 1 ≤ relayId ∧ relayId ≤ 8)
    {e : TimePoint × Event} {i : TimePoint × Channel.Input} (he : Channel.select relayId e = some i) :
    (c.handle hw e).channel relayId = (c.channel relayId).step i := by
  rcases e with ⟨now,e⟩
  cases e with
  | command cmd =>
    by_cases hcmd : cmd.relayId = relayId
    · simp only [Channel.select, if_pos hcmd, Option.some.injEq] at he
      subst he hcmd
      exact channel_execute_self hr
    · simp [Channel.select, hcmd] at he
  | tick =>
    simp only [Channel.select, Option.some.injEq] at he
    subst he
    exact channel_tick h hr now
  | getRelay | getAllStates | getRelayStatus => simp [Channel.select] at he

theorem HasEight.run (h : c.HasEight) (es : List (TimePoint × Event)) :
    (es.foldl (BaseRelayController.handle hw) c).HasEight := by
  induction es generalizing c with
  | nil => exact h
  | cons e es ih => exact ih (h.handle e)

/-- A run of the controller, seen from one channel, is a run of the single-channel machine over
the events that concern the channel. -/
theorem channel_run (h : c.HasEight) (hr : 1 ≤ relayId ∧ relayId ≤ 8) (es : List (TimePoint × Event)) :
    (es.foldl (BaseRelayController.handle hw) c).channel relayId =
      (es.filterMap (Channel.select relayId)).foldl Channel.step (c.channel relayId) :=
  foldl_project (P := HasEight) (fun _ e hs => hs.handle e) (fun _ _ _ he => channel_handle_none he)
    (fun _ _ _ hs he => channel_handle_some hs hr he) es h

theorem channel_construct (device : H) (relayId : ℤ) : (construct device).channel relayId = {} := by
  have hrelay : (construct device).relay relayId = {} := by
    simp only [relay, construct, List.foldl_cons, List.foldl_nil, Std.ExtTreeMap.getD_insert]
    split_ifs <;> rfl
  simp only [channel, hrelay]
  rfl

theorem getElem?_relayStates (h : c.HasEight) (hr : 1 ≤ relayId ∧ relayId ≤ 8) :
    c.relayStates[relayId]? = some (c.relay relayId) := by
  have hmem : relayId ∈ c.relayStates := (h relayId).mpr hr
  rw [Std.ExtTreeMap.getElem?_eq_some_getElem hmem, relay, Std.ExtTreeMap.getElem_eq_getD]

theorem getRelay_eq (h : c.HasEight) (hr : 1 ≤ relayId ∧ relayId ≤ 8) :
    c.getRelay relayId = some (c.relay relayId).state := by
  rw [getRelay, if_neg (by omega), getElem?_relayStates h hr]
  rfl

theorem getAllStates_eq (h : c.HasEight) (hr : 1 ≤ relayId ∧ relayId ≤ 8) :
    c.getAllStates[relayId]? = some (c.relay relayId).state := by
  rw [getAllStates, Std.ExtTreeMap.getElem?_map, getElem?_relayStates h hr]
  rfl

theorem getRelayStatus_eq (h : c.HasEight) (hr : 1 ≤ relayId ∧ relayId ≤ 8) (now : TimePoint) :
    c.getRelayStatus now relayId = some ((c.channel relayId).status relayId now) := by
  rw [getRelayStatus, if_neg (by omega), getElem?_relayStates h hr]
  rfl

theorem relayStates_ext (hc : c.HasEight) (hd : d.HasEight)
    (h : ∀ relayId, 1 ≤ relayId ∧ relayId ≤ 8 → c.relay relayId = d.relay relayId) :
    c.relayStates = d.relayStates := by
  apply Std.ExtTreeMap.ext_getElem?
  intro k
  by_cases hk : 1 ≤ k ∧ k ≤ 8
  · rw [getElem?_relayStates hc hk, getElem?_relayStates hd hk, h k hk]
  · rw [Std.ExtTreeMap.getElem?_eq_none (fun hm => hk ((hc k).mp hm)),
      Std.ExtTreeMap.getElem?_eq_none (fun hm => hk ((hd k).mp hm))]

theorem channel_execute_congr (now : TimePoint) (cmd : Command) (h : c.channel relayId = d.channel relayId) :
    (c.execute hw now cmd).2.channel relayId = (d.execute hw now cmd).2.channel relayId := by
  by_cases he : relayId = cmd.relayId
  · subst he
    by_cases hr : 1 ≤ cmd.relayId ∧ cmd.relayId ≤ 8
    · rw [channel_execute_self hr, channel_execute_self hr, h]
    · rcases execute_cases hw c now cmd with ⟨_,hc⟩ | ⟨hn,_⟩
      · rcases execute_cases hw d now cmd with ⟨_,hd⟩ | ⟨hn,_⟩
        · rw [hc, hd, h]
        · exact absurd hn hr
      · exact absurd hn hr
  · rw [channel_execute_ne he, channel_execute_ne he, h]

theorem channel_execute_comm (hw : Hardware H) (c : BaseRelayController H) (now : TimePoint) {cmd₁ cmd₂ : Command}
    (h : cmd₁.relayId ≠ cmd₂.relayId) (relayId : ℤ) :
    ((c.execute hw now cmd₁).2.execute hw now cmd₂).2.channel relayId =
      ((c.execute hw now cmd₂).2.execute hw now cmd₁).2.channel relayId := by
  by_cases h₁ : relayId = cmd₁.relayId
  · have h₂ : relayId ≠ cmd₂.relayId := fun h₂ => h (h₁.symm.trans h₂)
    rw [channel_execute_ne h₂]
    exact channel_execute_congr now cmd₁ (channel_execute_ne h₂).symm
  · rw [channel_execute_ne h₁]
    exact channel_execute_congr now cmd₂ (channel_execute_ne h₁)

/-- The eight-channel controller refines eight single-channel machines: every run agrees on each
channel with the machine fed the commands addressed to it and all ticks, a command outside 1 to 8
is refused without a change, and commands on different channels at one instant commute. -/
theorem refines_eight_channels (hw : Hardware H) (device : H) (es : List (TimePoint × Event)) :
    let c := es.foldl (handle hw) (construct device)
    (∀ relayId, 1 ≤ relayId ∧ relayId ≤ 8 →
      let ch := (es.filterMap (Channel.select relayId)).foldl Channel.step {}
      c.relayStates[relayId]? = some ch.rs ∧ c.getRelay relayId = some ch.rs.state ∧
        (∀ now, c.getRelayStatus now relayId = some (ch.status relayId now)) ∧
        c.callsOf relayId = ch.calls) ∧
    (∀ now cmd, ¬(1 ≤ cmd.relayId ∧ cmd.relayId ≤ 8) → c.execute hw now cmd = (false,c)) ∧
    (∀ now cmd₁ cmd₂, cmd₁.relayId ≠ cmd₂.relayId →
      let c₁₂ := ((c.execute hw now cmd₁).2.execute hw now cmd₂).2
      let c₂₁ := ((c.execute hw now cmd₂).2.execute hw now cmd₁).2
      c₁₂.relayStates = c₂₁.relayStates ∧ ∀ relayId, c₁₂.callsOf relayId = c₂₁.callsOf relayId) := by
  intro c
  have h : c.HasEight := (construct_hasEight device).run es
  refine ⟨?_,?_,?_⟩
  · intro relayId hr ch
    have hch : c.channel relayId = ch := by
      rw [channel_run (construct_hasEight device) hr es, channel_construct]
    have hrs : c.relay relayId = ch.rs := congrArg Channel.rs hch
    refine ⟨?_,?_,?_,congrArg Channel.calls hch⟩
    · rw [getElem?_relayStates h hr, hrs]
    · rw [getRelay_eq h hr, hrs]
    · intro now
      rw [getRelayStatus_eq h hr, hch]
  · intro now cmd hn
    rcases execute_cases hw c now cmd with ⟨_,he⟩ | ⟨hr,_⟩
    · exact he
    · exact absurd hr hn
  · intro now cmd₁ cmd₂ hne c₁₂ c₂₁
    have hcomm := channel_execute_comm hw c now hne
    exact ⟨relayStates_ext ((h.execute now cmd₁).execute now cmd₂) ((h.execute now cmd₂).execute now cmd₁)
        (fun k _ => congrArg Channel.rs (hcomm k)),
      fun k => congrArg Channel.calls (hcomm k)⟩

end BaseRelayController
end MiniHil
