import MiniHil.Core.RelayInvariant

/-! # The last command wins completely

A two-run simulation. Commands overwrite only some of the program fields, so two channels are
compared on the fields that their mode reads; a stale field never becomes readable again.
-/
namespace MiniHil
open Runs

namespace Channel
variable {ch₁ ch₂ : Channel} {base₁ base₂ : List Bool} {rs₁ rs₂ : RelayState}

structure Same (rs₁ rs₂ : RelayState) : Prop where
  mode : rs₁.mode = rs₂.mode
  active : rs₁.active = rs₂.active
  state : rs₁.state = rs₂.state
  startTime : rs₁.active = true → rs₁.startTime = rs₂.startTime
  durationMs : rs₁.active = true → rs₁.mode = .timer ∨ rs₁.mode = .pulse → rs₁.durationMs = rs₂.durationMs
  blink : rs₁.active = true → rs₁.mode = .blink →
    rs₁.blinkOnMs = rs₂.blinkOnMs ∧ rs₁.blinkOffMs = rs₂.blinkOffMs ∧
    rs₁.blinkCount = rs₂.blinkCount ∧ rs₁.blinkPhase = rs₂.blinkPhase

theorem same_command (now : TimePoint) (cmd : Command) (ch₁ ch₂ : Channel) :
    Same (ch₁.command now cmd).rs (ch₂.command now cmd).rs := by
  cases cmd <;> constructor <;> simp [command, Program]

theorem Same.expired (h : Same rs₁ rs₂) (now : TimePoint) : expired now rs₁ = expired now rs₂ := by
  unfold Channel.expired
  rw [← h.active, ← h.mode]
  cases ha : rs₁.active with
  | false => rfl
  | true =>
    rw [← h.startTime ha]
    cases hm : rs₁.mode with
    | toggle => rfl
    | timer => rw [h.durationMs ha (.inl hm)]
    | pulse => rw [h.durationMs ha (.inr hm)]
    | blink =>
      obtain ⟨hon,hoff,_,hphase⟩ := h.blink ha hm
      simp only [hon, hoff, hphase]

theorem Same.statusText (h : Same rs₁ rs₂) (relayId : ℤ) (now : TimePoint) :
    BaseRelayController.statusText relayId rs₁ now = BaseRelayController.statusText relayId rs₂ now := by
  unfold BaseRelayController.statusText BaseRelayController.remainingMs
  rw [← h.state, ← h.active, ← h.mode]
  cases ha : rs₁.active with
  | false => rfl
  | true =>
    rw [← h.startTime ha]
    cases hm : rs₁.mode with
    | toggle => rfl
    | timer => rw [h.durationMs ha (.inl hm)]
    | pulse => rw [h.durationMs ha (.inr hm)]
    | blink =>
      obtain ⟨_,_,hcount,hphase⟩ := h.blink ha hm
      simp only [hcount, hphase]

/-- Two channels that agree on what can be read and have made the same calls since their bases. -/
def Related (base₁ base₂ : List Bool) (ch₁ ch₂ : Channel) : Prop :=
  Same ch₁.rs ch₂.rs ∧ ∃ since, ch₁.calls = base₁ ++ since ∧ ch₂.calls = base₂ ++ since

theorem Related.withState (h : Related base₁ base₂ ch₁ ch₂) {f : RelayState → RelayState}
    (hf : Same (f ch₁.rs) (f ch₂.rs)) : Related base₁ base₂ (ch₁.withState f) (ch₂.withState f) :=
  ⟨hf,h.2⟩

theorem Related.drive (h : Related base₁ base₂ ch₁ ch₂) (level : Bool) :
    Related base₁ base₂ (ch₁.drive level) (ch₂.drive level) := by
  obtain ⟨hs,since,h₁,h₂⟩ := h
  refine ⟨?_,?_⟩
  · rw [drive_rs, drive_rs]
    exact { hs with state := rfl }
  · rw [drive_calls, drive_calls, ← hs.state]
    by_cases hl : ch₁.rs.state = level
    · rw [if_pos hl, if_pos hl]
      exact ⟨since,h₁,h₂⟩
    · rw [if_neg hl, if_neg hl]
      exact ⟨since ++ [level],by rw [h₁, List.append_assoc],by rw [h₂, List.append_assoc]⟩

theorem Related.finish (h : Related base₁ base₂ ch₁ ch₂) : Related base₁ base₂ ch₁.finish ch₂.finish :=
  h.withState ⟨rfl,rfl,h.1.state,by simp,by simp,by simp⟩

theorem Related.enterPhase (h : Related base₁ base₂ ch₁ ch₂) (now : TimePoint) (phase : Bool) :
    Related base₁ base₂ (ch₁.enterPhase now phase) (ch₂.enterPhase now phase) := by
  have hd := h.drive phase
  refine hd.withState ⟨hd.1.mode,hd.1.active,hd.1.state,fun _ => rfl,hd.1.durationMs,?_⟩
  intro ha hm
  obtain ⟨hon,hoff,hcount,_⟩ := hd.1.blink ha hm
  exact ⟨hon,hoff,hcount,rfl⟩

theorem Related.command (h : Related base₁ base₂ ch₁ ch₂) (now : TimePoint) (cmd : Command) :
    Related base₁ base₂ (ch₁.command now cmd) (ch₂.command now cmd) := by
  refine Related.drive (h.withState ?_) cmd.level
  have hs := h.1.state
  cases cmd <;> constructor <;> simp [Program, hs]

theorem Related.tick (h : Related base₁ base₂ ch₁ ch₂) (now : TimePoint) :
    Related base₁ base₂ (ch₁.tick now) (ch₂.tick now) := by
  have hs := h.1
  unfold Channel.tick
  rw [← hs.expired now, ← hs.mode]
  cases he : Channel.expired now ch₁.rs with
  | false => exact h
  | true =>
    have ha := expired_active he
    by_cases hm : ch₁.rs.mode = .blink
    · obtain ⟨hon,hoff,hcount,hphase⟩ := hs.blink ha hm
      have hleft : Related base₁ base₂
          (ch₁.withState fun rs => { rs with blinkCount := cyclesLeft rs.blinkCount })
          (ch₂.withState fun rs => { rs with blinkCount := cyclesLeft rs.blinkCount }) :=
        h.withState { hs with blink := fun _ _ => ⟨hon,hoff,congrArg cyclesLeft hcount,hphase⟩ }
      simp only [hm, ← hphase, ← hcount, Bool.not_true, Bool.false_eq_true, ↓reduceIte]
      split_ifs
      · exact h.enterPhase now false
      · exact hleft.finish
      · exact hleft.enterPhase now true
    · simp only [hm, Bool.not_true, Bool.false_eq_true, ↓reduceIte]
      exact (h.drive false).finish

theorem Related.step (h : Related base₁ base₂ ch₁ ch₂) (i : TimePoint × Input) :
    Related base₁ base₂ (ch₁.step i) (ch₂.step i) := by
  rcases i with ⟨now,i⟩
  cases i with
  | command cmd => exact h.command now cmd
  | tick => exact h.tick now

end Channel

namespace BaseRelayController
variable {H₁ H₂ : Type*}

/-- After the same command at the same time, two controllers in any two reachable states, on any
hardware, report the same about that channel and drive it the same way under every common
continuation of commands, ticks and queries. -/
theorem last_command_wins (hw₁ : Hardware H₁) (hw₂ : Hardware H₂) (device₁ : H₁) (device₂ : H₂)
    (s₁ : TimePoint × BaseRelayController H₁) (s₂ : TimePoint × BaseRelayController H₂)
    (h₁ : Reachable hw₁ device₁ s₁) (h₂ : Reachable hw₂ device₂ s₂) (now : TimePoint) (cmd : Command)
    (hr : 1 ≤ cmd.relayId ∧ cmd.relayId ≤ 8) (es : List (TimePoint × Event)) (later : TimePoint) :
    let a₁ := (s₁.2.execute hw₁ now cmd).2
    let a₂ := (s₂.2.execute hw₂ now cmd).2
    let c₁ := es.foldl (handle hw₁) a₁
    let c₂ := es.foldl (handle hw₂) a₂
    c₁.getRelay cmd.relayId = c₂.getRelay cmd.relayId ∧
    c₁.getAllStates[cmd.relayId]? = c₂.getAllStates[cmd.relayId]? ∧
    c₁.getRelayStatus later cmd.relayId = c₂.getRelayStatus later cmd.relayId ∧
    ∃ since, c₁.callsOf cmd.relayId = a₁.callsOf cmd.relayId ++ since ∧
      c₂.callsOf cmd.relayId = a₂.callsOf cmd.relayId ++ since := by
  intro a₁ a₂ c₁ c₂
  have ha₁ : a₁.HasEight := h₁.valid.1.execute now cmd
  have ha₂ : a₂.HasEight := h₂.valid.1.execute now cmd
  have hc₁ : c₁.HasEight := ha₁.run es
  have hc₂ : c₂.HasEight := ha₂.run es
  have hstart : Channel.Related (a₁.callsOf cmd.relayId) (a₂.callsOf cmd.relayId)
      (a₁.channel cmd.relayId) (a₂.channel cmd.relayId) := by
    refine ⟨?_,[],(List.append_nil _).symm,(List.append_nil _).symm⟩
    rw [channel_execute_self hr, channel_execute_self hr]
    exact Channel.same_command now cmd _ _
  have hend : Channel.Related (a₁.callsOf cmd.relayId) (a₂.callsOf cmd.relayId)
      (c₁.channel cmd.relayId) (c₂.channel cmd.relayId) := by
    rw [channel_run ha₁ hr, channel_run ha₂ hr]
    exact foldl_simulation (fun _ _ i h => h.step i) _ hstart
  obtain ⟨hs,since⟩ := hend
  refine ⟨?_,?_,?_,since⟩
  · rw [getRelay_eq hc₁ hr, getRelay_eq hc₂ hr]
    exact congrArg some hs.state
  · rw [getAllStates_eq hc₁ hr, getAllStates_eq hc₂ hr]
    exact congrArg some hs.state
  · rw [getRelayStatus_eq hc₁ hr, getRelayStatus_eq hc₂ hr]
    exact congrArg some (hs.statusText cmd.relayId later)

/-- A timer after a blink program on one side and after nothing on the other. -/
theorem last_command_wins_timer :
    let s₁ := (construct ()).handle sil (3,.command (.startBlink 2 7 7 7))
    let cmd := Command.startTimer 2 1
    let a₁ := (s₁.execute sil 5 cmd).2
    let a₂ := ((construct ()).execute sil 5 cmd).2
    ([(2000000000,.tick)].foldl (handle sil) a₁).getRelay cmd.relayId =
      ([(2000000000,.tick)].foldl (handle sil) a₂).getRelay cmd.relayId := by
  intro s₁ cmd a₁ a₂
  have h₁ : Reachable sil () (3,s₁) :=
    ⟨0,[(3,.command (.startBlink 2 7 7 7))],.single (timedStep_handle (by decide))⟩
  have h₂ : Reachable sil () (0,construct ()) := ⟨0,[],.refl⟩
  exact (last_command_wins sil sil () () (3,s₁) (0,construct ()) h₁ h₂ 5 cmd (by decide) [(2000000000,.tick)] 0).1

end BaseRelayController
end MiniHil
