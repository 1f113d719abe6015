import MiniHil.Core.ChannelRefinement
import MiniHil.Hardware.RelayHardware

/-! # What holds of every reachable controller state

The invariant is stated for one channel, kept by every step of the single-channel machine, and
carried over to the eight channels of the controller by the refinement.
-/
namespace MiniHil
open Runs

/-- The levels alternate, starting with the given one. -/
def Alternates : Bool → List Bool → Prop
  | _, [] => True
  | level, x :: xs => x = level ∧ Alternates (!level) xs

theorem Alternates.concat {level x : Bool} {xs : List Bool} (h : Alternates level xs)
    (hx : x = !(xs.getLast?.getD (!level))) : Alternates level (xs ++ [x]) := by
  induction xs generalizing level with
  | nil => simpa [Alternates] using hx
  | cons y ys ih =>
    obtain ⟨rfl,hys⟩ := h
    refine ⟨rfl,ih hys ?_⟩
    simpa [List.getLast?_cons] using hx

namespace Channel
variable {ch : Channel} {now : TimePoint}

/-- The five fields of a channel and the levels it was driven to fit together at time `now`. -/
structure Valid (now : TimePoint) (ch : Channel) : Prop where
  inactive_iff : ch.rs.active = false ↔ ch.rs.mode = .toggle
  timed_on : ch.rs.active = true → ch.rs.mode = .timer ∨ ch.rs.mode = .pulse → ch.rs.state = true
  blink_phase : ch.rs.active = true → ch.rs.mode = .blink → ch.rs.state = ch.rs.blinkPhase
  started : ch.rs.active = true → ch.rs.startTime ≤ now
  alternates : Alternates true ch.calls
  last_call : ch.rs.state = ch.calls.getLast?.getD false

theorem valid_default (now : TimePoint) : Valid now {} := by
  constructor <;> simp [Alternates]

theorem Valid.mono {later : TimePoint} (h : Valid now ch) (hl : now ≤ later) : Valid later ch :=
  { h with started := fun ha => (h.started ha).trans hl }

theorem Valid.drive_calls (h : Valid now ch) (level : Bool) :
    Alternates true (ch.drive level).calls ∧ level = (ch.drive level).calls.getLast?.getD false := by
  rw [Channel.drive_calls]
  by_cases hs : ch.rs.state = level
  · rw [if_pos hs, ← hs]
    exact ⟨h.alternates,h.last_call⟩
  · rw [if_neg hs]
    refine ⟨h.alternates.concat ?_,by simp⟩
    have hlast := h.last_call
    rw [Bool.not_true, ← hlast]
    cases level <;> simp_all

theorem Valid.command (h : Valid now ch) (cmd : Command) : Valid now (ch.command now cmd) := by
  have hd := (h.drive_calls cmd.level)
  have hcalls : (ch.command now cmd).calls = (ch.drive cmd.level).calls :=
    withState_drive_calls (by cases cmd <;> rfl) cmd.level
  constructor
  case alternates => rw [hcalls]; exact hd.1
  case last_call =>
    rw [hcalls, ← hd.2]
    simp [Channel.command]
  all_goals cases cmd <;> simp [Channel.command, Program, Command.level]

theorem Valid.tick (h : Valid now ch) : Valid now (ch.tick now) := by
  have ht := ticked now ch
  generalize ch.tick now = ch' at ht
  cases ht with
  | idle => exact h
  | timeout he hm =>
    have hd := h.drive_calls false
    exact ⟨by simp [finish],by simp [finish],by simp [finish],by simp [finish],hd.1,by simpa [finish] using hd.2⟩
  | onEnds he hm hp =>
    have hd := h.drive_calls false
    have ha := expired_active he
    exact ⟨by simp [enterPhase,ha,hm],by simp [enterPhase,hm],by simp [enterPhase],by simp [enterPhase],hd.1,
      by simpa [enterPhase] using hd.2⟩
  | lastOffEnds he hm hp hone =>
    exact ⟨by simp [finish],by simp [finish],by simp [finish],by simp [finish],h.alternates,
      by simpa [finish] using h.last_call⟩
  | offEnds he hm hp hone =>
    have hd := h.drive_calls true
    have ha := expired_active he
    have hcalls : ((ch.withState fun rs => { rs with blinkCount := cyclesLeft rs.blinkCount }).drive true).calls =
        (ch.drive true).calls := withState_drive_calls rfl true
    refine ⟨by simp [enterPhase,ha,hm],by simp [enterPhase,hm],by simp [enterPhase],by simp [enterPhase],?_,?_⟩
    · rw [enterPhase, withState_calls, hcalls]
      exact hd.1
    · rw [enterPhase, withState_calls, hcalls, ← hd.2]
      simp

end Channel

namespace BaseRelayController
variable {H : Type*} {hw : Hardware H}

/-- An event at a time not before the current one. -/
def timedStep (hw : Hardware H) (s : TimePoint × BaseRelayController H) (e : TimePoint × Event)
    (t : TimePoint × BaseRelayController H) : Prop :=
  s.1 ≤ e.1 ∧ t = (e.1,s.2.handle hw e)

theorem timedStep_handle {now : TimePoint} {c : BaseRelayController H} {e : TimePoint × Event} (h : now ≤ e.1) :
    timedStep hw (now,c) e (e.1,c.handle hw e) := ⟨h,rfl⟩

/-- The controller states, with the current time, that commands, ticks and queries at
non-decreasing times reach from construction. -/
def Reachable (hw : Hardware H) (device : H) (s : TimePoint × BaseRelayController H) : Prop :=
  ∃ start es, Run (timedStep hw) (start,construct device) es s

def Valid (s : TimePoint × BaseRelayController H) : Prop :=
  s.2.HasEight ∧ ∀ relayId, 1 ≤ relayId ∧ relayId ≤ 8 → (s.2.channel relayId).Valid s.1

theorem valid_construct (start : TimePoint) (device : H) : Valid (start,construct device) := by
  refine ⟨construct_hasEight device,fun relayId _ => ?_⟩
  rw [channel_construct]
  exact Channel.valid_default start

theorem timedStep_valid {s t : TimePoint × BaseRelayController H} {e : TimePoint × Event}
    (hs : Valid s) (he : timedStep hw s e t) : Valid t := by
  obtain ⟨hle,rfl⟩ := he
  refine ⟨hs.1.handle e,fun relayId hr => ?_⟩
  have hv := (hs.2 relayId hr).mono hle
  cases hsel : Channel.select relayId e with
  | none =>
    rw [channel_handle_none hsel]
    exact hv
  | some i =>
    rw [channel_handle_some hs.1 hr hsel]
    rcases e with ⟨now,e⟩
    cases e with
    | command cmd =>
      simp only [Channel.select, Option.ite_none_right_eq_some, Option.some.injEq] at hsel
      obtain ⟨_,rfl⟩ := hsel
      exact hv.command cmd
    | tick =>
      simp only [Channel.select, Option.some.injEq] at hsel
      subst hsel
      exact hv.tick
    | getRelay | getAllStates | getRelayStatus => simp [Channel.select] at hsel

theorem Reachable.valid {device : H} {s : TimePoint × BaseRelayController H} (h : Reachable hw device s) :
    Valid s := by
  obtain ⟨start,es,hr⟩ := h
  exact hr.invariant (fun _ _ _ => timedStep_valid) (valid_construct start device)

/-- Every reachable state has the keys 1 to 8, mode and activity agree, an active timed program
is on, an active blink program follows its phase, no active program starts in the future, and
each output was driven alternately, the reported state being the last level driven. -/
theorem reachable_invariant (hw : Hardware H) (device : H) (now : TimePoint) (c : BaseRelayController H)
    (h : Reachable hw device (now,c)) :
    c.relayStates.keys = [1,2,3,4,5,6,7,8] ∧
    ∀ relayId rs, c.relayStates[relayId]? = some rs →
      (rs.active = false ↔ rs.mode = .toggle) ∧
      (rs.active = true → rs.mode = .timer ∨ rs.mode = .pulse → rs.state = true) ∧
      (rs.active = true → rs.mode = .blink → rs.state = rs.blinkPhase) ∧
      (rs.active = true → rs.startTime ≤ now) ∧
      Alternates true (c.callsOf relayId) ∧
      c.getRelay relayId = some ((c.callsOf relayId).getLast?.getD false) ∧
      c.getAllStates[relayId]? = some ((c.callsOf relayId).getLast?.getD false) := by
  obtain ⟨height,hv⟩ := h.valid
  refine ⟨keys_eq height,fun relayId rs hrs => ?_⟩
  have hr : 1 ≤ relayId ∧ relayId ≤ 8 :=
    (height relayId).mp (Std.ExtTreeMap.mem_iff_isSome_getElem?.mpr (hrs ▸ rfl))
  have heq : c.relay relayId = rs :=
    Option.some.inj ((getElem?_relayStates height hr).symm.trans hrs)
  have hch := hv relayId hr
  have hlast : rs.state = (c.callsOf relayId).getLast?.getD false := heq ▸ hch.last_call
  subst heq
  refine ⟨hch.inactive_iff,hch.timed_on,hch.blink_phase,hch.started,hch.alternates,?_,?_⟩
  · rw [getRelay_eq height hr, hlast]
  · rw [getAllStates_eq height hr, hlast]

/-- A timer started on relay 3 and a tick one nanosecond later. -/
theorem reachable_invariant_timer :
    let c := (((construct ()).handle sil (5,.command (.startTimer 3 10))).handle sil (6,.tick))
    c.relayStates.keys = [1,2,3,4,5,6,7,8] ∧ (c.callsOf 3 = [true] ∧ c.getRelay 3 = some true) := by
  intro c
  have h : Reachable sil () (6,c) :=
    ⟨0,[(5,.command (.startTimer 3 10)),(6,.tick)],
      .step (timedStep_handle (by decide)) (.step (timedStep_handle (by decide)) .refl)⟩
  have hi := reachable_invariant sil () 6 c h
  exact ⟨hi.1,by decide,by decide⟩

end BaseRelayController
end MiniHil
