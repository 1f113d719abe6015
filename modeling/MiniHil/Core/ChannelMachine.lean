import Mathlib.Data.List.Sort
import MiniHil.Core.RelayController
import MiniHil.Foundation.Runs

/-! # One channel on its own

The abstract machine of a single relay: its state and the levels it has driven its output to.
The eight-channel controller is shown to be eight of these side by side: a command reaches the
one machine it addresses, a tick reaches all of them, and nothing else is shared.
-/
namespace MiniHil
open Runs

structure Channel where
  rs : RelayState := {}
  calls : List Bool := []
  deriving DecidableEq, Repr

namespace Channel

def drive (level : Bool) (ch : Channel) : Channel :=
  if ch.rs.state = level then ch
  else { rs := { ch.rs with state := level }, calls := ch.calls ++ [level] }

def withState (ch : Channel) (f : RelayState → RelayState) : Channel := { ch with rs := f ch.rs }

def finish (ch : Channel) : Channel :=
  ch.withState fun rs => { rs with active := false, mode := .toggle }

def enterPhase (now : TimePoint) (phase : Bool) (ch : Channel) : Channel :=
  (ch.drive phase).withState fun rs => { rs with blinkPhase := phase, startTime := now }

def Program (now : TimePoint) : Command → RelayState → RelayState
  | .setRelay _ _, rs => { rs with active := false, mode := .toggle }
  | .startTimer _ seconds, rs =>
    { rs with mode := .timer, active := true, startTime := now, durationMs := seconds.toUInt64 * 1000 }
  | .startPulse _ durationMs, rs =>
    { rs with mode := .pulse, active := true, startTime := now, durationMs := durationMs.toUInt64 }
  | .startBlink _ onMs offMs count, rs =>
    { rs with
      mode := .blink, active := true, blinkOnMs := onMs, blinkOffMs := offMs,
      blinkCount := count, blinkPhase := true, startTime := now }

def command (now : TimePoint) (cmd : Command) (ch : Channel) : Channel :=
  (ch.withState (Program now cmd)).drive cmd.level

def expired (now : TimePoint) (rs : RelayState) : Bool :=
  rs.active && match rs.mode with
    | .toggle => false
    | .timer | .pulse => UInt64.ofInt (elapsedMs now rs.startTime) ≥ rs.durationMs
    | .blink => UInt32.ofInt (elapsedMs now rs.startTime) ≥
        (if rs.blinkPhase then rs.blinkOnMs else rs.blinkOffMs)

def cyclesLeft (count : UInt32) : UInt32 := if count = 0 then 0 else count - 1

def tick (now : TimePoint) (ch : Channel) : Channel :=
  if !expired now ch.rs then ch
  else if ch.rs.mode = .blink then
    if ch.rs.blinkPhase then ch.enterPhase now false
    else
      let counted := ch.withState fun rs => { rs with blinkCount := cyclesLeft rs.blinkCount }
      if ch.rs.blinkCount = 1 then counted.finish else counted.enterPhase now true
  else (ch.drive false).finish

theorem withState_cyclesLeft_zero {ch : Channel} (h : ch.rs.blinkCount = 0) :
    (ch.withState fun rs => { rs with blinkCount := cyclesLeft rs.blinkCount }) = ch := by
  rcases ch with ⟨rs,calls⟩
  rcases rs with ⟨_,_,_,_,_,_,_,count,_⟩
  simp only at h
  subst h
  rfl

def status (relayId : ℤ) (now : TimePoint) (ch : Channel) : String :=
  BaseRelayController.statusText relayId ch.rs now

inductive Input
  | command (cmd : Command)
  | tick
  deriving DecidableEq, Repr

def step (ch : Channel) : TimePoint × Input → Channel
  | (now, .command cmd) => ch.command now cmd
  | (now, .tick) => ch.tick now

def select (relayId : ℤ) : TimePoint × Event → Option (TimePoint × Input)
  | (now, .command cmd) => if cmd.relayId = relayId then some (now, .command cmd) else none
  | (now, .tick) => some (now, .tick)
  | _ => none

variable {ch : Channel} {now : TimePoint}

@[simp] theorem withState_rs (f : RelayState → RelayState) : (ch.withState f).rs = f ch.rs := rfl
@[simp] theorem withState_calls (f : RelayState → RelayState) : (ch.withState f).calls = ch.calls := rfl

@[simp] theorem drive_rs (level : Bool) : (ch.drive level).rs = { ch.rs with state := level } := by
  rcases ch with ⟨rs,calls⟩
  unfold drive
  split_ifs with h
  · rw [← h]
  · rfl

theorem drive_calls (level : Bool) :
    (ch.drive level).calls = if ch.rs.state = level then ch.calls else ch.calls ++ [level] := by
  unfold drive
  split_ifs <;> rfl

theorem withState_drive_calls {f : RelayState → RelayState} (hf : (f ch.rs).state = ch.rs.state) (level : Bool) :
    ((ch.withState f).drive level).calls = (ch.drive level).calls := by
  have hs : (ch.withState f).rs.state = ch.rs.state := hf
  rw [drive_calls, drive_calls, hs, withState_calls]

inductive Ticked (now : TimePoint) (ch : Channel) : Channel → Prop
  | idle : expired now ch.rs = false → Ticked now ch ch
  | timeout : expired now ch.rs = true → ch.rs.mode = .timer ∨ ch.rs.mode = .pulse →
      Ticked now ch (ch.drive false).finish
  | onEnds : expired now ch.rs = true → ch.rs.mode = .blink → ch.rs.blinkPhase = true →
      Ticked now ch (ch.enterPhase now false)
  | lastOffEnds : expired now ch.rs = true → ch.rs.mode = .blink → ch.rs.blinkPhase = false →
      ch.rs.blinkCount = 1 →
      Ticked now ch (ch.withState fun rs => { rs with blinkCount := cyclesLeft rs.blinkCount }).finish
  | offEnds : expired now ch.rs = true → ch.rs.mode = .blink → ch.rs.blinkPhase = false →
      ch.rs.blinkCount ≠ 1 →
      Ticked now ch ((ch.withState fun rs =>
        { rs with blinkCount := cyclesLeft rs.blinkCount }).enterPhase now true)

theorem expired_active (h : expired now ch.rs = true) : ch.rs.active = true := by
  unfold expired at h
  exact (Bool.and_eq_true_iff.mp h).1

theorem expired_mode (h : expired now ch.rs = true) : ch.rs.mode ≠ .toggle := by
  intro hm
  simp [expired, hm] at h

theorem ticked (now : TimePoint) (ch : Channel) : Ticked now ch (ch.tick now) := by
  unfold tick
  cases he : expired now ch.rs with
  | false => exact .idle he
  | true =>
    simp only [Bool.not_true, Bool.false_eq_true, ↓reduceIte]
    cases hm : ch.rs.mode with
    | toggle => exact absurd hm (expired_mode he)
    | timer => exact .timeout he (.inl hm)
    | pulse => exact .timeout he (.inr hm)
    | blink =>
      simp only [↓reduceIte]
      cases hp : ch.rs.blinkPhase with
      | true => exact .onEnds he hm hp
      | false =>
        simp only [Bool.false_eq_true, ↓reduceIte]
        by_cases hone : ch.rs.blinkCount = 1
        · rw [if_pos hone]
          exact .lastOffEnds he hm hp hone
        · rw [if_neg hone]
          exact .offEnds he hm hp hone

end Channel

namespace BaseRelayController
variable {H : Type*} {hw : Hardware H} {c : BaseRelayController H} {relayId other : ℤ}

/-- One channel of the controller, seen as a single-channel machine. -/
def channel (relayId : ℤ) (c : BaseRelayController H) : Channel :=
  ⟨c.relay relayId, c.callsOf relayId⟩

def HasEight (c : BaseRelayController H) : Prop := ∀ relayId, relayId ∈ c.relayStates ↔ 1 ≤ relayId ∧ relayId ≤ 8

theorem relay_modify_self (f : RelayState → RelayState) :
    (c.modify relayId f).relay relayId = f (c.relay relayId) := by
  simp [relay, modify]

theorem relay_modify_ne (h : relayId ≠ other) (f : RelayState → RelayState) :
    (c.modify other f).relay relayId = c.relay relayId := by
  simp [relay, modify, Std.ExtTreeMap.getD_insert, Std.LawfulEqCmp.compare_eq_iff_eq, h.symm]

theorem mem_modify_iff (f : RelayState → RelayState) :
    relayId ∈ (c.modify other f).relayStates ↔ relayId = other ∨ relayId ∈ c.relayStates := by
  rw [modify, Std.ExtTreeMap.mem_insert, Std.LawfulEqCmp.compare_eq_iff_eq, eq_comm]

theorem HasEight.modify (h : c.HasEight) (hr : 1 ≤ relayId ∧ relayId ≤ 8) (f : RelayState → RelayState) :
    (c.modify relayId f).HasEight := by
  intro k
  rw [mem_modify_iff, h k]
  constructor
  · rintro (rfl | hk)
    · exact hr
    · exact hk
  · exact Or.inr

theorem keys_eq (h : c.HasEight) : c.relayStates.keys = [1,2,3,4,5,6,7,8] := by
  have ho : c.relayStates.keys.Pairwise (· < ·) :=
    Std.ExtTreeMap.ordered_keys.imp fun h => Std.compare_eq_lt.mp h
  refine List.Perm.eq_of_pairwise' (r := (· < ·)) ho (by decide) ?_
  rw [List.perm_ext_iff_of_nodup Std.ExtTreeMap.nodup_keys (by decide)]
  intro k
  rw [Std.ExtTreeMap.mem_keys, h k]
  simp only [List.mem_cons, List.not_mem_nil, or_false]
  omega

theorem construct_hasEight (device : H) : (construct device).HasEight := by
  intro k
  simp [construct, Std.ExtTreeMap.mem_insert, Std.LawfulEqCmp.compare_eq_iff_eq]
  omega

theorem relay_eq_channel : c.relay relayId = (c.channel relayId).rs := rfl

theorem channel_modify_self (f : RelayState → RelayState) :
    (c.modify relayId f).channel relayId = (c.channel relayId).withState f := by
  simp only [channel, relay_modify_self, Channel.withState]
  rfl

theorem channel_modify_ne (h : relayId ≠ other) (f : RelayState → RelayState) :
    (c.modify other f).channel relayId = c.channel relayId := by
  simp only [channel, relay_modify_ne h]
  rfl

theorem channel_setRelayPhysical_self (state : Bool) :
    (c.setRelayPhysical hw relayId state).2.channel relayId =
      { c.channel relayId with calls := (c.channel relayId).calls ++ [state] } := by
  simp [setRelayPhysical, channel, callsOf, relay]

theorem channel_setRelayPhysical_ne (h : relayId ≠ other) (state : Bool) :
    (c.setRelayPhysical hw other state).2.channel relayId = c.channel relayId := by
  simp [setRelayPhysical, channel, callsOf, relay, h.symm]

theorem channel_setRelayInternal_self (state : Bool) :
    (c.setRelayInternal hw relayId state).channel relayId = (c.channel relayId).drive state := by
  have hid : (c.modify relayId id).channel relayId = c.channel relayId := channel_modify_self id
  have hrs : (c.modify relayId id).relay relayId = c.relay relayId := relay_modify_self id
  unfold setRelayInternal Channel.drive
  dsimp only
  rw [hrs, relay_eq_channel]
  by_cases hs : (c.channel relayId).rs.state = state
  · rw [if_neg (not_not.mpr hs), if_pos hs, hid]
  · rw [if_pos hs, if_neg hs, channel_setRelayPhysical_self, channel_modify_self, hid]
    rfl

theorem channel_setRelayInternal_ne (h : relayId ≠ other) (state : Bool) :
    (c.setRelayInternal hw other state).channel relayId = c.channel relayId := by
  have hid : (c.modify other id).channel relayId = c.channel relayId := channel_modify_ne h id
  unfold setRelayInternal
  dsimp only
  by_cases hs : ((c.modify other id).relay other).state ≠ state
  · rw [if_pos hs, channel_setRelayPhysical_ne h, channel_modify_ne h, hid]
  · rw [if_neg hs, hid]

theorem HasEight.setRelayPhysical (h : c.HasEight) (state : Bool) :
    (c.setRelayPhysical hw relayId state).2.HasEight := h

theorem HasEight.setRelayInternal (h : c.HasEight) (hr : 1 ≤ relayId ∧ relayId ≤ 8) (state : Bool) :
    (c.setRelayInternal hw relayId state).HasEight := by
  unfold BaseRelayController.setRelayInternal
  dsimp only
  split
  · exact ((h.modify hr id).modify hr _).setRelayPhysical state
  · exact h.modify hr id

/-- A command is refused for a relay outside 1 to 8 and then changes nothing; otherwise it sets
the program fields of its channel and drives the output. -/
theorem execute_cases (hw : Hardware H) (c : BaseRelayController H) (now : TimePoint) (cmd : Command) :
    (¬(1 ≤ cmd.relayId ∧ cmd.relayId ≤ 8) ∧ c.execute hw now cmd = (false,c)) ∨
    ((1 ≤ cmd.relayId ∧ cmd.relayId ≤ 8) ∧ c.execute hw now cmd =
      (true,(c.modify cmd.relayId (Channel.Program now cmd)).setRelayInternal hw cmd.relayId cmd.level)) := by
  by_cases hr : cmd.relayId < 1 ∨ cmd.relayId > 8
  · left
    refine ⟨by omega,?_⟩
    cases cmd <;> exact if_pos hr
  · right
    refine ⟨by omega,?_⟩
    cases cmd <;> exact if_neg hr

theorem channel_execute_self {now : TimePoint} {cmd : Command} (hr : 1 ≤ cmd.relayId ∧ cmd.relayId ≤ 8) :
    (c.execute hw now cmd).2.channel cmd.relayId = (c.channel cmd.relayId).command now cmd := by
  rcases execute_cases hw c now cmd with ⟨hn,_⟩ | ⟨_,he⟩
  · exact absurd hr hn
  · rw [he, channel_setRelayInternal_self, channel_modify_self]
    rfl

theorem channel_execute_ne {now : TimePoint} {cmd : Command} (h : relayId ≠ cmd.relayId) :
    (c.execute hw now cmd).2.channel relayId = c.channel relayId := by
  rcases execute_cases hw c now cmd with ⟨_,he⟩ | ⟨_,he⟩
  · rw [he]
  · rw [he, channel_setRelayInternal_ne h, channel_modify_ne h]

theorem HasEight.execute (h : c.HasEight) (now : TimePoint) (cmd : Command) :
    (c.execute hw now cmd).2.HasEight := by
  rcases execute_cases hw c now cmd with ⟨_,he⟩ | ⟨hr,he⟩
  · rwa [he]
  · rw [he]
    exact (h.modify hr _).setRelayInternal hr _

theorem channel_beginOnPhase_self (now : TimePoint) :
    (c.beginOnPhase hw now relayId).channel relayId = (c.channel relayId).enterPhase now true := by
  rw [beginOnPhase, channel_modify_self, channel_setRelayInternal_self]
  rfl

theorem channel_tickRelay_self (now : TimePoint) :
    (tickRelay hw now c relayId).channel relayId = (c.channel relayId).tick now := by
  unfold tickRelay Channel.tick Channel.expired
  dsimp only
  rw [relay_eq_channel]
  cases hactive : (c.channel relayId).rs.active with
  | false => simp
  | true =>
    cases hmode : (c.channel relayId).rs.mode with
    | toggle => simp
    | timer =>
      by_cases he : UInt64.ofInt (elapsedMs now (c.channel relayId).rs.startTime) ≥ (c.channel relayId).rs.durationMs
      · simp [he, channel_modify_self, channel_setRelayInternal_self, Channel.finish]
      · simp [he]
    | pulse =>
      by_cases he : UInt64.ofInt (elapsedMs now (c.channel relayId).rs.startTime) ≥ (c.channel relayId).rs.durationMs
      · simp [he, channel_modify_self, channel_setRelayInternal_self, Channel.finish]
      · simp [he]
    | blink =>
      cases hphase : (c.channel relayId).rs.blinkPhase with
      | true =>
        by_cases he : UInt32.ofInt (elapsedMs now (c.channel relayId).rs.startTime) ≥ (c.channel relayId).rs.blinkOnMs
        · simp [he, channel_modify_self, channel_setRelayInternal_self, Channel.enterPhase]
        · simp [he]
      | false =>
        by_cases he : UInt32.ofInt (elapsedMs now (c.channel relayId).rs.startTime) ≥ (c.channel relayId).rs.blinkOffMs
        · by_cases hcount : (c.channel relayId).rs.blinkCount = 0
          · have hid : ((c.channel relayId).withState fun rs =>
                { rs with blinkCount := Channel.cyclesLeft rs.blinkCount }) = c.channel relayId :=
              Channel.withState_cyclesLeft_zero hcount
            simp [he, hcount, hid, channel_beginOnPhase_self]
          · have hpos : (c.channel relayId).rs.blinkCount > 0 := UInt32.pos_iff_ne_zero.mpr hcount
            have hleft : Channel.cyclesLeft (c.channel relayId).rs.blinkCount =
              (c.channel relayId).rs.blinkCount - 1 := if_neg hcount
            have hone : (c.channel relayId).rs.blinkCount - 1 = 0 ↔ (c.channel relayId).rs.blinkCount = 1 :=
              UInt32.sub_eq_iff_eq_add
            by_cases hlast : (c.channel relayId).rs.blinkCount = 1
            · simp [he, hlast, relay_eq_channel, channel_modify_self, Channel.finish, Channel.withState,
                Channel.cyclesLeft]
            · simp [he, hpos, hone, hlast, hleft, relay_eq_channel, channel_modify_self,
                channel_beginOnPhase_self, Channel.withState]
        · simp [he]

/-- What the visit of a relay leaves: it drives the output once at most, and what it writes to the state
of the relay besides is not the level. -/
inductive Visit (hw : Hardware H) (relayId : ℤ) (c : BaseRelayController H) : BaseRelayController H → Prop
  | quiet : Visit hw relayId c c
  | driven {f : RelayState → RelayState} (level : Bool) : (∀ rs, (f rs).state = rs.state) →
      Visit hw relayId c ((c.setRelayInternal hw relayId level).modify relayId f)
  | lastCycle {count f : RelayState → RelayState} : (∀ rs, (count rs).state = rs.state) → (∀ rs, (f rs).state = rs.state) →
      Visit hw relayId c ((c.modify relayId count).modify relayId f)
  | nextCycle {count f : RelayState → RelayState} (level : Bool) : (∀ rs, (count rs).state = rs.state) →
      (∀ rs, (f rs).state = rs.state) →
      Visit hw relayId c (((c.modify relayId count).setRelayInternal hw relayId level).modify relayId f)

theorem visit (hw : Hardware H) (c : BaseRelayController H) (relayId : ℤ) (now : TimePoint) :
    Visit hw relayId c (tickRelay hw now c relayId) := by
  unfold tickRelay beginOnPhase
  dsimp only
  split_ifs
  · exact .quiet
  · exact .driven false fun _ => rfl
  · exact .quiet
  · exact .driven false fun _ => rfl
  · exact .quiet
  · exact .lastCycle (fun _ => rfl) fun _ => rfl
  · exact .nextCycle true (fun _ => rfl) fun _ => rfl
  · exact .driven true fun _ => rfl
  · exact .quiet
  · exact .quiet

theorem channel_tickRelay_ne (h : relayId ≠ other) (now : TimePoint) :
    (tickRelay hw now c other).channel relayId = c.channel relayId := by
  have hvisit := visit hw c other now
  generalize tickRelay hw now c other = c' at hvisit ⊢
  cases hvisit with
  | quiet => rfl
  | driven => rw [channel_modify_ne h, channel_setRelayInternal_ne h]
  | lastCycle => rw [channel_modify_ne h, channel_modify_ne h]
  | nextCycle => rw [channel_modify_ne h, channel_setRelayInternal_ne h, channel_modify_ne h]

theorem HasEight.tickRelay (h : c.HasEight) (hr : 1 ≤ relayId ∧ relayId ≤ 8) (now : TimePoint) :
    (tickRelay hw now c relayId).HasEight := by
  have hvisit := visit hw c relayId now
  generalize BaseRelayController.tickRelay hw now c relayId = c' at hvisit ⊢
  cases hvisit with
  | quiet => exact h
  | driven level => exact (h.setRelayInternal hr level).modify hr _
  | lastCycle => exact (h.modify hr _).modify hr _
  | nextCycle level => exact ((h.modify hr _).setRelayInternal hr level).modify hr _

end BaseRelayController
end MiniHil
