import MiniHil.Core.TickRuns

/-! # Timer and pulse programs

From the command that starts it to the tick that ends it: the channel is on, the remaining time is
what is left of the duration, and the one tick that finds nothing left writes the output once.
-/
namespace MiniHil
open Runs

/-- How long the program that a command starts keeps its channel on, in milliseconds. -/
def Command.onTime : Command → Option ℕ
  | .startTimer _ seconds => some (1000 * seconds.toNat)
  | .startPulse _ durationMs => some durationMs.toNat
  | .setRelay _ _ | .startBlink _ _ _ _ => none

def Command.remainingText (remaining : ℕ) : Command → String
  | .startTimer relayId _ =>
    "Channel " ++ toString relayId ++ ": " ++ "ON" ++ " (Timer, rem: " ++ toString (remaining / 1000) ++ "s)"
  | .startPulse relayId _ =>
    "Channel " ++ toString relayId ++ ": " ++ "ON" ++ " (Pulse, rem: " ++ toString remaining ++ "ms)"
  | .setRelay _ _ | .startBlink _ _ _ _ => ""

namespace Channel
variable {ch : Channel} {cmd : Command} {start now later : TimePoint} {onTime : ℕ} {ticks : List TimePoint}

structure Timed (start : TimePoint) (onTime : ℕ) (ch : Channel) : Prop where
  active : ch.rs.active = true
  mode : ch.rs.mode = .timer ∨ ch.rs.mode = .pulse
  on : ch.rs.state = true
  startTime : ch.rs.startTime = start
  durationMs : ch.rs.durationMs.toNat = onTime

theorem timed_command (ch : Channel) (now : TimePoint) (h : cmd.onTime = some onTime) :
    Timed now onTime (ch.command now cmd) := by
  cases cmd with
  | startTimer relayId seconds =>
    obtain rfl := Option.some.inj h
    refine ⟨by simp [command, Program],by simp [command, Program],by simp [command, Command.level],
      by simp [command, Program],?_⟩
    have hlt := seconds.toNat_lt
    simp only [command, Program, drive_rs, withState_rs, UInt64.toNat_mul, UInt32.toNat_toUInt64]
    change seconds.toNat * 1000 % 2 ^ 64 = 1000 * seconds.toNat
    omega
  | startPulse relayId durationMs =>
    obtain rfl := Option.some.inj h
    constructor <;> simp [command, Program, Command.level]
  | setRelay | startBlink => cases h

theorem Timed.expired_iff (h : Timed start onTime ch) (hle : start ≤ now) :
    expired now ch.rs = true ↔ (onTime : ℤ) ≤ elapsedMs now start := by
  have hcast := toNat_elapsedMs_uint64 hle
  have hd := h.durationMs
  have hiff : UInt64.ofInt (elapsedMs now start) ≥ ch.rs.durationMs ↔ (onTime : ℤ) ≤ elapsedMs now start := by
    rw [ge_iff_le, UInt64.le_iff_toNat_le]
    omega
  rcases h.mode with hm | hm <;> simp [expired, h.active, hm, h.startTime, hiff]

theorem Timed.remainingMs (h : Timed start onTime ch) (hle : start ≤ now) :
    ((BaseRelayController.remainingMs ch.rs now).toNat : ℤ) = max ((onTime : ℤ) - elapsedMs now start) 0 := by
  have hcast := toNat_elapsedMs_uint64 hle
  have hd := h.durationMs
  unfold BaseRelayController.remainingMs
  dsimp only
  rw [h.startTime]
  split_ifs with hgt
  · have hlt := UInt64.lt_iff_toNat_lt.mp hgt
    rw [UInt64.toNat_sub_of_le _ _ (UInt64.le_of_lt hgt)]
    omega
  · rw [gt_iff_lt, UInt64.lt_iff_toNat_lt] at hgt
    rw [UInt64.toNat_zero]
    omega

theorem Timed.remainingMs_eq_zero_iff (h : Timed start onTime ch) (hle : start ≤ now) :
    BaseRelayController.remainingMs ch.rs now = 0 ↔ (onTime : ℤ) ≤ elapsedMs now start := by
  have hrem := h.remainingMs hle
  rw [← UInt64.toNat_inj, UInt64.toNat_zero]
  omega

theorem Timed.remainingMs_mono (h : Timed start onTime ch) (hle : start ≤ now) (hl : now ≤ later) :
    BaseRelayController.remainingMs ch.rs later ≤ BaseRelayController.remainingMs ch.rs now := by
  have hnow := h.remainingMs hle
  have hlater := h.remainingMs (hle.trans hl)
  have hmono := elapsedMs_mono hle hl
  rw [UInt64.le_iff_toNat_le]
  omega

theorem Timed.tick_of_lt (h : Timed start onTime ch) (hle : start ≤ now) (hlt : elapsedMs now start < onTime) :
    ch.tick now = ch := by
  have hrun : expired now ch.rs = false := by
    rw [Bool.eq_false_iff, Ne, h.expired_iff hle]
    omega
  simp [Channel.tick, hrun]

theorem Timed.tick_of_le (h : Timed start onTime ch) (hle : start ≤ now) (hdue : (onTime : ℤ) ≤ elapsedMs now start) :
    ch.tick now = (ch.drive false).finish := by
  have hexp := (h.expired_iff hle).mpr hdue
  rcases h.mode with hm | hm <;> simp [Channel.tick, hexp, hm]

theorem Timed.tick_active_iff (h : Timed start onTime ch) (hle : start ≤ now) :
    (ch.tick now).rs.active = false ↔ (onTime : ℤ) ≤ elapsedMs now start := by
  rcases lt_or_ge (elapsedMs now start) (onTime : ℤ) with hlt | hge
  · rw [h.tick_of_lt hle hlt, h.active]
    exact iff_of_false nofun (Int.not_le.mpr hlt)
  · rw [h.tick_of_le hle hge]
    exact iff_of_true rfl hge

theorem tick_of_inactive (h : ch.rs.active = false) (now : TimePoint) : ch.tick now = ch := by
  simp [Channel.tick, expired, h]

theorem ticks_of_inactive (ch : Channel) (h : ch.rs.active = false) (ticks : List TimePoint) :
    ticks.foldl (fun ch now => ch.tick now) ch = ch := by
  induction ticks with
  | nil => rfl
  | cons now ticks ih => rw [List.foldl_cons, tick_of_inactive h, ih]

theorem Timed.ticks_of_lt (h : Timed start onTime ch) (hle : ∀ now ∈ ticks, start ≤ now)
    (hlt : ∀ now ∈ ticks, elapsedMs now start < onTime) : ticks.foldl (fun ch now => ch.tick now) ch = ch := by
  induction ticks with
  | nil => rfl
  | cons now ticks ih =>
    rw [List.foldl_cons, h.tick_of_lt (hle now List.mem_cons_self) (hlt now List.mem_cons_self)]
    exact ih (fun t ht => hle t (List.mem_cons_of_mem _ ht)) (fun t ht => hlt t (List.mem_cons_of_mem _ ht))

theorem Timed.ticks_of_le (h : Timed start onTime ch) (hle : ∀ now ∈ ticks, start ≤ now)
    (hdue : ∃ now ∈ ticks, (onTime : ℤ) ≤ elapsedMs now start) :
    ticks.foldl (fun ch now => ch.tick now) ch = (ch.drive false).finish := by
  induction ticks with
  | nil =>
    obtain ⟨now,hmem,_⟩ := hdue
    cases hmem
  | cons now ticks ih =>
    have hnow := hle now List.mem_cons_self
    rw [List.foldl_cons]
    rcases lt_or_ge (elapsedMs now start) (onTime : ℤ) with hlt | hge
    · rw [h.tick_of_lt hnow hlt]
      apply ih (fun t ht => hle t (List.mem_cons_of_mem _ ht))
      obtain ⟨t,ht,hd⟩ := hdue
      rcases List.mem_cons.mp ht with rfl | ht
      · omega
      · exact ⟨t,ht,hd⟩
    · rw [h.tick_of_le hnow hge]
      exact ticks_of_inactive _ rfl ticks

theorem Timed.finish_calls (h : Timed start onTime ch) : (ch.drive false).finish.calls = ch.calls ++ [false] := by
  rw [finish, withState_calls, drive_calls, if_neg (by simp [h.on])]

theorem finish_off (ch : Channel) : (ch.drive false).finish.rs.state = false := by
  rw [finish, withState_rs, drive_rs]

theorem Timed.status (h : Timed now onTime (ch.command now cmd)) (hcmd : cmd.onTime = some onTime) (query : TimePoint) :
    (ch.command now cmd).status cmd.relayId query =
      cmd.remainingText (BaseRelayController.remainingMs (ch.command now cmd).rs query).toNat := by
  have hon := h.on
  have ha := h.active
  cases cmd with
  | startTimer =>
    have hm : (ch.command now (.startTimer ‹_› ‹_›)).rs.mode = .timer := by simp [command, Program]
    simp only [Channel.status, BaseRelayController.statusText, hon, ha, hm, Bool.not_true, Bool.false_eq_true, ↓reduceIte]
    rfl
  | startPulse =>
    have hm : (ch.command now (.startPulse ‹_› ‹_›)).rs.mode = .pulse := by simp [command, Program]
    simp only [Channel.status, BaseRelayController.statusText, hon, ha, hm, Bool.not_true, Bool.false_eq_true, ↓reduceIte]
    rfl
  | setRelay | startBlink => cases hcmd

end Channel

namespace BaseRelayController
variable {H : Type*}

/-- A timer or pulse program started at any time in any reachable state, under any later ticks, queries
and commands for other channels. Up to the first tick that finds its duration over, the channel is on
and active, and a query reads what is left of the duration: never more than an earlier query did, and
nothing exactly when a tick at that instant would switch the channel off, which it does with one write.
After that tick the channel is off in toggle mode and no tick writes to it. -/
theorem timed_program (hw : Hardware H) (device : H) (now : TimePoint) (c : BaseRelayController H)
    (h : Reachable hw device (now,c)) (start : TimePoint) (cmd : Command) (onTime : ℕ)
    (hcmd : cmd.onTime = some onTime) (hr : 1 ≤ cmd.relayId ∧ cmd.relayId ≤ 8) (es : List (TimePoint × Event))
    (later : TimePoint) (c' : BaseRelayController H)
    (hrun : Run (timedStep hw) (start,(c.execute hw start cmd).2) es (later,c'))
    (hes : NoCommandFor cmd.relayId es) :
    let started := (c.execute hw start cmd).2
    let rs := c'.relay cmd.relayId
    ((∀ tick ∈ tickTimes es, elapsedMs tick start < onTime) →
      rs.active = true ∧ rs.state = true ∧ c'.callsOf cmd.relayId = started.callsOf cmd.relayId ∧
      ∀ query, start ≤ query →
        let off := c'.tick hw query
        ((remainingMs rs query).toNat : ℤ) = max (onTime - elapsedMs query start) 0 ∧
        c'.getRelayStatus query cmd.relayId = some (cmd.remainingText (remainingMs rs query).toNat) ∧
        (∀ pre post earlier, es = pre ++ post → start ≤ earlier → earlier ≤ query →
          remainingMs rs query ≤ remainingMs ((pre.foldl (handle hw) started).relay cmd.relayId) earlier) ∧
        (remainingMs rs query = 0 ↔ (off.relay cmd.relayId).active = false) ∧
        (remainingMs rs query = 0 → off.callsOf cmd.relayId = c'.callsOf cmd.relayId ++ [false] ∧
          (off.relay cmd.relayId).state = false ∧ (off.relay cmd.relayId).mode = .toggle)) ∧
    ((∃ tick ∈ tickTimes es, (onTime : ℤ) ≤ elapsedMs tick start) →
      rs.active = false ∧ rs.mode = .toggle ∧ rs.state = false ∧
      c'.callsOf cmd.relayId = started.callsOf cmd.relayId ++ [false]) := by
  intro started rs
  have height : c.HasEight := h.valid.1
  have hstarted : started.HasEight := height.execute start cmd
  have hch : started.channel cmd.relayId = (c.channel cmd.relayId).command start cmd := channel_execute_self hr
  have htimed : Channel.Timed start onTime (started.channel cmd.relayId) := by
    rw [hch]
    exact Channel.timed_command _ start hcmd
  obtain ⟨hchain,hlast⟩ := timedRun_sorted hrun
  have hsorted : ∀ tick ∈ tickTimes es, start ≤ tick := by
    rw [List.isChain_iff_pairwise, List.pairwise_cons] at hchain
    exact hchain.1
  have hc' : c'.HasEight := by
    rw [timedRun_eq hrun]
    exact hstarted.run es
  have hticks : c'.channel cmd.relayId =
      (tickTimes es).foldl (fun ch now => ch.tick now) (started.channel cmd.relayId) := by
    rw [timedRun_eq hrun]
    exact channel_run_ticks hstarted hr hes
  refine ⟨?_,?_⟩
  · intro hlt
    have hsame : c'.channel cmd.relayId = started.channel cmd.relayId := by
      rw [hticks]
      exact htimed.ticks_of_lt hsorted hlt
    have hrs : rs = (started.channel cmd.relayId).rs := congrArg Channel.rs hsame
    refine ⟨by rw [hrs]; exact htimed.active,by rw [hrs]; exact htimed.on,congrArg Channel.calls hsame,?_⟩
    intro query hquery off
    have hoff : off.channel cmd.relayId = (started.channel cmd.relayId).tick query := by
      rw [channel_tick hc' hr, hsame]
    have hzero : remainingMs rs query = 0 ↔ (onTime : ℤ) ≤ elapsedMs query start := by
      rw [hrs]
      exact htimed.remainingMs_eq_zero_iff hquery
    refine ⟨by rw [hrs]; exact htimed.remainingMs hquery,?_,?_,?_,?_⟩
    · rw [getRelayStatus_eq hc' hr, hrs, hsame, hch]
      exact congrArg some ((Channel.timed_command _ start hcmd).status hcmd query)
    · -- both queries read the channel as the command left it
      intro pre post earlier hes' hearlier hle
      have hpre : (pre.foldl (handle hw) started).channel cmd.relayId = started.channel cmd.relayId := by
        have hsub : ∀ tick ∈ tickTimes pre, tick ∈ tickTimes es := by
          intro tick htick
          rw [hes', tickTimes, List.filterMap_append]
          exact List.mem_append_left _ htick
        rw [channel_run_ticks hstarted hr fun e he => hes e (hes' ▸ List.mem_append_left _ he)]
        exact htimed.ticks_of_lt (fun t ht => hsorted t (hsub t ht)) (fun t ht => hlt t (hsub t ht))
      have hrs' : (pre.foldl (handle hw) started).relay cmd.relayId = (started.channel cmd.relayId).rs :=
        congrArg Channel.rs hpre
      rw [hrs, hrs']
      exact htimed.remainingMs_mono hearlier hle
    · rw [hzero, relay_eq_channel, hoff]
      exact (htimed.tick_active_iff hquery).symm
    · intro hz
      have hcalls := congrArg Channel.calls hsame
      rw [htimed.tick_of_le hquery (hzero.mp hz)] at hoff
      rw [relay_eq_channel, hoff]
      refine ⟨?_,Channel.finish_off _,rfl⟩
      calc off.callsOf cmd.relayId = ((started.channel cmd.relayId).drive false).finish.calls := congrArg Channel.calls hoff
        _ = (started.channel cmd.relayId).calls ++ [false] := htimed.finish_calls
        _ = c'.callsOf cmd.relayId ++ [false] := congrArg (· ++ [false]) hcalls.symm
  · intro hdue
    have hend : c'.channel cmd.relayId = ((started.channel cmd.relayId).drive false).finish := by
      rw [hticks]
      exact htimed.ticks_of_le hsorted hdue
    have hrs : rs = (((started.channel cmd.relayId).drive false).finish).rs := congrArg Channel.rs hend
    rw [hrs]
    exact ⟨rfl,rfl,Channel.finish_off _,(congrArg Channel.calls hend).trans htimed.finish_calls⟩

/-- A pulse of 3 ms on relay 2, a tick after 1 ms and one after 4 ms. -/
theorem timed_program_pulse :
    let started := ((construct ()).execute sil 7 (.startPulse 2 3)).2
    let c' := (started.handle sil (1000007,.tick)).handle sil (4000007,.tick)
    (c'.relay 2).active = false ∧ (c'.relay 2).mode = .toggle ∧ (c'.relay 2).state = false ∧
      c'.callsOf 2 = started.callsOf 2 ++ [false] := by
  intro started c'
  have hrun : Run (timedStep sil) (7,started) [(1000007,.tick),(4000007,.tick)] (4000007,c') :=
    .step (timedStep_handle (by decide)) (.single (timedStep_handle (by decide)))
  refine (timed_program sil () 0 _ ⟨0,[],.refl⟩ 7 (.startPulse 2 3) 3 rfl (by decide) _ _ c' hrun ?_).2
    ⟨4000007,by decide,by decide⟩
  intro e he cmd hcmd
  simp only [List.mem_cons, List.not_mem_nil, or_false] at he
  rcases he with rfl | rfl <;> cases hcmd

end BaseRelayController
end MiniHil
