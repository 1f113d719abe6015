import MiniHil.Core.TimedPrograms

/-! # Blink programs

The phases of a channel are what an observer sees of it: they end when the level changes or the
program does. A blink program of `n` cycles goes through `n` ON and `n` OFF phases, in turn and
none of them cut short, and the count it reports is the number of cycles still to complete.
-/
namespace MiniHil
open Runs

structure LevelPhase where
  level : Bool
  began : TimePoint
  ended : TimePoint
  deriving DecidableEq, Repr

structure PhaseLog where
  began : TimePoint
  completed : List LevelPhase := []
  deriving DecidableEq, Repr

/-- The current phase ends with a step: the level changes, or the program is over. -/
def PhaseEnds (rs rs' : RelayState) : Prop :=
  rs.active = true ∧ (rs'.active = false ∨ rs'.state ≠ rs.state)

instance (rs rs' : RelayState) : Decidable (PhaseEnds rs rs') := inferInstanceAs (Decidable (_ ∧ _))

def PhaseLog.observe (now : TimePoint) (rs rs' : RelayState) (log : PhaseLog) : PhaseLog :=
  if PhaseEnds rs rs' then { began := now, completed := log.completed ++ [⟨rs.state,log.began,now⟩] } else log

def PhaseLog.levels (log : PhaseLog) : List Bool := log.completed.map LevelPhase.level

def cycleLevels : ℕ → List Bool
  | 0 => []
  | cycles + 1 => cycleLevels cycles ++ [true,false]

def blinkText (relayId : ℤ) (level : Bool) (count : ℕ) : String :=
  "Channel " ++ toString relayId ++ ": " ++ (if level then "ON" else "OFF") ++ " (Blink, count: " ++ toString count ++
    ", phase: " ++ (if level then "ON" else "OFF") ++ ")"

theorem PhaseLog.observe_self (now : TimePoint) (rs : RelayState) (log : PhaseLog) : log.observe now rs rs = log := by
  apply if_neg
  rintro ⟨ha,hi | hs⟩
  · rw [ha] at hi
    cases hi
  · exact hs rfl

section Levels

theorem cycleLevels_getLast? (cycles : ℕ) : (cycleLevels cycles).getLast?.getD false = false := by
  cases cycles with
  | zero => rfl
  | succ cycles => simp [cycleLevels]

theorem cycleLevels_alternates (cycles : ℕ) : Alternates true (cycleLevels cycles) := by
  induction cycles with
  | zero => exact trivial
  | succ cycles ih =>
    have hon : Alternates true (cycleLevels cycles ++ [true]) := by
      apply ih.concat
      rw [Bool.not_true, cycleLevels_getLast?, Bool.not_false]
    have hoff := hon.concat (x := false) (by simp)
    rwa [List.append_assoc] at hoff

theorem cycleLevels_count (cycles : ℕ) (level : Bool) : (cycleLevels cycles).count level = cycles := by
  induction cycles with
  | zero => rfl
  | succ cycles ih => cases level <;> simp [cycleLevels, ih]

end Levels

namespace Channel
variable {ch : Channel} {log : PhaseLog} {onMs offMs count : UInt32} {now later : TimePoint}

/-- How many cycles a program of `count` cycles has left; a program without a count never runs out. -/
structure CyclesLeft (count : UInt32) (cycles : ℕ) (left : UInt32) : Prop where
  left_eq : left.toNat = count.toNat - cycles
  running : count ≠ 0 → cycles < count.toNat

/-- A blink program as its observer sees it: whole cycles and perhaps one more ON phase are over, or
all cycles are. -/
inductive Blinks (onMs offMs count : UInt32) (log : PhaseLog) (rs : RelayState) : Prop
  | running (cycles : ℕ) : log.levels = cycleLevels cycles ++ (if rs.state then [] else [true]) →
      rs.active = true → rs.mode = .blink → rs.blinkPhase = rs.state → rs.blinkOnMs = onMs → rs.blinkOffMs = offMs →
      rs.startTime = log.began → CyclesLeft count cycles rs.blinkCount → Blinks onMs offMs count log rs
  | finished : count ≠ 0 → log.levels = cycleLevels count.toNat → rs.active = false → rs.mode = .toggle →
      rs.state = false → Blinks onMs offMs count log rs

def LongEnough (onMs offMs : UInt32) (log : PhaseLog) : Prop :=
  ∀ p ∈ log.completed, ((if p.level then onMs else offMs).toNat : ℤ) ≤ elapsedMs p.ended p.began

theorem blinks_command (ch : Channel) (now : TimePoint) (relayId : ℤ) (onMs offMs count : UInt32) :
    Blinks onMs offMs count { began := now } (ch.command now (.startBlink relayId onMs offMs count)).rs := by
  refine .running 0 ?_ ?_ ?_ ?_ ?_ ?_ ?_ ⟨?_,?_⟩
  case refine_9 =>
    intro hc
    exact Nat.pos_of_ne_zero fun h => hc (UInt32.toNat_inj.mp h)
  all_goals simp [command, Program, Command.level, PhaseLog.levels, cycleLevels]

theorem CyclesLeft.last_iff {cycles : ℕ} {left : UInt32} (h : CyclesLeft count cycles left) :
    left = 1 ↔ count ≠ 0 ∧ cycles + 1 = count.toNat := by
  have hleft := h.left_eq
  have hzero : count ≠ 0 ↔ 0 < count.toNat := by
    rw [Ne, ← UInt32.toNat_inj, UInt32.toNat_zero]
    omega
  rw [← UInt32.toNat_inj, UInt32.toNat_one, hleft, hzero]
  omega

theorem CyclesLeft.next {cycles : ℕ} {left : UInt32} (h : CyclesLeft count cycles left) (hlast : left ≠ 1) :
    CyclesLeft count (cycles + 1) (cyclesLeft left) := by
  have hleft := h.left_eq
  rw [Ne, h.last_iff] at hlast
  refine ⟨?_,?_⟩
  · unfold cyclesLeft
    split_ifs with hz
    · rw [hz, UInt32.toNat_zero] at hleft
      rw [UInt32.toNat_zero]
      omega
    · have hle : (1 : UInt32) ≤ left := by
        rw [UInt32.le_iff_toNat_le, UInt32.toNat_one]
        exact Nat.pos_of_ne_zero fun h => hz (UInt32.toNat_inj.mp h)
      rw [UInt32.toNat_sub_of_le _ _ hle, UInt32.toNat_one, hleft]
      omega
  · intro hc
    have hlt := h.running hc
    have hne : ¬cycles + 1 = count.toNat := fun he => hlast ⟨hc,he⟩
    omega

theorem LongEnough.concat {phase : LevelPhase} (h : LongEnough onMs offMs log)
    (hp : ((if phase.level then onMs else offMs).toNat : ℤ) ≤ elapsedMs phase.ended phase.began) (began : TimePoint) :
    LongEnough onMs offMs { began, completed := log.completed ++ [phase] } := by
  intro p hmem
  rcases List.mem_append.mp hmem with hmem | hmem
  · exact h p hmem
  · obtain rfl := List.mem_singleton.mp hmem
    exact hp

/-- A phase of a blink program only ends once its duration has passed: a truncated time that reaches
the duration does so no earlier than the true one. -/
theorem expired_blink (he : expired now ch.rs = true) (hm : ch.rs.mode = .blink) (hle : ch.rs.startTime ≤ now) :
    ((if ch.rs.blinkPhase then ch.rs.blinkOnMs else ch.rs.blinkOffMs).toNat : ℤ) ≤ elapsedMs now ch.rs.startTime := by
  simp only [expired, hm, expired_active he, Bool.true_and, decide_eq_true_eq] at he
  exact le_elapsedMs_of_uint32 hle he

theorem Blinks.tick (h : Blinks onMs offMs count log ch.rs) (hlong : LongEnough onMs offMs log) (hle : log.began ≤ now) :
    let log' := log.observe now ch.rs (ch.tick now).rs
    Blinks onMs offMs count log' (ch.tick now).rs ∧ LongEnough onMs offMs log' ∧ log'.began ≤ now := by
  have ht := ticked now ch
  generalize ch.tick now = ch' at ht
  cases h with
  | finished hc hlevels ha hm hs =>
    cases ht with
    | idle =>
      rw [PhaseLog.observe_self]
      exact ⟨.finished hc hlevels ha hm hs,hlong,hle⟩
    | timeout he | onEnds he | lastOffEnds he | offEnds he => simp [expired_active he] at ha
  | running cycles hlevels ha hm hphase hon hoff hstart hleft =>
    have hlonger : expired now ch.rs = true → LongEnough onMs offMs
        { began := now, completed := log.completed ++ [{ level := ch.rs.state, began := log.began, ended := now }] } := by
      intro he
      have hd := expired_blink he hm (hstart ▸ hle)
      rw [hphase, hon, hoff, hstart] at hd
      apply hlong.concat
      exact hd
    cases ht with
    | idle =>
      rw [PhaseLog.observe_self]
      exact ⟨.running cycles hlevels ha hm hphase hon hoff hstart hleft,hlong,hle⟩
    | timeout he hm' => rcases hm' with hm' | hm' <;> simp [hm] at hm'
    | onEnds he _ hp =>
      have hs : ch.rs.state = true := hphase ▸ hp
      have hends : PhaseEnds ch.rs (ch.enterPhase now false).rs := ⟨ha,.inr (by simp [enterPhase, hs])⟩
      rw [PhaseLog.observe, if_pos hends]
      refine ⟨.running cycles ?_ ?_ ?_ ?_ ?_ ?_ ?_ ?_,hlonger he,le_rfl⟩
      case refine_1 =>
        simp only [PhaseLog.levels, hs, ↓reduceIte, List.append_nil] at hlevels
        simp [PhaseLog.levels, hlevels, hs, enterPhase]
      all_goals simp [enterPhase, ha, hm, hon, hoff, hleft]
    | lastOffEnds he _ hp hone =>
      have hs : ch.rs.state = false := hphase ▸ hp
      obtain ⟨hc,hlast⟩ := hleft.last_iff.mp hone
      have hends : PhaseEnds ch.rs
          (ch.withState fun rs => { rs with blinkCount := cyclesLeft rs.blinkCount }).finish.rs := ⟨ha,.inl rfl⟩
      rw [PhaseLog.observe, if_pos hends]
      refine ⟨.finished hc ?_ rfl rfl hs,hlonger he,le_rfl⟩
      simp only [PhaseLog.levels, hs, Bool.false_eq_true, ↓reduceIte] at hlevels
      rw [← hlast]
      simp [PhaseLog.levels, hlevels, hs, cycleLevels]
    | offEnds he _ hp hone =>
      have hs : ch.rs.state = false := hphase ▸ hp
      have hends : PhaseEnds ch.rs ((ch.withState fun rs =>
          { rs with blinkCount := cyclesLeft rs.blinkCount }).enterPhase now true).rs :=
        ⟨ha,.inr (by simp [enterPhase, hs])⟩
      rw [PhaseLog.observe, if_pos hends]
      refine ⟨.running (cycles + 1) ?_ ?_ ?_ ?_ ?_ ?_ ?_ ?_,hlonger he,le_rfl⟩
      case refine_1 =>
        simp only [PhaseLog.levels, hs, Bool.false_eq_true, ↓reduceIte] at hlevels
        simp [PhaseLog.levels, hlevels, hs, enterPhase, cycleLevels]
      case refine_8 => simpa [enterPhase] using hleft.next hone
      all_goals simp [enterPhase, ha, hm, hon, hoff]

section Account
variable {rs : RelayState}

theorem Blinks.alternates (h : Blinks onMs offMs count log rs) :
    Alternates true (log.levels ++ if rs.active then [rs.state] else []) := by
  cases h with
  | running cycles hlevels ha =>
    have hon : Alternates true (cycleLevels cycles ++ [true]) := by
      apply (cycleLevels_alternates cycles).concat
      rw [Bool.not_true, cycleLevels_getLast?, Bool.not_false]
    rw [hlevels, ha]
    cases rs.state with
    | true => simpa using hon
    | false => simpa [cycleLevels] using cycleLevels_alternates (cycles + 1)
  | finished _ hlevels ha =>
    rw [hlevels, ha]
    simpa using cycleLevels_alternates count.toNat

theorem count_false_running (cycles : ℕ) (level : Bool) :
    (cycleLevels cycles ++ if level then [] else [true]).count false = cycles := by
  rw [List.count_append, cycleLevels_count]
  cases level <;> rfl

theorem Blinks.bounded (h : Blinks onMs offMs count log rs) (hc : count ≠ 0) (level : Bool) :
    (log.levels ++ if rs.active then [rs.state] else []).count level ≤ count.toNat := by
  cases h with
  | running cycles hlevels ha _ _ _ _ _ hleft =>
    have hlt : cycles < count.toNat := hleft.running hc
    have hone : (log.levels ++ if rs.active then [rs.state] else []).count level ≤ cycles + 1 := by
      rw [hlevels, ha, List.append_assoc, List.count_append, cycleLevels_count]
      cases rs.state <;> cases level <;> simp
    exact hone.trans hlt
  | finished _ hlevels ha =>
    rw [hlevels, ha, List.count_append, cycleLevels_count]
    exact le_rfl

theorem Blinks.left (h : Blinks onMs offMs count log rs) (hc : count ≠ 0) (ha : rs.active = true) :
    log.levels.count false < count.toNat ∧ rs.blinkCount.toNat = count.toNat - log.levels.count false := by
  cases h with
  | running cycles hlevels _ _ _ _ _ _ hleft =>
    rw [hlevels, count_false_running]
    exact ⟨hleft.running hc,hleft.left_eq⟩
  | finished _ _ hi =>
    rw [ha] at hi
    cases hi

theorem Blinks.over_iff (h : Blinks onMs offMs count log rs) (hc : count ≠ 0) :
    rs.active = false ↔ log.levels.count false = count.toNat := by
  cases h with
  | running cycles hlevels ha _ _ _ _ _ hleft =>
    rw [hlevels, count_false_running, ha]
    exact iff_of_false nofun (hleft.running hc).ne
  | finished _ hlevels ha =>
    rw [hlevels, cycleLevels_count]
    exact iff_of_true ha rfl

theorem Blinks.rest (h : Blinks onMs offMs count log rs) (hi : rs.active = false) : rs.state = false ∧ rs.mode = .toggle := by
  cases h with
  | running _ _ ha =>
    rw [hi] at ha
    cases ha
  | finished _ _ _ hm hs => exact ⟨hs,hm⟩

theorem Blinks.blinking (h : Blinks onMs offMs count log rs) (ha : rs.active = true) :
    rs.mode = .blink ∧ rs.blinkPhase = rs.state := by
  cases h with
  | running _ _ _ hm hphase => exact ⟨hm,hphase⟩
  | finished _ _ hi =>
    rw [ha] at hi
    cases hi

theorem Blinks.endless (h : Blinks onMs offMs count log rs) (hz : count = 0) : rs.active = true ∧ rs.blinkCount = 0 := by
  cases h with
  | running cycles _ ha _ _ _ _ _ hleft =>
    have hleft := hleft.left_eq
    rw [hz, UInt32.toNat_zero, Nat.zero_sub] at hleft
    exact ⟨ha,UInt32.toNat_inj.mp hleft⟩
  | finished hc => exact absurd hz hc

end Account

def watchTick (s : Channel × PhaseLog) (now : TimePoint) : Channel × PhaseLog :=
  (s.1.tick now,s.2.observe now s.1.rs (s.1.tick now).rs)

theorem Blinks.ticks {ticks : List TimePoint} (h : Blinks onMs offMs count log ch.rs)
    (hlong : LongEnough onMs offMs log) (hle : log.began ≤ now) (hsorted : (now :: ticks).IsChain (· ≤ ·)) :
    let s := ticks.foldl watchTick (ch,log)
    Blinks onMs offMs count s.2 s.1.rs ∧ LongEnough onMs offMs s.2 := by
  induction ticks generalizing ch log now with
  | nil => exact ⟨h,hlong⟩
  | cons tick ticks ih =>
    obtain ⟨hnow,hsorted⟩ := List.isChain_cons_cons.mp hsorted
    obtain ⟨h',hlong',hle'⟩ := h.tick hlong (hle.trans hnow)
    exact ih h' hlong' hle' hsorted

theorem status_blink (ch : Channel) (relayId : ℤ) (now : TimePoint) (ha : ch.rs.active = true) (hm : ch.rs.mode = .blink)
    (hp : ch.rs.blinkPhase = ch.rs.state) :
    ch.status relayId now = blinkText relayId ch.rs.state ch.rs.blinkCount.toNat := by
  simp only [status, BaseRelayController.statusText, ha, hm, hp, Bool.not_true, Bool.false_eq_true, ↓reduceIte]
  rfl

end Channel

namespace BaseRelayController
variable {H : Type*} {hw : Hardware H} {c c' : BaseRelayController H} {relayId : ℤ} {now later : TimePoint}
  {onMs offMs count : UInt32} {log : PhaseLog} {es : List (TimePoint × Event)}

def watch (hw : Hardware H) (relayId : ℤ) : BaseRelayController H → PhaseLog → List (TimePoint × Event) → PhaseLog
  | _, log, [] => log
  | c, log, e :: es =>
    let next := c.handle hw e
    watch hw relayId next (log.observe e.1 (c.relay relayId) (next.relay relayId)) es

theorem watch_ticks (log : PhaseLog) (h : c.HasEight) (hr : 1 ≤ relayId ∧ relayId ≤ 8) (hes : NoCommandFor relayId es) :
    ((es.foldl (handle hw) c).channel relayId,watch hw relayId c log es) =
      (tickTimes es).foldl Channel.watchTick (c.channel relayId,log) := by
  induction es generalizing c log with
  | nil => rfl
  | cons e es ih =>
    have hes' : NoCommandFor relayId es := fun e he => hes e (List.mem_cons_of_mem _ he)
    rw [List.foldl_cons, watch, ih _ (h.handle e) hes']
    by_cases htick : e.2 = .tick
    · obtain ⟨now,rfl⟩ : ∃ now, e = (now,.tick) := ⟨e.1,Prod.ext rfl htick⟩
      have hch : (c.handle hw (now,.tick)).channel relayId = (c.channel relayId).tick now := channel_tick h hr now
      have hrs : (c.handle hw (now,.tick)).relay relayId = ((c.channel relayId).tick now).rs := congrArg Channel.rs hch
      have htimes : tickTimes ((now,.tick) :: es) = now :: tickTimes es := rfl
      rw [htimes, List.foldl_cons, hch, hrs]
      rfl
    · have hsel : Channel.select relayId e = none := by
        rcases e with ⟨now,e⟩
        cases e with
        | command cmd => exact if_neg (hes (now,.command cmd) List.mem_cons_self cmd rfl)
        | tick => exact absurd rfl htick
        | getRelay | getAllStates | getRelayStatus => rfl
      have hch : (c.handle hw e).channel relayId = c.channel relayId := channel_handle_none hsel
      have hrs : (c.handle hw e).relay relayId = c.relay relayId := congrArg Channel.rs hch
      have htimes : tickTimes (e :: es) = tickTimes es := by simp [tickTimes, htick]
      rw [htimes, hch, hrs, PhaseLog.observe_self]

theorem blinks_startBlink (c : BaseRelayController H) (hr : 1 ≤ relayId ∧ relayId ≤ 8) (start : TimePoint) :
    Channel.Blinks onMs offMs count { began := start }
      ((c.startBlink hw start relayId onMs offMs count).2.channel relayId).rs := by
  have hcmd : 1 ≤ (Command.startBlink relayId onMs offMs count).relayId ∧
      (Command.startBlink relayId onMs offMs count).relayId ≤ 8 := hr
  have hch : (c.startBlink hw start relayId onMs offMs count).2.channel relayId =
      (c.channel relayId).command start (.startBlink relayId onMs offMs count) := channel_execute_self hcmd
  rw [hch]
  exact Channel.blinks_command _ start relayId onMs offMs count

/-- A blink program started at any time in any reachable state, under any later ticks, queries and
commands for other channels. Its phases alternate, the first one is ON, and none is shorter than
configured. A program of `count` cycles has at most that many ON and OFF phases, reports the cycles it
has left, at least one, and is over exactly when the last OFF phase is; the channel is then off in
toggle mode and not written again. A count of zero stays zero and the program never ends. -/
theorem blink_program (hw : Hardware H) (device : H) (now : TimePoint) (c : BaseRelayController H)
    (h : Reachable hw device (now,c)) (start : TimePoint) (relayId : ℤ) (hr : 1 ≤ relayId ∧ relayId ≤ 8)
    (onMs offMs count : UInt32) (es : List (TimePoint × Event)) (later : TimePoint) (c' : BaseRelayController H)
    (hrun : Run (timedStep hw) (start,(c.startBlink hw start relayId onMs offMs count).2) es (later,c'))
    (hes : NoCommandFor relayId es) :
    let log := watch hw relayId (c.startBlink hw start relayId onMs offMs count).2 { began := start } es
    let rs := c'.relay relayId
    let levels := log.levels ++ if rs.active then [rs.state] else []
    let cycles := log.levels.count false
    Alternates true levels ∧
    (∀ p ∈ log.completed, ((if p.level then onMs else offMs).toNat : ℤ) ≤ elapsedMs p.ended p.began) ∧
    (count ≠ 0 →
      levels.count true ≤ count.toNat ∧ levels.count false ≤ count.toNat ∧
      (rs.active = true → cycles < count.toNat ∧ rs.blinkCount.toNat = count.toNat - cycles ∧
        ∀ query, c'.getRelayStatus query relayId = some (blinkText relayId rs.state (count.toNat - cycles))) ∧
      (rs.active = false ↔ cycles = count.toNat) ∧
      (rs.active = false → rs.state = false ∧ rs.mode = .toggle ∧
        ∀ es' later' c'', Run (timedStep hw) (later,c') es' (later',c'') → NoCommandFor relayId es' →
          c''.callsOf relayId = c'.callsOf relayId ∧ c''.relay relayId = rs)) ∧
    (count = 0 → rs.active = true ∧ rs.blinkCount = 0 ∧
      ∀ query, c'.getRelayStatus query relayId = some (blinkText relayId rs.state 0)) := by
  intro log rs levels cycles
  have height : (c.startBlink hw start relayId onMs offMs count).2.HasEight :=
    h.valid.1.execute start (.startBlink relayId onMs offMs count)
  have hstart := @blinks_startBlink H hw relayId onMs offMs count c hr start
  have hlong : Channel.LongEnough onMs offMs { began := start } := fun p hp => by cases hp
  have hwatch : (c'.channel relayId,log) = _ :=
    timedRun_eq hrun ▸ watch_ticks { began := start } height hr hes
  obtain ⟨hb,hlong⟩ := hstart.ticks hlong le_rfl (timedRun_sorted hrun).1
  rw [← hwatch] at hb hlong
  change Channel.Blinks onMs offMs count log rs at hb
  have hc' : c'.HasEight := by
    rw [timedRun_eq hrun]
    exact height.run es
  have hstatus : rs.active = true → ∀ query,
      c'.getRelayStatus query relayId = some (blinkText relayId rs.state rs.blinkCount.toNat) := by
    intro ha query
    obtain ⟨hm,hphase⟩ := hb.blinking ha
    rw [getRelayStatus_eq hc' hr]
    exact congrArg some (Channel.status_blink (c'.channel relayId) relayId query ha hm hphase)
  refine ⟨hb.alternates,hlong,?_,?_⟩
  · intro hc
    refine ⟨hb.bounded hc true,hb.bounded hc false,?_,hb.over_iff hc,?_⟩
    · intro ha
      obtain ⟨hlt,hleft⟩ := hb.left hc ha
      have hs := hstatus ha
      rw [hleft] at hs
      exact ⟨hlt,hleft,hs⟩
    · intro hi
      obtain ⟨hs,hm⟩ := hb.rest hi
      refine ⟨hs,hm,?_⟩
      intro es' later' c'' hrun' hes'
      have hidle : c''.channel relayId = c'.channel relayId := by
        rw [timedRun_eq hrun', channel_run_ticks hc' hr hes']
        exact Channel.ticks_of_inactive _ hi _
      exact ⟨congrArg Channel.calls hidle,congrArg Channel.rs hidle⟩
  · intro hz
    obtain ⟨ha,hcount⟩ := hb.endless hz
    have hs := hstatus ha
    rw [hcount] at hs
    exact ⟨ha,hcount,hs⟩

/-- One cycle of 2 ms ON and 3 ms OFF on relay 4, with a command for relay 5 in between. -/
theorem blink_program_once :
    let started := ((construct ()).startBlink sil 0 4 2 3 1).2
    let c' := ((started.handle sil (2000000,.tick)).handle sil (2000001,.command (.setRelay 5 true))).handle sil (6000000,.tick)
    let log := watch sil 4 started { began := 0 }
      [(2000000,.tick),(2000001,.command (.setRelay 5 true)),(6000000,.tick)]
    (c'.relay 4).active = false ↔ log.levels.count false = (1 : UInt32).toNat := by
  intro started c' log
  have hrun : Run (timedStep sil) (0,started)
      [(2000000,.tick),(2000001,.command (.setRelay 5 true)),(6000000,.tick)] (6000000,c') :=
    .step (timedStep_handle (by decide)) (.step (timedStep_handle (by decide)) (.single (timedStep_handle (by decide))))
  have hes : NoCommandFor 4 [(2000000,.tick),(2000001,.command (.setRelay 5 true)),(6000000,.tick)] := by
    intro e he cmd hcmd
    simp only [List.mem_cons, List.not_mem_nil, or_false] at he
    rcases he with rfl | rfl | rfl
    · cases hcmd
    · cases hcmd
      decide
    · cases hcmd
  have hp := blink_program sil () 0 _ ⟨0,[],.refl⟩ 0 4 (by decide) 2 3 1 _ 6000000 c' hrun hes
  exact (hp.2.2.1 (by decide)).2.2.2.1

end BaseRelayController
end MiniHil
