import Mathlib.Algebra.Ring.Nat
import MiniHil.Core.BlinkTiming

/-! # Programs that end in time

With ticks that come at most a gap apart, the phases of a blink program follow one another without a break,
each as long as configured and by less than a gap longer, so that a program of `count` cycles takes its time
and at most two gaps more for each cycle. Times are in nanoseconds here.
-/
namespace MiniHil
open Runs

def LevelPhase.length (p : LevelPhase) : ℕ := p.ended.val - p.began.val

/-- The second instant is not before the first and at most a gap later. -/
def Soon (gap : ℕ) (first second : TimePoint) : Prop := first ≤ second ∧ second.val ≤ first.val + gap

def phaseNs (onMs offMs : UInt32) (level : Bool) : ℕ := (if level then onMs else offMs).toNat * 1000000

def cycleNs (onMs offMs : UInt32) (more : ℕ) : ℕ := phaseNs onMs offMs true + more + (phaseNs onMs offMs false + more)

/-- The 32 bits of the comparison hold every phase and the gap behind it. -/
def Fits32 (onMs offMs : UInt32) (gap : ℕ) : Prop := ∀ level, phaseNs onMs offMs level + gap < 2 ^ 32 * 1000000

instance (onMs offMs : UInt32) (gap : ℕ) : Decidable (Fits32 onMs offMs gap) := inferInstanceAs (Decidable (∀ _, _))

section Lengths
variable {bound : Bool → ℕ}

theorem sum_length_le (phases : List LevelPhase) (h : ∀ p ∈ phases, p.length ≤ bound p.level) :
    (phases.map LevelPhase.length).sum ≤ (phases.map LevelPhase.level).count true * bound true +
      (phases.map LevelPhase.level).count false * bound false := by
  induction phases with
  | nil => simp
  | cons p phases ih =>
    have hp := h p List.mem_cons_self
    have hrest := ih fun q hq => h q (List.mem_cons_of_mem _ hq)
    simp only [List.map_cons, List.sum_cons]
    cases hl : p.level with
    | true =>
      rw [hl] at hp
      rw [List.count_cons_self, List.count_cons_of_ne (by decide), Nat.succ_mul]
      omega
    | false =>
      rw [hl] at hp
      rw [List.count_cons_self, List.count_cons_of_ne (by decide), Nat.succ_mul]
      omega

theorem le_sum_length (phases : List LevelPhase) (h : ∀ p ∈ phases, bound p.level ≤ p.length) :
    (phases.map LevelPhase.level).count true * bound true + (phases.map LevelPhase.level).count false * bound false ≤
      (phases.map LevelPhase.length).sum := by
  induction phases with
  | nil => simp
  | cons p phases ih =>
    have hp := h p List.mem_cons_self
    have hrest := ih fun q hq => h q (List.mem_cons_of_mem _ hq)
    simp only [List.map_cons, List.sum_cons]
    cases hl : p.level with
    | true =>
      rw [hl] at hp
      rw [List.count_cons_self, List.count_cons_of_ne (by decide), Nat.succ_mul]
      omega
    | false =>
      rw [hl] at hp
      rw [List.count_cons_self, List.count_cons_of_ne (by decide), Nat.succ_mul]
      omega

end Lengths

/-- The completed phases lie end to end between the start and the current phase, each as long as configured and
by at most a gap longer. -/
structure InTime (onMs offMs : UInt32) (gap : ℕ) (start : TimePoint) (log : PhaseLog) : Prop where
  endToEnd : log.began.val = start.val + (log.completed.map LevelPhase.length).sum
  lengths : ∀ p ∈ log.completed, phaseNs onMs offMs p.level ≤ p.length ∧ p.length ≤ phaseNs onMs offMs p.level + gap

theorem InTime.initial (onMs offMs : UInt32) (gap : ℕ) (start : TimePoint) :
    InTime onMs offMs gap start { began := start } where
  endToEnd := rfl
  lengths _ hp := nomatch hp

theorem InTime.concat {onMs offMs : UInt32} {gap : ℕ} {start now : TimePoint} {log : PhaseLog} {level : Bool}
    (h : InTime onMs offMs gap start log) (hle : log.began ≤ now) (hlong : phaseNs onMs offMs level ≤ now.val - log.began.val)
    (hsoon : now.val - log.began.val ≤ phaseNs onMs offMs level + gap) :
    InTime onMs offMs gap start { began := now, completed := log.completed ++ [⟨level,log.began,now⟩] } where
  endToEnd := by
    have hv : log.began.val ≤ now.val := hle
    have hsum := h.endToEnd
    simp only [List.map_append, List.sum_append, List.map_cons, List.map_nil, List.sum_cons, List.sum_nil, LevelPhase.length]
    omega
  lengths p hmem := by
    rcases List.mem_append.mp hmem with hmem | hmem
    · exact h.lengths p hmem
    · obtain rfl := List.mem_singleton.mp hmem
      exact ⟨hlong,hsoon⟩

namespace Channel
variable {ch : Channel} {log : PhaseLog} {onMs offMs count : UInt32} {start now last later : TimePoint} {gap : ℕ}
  {ticks : List TimePoint}

/-- A tick that comes soon after the last one sees the end of a phase, or finds that its duration is not over. -/
theorem Blinks.tick_inTime (h : Blinks onMs offMs count log ch.rs) (hle : log.began ≤ last)
    (hin : InTime onMs offMs gap start log)
    (hcurrent : ch.rs.active = true → last.val - log.began.val ≤ phaseNs onMs offMs ch.rs.state)
    (hnow : Soon gap last now) (hfit : Fits32 onMs offMs gap) :
    let s := watchTick (ch,log) now
    InTime onMs offMs gap start s.2 ∧
      (s.1.rs.active = true → now.val - s.2.began.val ≤ phaseNs onMs offMs s.1.rs.state) := by
  have hbegan : log.began ≤ now := hle.trans hnow.1
  cases h with
  | finished _ _ ha =>
    have hidle : ch.tick now = ch := tick_of_inactive ha now
    have hs : watchTick (ch,log) now = (ch,log) := by rw [watchTick, hidle, PhaseLog.observe_self]
    rw [hs]
    refine ⟨hin,?_⟩
    intro hi
    rw [ha] at hi
    cases hi
  | running _ _ ha hm hphase hon hoff hstart =>
    have hlast : log.began.val ≤ last.val := hle
    have hlater : last.val ≤ now.val := hnow.1
    have hgap := hnow.2
    have hcur := hcurrent ha
    have hrange := hfit ch.rs.state
    have hms : ch.rs.phaseMs * 1000000 = phaseNs onMs offMs ch.rs.state := by
      rw [RelayState.phaseMs, hphase, hon, hoff, phaseNs]
    -- the gap is too short for the elapsed time to lose a bit
    have hcast : SurvivesCast now ch.rs := by
      left
      rw [hstart, elapsedMs_eq hbegan]
      omega
    have hexp := (expired_agrees_iff ch now ha hm (hstart ▸ hbegan)).mpr hcast
    rw [hstart, elapsedMs_eq hbegan] at hexp
    by_cases he : PhaseEnds ch.rs (ch.tick now).rs
    · have hs : watchTick (ch,log) now = (ch.tick now,⟨now,log.completed ++ [⟨ch.rs.state,log.began,now⟩]⟩) := by
        rw [watchTick, PhaseLog.observe, if_pos he]
      rw [hs]
      have hdue := hexp.mp ((phaseEnds_tick_iff ch now hm hphase).mp he)
      refine ⟨hin.concat hbegan ?_ ?_,?_⟩
      · omega
      · omega
      · intro _
        rw [Nat.sub_self]
        exact Nat.zero_le _
    · have hrun : ¬expired now ch.rs = true := fun hexp => he ((phaseEnds_tick_iff ch now hm hphase).mpr hexp)
      have hidle : ch.tick now = ch := by
        rw [Bool.not_eq_true] at hrun
        simp [Channel.tick, hrun]
      have hs : watchTick (ch,log) now = (ch,log) := by rw [watchTick, hidle, PhaseLog.observe_self]
      rw [hs]
      refine ⟨hin,?_⟩
      intro _
      rw [hexp] at hrun
      change now.val - log.began.val ≤ phaseNs onMs offMs ch.rs.state
      omega

theorem Blinks.ticks_inTime (h : Blinks onMs offMs count log ch.rs) (hlong : LongEnough onMs offMs log)
    (hle : log.began ≤ last) (hin : InTime onMs offMs gap start log)
    (hcurrent : ch.rs.active = true → last.val - log.began.val ≤ phaseNs onMs offMs ch.rs.state)
    (hchain : (last :: (ticks ++ [later])).IsChain (Soon gap)) (hfit : Fits32 onMs offMs gap) :
    let s := ticks.foldl watchTick (ch,log)
    InTime onMs offMs gap start s.2 ∧ s.2.began ≤ later ∧
      (s.1.rs.active = true → later.val - s.2.began.val ≤ phaseNs onMs offMs s.1.rs.state + gap) := by
  induction ticks generalizing ch log last with
  | nil =>
    obtain ⟨⟨hend,hsoon⟩,_⟩ := List.isChain_cons_cons.mp hchain
    refine ⟨hin,hle.trans hend,?_⟩
    intro ha
    have hcur := hcurrent ha
    have hv : log.began.val ≤ last.val := hle
    change later.val - log.began.val ≤ phaseNs onMs offMs ch.rs.state + gap
    omega
  | cons tick ticks ih =>
    obtain ⟨hnow,hchain⟩ := List.isChain_cons_cons.mp hchain
    obtain ⟨h',hlong',hle'⟩ := h.tick hlong (hle.trans hnow.1)
    obtain ⟨hin',hcurrent'⟩ := h.tick_inTime hle hin hcurrent hnow hfit
    exact ih h' hlong' hle' hin' hcurrent' hchain

theorem levels_eq (log : PhaseLog) : log.completed.map LevelPhase.level = log.levels := rfl

/-- While a program runs, its cycles so far and the current one have not outlasted their time. -/
theorem Blinks.running_inTime {rs : RelayState} (h : Blinks onMs offMs count log rs) (ha : rs.active = true)
    (hin : InTime onMs offMs gap start log) (hle : log.began ≤ later)
    (hcurrent : later.val - log.began.val ≤ phaseNs onMs offMs rs.state + gap) :
    later.val ≤ start.val + (log.levels.count false + 1) * cycleNs onMs offMs gap := by
  have hv : log.began.val ≤ later.val := hle
  have hsum := @sum_length_le (fun level => phaseNs onMs offMs level + gap) log.completed
    fun p hp => (hin.lengths p hp).2
  have hspan := hin.endToEnd
  rw [levels_eq] at hsum
  cases h with
  | finished _ _ hi =>
    rw [ha] at hi
    cases hi
  | running cycles hlevels =>
    have hon : log.levels.count true = cycles + if rs.state then 0 else 1 := by
      rw [hlevels, List.count_append, cycleLevels_count]
      cases rs.state <;> rfl
    have hoff : log.levels.count false = cycles := by
      rw [hlevels]
      exact count_false_running cycles rs.state
    rw [hon, hoff] at hsum
    rw [hoff, cycleNs]
    cases hs : rs.state with
    | true =>
      rw [hs] at hsum hcurrent
      simp only [↓reduceIte, Nat.add_zero] at hsum
      rw [Nat.succ_mul, Nat.mul_add]
      omega
    | false =>
      rw [hs] at hsum hcurrent
      simp only [Bool.false_eq_true, ↓reduceIte, Nat.succ_mul] at hsum
      rw [Nat.succ_mul, Nat.mul_add]
      omega

theorem Blinks.over_inTime {rs : RelayState} (h : Blinks onMs offMs count log rs) (hi : rs.active = false)
    (hin : InTime onMs offMs gap start log) :
    start.val + count.toNat * cycleNs onMs offMs 0 ≤ log.began.val ∧
      log.began.val ≤ start.val + count.toNat * cycleNs onMs offMs gap := by
  have hupper := @sum_length_le (fun level => phaseNs onMs offMs level + gap) log.completed
    fun p hp => (hin.lengths p hp).2
  have hlower := @le_sum_length (phaseNs onMs offMs) log.completed fun p hp => (hin.lengths p hp).1
  have hspan := hin.endToEnd
  rw [levels_eq] at hupper hlower
  cases h with
  | running _ _ ha =>
    rw [hi] at ha
    cases ha
  | finished _ hlevels =>
    rw [hlevels, cycleLevels_count, cycleLevels_count] at hupper hlower
    simp only [cycleNs, Nat.mul_add, Nat.add_zero] at hupper hlower ⊢
    omega

end Channel

namespace BaseRelayController
variable {H : Type*}

/-- A blink program started at any time in any reachable state, under ticks that come at most a gap apart and any
queries and commands for other channels. Its phases follow one another without a break, each as long as configured
and by at most the gap longer. At any moment the cycles completed and the current one have not outlasted their
time, and a program of `count` cycles that is over ended no sooner than its cycles take, and at most two gaps later
for each of them. -/
theorem blink_in_time (hw : Hardware H) (device : H) (now : TimePoint) (c : BaseRelayController H)
    (h : Reachable hw device (now,c)) (start : TimePoint) (relayId : ℤ) (hr : 1 ≤ relayId ∧ relayId ≤ 8)
    (onMs offMs count : UInt32) (gap : ℕ) (hfit : Fits32 onMs offMs gap) (es : List (TimePoint × Event)) (later : TimePoint)
    (c' : BaseRelayController H)
    (hrun : Run (timedStep hw) (start,(c.startBlink hw start relayId onMs offMs count).2) es (later,c'))
    (hes : NoCommandFor relayId es) (hchain : (start :: (tickTimes es ++ [later])).IsChain (Soon gap)) :
    let log := watch hw relayId (c.startBlink hw start relayId onMs offMs count).2 { began := start } es
    let rs := c'.relay relayId
    InTime onMs offMs gap start log ∧
      (rs.active = true → (count = 0 ∨ log.levels.count false < count.toNat) ∧
        later.val ≤ start.val + (log.levels.count false + 1) * cycleNs onMs offMs gap) ∧
      (rs.active = false → start.val + count.toNat * cycleNs onMs offMs 0 ≤ log.began.val ∧
        log.began.val ≤ start.val + count.toNat * cycleNs onMs offMs gap) := by
  intro log rs
  have height : (c.startBlink hw start relayId onMs offMs count).2.HasEight :=
    h.valid.1.execute start (.startBlink relayId onMs offMs count)
  have hblinks := @blinks_startBlink H hw relayId onMs offMs count c hr start
  have hlong : Channel.LongEnough onMs offMs { began := start } := fun p hp => by cases hp
  have hwatch : (c'.channel relayId,log) = _ := timedRun_eq hrun ▸ watch_ticks { began := start } height hr hes
  have hb := (hblinks.ticks hlong le_rfl (timedRun_sorted hrun).1).1
  have hticks := hblinks.ticks_inTime hlong le_rfl (.initial onMs offMs gap start)
    (fun _ => by rw [Nat.sub_self]; exact Nat.zero_le _) hchain hfit
  rw [← hwatch] at hb hticks
  obtain ⟨hin,hle,hcurrent⟩ := hticks
  change Channel.Blinks onMs offMs count log rs at hb
  refine ⟨hin,?_,fun hi => hb.over_inTime hi hin⟩
  intro ha
  refine ⟨?_,hb.running_inTime ha hin hle (hcurrent ha)⟩
  by_cases hc : count = 0
  · exact .inl hc
  · exact .inr (hb.left hc ha).1

/-- One cycle of 2 ms ON and 3 ms OFF on relay 4, with ticks at most 4 ms apart. -/
theorem blink_in_time_once :
    let started := ((construct ()).startBlink sil 0 4 2 3 1).2
    let es : List (TimePoint × Event) := [(2000000,.tick),(2000001,.command (.setRelay 5 true)),(6000000,.tick)]
    let log := watch sil 4 started { began := 0 } es
    (0 : TimePoint).val + (1 : UInt32).toNat * cycleNs 2 3 0 ≤ log.began.val ∧
      log.began.val ≤ (0 : TimePoint).val + (1 : UInt32).toNat * cycleNs 2 3 4000000 := by
  intro started es log
  let c' := ((started.handle sil (2000000,.tick)).handle sil (2000001,.command (.setRelay 5 true))).handle sil (6000000,.tick)
  have hrun : Run (timedStep sil) (0,started) es (6000000,c') :=
    .step (timedStep_handle (by decide)) (.step (timedStep_handle (by decide)) (.single (timedStep_handle (by decide))))
  have hes : NoCommandFor 4 es := by
    intro e he cmd hcmd
    simp only [es, List.mem_cons, List.not_mem_nil, or_false] at he
    rcases he with rfl | rfl | rfl
    · cases hcmd
    · cases hcmd
      decide
    · cases hcmd
  have hchain : ((0 : TimePoint) :: (tickTimes es ++ [6000000])).IsChain (Soon 4000000) := by
    change [(0 : TimePoint),2000000,6000000,6000000].IsChain (Soon 4000000)
    simp only [List.isChain_cons_cons, List.isChain_singleton, and_true, Soon]
    decide
  have hlog : log = watch sil 4 (startBlink sil 0 4 2 3 1 (construct ())).2 { began := 0 } es := rfl
  have hp := blink_in_time sil () 0 _ ⟨0,[],.refl⟩ 0 4 (by decide) 2 3 1 4000000 (by decide) es 6000000 c' hrun hes hchain
  have hover := hp.2.2 (by decide)
  rw [← hlog] at hover
  exact hover

theorem soon_after {gap : ℕ} {first tick : TimePoint} {pre post : List TimePoint}
    (h : (first :: (pre ++ tick :: post)).IsChain (Soon gap)) : ∃ last ∈ first :: pre, Soon gap last tick := by
  induction pre generalizing first with
  | nil =>
    obtain ⟨hsoon,_⟩ := List.isChain_cons_cons.mp h
    exact ⟨first,List.mem_cons_self,hsoon⟩
  | cons second pre ih =>
    obtain ⟨_,hrest⟩ := List.isChain_cons_cons.mp h
    obtain ⟨last,hmem,hsoon⟩ := ih hrest
    exact ⟨last,List.mem_cons_of_mem _ hmem,hsoon⟩

/-- An instant that comes soon after ticks before the end of a program is at most a gap behind that end, or behind the
first of the instants. -/
theorem le_of_soon_after {gap onTime : ℕ} {start first tick : TimePoint} {pre post : List TimePoint}
    (h : (first :: (pre ++ tick :: post)).IsChain (Soon gap)) (hle : ∀ last ∈ pre, start ≤ last)
    (hlt : ∀ last ∈ pre, elapsedMs last start < onTime) : tick.val ≤ max first.val (start.val + onTime * 1000000) + gap := by
  obtain ⟨last,hmem,_,hsoon⟩ := soon_after h
  rcases List.mem_cons.mp hmem with rfl | hmem
  · omega
  · have hstart : start.val ≤ last.val := hle last hmem
    have hearly := hlt last hmem
    rw [elapsedMs_eq (hle last hmem)] at hearly
    omega

/-- A timer or pulse program that runs, from any later instant on: it is active until the one tick that switches the
channel off, with one write, and this tick finds the duration over and comes at most the gap after its end. -/
theorem timed_switches_off {hw : Hardware H} {c c' : BaseRelayController H} {relayId : ℤ} {start first later : TimePoint}
    {onTime gap : ℕ} {es : List (TimePoint × Event)} (height : c.HasEight) (hr : 1 ≤ relayId ∧ relayId ≤ 8)
    (htimed : Channel.Timed start onTime (c.channel relayId)) (hfirst : start ≤ first)
    (hrun : Run (timedStep hw) (first,c) es (later,c')) (hes : NoCommandFor relayId es)
    (hchain : (first :: (tickTimes es ++ [later])).IsChain (Soon gap)) :
    ((c'.relay relayId).active = true → later.val ≤ max first.val (start.val + onTime * 1000000) + gap) ∧
      ((c'.relay relayId).active = false → ∃ before tick after, es = before ++ (tick,.tick) :: after ∧
        start.val + onTime * 1000000 ≤ tick.val ∧ first ≤ tick ∧
        tick.val ≤ max first.val (start.val + onTime * 1000000) + gap ∧
        ((before.foldl (handle hw) c).relay relayId).state = true ∧
        (before.foldl (handle hw) c).callsOf relayId = c.callsOf relayId ∧
        ((before ++ [(tick,.tick)]).foldl (handle hw) c).callsOf relayId = c.callsOf relayId ++ [false] ∧
        c'.callsOf relayId = c.callsOf relayId ++ [false]) := by
  have hfrom : ∀ tick ∈ tickTimes es, first ≤ tick := by
    have hsort := (timedRun_sorted hrun).1
    rw [List.isChain_iff_pairwise, List.pairwise_cons] at hsort
    exact hsort.1
  have hsorted : ∀ tick ∈ tickTimes es, start ≤ tick := fun tick hmem => hfirst.trans (hfrom tick hmem)
  have hticks : c'.channel relayId = (tickTimes es).foldl (fun ch now => ch.tick now) (c.channel relayId) := by
    rw [timedRun_eq hrun]
    exact channel_run_ticks height hr hes
  refine ⟨?_,?_⟩
  · intro ha
    refine le_of_soon_after hchain hsorted fun tick hmem => ?_
    by_contra hdue
    have hend := hticks.trans (htimed.ticks_of_le hsorted ⟨tick,hmem,Int.not_lt.mp hdue⟩)
    have hoff : (c'.relay relayId).active = false := congrArg (fun ch : Channel => ch.rs.active) hend
    cases ha.symm.trans hoff
  · intro hi
    have hdue : ∃ tick ∈ tickTimes es, (onTime : ℤ) ≤ elapsedMs tick start := by
      by_contra hnone
      have hsame := hticks.trans (htimed.ticks_of_lt hsorted fun tick hmem =>
        Int.not_le.mp fun hle => hnone ⟨tick,hmem,hle⟩)
      have hon : (c'.relay relayId).active = true :=
        (congrArg (fun ch : Channel => ch.rs.active) hsame).trans htimed.active
      cases hon.symm.trans hi
    -- the first tick that finds the duration over
    obtain ⟨tick,hfind⟩ : ∃ tick, (tickTimes es).find? (fun tick => (onTime : ℤ) ≤ elapsedMs tick start) = some tick := by
      rw [← Option.isSome_iff_exists, List.find?_isSome]
      obtain ⟨tick,hmem,hle⟩ := hdue
      exact ⟨tick,hmem,decide_eq_true hle⟩
    obtain ⟨hover,pre,post,hsplit,hpre⟩ := List.find?_eq_some_iff_append.mp hfind
    have hover : (onTime : ℤ) ≤ elapsedMs tick start := of_decide_eq_true hover
    have hlt : ∀ early ∈ pre, elapsedMs early start < onTime := by
      intro early hmem
      simpa using hpre early hmem
    have hsub : ∀ early ∈ pre, start ≤ early := fun early hmem => hsorted early (hsplit ▸ List.mem_append_left _ hmem)
    have htick : first ≤ tick := hfrom tick (hsplit ▸ List.mem_append_right _ List.mem_cons_self)
    obtain ⟨before,after,rfl,hbefore⟩ := tickTimes_split hsplit
    have hnone : NoCommandFor relayId before := fun e he => hes e (List.mem_append_left _ he)
    have hsame : (before.foldl (handle hw) c).channel relayId = c.channel relayId := by
      rw [channel_run_ticks height hr hnone, hbefore]
      exact htimed.ticks_of_lt hsub hlt
    have hoff : ((before ++ [(tick,Event.tick)]).foldl (handle hw) c).channel relayId =
        ((c.channel relayId).drive false).finish := by
      rw [List.foldl_append, List.foldl_cons, List.foldl_nil]
      have hbefore : (before.foldl (handle hw) c).HasEight := height.run before
      exact (channel_tick hbefore hr tick).trans (hsame ▸ htimed.tick_of_le (hfirst.trans htick) hover)
    refine ⟨before,tick,after,rfl,?_,htick,?_,?_,congrArg Channel.calls hsame,?_,?_⟩
    · have hv : start.val ≤ tick.val := hfirst.trans htick
      rw [elapsedMs_eq (hfirst.trans htick)] at hover
      omega
    · rw [hsplit, List.append_assoc, List.cons_append] at hchain
      exact le_of_soon_after hchain hsub hlt
    · exact (congrArg (fun ch : Channel => ch.rs.state) hsame).trans htimed.on
    · exact (congrArg Channel.calls hoff).trans htimed.finish_calls
    · have hend := hticks.trans (htimed.ticks_of_le hsorted hdue)
      exact (congrArg Channel.calls hend).trans htimed.finish_calls

/-- A timer or pulse program started at any time in any reachable state, under ticks that come at most a gap apart
and any queries and commands for other channels. It is not active longer than its duration and the gap, and the one
tick that switches the channel off, with one write, comes when the duration is over and at most the gap later. -/
theorem timed_in_time (hw : Hardware H) (device : H) (now : TimePoint) (c : BaseRelayController H)
    (h : Reachable hw device (now,c)) (start : TimePoint) (cmd : Command) (onTime gap : ℕ) (hcmd : cmd.onTime = some onTime)
    (hr : 1 ≤ cmd.relayId ∧ cmd.relayId ≤ 8) (es : List (TimePoint × Event)) (later : TimePoint) (c' : BaseRelayController H)
    (hrun : Run (timedStep hw) (start,(c.execute hw start cmd).2) es (later,c')) (hes : NoCommandFor cmd.relayId es)
    (hchain : (start :: (tickTimes es ++ [later])).IsChain (Soon gap)) :
    let started := (c.execute hw start cmd).2
    ((c'.relay cmd.relayId).active = true → later.val ≤ start.val + onTime * 1000000 + gap) ∧
      ((c'.relay cmd.relayId).active = false → ∃ before tick after, es = before ++ (tick,.tick) :: after ∧
        start.val + onTime * 1000000 ≤ tick.val ∧ tick.val ≤ start.val + onTime * 1000000 + gap ∧
        ((before.foldl (handle hw) started).relay cmd.relayId).state = true ∧
        (before.foldl (handle hw) started).callsOf cmd.relayId = started.callsOf cmd.relayId ∧
        ((before ++ [(tick,.tick)]).foldl (handle hw) started).callsOf cmd.relayId = started.callsOf cmd.relayId ++ [false] ∧
        c'.callsOf cmd.relayId = started.callsOf cmd.relayId ++ [false]) := by
  intro started
  have htimed : Channel.Timed start onTime (started.channel cmd.relayId) := by
    rw [channel_execute_self hr]
    exact Channel.timed_command _ start hcmd
  obtain ⟨hactive,hoff⟩ := timed_switches_off (h.valid.1.execute start cmd) hr htimed le_rfl hrun hes hchain
  rw [Nat.max_eq_right (Nat.le_add_right _ _)] at hactive hoff
  refine ⟨hactive,?_⟩
  intro hi
  obtain ⟨before,tick,after,hes',hlow,_,hhigh,hcalls⟩ := hoff hi
  exact ⟨before,tick,after,hes',hlow,hhigh,hcalls⟩

/-- A pulse of 3 ms on relay 2 with ticks 2 ms apart. -/
theorem timed_in_time_pulse :
    let started := ((construct ()).execute sil 7 (.startPulse 2 3)).2
    let es : List (TimePoint × Event) := [(2000007,.tick),(4000007,.tick)]
    ∃ before tick after, es = before ++ (tick,.tick) :: after ∧ 3000007 ≤ tick.val ∧ tick.val ≤ 5000007 ∧
      ((before.foldl (handle sil) started).relay 2).state = true := by
  intro started es
  let c' := (started.handle sil (2000007,.tick)).handle sil (4000007,.tick)
  have hrun : Run (timedStep sil) (7,started) es (4000007,c') :=
    .step (timedStep_handle (by decide)) (.single (timedStep_handle (by decide)))
  have hes : NoCommandFor 2 es := by
    intro e he cmd hcmd
    simp only [es, List.mem_cons, List.not_mem_nil, or_false] at he
    rcases he with rfl | rfl <;> cases hcmd
  have hchain : ((7 : TimePoint) :: (tickTimes es ++ [4000007])).IsChain (Soon 2000000) := by
    change [(7 : TimePoint),2000007,4000007,4000007].IsChain (Soon 2000000)
    simp only [List.isChain_cons_cons, List.isChain_singleton, and_true, Soon]
    decide
  obtain ⟨before,tick,after,hsplit,hlow,hhigh,hon,_⟩ := (timed_in_time sil () 0 _ ⟨0,[],.refl⟩ 7 (.startPulse 2 3) 3
    2000000 rfl (by decide) es 4000007 c' hrun hes hchain).2 (by decide)
  exact ⟨before,tick,after,hsplit,hlow,hhigh,hon⟩

end BaseRelayController
end MiniHil
