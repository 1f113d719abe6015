import MiniHil.Core.BlinkProgram

/-! # When a tick ends a blink phase

Timer and pulse programs compare their elapsed time in 64 bits. The blink branch cuts it to 32 bits,
so that a tick misses the end of a phase when what is left of the elapsed time is below the duration.
-/
namespace MiniHil
open Runs

/-- The configured duration of the phase a blink program is in. -/
def RelayState.phaseMs (rs : RelayState) : ℕ := (if rs.blinkPhase then rs.blinkOnMs else rs.blinkOffMs).toNat

def SurvivesCast (now : TimePoint) (rs : RelayState) : Prop :=
  elapsedMs now rs.startTime < 2 ^ 32 ∨ (rs.phaseMs : ℤ) ≤ elapsedMs now rs.startTime % 2 ^ 32

def Within (gapMs : ℕ) (first second : TimePoint) : Prop :=
  first ≤ second ∧ second.val ≤ first.val + gapMs * 1000000

namespace Channel
variable {ch : Channel} {log : PhaseLog} {onMs offMs count : UInt32} {now last later : TimePoint} {gapMs : ℕ}
  {ticks : List TimePoint}

theorem expired_iff_rem (ch : Channel) (now : TimePoint) (ha : ch.rs.active = true) (hm : ch.rs.mode = .blink) :
    expired now ch.rs = true ↔ (ch.rs.phaseMs : ℤ) ≤ elapsedMs now ch.rs.startTime % 2 ^ 32 := by
  rw [← toNat_elapsedMs_uint32, Int.ofNat_le, RelayState.phaseMs, ← UInt32.le_iff_toNat_le]
  simp [expired, ha, hm]

/-- A tick ends the phase of a blink program exactly when the phase has run out. -/
theorem phaseEnds_tick_iff (ch : Channel) (now : TimePoint) (hm : ch.rs.mode = .blink) (hp : ch.rs.blinkPhase = ch.rs.state) :
    PhaseEnds ch.rs (ch.tick now).rs ↔ expired now ch.rs = true := by
  have ht := ticked now ch
  generalize ch.tick now = ch' at ht
  cases ht with
  | idle he =>
    rw [he]
    refine iff_of_false ?_ (by simp)
    rintro ⟨ha,hi | hs⟩
    · simp [ha] at hi
    · exact hs rfl
  | timeout _ hm' => rcases hm' with hm' | hm' <;> simp [hm] at hm'
  | onEnds he _ hph =>
    refine iff_of_true ⟨expired_active he,.inr ?_⟩ he
    simp [enterPhase, ← hp, hph]
  | lastOffEnds he => exact iff_of_true ⟨expired_active he,.inl rfl⟩ he
  | offEnds he _ hph =>
    refine iff_of_true ⟨expired_active he,.inr ?_⟩ he
    simp [enterPhase, ← hp, hph]

theorem phaseMs_lt (rs : RelayState) : (rs.phaseMs : ℤ) < 2 ^ 32 := by
  have hlt := (if rs.blinkPhase then rs.blinkOnMs else rs.blinkOffMs).toNat_lt
  unfold RelayState.phaseMs
  omega

/-- The tick follows the true elapsed time exactly when the cast keeps enough of it. -/
theorem expired_agrees_iff (ch : Channel) (now : TimePoint) (ha : ch.rs.active = true) (hm : ch.rs.mode = .blink)
    (hle : ch.rs.startTime ≤ now) :
    (expired now ch.rs = true ↔ (ch.rs.phaseMs : ℤ) ≤ elapsedMs now ch.rs.startTime) ↔ SurvivesCast now ch.rs := by
  have hn := elapsedMs_nonneg hle
  have hlt := phaseMs_lt ch.rs
  rw [expired_iff_rem ch now ha hm, SurvivesCast]
  omega

/-- Once the phase has run out, a later tick sees it exactly when its own elapsed time survives. -/
theorem expired_later_iff (ch : Channel) (ha : ch.rs.active = true) (hm : ch.rs.mode = .blink) (hle : ch.rs.startTime ≤ now)
    (hl : now ≤ later) (hexp : expired now ch.rs = true) : expired later ch.rs = true ↔ SurvivesCast later ch.rs := by
  have hrem := (expired_iff_rem ch now ha hm).mp hexp
  have hn := elapsedMs_nonneg hle
  have hmono := elapsedMs_mono hle hl
  have hdue : (ch.rs.phaseMs : ℤ) ≤ elapsedMs later ch.rs.startTime := by omega
  rw [← expired_agrees_iff ch later ha hm (hle.trans hl)]
  exact ⟨fun h => iff_of_true h hdue,fun h => h.mpr hdue⟩

theorem elapsedMs_within {start : TimePoint} (hle : start ≤ last) (h : Within gapMs last now) :
    elapsedMs now start ≤ elapsedMs last start + gapMs := by
  obtain ⟨hnow,hgap⟩ := h
  have hs : start.val ≤ last.val := hle
  rw [elapsedMs_eq hle, elapsedMs_eq (hle.trans hnow)]
  omega

def NotOutlasted (onMs : UInt32) (gapMs : ℕ) (log : PhaseLog) : Prop :=
  ∀ p ∈ log.completed, p.level = true → elapsedMs p.ended p.began ≤ onMs.toNat + gapMs

/-- A tick that comes soon enough ends an ON phase in time, or finds that its duration is not over. -/
theorem Blinks.tick_within (h : Blinks onMs offMs count log ch.rs) (hle : log.began ≤ last)
    (hout : NotOutlasted onMs gapMs log)
    (hcurrent : ch.rs.active = true → ch.rs.state = true → elapsedMs last log.began ≤ onMs.toNat)
    (hnow : Within gapMs last now) (hcast : ch.rs.active = true → SurvivesCast now ch.rs) :
    let s := watchTick (ch,log) now
    NotOutlasted onMs gapMs s.2 ∧
      (s.1.rs.active = true → s.1.rs.state = true → elapsedMs now s.2.began ≤ onMs.toNat) := by
  have hbegan : log.began ≤ now := hle.trans hnow.1
  cases h with
  | finished _ _ ha =>
    have hidle : ch.tick now = ch := tick_of_inactive ha now
    have hs : watchTick (ch,log) now = (ch,log) := by rw [watchTick, hidle, PhaseLog.observe_self]
    rw [hs]
    refine ⟨hout,?_⟩
    intro hi
    rw [ha] at hi
    cases hi
  | running _ _ ha hm hphase hon _ hstart =>
    by_cases he : PhaseEnds ch.rs (ch.tick now).rs
    · have hs : watchTick (ch,log) now = (ch.tick now,⟨now,log.completed ++ [⟨ch.rs.state,log.began,now⟩]⟩) := by
        rw [watchTick, PhaseLog.observe, if_pos he]
      rw [hs]
      refine ⟨?_,?_⟩
      · intro p hmem hlevel
        rcases List.mem_append.mp hmem with hmem | hmem
        · exact hout p hmem hlevel
        · obtain rfl := List.mem_singleton.mp hmem
          have hsoon := elapsedMs_within hle hnow
          have hcur := hcurrent ha hlevel
          dsimp only
          omega
      · intro _ _
        rw [elapsedMs_eq le_rfl, Nat.sub_self]
        omega
    · have hrun : ¬expired now ch.rs = true := fun hexp => he ((phaseEnds_tick_iff ch now hm hphase).mpr hexp)
      have hidle : ch.tick now = ch := by
        rw [Bool.not_eq_true] at hrun
        simp [Channel.tick, hrun]
      have hs : watchTick (ch,log) now = (ch,log) := by rw [watchTick, hidle, PhaseLog.observe_self]
      rw [hs]
      refine ⟨hout,?_⟩
      intro _ hstate
      rw [((expired_agrees_iff ch now ha hm (hstart ▸ hbegan)).mpr (hcast ha)), RelayState.phaseMs, hphase, hstate, hon,
        hstart] at hrun
      simp only [↓reduceIte] at hrun
      change elapsedMs now log.began ≤ _
      omega

theorem Blinks.ticks_within (gapMs : ℕ) (h : Blinks onMs offMs count log ch.rs) (hlong : LongEnough onMs offMs log)
    (hle : log.began ≤ last) (hout : NotOutlasted onMs gapMs log)
    (hcurrent : ch.rs.active = true → ch.rs.state = true → elapsedMs last log.began ≤ onMs.toNat)
    (hchain : (last :: (ticks ++ [later])).IsChain (Within gapMs))
    (hcast : ∀ pre now post, ticks = pre ++ now :: post →
      let before := pre.foldl (fun ch now => ch.tick now) ch
      before.rs.active = true → SurvivesCast now before.rs) :
    let s := ticks.foldl watchTick (ch,log)
    NotOutlasted onMs gapMs s.2 ∧
      (s.1.rs.active = true → s.1.rs.state = true → elapsedMs later s.2.began ≤ onMs.toNat + gapMs) := by
  induction ticks generalizing ch log last with
  | nil =>
    refine ⟨hout,?_⟩
    intro ha hs
    obtain ⟨hend,_⟩ := List.isChain_cons_cons.mp hchain
    have hsoon := elapsedMs_within hle hend
    have hcur := hcurrent ha hs
    change elapsedMs later log.began ≤ _
    omega
  | cons tick ticks ih =>
    obtain ⟨hnow,hchain⟩ := List.isChain_cons_cons.mp hchain
    obtain ⟨h',hlong',hle'⟩ := h.tick hlong (hle.trans hnow.1)
    obtain ⟨hout',hcurrent'⟩ := h.tick_within hle hout hcurrent hnow (hcast [] tick ticks rfl)
    refine ih h' hlong' hle' hout' hcurrent' hchain ?_
    intro pre now post hticks
    exact hcast (tick :: pre) now post (by rw [hticks, List.cons_append])

end Channel

namespace BaseRelayController
variable {H : Type*} {es : List (TimePoint × Event)}

theorem tickTimes_split {pre post : List TimePoint} {tick : TimePoint} (h : tickTimes es = pre ++ tick :: post) :
    ∃ before after, es = before ++ (tick,.tick) :: after ∧ tickTimes before = pre := by
  obtain ⟨before,rest,rfl,hbefore,hrest⟩ := List.filterMap_eq_append_iff.mp h
  obtain ⟨skipped,e,after,rfl,hskipped,he,_⟩ := List.filterMap_eq_cons_iff.mp hrest
  refine ⟨before ++ skipped,after,?_,?_⟩
  · rcases e with ⟨now,e⟩
    simp only [Option.ite_none_right_eq_some, Option.some.injEq] at he
    obtain ⟨rfl,rfl⟩ := he
    rw [List.append_assoc]
  · have hnone : tickTimes skipped = [] := List.filterMap_eq_nil_iff.mpr hskipped
    rw [tickTimes, List.filterMap_append, hbefore]
    change pre ++ tickTimes skipped = pre
    rw [hnone, List.append_nil]

/-- For every channel in a blink program and every tick not before the phase began: the tick ends the
phase exactly when its duration has passed if and only if the elapsed time survives the cast; and where
a tick would end the phase, a later one would exactly when its own elapsed time does. In a program whose
ticks all survive the cast and come at most a gap apart, no ON phase outlasts its duration by more than
the gap. -/
theorem blink_phase_ends_iff (hw : Hardware H) (device : H) (now : TimePoint) (c : BaseRelayController H)
    (h : Reachable hw device (now,c)) (relayId : ℤ) (hr : 1 ≤ relayId ∧ relayId ≤ 8) :
    let rs := c.relay relayId
    let Ends (tick : TimePoint) : Prop := PhaseEnds rs ((c.tick hw tick).relay relayId)
    (rs.active = true → rs.mode = .blink → ∀ tick, rs.startTime ≤ tick →
      ((Ends tick ↔ (rs.phaseMs : ℤ) ≤ elapsedMs tick rs.startTime) ↔ SurvivesCast tick rs) ∧
      ∀ later, tick ≤ later → Ends tick → (Ends later ↔ SurvivesCast later rs)) ∧
    ∀ start onMs offMs count es later c' gapMs,
      let started := (c.startBlink hw start relayId onMs offMs count).2
      Run (timedStep hw) (start,started) es (later,c') → NoCommandFor relayId es →
      (start :: (tickTimes es ++ [later])).IsChain (Within gapMs) →
      (∀ before tick after, es = before ++ (tick,.tick) :: after →
        let rs := (before.foldl (handle hw) started).relay relayId
        rs.active = true → SurvivesCast tick rs) →
      let log := watch hw relayId started { began := start } es
      (∀ p ∈ log.completed, p.level = true → elapsedMs p.ended p.began ≤ onMs.toNat + gapMs) ∧
        ((c'.relay relayId).active = true → (c'.relay relayId).state = true →
          elapsedMs later log.began ≤ onMs.toNat + gapMs) := by
  intro rs Ends
  have height : c.HasEight := h.valid.1
  refine ⟨?_,?_⟩
  · intro ha hm tick hle
    have hphase : rs.blinkPhase = rs.state := ((h.valid.2 relayId hr).blink_phase ha hm).symm
    have hends : ∀ tick, Ends tick ↔ Channel.expired tick rs = true := by
      intro tick
      have hch : (c.tick hw tick).relay relayId = ((c.channel relayId).tick tick).rs :=
        congrArg Channel.rs (channel_tick height hr tick)
      change PhaseEnds rs ((c.tick hw tick).relay relayId) ↔ _
      rw [hch]
      exact Channel.phaseEnds_tick_iff (c.channel relayId) tick hm hphase
    rw [hends]
    refine ⟨Channel.expired_agrees_iff (c.channel relayId) tick ha hm hle,?_⟩
    intro later hlater hend
    rw [hends]
    exact Channel.expired_later_iff (c.channel relayId) ha hm hle hlater hend
  · intro start onMs offMs count es later c' gapMs started hrun hes hchain hcast log
    have hstarted : started.HasEight := height.execute start (.startBlink relayId onMs offMs count)
    have hblinks := @blinks_startBlink H hw relayId onMs offMs count c hr start
    have hwatch : (c'.channel relayId,log) = _ :=
      timedRun_eq hrun ▸ watch_ticks { began := start } hstarted hr hes
    have hzero : elapsedMs start start ≤ onMs.toNat := by
      rw [elapsedMs_eq le_rfl, Nat.sub_self]
      omega
    have hwithin := hblinks.ticks_within gapMs (fun p hp => by cases hp) le_rfl (fun p hp => by cases hp)
      (fun _ _ => hzero) hchain ?_
    · rw [← hwatch] at hwithin
      exact hwithin
    · intro pre tick post hticks
      obtain ⟨before,after,hsplit,hpre⟩ := tickTimes_split hticks
      have hbefore : NoCommandFor relayId before := fun e he => hes e (hsplit ▸ List.mem_append_left _ he)
      have hrun' : (before.foldl (handle hw) started).channel relayId = _ := channel_run_ticks hstarted hr hbefore
      rw [hpre] at hrun'
      rw [← hrun']
      exact hcast before tick after hsplit

/-- Relay 1 blinks 5 ms ON and 5 ms OFF; a tick after 7 ms. -/
theorem blink_phase_ends_iff_short :
    let c := (construct ()).handle sil (0,.command (.startBlink 1 5 5 0))
    PhaseEnds (c.relay 1) ((c.tick sil 7000000).relay 1) ↔
      ((c.relay 1).phaseMs : ℤ) ≤ elapsedMs 7000000 (c.relay 1).startTime := by
  intro c
  have h : Reachable sil () (0,c) := ⟨0,[(0,.command (.startBlink 1 5 5 0))],.single (timedStep_handle (by decide))⟩
  have hends := (blink_phase_ends_iff sil () 0 c h 1 (by decide)).1 (by decide) (by decide) 7000000 (by decide)
  exact hends.1.mpr (.inl (by decide))

/-- Relay 1 is to stay ON for 4294967290 ms. The tick after 4294967289 ms comes too early; the next one,
10 ms later, reads 3 ms. -/
theorem blink_phase_ends_fails :
    ¬∀ (H : Type) (hw : Hardware H) (device : H) (now : TimePoint) (c : BaseRelayController H),
      Reachable hw device (now,c) → ∀ relayId : ℤ, 1 ≤ relayId ∧ relayId ≤ 8 →
      (c.relay relayId).active = true → (c.relay relayId).mode = .blink →
      ∀ tick, (c.relay relayId).startTime ≤ tick →
      (PhaseEnds (c.relay relayId) ((c.tick hw tick).relay relayId) ↔
        ((c.relay relayId).phaseMs : ℤ) ≤ elapsedMs tick (c.relay relayId).startTime) := by
  intro h
  set c : BaseRelayController Unit := (construct ()).handle sil (0,.command (.startBlink 1 4294967290 500 0))
  have hc : Reachable sil () (0,c) := ⟨0,[(0,.command (.startBlink 1 4294967290 500 0))],.single (timedStep_handle (by decide))⟩
  have hends := (h Unit sil () 0 c hc 1 (by decide) (by decide) (by decide) 4294967299000000 (by decide)).mpr (by decide)
  revert hends
  decide

end BaseRelayController
end MiniHil
