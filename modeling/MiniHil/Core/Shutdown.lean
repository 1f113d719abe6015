import MiniHil.Core.RelayInvariant

/-! # Destroying a controller while its tick thread runs

Two threads: `tickLoop`, which checks `m_running`, sleeps and ticks, and the thread that runs the
derived destructor, destroys the derived members, and only then enters `~BaseRelayController`,
which clears `m_running` and joins. The destructors take no lock, so the loop over the relays in
`tick` is split into its iterations.
-/
namespace MiniHil
open Runs

inductive TickThread
  | notStarted
  | checking
  | sleeping
  | ticking (now : TimePoint) (relayIds : List ℤ)
  | ended
  deriving DecidableEq, Repr

inductive Destroyer
  | alive
  | destructorBodyRun
  | membersDestroyed
  | runningCleared
  | joined
  deriving DecidableEq, Repr

inductive ShutdownEvent
  | checkRunning
  | wake (now : TimePoint)
  | tickRelay
  | tickReturns
  | derivedDestructor
  | destroyMembers
  | clearRunning
  | join
  deriving DecidableEq, Repr

structure Shutdown (H : Type*) where
  clock : TimePoint
  running : Bool
  thread : TickThread
  destroyer : Destroyer
  controller : BaseRelayController H

namespace Shutdown
variable {H : Type*} {hw : Hardware H} {s t : Shutdown H} {e : ShutdownEvent}

/-- One step of either thread. -/
inductive Step (hw : Hardware H) (s : Shutdown H) : ShutdownEvent → Shutdown H → Prop
  | checkRunning : s.thread = .checking →
      Step hw s .checkRunning { s with thread := if s.running then .sleeping else .ended }
  | wake {now : TimePoint} : s.thread = .sleeping → s.clock ≤ now →
      Step hw s (.wake now) { s with clock := now, thread := .ticking now s.controller.relayStates.keys }
  | tickRelay {now : TimePoint} {relayId : ℤ} {relayIds : List ℤ} : s.thread = .ticking now (relayId :: relayIds) →
      Step hw s .tickRelay
        { s with thread := .ticking now relayIds, controller := s.controller.tickRelay hw now relayId }
  | tickReturns {now : TimePoint} : s.thread = .ticking now [] →
      Step hw s .tickReturns { s with thread := .checking }
  | derivedDestructor : s.destroyer = .alive →
      Step hw s .derivedDestructor { s with destroyer := .destructorBodyRun }
  | destroyMembers : s.destroyer = .destructorBodyRun →
      Step hw s .destroyMembers { s with destroyer := .membersDestroyed }
  | clearRunning : s.destroyer = .membersDestroyed →
      Step hw s .clearRunning { s with destroyer := .runningCleared, running := false }
  | join : s.destroyer = .runningCleared → s.thread = .ended ∨ s.thread = .notStarted →
      Step hw s .join { s with destroyer := .joined }

/-- A controller in use; the tick thread runs if `init` succeeded. -/
def start (started : Bool) (s : TimePoint × BaseRelayController H) : Shutdown H where
  clock := s.1
  running := started
  thread := if started then .checking else .notStarted
  destroyer := .alive
  controller := s.2

/-- No `setRelayPhysical` call is made by a step after the derived destructor was entered. -/
def Quiet (s : Shutdown H) (_ : ShutdownEvent) (t : Shutdown H) : Prop :=
  s.destroyer ≠ .alive → t.controller.calls = s.controller.calls

/-- The next relay that the tick visits is due for a write: its phase or program has run out,
and it is not the OFF phase of a last blink cycle. -/
def DueForWrite (s : Shutdown H) : Prop :=
  ∃ now relayId relayIds, s.thread = .ticking now (relayId :: relayIds) ∧
    Channel.expired now (s.controller.relay relayId) = true ∧
    ¬((s.controller.relay relayId).mode = .blink ∧ (s.controller.relay relayId).blinkPhase = false ∧
      (s.controller.relay relayId).blinkCount = 1)

end Shutdown

namespace Channel
variable {ch : Channel} {now : TimePoint}

theorem drive_calls_ne (level : Bool) (h : ch.rs.state = !level) : (ch.drive level).calls ≠ ch.calls := by
  rw [drive_calls, if_neg (by simp [h])]
  simp

/-- In a valid state a tick writes the output exactly when the program has run out and is not in
the OFF phase of its last cycle. -/
theorem Valid.tick_calls (h : Valid now ch) : (ch.tick now).calls = ch.calls ↔
    ¬(expired now ch.rs = true ∧
      ¬(ch.rs.mode = .blink ∧ ch.rs.blinkPhase = false ∧ ch.rs.blinkCount = 1)) := by
  have ht := ticked now ch
  generalize ch.tick now = ch' at ht
  cases ht with
  | idle he => simp [he]
  | timeout he hm =>
    have hon := h.timed_on (expired_active he) hm
    have hne : ch.rs.mode ≠ .blink := by rcases hm with hm | hm <;> simp [hm]
    have hw : (ch.drive false).finish.calls ≠ ch.calls := drive_calls_ne false hon
    simp [he, hne, hw]
  | onEnds he hm hp =>
    have hon : ch.rs.state = true := (h.blink_phase (expired_active he) hm).trans hp
    have hw : (ch.enterPhase now false).calls ≠ ch.calls := drive_calls_ne false hon
    simp [he, hp, hw]
  | lastOffEnds he hm hp hone => simp [hm, hp, hone, finish]
  | offEnds he hm hp hone =>
    have hoff : ch.rs.state = false := (h.blink_phase (expired_active he) hm).trans hp
    have hw : ((ch.withState fun rs => { rs with blinkCount := cyclesLeft rs.blinkCount }).enterPhase now true).calls ≠
        ch.calls := drive_calls_ne true hoff
    simp [he, hone, hw]

end Channel

namespace BaseRelayController
variable {H : Type*} {hw : Hardware H} {c : BaseRelayController H} {relayId : ℤ}

theorem setRelayInternal_calls (state : Bool) : ∃ since : List Bool,
    (c.setRelayInternal hw relayId state).calls = c.calls ++ since.map (Prod.mk relayId) := by
  unfold setRelayInternal
  dsimp only
  split_ifs
  · exact ⟨[state],rfl⟩
  · exact ⟨[],(List.append_nil _).symm⟩

theorem tickRelay_calls (hw : Hardware H) (c : BaseRelayController H) (relayId : ℤ) (now : TimePoint) : ∃ since : List Bool,
    (c.tickRelay hw now relayId).calls = c.calls ++ since.map (Prod.mk relayId) := by
  have hvisit := visit hw c relayId now
  generalize c.tickRelay hw now relayId = c' at hvisit ⊢
  cases hvisit with
  | quiet => exact ⟨[],(List.append_nil _).symm⟩
  | driven level => exact setRelayInternal_calls level
  | lastCycle => exact ⟨[],(List.append_nil _).symm⟩
  | nextCycle level => exact setRelayInternal_calls level

theorem tickRelay_calls_eq_iff (now : TimePoint) :
    (c.tickRelay hw now relayId).calls = c.calls ↔ ((c.channel relayId).tick now).calls = (c.channel relayId).calls := by
  obtain ⟨since,hs⟩ := tickRelay_calls hw c relayId now
  have hof : (c.tickRelay hw now relayId).callsOf relayId = c.callsOf relayId ++ since := by
    simp [callsOf, hs, List.filterMap_map]
  have htick : ((c.channel relayId).tick now).calls = (c.tickRelay hw now relayId).callsOf relayId :=
    congrArg Channel.calls (channel_tickRelay_self now).symm
  rw [htick, hs, hof]
  change _ ↔ c.callsOf relayId ++ since = c.callsOf relayId
  rw [List.append_right_eq_self, List.append_right_eq_self, List.map_eq_nil_iff]

theorem tickRelay_of_not_expired {now : TimePoint} (h : Channel.expired now (c.relay relayId) = false) :
    c.tickRelay hw now relayId = c := by
  unfold Channel.expired at h
  unfold tickRelay
  dsimp only
  split_ifs with hactive htimed hover hblink hphase honOver hoffOver
  · rfl
  · rcases htimed with hm | hm <;> simp_all
  · rfl
  · simp_all
  · rfl
  · simp_all
  · simp_all
  · simp_all
  · rfl
  · rfl

theorem tickRelay_valid {now : TimePoint} (h : Valid (now,c)) (hr : 1 ≤ relayId ∧ relayId ≤ 8) :
    Valid (now,c.tickRelay hw now relayId) := by
  refine ⟨h.1.tickRelay hr now,fun k hk => ?_⟩
  by_cases hkr : k = relayId
  · subst hkr
    rw [channel_tickRelay_self]
    exact (h.2 k hk).tick
  · rw [channel_tickRelay_ne hkr]
    exact h.2 k hk

theorem Valid.mono {now later : TimePoint} (h : Valid (now,c)) (hl : now ≤ later) : Valid (later,c) :=
  ⟨h.1,fun relayId hr => (h.2 relayId hr).mono hl⟩

end BaseRelayController

namespace Shutdown
variable {H : Type*} {hw : Hardware H} {s t : Shutdown H} {e : ShutdownEvent}

def Valid (s : Shutdown H) : Prop :=
  BaseRelayController.Valid (s.clock,s.controller) ∧
  ∀ now relayIds, s.thread = .ticking now relayIds → now = s.clock ∧ ∀ k ∈ relayIds, 1 ≤ k ∧ k ≤ 8

theorem start_valid {started : Bool} {s : TimePoint × BaseRelayController H} (h : BaseRelayController.Valid s) :
    (start started s).Valid := by
  refine ⟨h,fun now relayIds hth => ?_⟩
  cases started <;> simp [start] at hth

theorem Step.valid (hs : s.Valid) (he : Step hw s e t) : t.Valid := by
  obtain ⟨hc,hth⟩ := hs
  cases he with
  | checkRunning _ =>
    refine ⟨hc,fun now relayIds h => ?_⟩
    dsimp only at h
    split_ifs at h
  | wake _ hle =>
    refine ⟨hc.mono hle,fun now relayIds h => ?_⟩
    obtain ⟨rfl,rfl⟩ := TickThread.ticking.inj h
    exact ⟨rfl,fun k hk => (hc.1 k).mp (Std.ExtTreeMap.mem_keys.mp hk)⟩
  | tickRelay h =>
    obtain ⟨hnow,hids⟩ := hth _ _ h
    subst hnow
    refine ⟨BaseRelayController.tickRelay_valid hc (hids _ List.mem_cons_self),fun now relayIds h' => ?_⟩
    obtain ⟨rfl,rfl⟩ := TickThread.ticking.inj h'
    exact ⟨rfl,fun k hk => hids k (List.mem_cons_of_mem _ hk)⟩
  | tickReturns h => exact ⟨hc,fun _ _ h' => by cases h'⟩
  | derivedDestructor _ => exact ⟨hc,hth⟩
  | destroyMembers _ => exact ⟨hc,hth⟩
  | clearRunning _ => exact ⟨hc,hth⟩
  | join _ _ => exact ⟨hc,hth⟩

/-- Only a tick that visits a relay due for a write calls `setRelayPhysical`. -/
theorem Step.calls_eq_iff (hs : s.Valid) (he : Step hw s e t) :
    t.controller.calls = s.controller.calls ↔ ¬(e = .tickRelay ∧ s.DueForWrite) := by
  cases he with
  | @tickRelay now relayId relayIds h =>
    obtain ⟨hnow,hids⟩ := hs.2 _ _ h
    subst hnow
    rw [BaseRelayController.tickRelay_calls_eq_iff,
      (hs.1.2 relayId (hids relayId List.mem_cons_self)).tick_calls]
    refine not_congr ⟨fun hdue => ⟨rfl,s.clock,relayId,relayIds,h,hdue⟩,?_⟩
    rintro ⟨_,now,relayId',relayIds',h',hdue⟩
    obtain ⟨rfl,hk⟩ := TickThread.ticking.inj (h.symm.trans h')
    obtain ⟨rfl,rfl⟩ := List.cons.inj hk
    exact hdue
  | checkRunning | wake | tickReturns | derivedDestructor | destroyMembers | clearRunning | join => simp

/-- In every interleaving of the two threads from any reachable controller, no output is written
after the derived destructor was entered exactly when no tick then visits a relay that is due. -/
theorem quiet_iff (hw : Hardware H) (device : H) (c : TimePoint × BaseRelayController H)
    (hc : BaseRelayController.Reachable hw device c) (started : Bool) (es : List ShutdownEvent) :
    Always (Step hw) Quiet (start started c) es ↔
      Always (Step hw) (fun s e _ => s.destroyer ≠ .alive → ¬(e = .tickRelay ∧ s.DueForWrite)) (start started c) es :=
  Always.congr (start_valid hc.valid) (fun _ _ _ => Step.valid)
    (fun _ _ _ hs he => imp_congr_right fun _ => he.calls_eq_iff hs)

/-- A timer of 0 seconds, and a tick between the derived destructor and the join. -/
theorem quiet_fails :
    ¬∀ (H : Type) (hw : Hardware H) (device : H) (c : TimePoint × BaseRelayController H),
      BaseRelayController.Reachable hw device c → ∀ (started : Bool) (es : List ShutdownEvent),
      Always (Step hw) Quiet (start started c) es := by
  intro h
  set c : BaseRelayController Unit := (BaseRelayController.construct ()).handle sil (5,.command (.startTimer 1 0))
  have hc : BaseRelayController.Reachable sil () (5,c) :=
    ⟨0,[(5,.command (.startTimer 1 0))],.single (BaseRelayController.timedStep_handle (by decide))⟩
  have hq := h Unit sil () (5,c) hc true
    [.checkRunning,.derivedDestructor,.destroyMembers,.clearRunning,.wake 6,.tickRelay]
    [.checkRunning,.derivedDestructor,.destroyMembers,.clearRunning,.wake 6] .tickRelay []
    { start true (5,c) with clock := 6, running := false, thread := .ticking 6 [1,2,3,4,5,6,7,8], destroyer := .runningCleared }
    _ rfl ?_ (.tickRelay rfl) (by simp)
  · revert hq
    decide
  · exact .step (.checkRunning rfl) (.step (.derivedDestructor rfl) (.step (.destroyMembers rfl)
      (.step (.clearRunning rfl) (.single (.wake rfl (by decide))))))

/-- A timer of 1 second, and a tick that visits all relays between the derived destructor and the join. -/
theorem quiet_iff_timer : ∃ (c : BaseRelayController Unit) (es : List ShutdownEvent) (t : Shutdown Unit),
    Run (Step sil) (start true (5,c)) (.checkRunning :: .derivedDestructor :: es) t ∧
    es = .wake 6 :: List.replicate 8 .tickRelay ∧ (c.relay 1).active = true ∧ t.thread = .ticking 6 [] ∧
    t.destroyer = .destructorBodyRun ∧
    Always (Step sil) Quiet (start true (5,c)) (.checkRunning :: .derivedDestructor :: es) := by
  set c : BaseRelayController Unit := (BaseRelayController.construct ()).handle sil (5,.command (.startTimer 1 1)) with hdef
  have hc : BaseRelayController.Reachable sil () (5,c) :=
    ⟨0,[(5,.command (.startTimer 1 1))],.single (BaseRelayController.timedStep_handle (by decide))⟩
  have hidle : ∀ k ∈ ([1,2,3,4,5,6,7,8] : List ℤ), Channel.expired 6 (c.relay k) = false := by
    rw [hdef]
    decide
  have hkeys : c.relayStates.keys = [1,2,3,4,5,6,7,8] := rfl
  set es : List ShutdownEvent := .checkRunning :: .derivedDestructor :: .wake 6 :: List.replicate 8 .tickRelay with hes
  -- no relay is due in the one tick, which finds the controller as it was at the start
  have hundue : ∀ pre s, (∀ e ∈ pre, e ∈ es) → Run (Step sil) (start true (5,c)) pre s →
      s.controller = c ∧ ∀ now relayIds, s.thread = .ticking now relayIds → now = 6 ∧ relayIds ⊆ [1,2,3,4,5,6,7,8] := by
    intro pre s hpre hr
    have hstart : (start true (5,c)).controller = c ∧ ∀ now relayIds, (start true (5,c)).thread = .ticking now relayIds →
        now = 6 ∧ relayIds ⊆ [1,2,3,4,5,6,7,8] := ⟨rfl,fun _ _ h => by cases h⟩
    generalize start true (5,c) = s₀ at hr hstart
    induction hr with
    | refl => exact hstart
    | @step s u t e pre he _ ih =>
      refine ih (fun e' hmem => hpre e' (List.mem_cons_of_mem _ hmem)) ?_
      obtain ⟨hcontroller,hthread⟩ := hstart
      have hmem := hpre e List.mem_cons_self
      cases he with
      | checkRunning =>
        refine ⟨hcontroller,fun _ _ h => ?_⟩
        dsimp only at h
        split_ifs at h
      | @wake now _ _ =>
        refine ⟨hcontroller,fun now' relayIds h => ?_⟩
        obtain ⟨rfl,rfl⟩ := TickThread.ticking.inj h
        rw [hcontroller, hkeys]
        refine ⟨?_,List.Subset.refl _⟩
        simpa [hes] using hmem
      | @tickRelay now relayId relayIds h =>
        obtain ⟨rfl,hsub⟩ := hthread _ _ h
        refine ⟨?_,fun now' relayIds' h' => ?_⟩
        · dsimp only
          rw [hcontroller, BaseRelayController.tickRelay_of_not_expired (hidle relayId (hsub List.mem_cons_self))]
        · obtain ⟨rfl,rfl⟩ := TickThread.ticking.inj h'
          exact ⟨rfl,fun k hk => hsub (List.mem_cons_of_mem _ hk)⟩
      | tickReturns => exact ⟨hcontroller,fun _ _ h => by cases h⟩
      | derivedDestructor | destroyMembers | clearRunning | join => exact ⟨hcontroller,hthread⟩
  have hwake : Run (Step sil) (start true (5,c)) [.checkRunning,.derivedDestructor,.wake 6] { start true (5,c) with
      clock := 6, thread := .ticking 6 [1,2,3,4,5,6,7,8], destroyer := .destructorBodyRun } :=
    .step (.checkRunning rfl) (.step (.derivedDestructor rfl) (.single (.wake rfl (by decide))))
  refine ⟨c,_,_,hwake.trans (.step (.tickRelay rfl) (.step (.tickRelay rfl) (.step (.tickRelay rfl) (.step (.tickRelay rfl)
    (.step (.tickRelay rfl) (.step (.tickRelay rfl) (.step (.tickRelay rfl) (.single (.tickRelay rfl))))))))),rfl,rfl,rfl,rfl,
    (quiet_iff sil () _ hc true es).mpr ?_⟩
  rintro pre e post s t heq hr _ _ ⟨_,now,relayId,relayIds,hthread,hexpired,_⟩
  obtain ⟨hcontroller,hticking⟩ := hundue pre s (fun e hmem => heq ▸ List.mem_append_left _ hmem) hr
  obtain ⟨rfl,hsub⟩ := hticking _ _ hthread
  rw [hcontroller, hidle relayId (hsub List.mem_cons_self)] at hexpired
  cases hexpired

end Shutdown
end MiniHil
