import MiniHil.Core.ChannelRefinement
import MiniHil.Hardware.RelayHardware

/-! # Logical states and output lines

The controller changes the logical state before it writes the line and drops the outcome of the
write. Each event makes at most one write per channel and only to change the level, so the states
follow the lines exactly as long as no write fails.
-/
namespace MiniHil
open Runs

namespace GpiodRelayController
variable (env : Gpiod) {d : GpiodRelayController} {relayId other : ℤ}

def offset (relayId : ℤ) : ℕ := (relayGpioMap.lookup relayId).getD 0

/-- The relay of a channel is energised, by the level last driven on its line. -/
def line (relayId : ℤ) (d : GpiodRelayController) : Bool := d.level (offset relayId) = .inactive

/-- The outcomes of the writes to the line of one channel, oldest first. -/
def outcomes (relayId : ℤ) (d : GpiodRelayController) : List Bool :=
  d.attempts.filterMap fun a => if a.offset = offset relayId then some a.ok else none

theorem lookup_eq (hr : 1 ≤ relayId ∧ relayId ≤ 8) : relayGpioMap.lookup relayId = some (offset relayId) := by
  have hall : ∀ id ∈ [(1 : ℤ),2,3,4,5,6,7,8], relayGpioMap.lookup id = some (offset id) := by decide
  exact hall relayId (by simp only [List.mem_cons]; omega)

theorem lookup_none (hr : ¬(1 ≤ relayId ∧ relayId ≤ 8)) : relayGpioMap.lookup relayId = none := by
  rw [List.lookup_eq_none_iff]
  intro p hp
  have hall : ∀ p ∈ relayGpioMap, 1 ≤ p.1 ∧ p.1 ≤ 8 := by decide
  have := hall p hp
  simp only [ne_eq, bne_iff_ne]
  omega

theorem offset_ne (hr : 1 ≤ relayId ∧ relayId ≤ 8) (ho : 1 ≤ other ∧ other ≤ 8) (h : relayId ≠ other) :
    offset relayId ≠ offset other := by
  have hall : ∀ id ∈ [(1 : ℤ),2,3,4,5,6,7,8], ∀ id' ∈ [(1 : ℤ),2,3,4,5,6,7,8], id ≠ id' → offset id ≠ offset id' := by
    decide
  exact hall relayId (by simp only [List.mem_cons]; omega) other (by simp only [List.mem_cons]; omega) h

theorem setRelayPhysical_self (hd : d.request = true) (hr : 1 ≤ relayId ∧ relayId ≤ 8) (state : Bool) :
    ∃ ok d', setRelayPhysical env relayId state d = (ok,d') ∧ d'.request = true ∧
      line relayId d' = (if ok then state else line relayId d) ∧
      outcomes relayId d' = outcomes relayId d ++ [ok] := by
  simp only [setRelayPhysical, hd, Bool.not_true, Bool.false_eq_true, ↓reduceIte, lookup_eq hr]
  cases hok : env.setValue d.attempts (offset relayId) (if state then .inactive else .active) with
  | false =>
    refine ⟨false,_,rfl,rfl,rfl,?_⟩
    simp [outcomes]
  | true =>
    refine ⟨true,_,rfl,rfl,?_,?_⟩
    · cases state <;> simp [line]
    · simp [outcomes]

theorem setRelayPhysical_ne (hr : 1 ≤ relayId ∧ relayId ≤ 8) (h : relayId ≠ other) (state : Bool) :
    let d' := (setRelayPhysical env other state d).2
    d'.request = d.request ∧ line relayId d' = line relayId d ∧ outcomes relayId d' = outcomes relayId d := by
  unfold setRelayPhysical
  by_cases hd : d.request = true
  · by_cases ho : 1 ≤ other ∧ other ≤ 8
    · have hne := offset_ne hr ho h
      simp only [hd, Bool.not_true, Bool.false_eq_true, ↓reduceIte, lookup_eq ho]
      generalize (if state then LineValue.inactive else .active) = value
      have hout : ∀ ok, outcomes relayId { d with attempts := d.attempts ++ [⟨offset other,value,ok⟩] } = outcomes relayId d := by
        intro ok
        simp [outcomes, hne.symm]
      cases env.setValue d.attempts (offset other) value with
      | false => exact ⟨rfl,rfl,hout false⟩
      | true =>
        refine ⟨rfl,?_,hout true⟩
        change decide (Function.update d.level (offset other) value (offset relayId) = .inactive) = _
        rw [Function.update_of_ne hne]
        rfl
    · simp [hd, lookup_none ho]
  · simp [hd]

theorem offset_mem (hr : 1 ≤ relayId ∧ relayId ≤ 8) : offset relayId ∈ relayGpioMap.map Prod.snd := by
  obtain ⟨_,_,hmap,_⟩ := List.lookup_eq_some_iff.mp (lookup_eq hr)
  rw [hmap]
  simp

theorem foldl_update_active (map : List (ℤ × ℕ)) (level : ℕ → LineValue) {pin : ℕ}
    (h : level pin = .active ∨ pin ∈ map.map Prod.snd) :
    (map.foldl (fun level p => Function.update level p.2 LineValue.active) level) pin = .active := by
  induction map generalizing level with
  | nil => simpa using h
  | cons p map ih =>
    rw [List.foldl_cons]
    apply ih
    by_cases hp : pin = p.2
    · left
      rw [hp, Function.update_self]
    · rw [Function.update_of_ne hp]
      rw [List.map_cons, List.mem_cons] at h
      exact h.imp_right fun hpin => hpin.resolve_left hp

theorem initHardware_line {d' : GpiodRelayController} (h : initHardware env d = (true,d'))
    (hr : 1 ≤ relayId ∧ relayId ≤ 8) :
    d'.request = true ∧ line relayId d' = false ∧ d'.attempts = d.attempts := by
  unfold initHardware at h
  dsimp only at h
  split at h
  · simp at h
  · split_ifs at h
    · obtain ⟨-,rfl⟩ := Prod.mk.inj h
      refine ⟨rfl,?_,rfl⟩
      have hactive := foldl_update_active relayGpioMap d.level (.inr (offset_mem hr))
      simp only [line, hactive, decide_eq_false_iff_not]
      decide
    · simp at h

end GpiodRelayController

structure Wire where
  state : Bool
  line : Bool
  outcomes : List Bool
  request : Bool

namespace Wire

/-- One event writes a line not at all, or once, to the opposite of the logical state. -/
inductive Wrote (w : Wire) : Wire → Prop
  | quiet : Wrote w w
  | write (ok : Bool) : Wrote w
      { w with state := !w.state, line := if ok then !w.state else w.line, outcomes := w.outcomes ++ [ok] }

/-- State and line agree unless a write has failed. -/
def Agrees (w : Wire) : Prop := (∀ ok ∈ w.outcomes, ok = true) → w.state = w.line

variable {w w' : Wire}

theorem Wrote.request_eq (h : Wrote w w') : w'.request = w.request := by
  cases h <;> rfl

theorem Wrote.outcomes_subset (h : Wrote w w') : ∀ ok ∈ w.outcomes, ok ∈ w'.outcomes := by
  intro ok hok
  cases h with
  | quiet => exact hok
  | write => exact List.mem_append_left _ hok

theorem Wrote.agrees (h : Wrote w w') (hw : Agrees w) : Agrees w' := by
  cases h with
  | quiet => exact hw
  | write ok =>
    intro hall
    have hok : ok = true := hall ok (by simp)
    simp [hok]

theorem Wrote.all_ok (h : Wrote w w') (hw : w.state = w.line) (hw' : w'.state = w'.line)
    (hall : ∀ ok ∈ w.outcomes, ok = true) : ∀ ok ∈ w'.outcomes, ok = true := by
  cases h with
  | quiet => exact hall
  | write ok =>
    intro x hx
    rcases List.mem_append.mp hx with hx | hx
    · exact hall x hx
    · rw [List.mem_singleton] at hx
      subst hx
      cases x with
      | true => rfl
      | false => simp [hw] at hw'

end Wire

namespace BaseRelayController
open GpiodRelayController
variable (env : Gpiod) {c : BaseRelayController GpiodRelayController} {relayId other : ℤ}

def wire (relayId : ℤ) (c : BaseRelayController GpiodRelayController) : Wire :=
  ⟨(c.relay relayId).state,line relayId c.device,outcomes relayId c.device,c.device.request⟩

theorem wire_modify {f : RelayState → RelayState} (hf : ∀ rs, (f rs).state = rs.state) :
    (c.modify other f).wire relayId = c.wire relayId := by
  have hs : ((c.modify other f).relay relayId).state = (c.relay relayId).state := by
    by_cases h : relayId = other
    · subst h
      rw [relay_modify_self, hf]
    · rw [relay_modify_ne h]
  simp only [wire, hs]
  rfl

theorem wrote_modify {w : Wire} {f : RelayState → RelayState} (h : Wire.Wrote w (c.wire relayId))
    (hf : ∀ rs, (f rs).state = rs.state) : Wire.Wrote w ((c.modify other f).wire relayId) := by
  rwa [wire_modify hf]

theorem wire_setRelayPhysical_ne (hr : 1 ≤ relayId ∧ relayId ≤ 8) (h : relayId ≠ other) (state : Bool) :
    (c.setRelayPhysical (gpiod env) other state).2.wire relayId = c.wire relayId := by
  obtain ⟨hq,hl,ho⟩ := GpiodRelayController.setRelayPhysical_ne env (d := c.device) hr h state
  have hrelay : (c.setRelayPhysical (gpiod env) other state).2.relay relayId = c.relay relayId := rfl
  simp only [wire, hrelay]
  exact congr (congr (congrArg _ hl) ho) hq

theorem wire_setRelayPhysical_self (hq : c.device.request = true) (hr : 1 ≤ relayId ∧ relayId ≤ 8) (state : Bool) :
    ∃ ok, (c.setRelayPhysical (gpiod env) relayId state).2.wire relayId =
      { c.wire relayId with
        line := if ok then state else (c.wire relayId).line, outcomes := (c.wire relayId).outcomes ++ [ok] } := by
  obtain ⟨ok,d',hd',hq',hl,ho⟩ := GpiodRelayController.setRelayPhysical_self env hq hr state
  refine ⟨ok,?_⟩
  have hdev : (c.setRelayPhysical (gpiod env) relayId state).2.device = d' := congrArg Prod.snd hd'
  have hrelay : (c.setRelayPhysical (gpiod env) relayId state).2.relay relayId = c.relay relayId := rfl
  simp only [wire, hrelay, hdev, hl, ho, hq', hq]

theorem wire_modify_ne (h : relayId ≠ other) (f : RelayState → RelayState) :
    (c.modify other f).wire relayId = c.wire relayId := by
  simp only [wire, relay_modify_ne h]
  rfl

theorem wire_setRelayInternal_ne (hr : 1 ≤ relayId ∧ relayId ≤ 8) (h : relayId ≠ other) (state : Bool) :
    (c.setRelayInternal (gpiod env) other state).wire relayId = c.wire relayId := by
  unfold setRelayInternal
  dsimp only
  split_ifs
  · rw [wire_setRelayPhysical_ne env hr h, wire_modify_ne h, wire_modify_ne h]
  · exact wire_modify_ne h id

theorem wire_setRelayInternal_self (hq : c.device.request = true) (hr : 1 ≤ relayId ∧ relayId ≤ 8) (state : Bool) :
    Wire.Wrote (c.wire relayId) ((c.setRelayInternal (gpiod env) relayId state).wire relayId) ∧
      ((c.setRelayInternal (gpiod env) relayId state).wire relayId).state = state := by
  have hid : (c.modify relayId id).wire relayId = c.wire relayId := wire_modify fun _ => rfl
  have hs : ((c.modify relayId id).relay relayId).state = (c.wire relayId).state := congrArg Wire.state hid
  unfold setRelayInternal
  dsimp only
  rw [hs]
  by_cases h : (c.wire relayId).state = state
  · rw [if_neg (not_not.mpr h), hid]
    exact ⟨.quiet,h⟩
  · rw [if_pos h]
    have hnot : state = !(c.wire relayId).state := by
      cases state <;> simp_all
    have hset : ((c.modify relayId id).modify relayId fun rs => { rs with state }).wire relayId =
        { c.wire relayId with state } := by
      simp only [wire, relay_modify_self]
      rfl
    obtain ⟨ok,hw⟩ := wire_setRelayPhysical_self env
      (c := (c.modify relayId id).modify relayId fun rs => { rs with state }) hq hr state
    rw [hw, hset]
    refine ⟨?_,rfl⟩
    have hwrite := Wire.Wrote.write (w := c.wire relayId) ok
    rwa [← hnot] at hwrite

theorem wrote_execute (hq : c.device.request = true) (hr : 1 ≤ relayId ∧ relayId ≤ 8) (now : TimePoint)
    (cmd : Command) : Wire.Wrote (c.wire relayId) ((c.execute (gpiod env) now cmd).2.wire relayId) := by
  rcases execute_cases (gpiod env) c now cmd with ⟨_,he⟩ | ⟨_,he⟩
  · rw [he]
    exact .quiet
  · rw [he]
    by_cases h : relayId = cmd.relayId
    · subst h
      have hm : (c.modify cmd.relayId (Channel.Program now cmd)).wire cmd.relayId = c.wire cmd.relayId :=
        wire_modify fun rs => by cases cmd <;> rfl
      rw [← hm]
      exact (wire_setRelayInternal_self env (c := c.modify cmd.relayId (Channel.Program now cmd)) hq hr cmd.level).1
    · rw [wire_setRelayInternal_ne env hr h, wire_modify_ne h]
      exact .quiet

theorem wrote_tickRelay_self (hq : c.device.request = true) (hr : 1 ≤ relayId ∧ relayId ≤ 8) (now : TimePoint) :
    Wire.Wrote (c.wire relayId) ((tickRelay (gpiod env) now c relayId).wire relayId) := by
  have hvisit := visit (gpiod env) c relayId now
  generalize tickRelay (gpiod env) now c relayId = c' at hvisit ⊢
  cases hvisit with
  | quiet => exact .quiet
  | driven level hf => exact wrote_modify (wire_setRelayInternal_self env hq hr level).1 hf
  | lastCycle hcount hf => exact wrote_modify (wrote_modify .quiet hcount) hf
  | @nextCycle count f level hcount hf =>
    have hq' : (c.modify relayId count).device.request = true := hq
    have hwrote := (wire_setRelayInternal_self env hq' hr level).1
    rw [wire_modify hcount] at hwrote
    exact wrote_modify hwrote hf

theorem wire_tickRelay_ne (hr : 1 ≤ relayId ∧ relayId ≤ 8) (h : relayId ≠ other) (now : TimePoint) :
    (tickRelay (gpiod env) now c other).wire relayId = c.wire relayId := by
  have hvisit := visit (gpiod env) c other now
  generalize tickRelay (gpiod env) now c other = c' at hvisit ⊢
  cases hvisit with
  | quiet => rfl
  | driven => rw [wire_modify_ne h, wire_setRelayInternal_ne env hr h]
  | lastCycle => rw [wire_modify_ne h, wire_modify_ne h]
  | nextCycle => rw [wire_modify_ne h, wire_setRelayInternal_ne env hr h, wire_modify_ne h]

theorem wrote_handle (hq : c.device.request = true) (hr : 1 ≤ relayId ∧ relayId ≤ 8) (e : TimePoint × Event) :
    Wire.Wrote (c.wire relayId) ((c.handle (gpiod env) e).wire relayId) := by
  rcases e with ⟨now,e⟩
  cases e with
  | command cmd => exact wrote_execute env hq hr now cmd
  | tick =>
    change Wire.Wrote _ ((c.tick (gpiod env) now).wire relayId)
    by_cases hmem : relayId ∈ c.relayStates.keys
    · obtain ⟨s₀,hs₀,he⟩ := foldl_view_of_mem (tickRelay (gpiod env) now) (wire relayId)
        (fun s i hi => wire_tickRelay_ne env hr hi.symm now) Std.ExtTreeMap.nodup_keys hmem c
      have hq₀ : s₀.device.request = true := (congrArg Wire.request hs₀).trans hq
      rw [tick, he, ← hs₀]
      exact wrote_tickRelay_self env hq₀ hr now
    · rw [tick, foldl_view_of_notMem (tickRelay (gpiod env) now) (wire relayId)
        (fun s i hi => wire_tickRelay_ne env hr hi.symm now) hmem]
      exact .quiet
  | getRelay | getAllStates | getRelayStatus => exact .quiet

/-- What `getRelay` and `getAllStates` report is the level last driven on each line. -/
def Truthful (c : BaseRelayController GpiodRelayController) : Prop :=
  ∀ relayId, 1 ≤ relayId ∧ relayId ≤ 8 →
    c.getRelay relayId = some (line relayId c.device) ∧
    c.getAllStates[relayId]? = some (line relayId c.device)

/-- A command that reports success has its line at the requested level. -/
def Honest (env : Gpiod) (c : BaseRelayController GpiodRelayController) (e : TimePoint × Event) : Prop :=
  ∀ cmd, e.2 = .command cmd → (c.execute (gpiod env) e.1 cmd).1 = true →
    line cmd.relayId (c.handle (gpiod env) e).device = cmd.level

theorem truthful_iff (h : c.HasEight) :
    Truthful c ↔ ∀ relayId, 1 ≤ relayId ∧ relayId ≤ 8 → (c.wire relayId).state = (c.wire relayId).line := by
  refine forall_congr' fun relayId => forall_congr' fun hr => ?_
  rw [getRelay_eq h hr, getAllStates_eq h hr, and_self, Option.some.injEq]
  rfl

theorem honest_of_truthful (h : c.HasEight) {e : TimePoint × Event} (ht : Truthful (c.handle (gpiod env) e)) :
    Honest env c e := by
  intro cmd hcmd hok
  rcases e with ⟨now,e⟩
  dsimp only at hcmd hok
  subst hcmd
  rcases execute_cases (gpiod env) c now cmd with ⟨_,he⟩ | ⟨hr,he⟩
  · rw [he] at hok
    cases hok
  · have hw := (truthful_iff (h.handle _)).mp ht cmd.relayId hr
    have hlevel : ((c.handle (gpiod env) (now,.command cmd)).channel cmd.relayId).rs.state = cmd.level := by
      rw [handle, channel_execute_self hr]
      simp [Channel.command]
    exact hw.symm.trans hlevel

theorem request_run (hq : c.device.request = true) (es : List (TimePoint × Event)) :
    (es.foldl (handle (gpiod env)) c).device.request = true := by
  induction es generalizing c with
  | nil => exact hq
  | cons e es ih =>
    have hw : Wire.Wrote (c.wire 1) ((c.handle (gpiod env) e).wire 1) := wrote_handle env hq (by decide) e
    exact ih (hw.request_eq.trans hq)

theorem outcomes_run_subset (hq : c.device.request = true) (hr : 1 ≤ relayId ∧ relayId ≤ 8)
    (es : List (TimePoint × Event)) {ok : Bool} (hok : ok ∈ (c.wire relayId).outcomes) :
    ok ∈ ((es.foldl (handle (gpiod env)) c).wire relayId).outcomes := by
  induction es generalizing c with
  | nil => exact hok
  | cons e es ih =>
    have hw := wrote_handle env hq hr e
    exact ih (hw.request_eq.trans hq) (hw.outcomes_subset ok hok)

theorem agrees_run (hq : c.device.request = true) (hr : 1 ≤ relayId ∧ relayId ≤ 8)
    (es : List (TimePoint × Event)) (h : (c.wire relayId).Agrees) :
    ((es.foldl (handle (gpiod env)) c).wire relayId).Agrees := by
  induction es generalizing c with
  | nil => exact h
  | cons e es ih =>
    have hw := wrote_handle env hq hr e
    exact ih (hw.request_eq.trans hq) (hw.agrees h)

/-- From any state in which no write has failed, states and lines agree all along a run only if
no write of the run fails. -/
theorem all_ok_of_truthful (hq : c.device.request = true) (h : c.HasEight) (hr : 1 ≤ relayId ∧ relayId ≤ 8)
    (es : List (TimePoint × Event))
    (ht : ∀ pre post, es = pre ++ post → Truthful (pre.foldl (handle (gpiod env)) c))
    (hok : ∀ ok ∈ (c.wire relayId).outcomes, ok = true) :
    ∀ ok ∈ ((es.foldl (handle (gpiod env)) c).wire relayId).outcomes, ok = true := by
  induction es generalizing c with
  | nil => exact hok
  | cons e es ih =>
    have hw := wrote_handle env hq hr e
    have hnow := (truthful_iff h).mp (ht [] _ rfl) relayId hr
    have hnext := (truthful_iff (h.handle _)).mp (ht [e] _ rfl) relayId hr
    refine ih (hw.request_eq.trans hq) (h.handle e) ?_ (hw.all_ok hnow hnext hok)
    intro pre post hpre
    exact ht (e :: pre) post (congrArg (List.cons e) hpre)

/-- From `init` on, reported states equal the lines after every event, and no command reports a
level its line does not have, exactly when no write of the run fails. -/
theorem truthful_run_iff (env : Gpiod) (level : ℕ → LineValue) (c : BaseRelayController GpiodRelayController)
    (hinit : (construct { level }).init (gpiod env) = (true,c))
    (es : List (TimePoint × Event)) :
    ((∀ pre post, es = pre ++ post → Truthful (pre.foldl (handle (gpiod env)) c)) ∧
      ∀ pre e post, es = pre ++ e :: post → Honest env (pre.foldl (handle (gpiod env)) c) e) ↔
    ∀ relayId, 1 ≤ relayId ∧ relayId ≤ 8 →
      ∀ ok ∈ outcomes relayId (es.foldl (handle (gpiod env)) c).device, ok = true := by
  obtain ⟨hok,rfl⟩ := Prod.mk.inj hinit
  set device : GpiodRelayController := { level }
  set c : BaseRelayController GpiodRelayController :=
    { construct device with device := (GpiodRelayController.initHardware env device).2 }
  have hdev : GpiodRelayController.initHardware env device = (true,c.device) := Prod.ext hok rfl
  have height : c.HasEight := construct_hasEight device
  have hstart : ∀ relayId, 1 ≤ relayId ∧ relayId ≤ 8 → c.device.request = true ∧
      (c.wire relayId).state = (c.wire relayId).line ∧ (c.wire relayId).outcomes = [] := by
    intro relayId hr
    obtain ⟨hq,hl,ha⟩ := initHardware_line env hdev hr
    have hstate : (c.wire relayId).state = false :=
      congrArg (fun ch => ch.rs.state) (channel_construct device relayId)
    refine ⟨hq,hstate.trans hl.symm,?_⟩
    simp [wire, outcomes, ha, device]
  have hq := (hstart 1 (by decide)).1
  constructor
  · rintro ⟨ht,_⟩ relayId hr
    refine all_ok_of_truthful env hq height hr es ht ?_
    rw [(hstart relayId hr).2.2]
    simp
  · intro hall
    have ht : ∀ pre post, es = pre ++ post → Truthful (pre.foldl (handle (gpiod env)) c) := by
      rintro pre post rfl
      refine (truthful_iff (height.run pre)).mpr fun relayId hr => ?_
      refine agrees_run env hq hr pre (fun _ => (hstart relayId hr).2.1) fun ok hmem => hall relayId hr ok ?_
      rw [List.foldl_append]
      exact outcomes_run_subset env (request_run env hq pre) hr post hmem
    refine ⟨ht,?_⟩
    rintro pre e post rfl
    refine honest_of_truthful env (height.run pre) ?_
    have h := ht (pre ++ [e]) post (by simp)
    rwa [List.foldl_append] at h

/-- Every `set_value` throws: the command reports success, the state says on, the line is off. -/
theorem truthful_fails :
    ¬∀ (env : Gpiod) (level : ℕ → LineValue) (c : BaseRelayController GpiodRelayController),
      (construct { level }).init (gpiod env) = (true,c) → ∀ es : List (TimePoint × Event),
      (∀ pre post, es = pre ++ post → Truthful (pre.foldl (handle (gpiod env)) c)) ∧
      ∀ pre e post, es = pre ++ e :: post → Honest env (pre.foldl (handle (gpiod env)) c) e := by
  intro h
  have hh := h ⟨fun _ => true,true,fun _ _ _ => false⟩ (fun _ => .inactive) _ rfl
    [(1,.command (.setRelay 1 true))]
  have hl := hh.2 [] (1,.command (.setRelay 1 true)) [] rfl (.setRelay 1 true) rfl (by decide)
  revert hl
  decide

/-- A board whose writes all succeed, and one command. -/
theorem truthful_run_iff_working :
    let env : Gpiod := ⟨fun _ => true,true,fun _ _ _ => true⟩
    let c := ((construct { level := fun _ => .inactive }).init (gpiod env)).2
    Truthful ([(1,.command (.setRelay 1 true))].foldl (handle (gpiod env)) c) := by
  intro env c
  have hw := truthful_run_iff env (fun _ => .inactive) c rfl [(1,.command (.setRelay 1 true))]
  refine (hw.mpr ?_).1 _ [] (List.append_nil _).symm
  intro relayId hr
  have hall : ∀ id ∈ [(1 : ℤ),2,3,4,5,6,7,8],
      ∀ ok ∈ outcomes id ([(1,.command (.setRelay 1 true))].foldl (handle (gpiod env)) c).device, ok = true := by
    decide
  exact hall relayId (by simp only [List.mem_cons]; omega)

end BaseRelayController
end MiniHil
