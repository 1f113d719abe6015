import MiniHil.Core.RelayInvariant
import MiniHil.Foundation.CriticalSections

/-! # The controller under its mutex

The member functions of `BaseRelayController` access by access, as the tick thread and the threads of the clients run
them under `m_mutex` while the clock goes on. Each access is one assignment, one reading of a relay state, one virtual
call or one reading of `steady_clock`.
-/
namespace MiniHil
open Runs

/-- What a call on the controller returns; `none` where it throws. -/
inductive Outcome
  | done (ok : Bool)
  | ticked
  | state (state : Option Bool)
  | states (states : Std.ExtTreeMap ℤ Bool compare)
  | status (text : Option String)

namespace BaseRelayController
variable {H : Type}

/-- The body of a member function under `m_mutex`. -/
abbrev Code (H : Type) := Program TimePoint (BaseRelayController H) Outcome

namespace Code
variable (hw : Hardware H) (relayId : ℤ)

/-- An assignment through the reference `rs`. -/
def assign (f : RelayState → RelayState) (next : Code H) : Code H := .write (modify relayId f) next

def setRelayInternal (state : Bool) (next : Code H) : Code H :=
  assign relayId id <| .read fun c =>
    if (c.relay relayId).state ≠ state then
      assign relayId (fun rs => { rs with state }) <|
      .write (fun c => (c.setRelayPhysical hw relayId state).2) next
    else next

def setRelay (state : Bool) : Code H :=
  if relayId < 1 ∨ relayId > 8 then .ret (.done false) else
    assign relayId id <|
    assign relayId (fun rs => { rs with active := false }) <|
    assign relayId (fun rs => { rs with mode := .toggle }) <|
    setRelayInternal hw relayId state <| .ret (.done true)

def getRelay : Code H :=
  if relayId < 1 ∨ relayId > 8 then .ret (.state (some false)) else
    .read fun c => .ret (.state ((c.relayStates[relayId]?).map RelayState.state))

/-- The loop of `getAllStates` over the relays that are left. -/
def collect : List ℤ → Std.ExtTreeMap ℤ Bool compare → Code H
  | [], states => .ret (.states states)
  | relayId :: relayIds, states => .read fun c => collect relayIds (states.insert relayId (c.relay relayId).state)

def getAllStates : Code H := .read fun c => collect c.relayStates.keys ∅

def startTimer (seconds : UInt32) : Code H :=
  if relayId < 1 ∨ relayId > 8 then .ret (.done false) else
    assign relayId id <|
    assign relayId (fun rs => { rs with mode := .timer }) <|
    assign relayId (fun rs => { rs with active := true }) <|
    .sample fun now =>
    assign relayId (fun rs => { rs with startTime := now }) <|
    assign relayId (fun rs => { rs with durationMs := seconds.toUInt64 * 1000 }) <|
    setRelayInternal hw relayId true <| .ret (.done true)

def startPulse (durationMs : UInt32) : Code H :=
  if relayId < 1 ∨ relayId > 8 then .ret (.done false) else
    assign relayId id <|
    assign relayId (fun rs => { rs with mode := .pulse }) <|
    assign relayId (fun rs => { rs with active := true }) <|
    .sample fun now =>
    assign relayId (fun rs => { rs with startTime := now }) <|
    assign relayId (fun rs => { rs with durationMs := durationMs.toUInt64 }) <|
    setRelayInternal hw relayId true <| .ret (.done true)

def startBlink (onMs offMs count : UInt32) : Code H :=
  if relayId < 1 ∨ relayId > 8 then .ret (.done false) else
    assign relayId id <|
    assign relayId (fun rs => { rs with mode := .blink }) <|
    assign relayId (fun rs => { rs with active := true }) <|
    assign relayId (fun rs => { rs with blinkOnMs := onMs }) <|
    assign relayId (fun rs => { rs with blinkOffMs := offMs }) <|
    assign relayId (fun rs => { rs with blinkCount := count }) <|
    assign relayId (fun rs => { rs with blinkPhase := true }) <|
    .sample fun now =>
    assign relayId (fun rs => { rs with startTime := now }) <|
    setRelayInternal hw relayId true <| .ret (.done true)

/-- The clock is read for a relay with a program only. -/
def getRelayStatus : Code H :=
  if relayId < 1 ∨ relayId > 8 then .ret (.status (some "invalid channel")) else
    .read fun c => match c.relayStates[relayId]? with
      | none => .ret (.status none)
      | some rs =>
        if !rs.active then .ret (.status (some (statusText relayId rs rs.startTime)))
        else .sample fun now => .ret (.status (some (statusText relayId rs now)))

def beginOnPhase (now : TimePoint) (next : Code H) : Code H :=
  setRelayInternal hw relayId true <|
  assign relayId (fun rs => { rs with blinkPhase := true }) <|
  assign relayId (fun rs => { rs with startTime := now }) next

def endProgram (next : Code H) : Code H :=
  assign relayId (fun rs => { rs with active := false }) <|
  assign relayId (fun rs => { rs with mode := .toggle }) next

/-- One iteration of the loop of `tick`, and what follows on it. -/
def tickRelay (now : TimePoint) (next : Code H) : Code H := .read fun c =>
  let rs := c.relay relayId
  if !rs.active then next
  else if rs.mode = .timer ∨ rs.mode = .pulse then
    if UInt64.ofInt (elapsedMs now rs.startTime) ≥ rs.durationMs then
      setRelayInternal hw relayId false <| endProgram relayId next
    else next
  else if rs.mode = .blink then
    if rs.blinkPhase then
      if UInt32.ofInt (elapsedMs now rs.startTime) ≥ rs.blinkOnMs then
        setRelayInternal hw relayId false <|
        assign relayId (fun rs => { rs with blinkPhase := false }) <|
        assign relayId (fun rs => { rs with startTime := now }) next
      else next
    else if UInt32.ofInt (elapsedMs now rs.startTime) ≥ rs.blinkOffMs then
      if rs.blinkCount > 0 then
        assign relayId (fun rs => { rs with blinkCount := rs.blinkCount - 1 }) <| .read fun c =>
          if (c.relay relayId).blinkCount = 0 then endProgram relayId next else beginOnPhase hw relayId now next
      else beginOnPhase hw relayId now next
    else next
  else next

def tick : Code H := .sample fun now => .read fun c =>
  c.relayStates.keys.foldr (fun relayId next => tickRelay hw relayId now next) (.ret .ticked)

variable {hw} {relayId} {now : TimePoint} {c : BaseRelayController H} {next : Code H}

theorem modify_modify (f g : RelayState → RelayState) :
    (c.modify relayId f).modify relayId g = c.modify relayId fun rs => g (f rs) := by
  have hmap : ((c.modify relayId f).modify relayId g).relayStates = (c.modify relayId fun rs => g (f rs)).relayStates := by
    apply Std.ExtTreeMap.ext_getElem?
    intro k
    by_cases hk : relayId = k
    · simp [modify, relay, hk]
    · simp [modify, Std.ExtTreeMap.getElem?_insert, hk]
  unfold modify at hmap ⊢
  exact congrArg (fun m => { c with relayStates := m }) hmap

@[simp] theorem runAt_assign (f : RelayState → RelayState) :
    (assign relayId f next).runAt now c = next.runAt now (c.modify relayId f) := rfl

@[simp] theorem runAt_setRelayInternal (state : Bool) :
    (setRelayInternal hw relayId state next).runAt now c = next.runAt now (c.setRelayInternal hw relayId state) := by
  unfold setRelayInternal BaseRelayController.setRelayInternal
  rw [runAt_assign, Program.runAt_read]
  dsimp only
  split_ifs
  · rfl
  · rfl

theorem runAt_setRelay (state : Bool) : (setRelay hw relayId state).runAt now c =
    (.done (c.setRelay hw relayId state).1,(c.setRelay hw relayId state).2) := by
  unfold setRelay BaseRelayController.setRelay
  split_ifs
  · rfl
  · simp only [runAt_assign, runAt_setRelayInternal, modify_modify, id_eq]
    rfl

theorem runAt_startTimer (seconds : UInt32) : (startTimer hw relayId seconds).runAt now c =
    (.done (c.startTimer hw now relayId seconds).1,(c.startTimer hw now relayId seconds).2) := by
  unfold startTimer BaseRelayController.startTimer
  split_ifs
  · rfl
  · simp only [runAt_assign, runAt_setRelayInternal, Program.runAt_sample, modify_modify, id_eq]
    rfl

theorem runAt_startPulse (durationMs : UInt32) : (startPulse hw relayId durationMs).runAt now c =
    (.done (c.startPulse hw now relayId durationMs).1,(c.startPulse hw now relayId durationMs).2) := by
  unfold startPulse BaseRelayController.startPulse
  split_ifs
  · rfl
  · simp only [runAt_assign, runAt_setRelayInternal, Program.runAt_sample, modify_modify, id_eq]
    rfl

theorem runAt_startBlink (onMs offMs count : UInt32) : (startBlink hw relayId onMs offMs count).runAt now c =
    (.done (c.startBlink hw now relayId onMs offMs count).1,(c.startBlink hw now relayId onMs offMs count).2) := by
  unfold startBlink BaseRelayController.startBlink
  split_ifs
  · rfl
  · simp only [runAt_assign, runAt_setRelayInternal, Program.runAt_sample, modify_modify, id_eq]
    rfl

theorem runAt_getRelay : (getRelay relayId).runAt now c = (.state (c.getRelay relayId),c) := by
  unfold getRelay BaseRelayController.getRelay
  split_ifs
  · rfl
  · rfl

theorem runAt_getRelayStatus : (getRelayStatus relayId).runAt now c = (.status (c.getRelayStatus now relayId),c) := by
  unfold getRelayStatus BaseRelayController.getRelayStatus
  split_ifs
  · rfl
  · rw [Program.runAt_read]
    cases c.relayStates[relayId]? with
    | none => rfl
    | some rs =>
      dsimp only
      by_cases ha : rs.active = true
      · rw [if_neg (by simp [ha])]
        rfl
      · have htoggle (now : TimePoint) : statusText relayId rs now = statusText relayId rs rs.startTime := by
          simp [statusText, ha]
        rw [if_pos (by simp [ha]), Option.map_some, htoggle now]
        rfl

theorem runAt_collect (relayIds : List ℤ) (states : Std.ExtTreeMap ℤ Bool compare) :
    (collect relayIds states).runAt now c =
      (.states (relayIds.foldl (fun m relayId => m.insert relayId (c.relay relayId).state) states),c) := by
  induction relayIds generalizing states with
  | nil => rfl
  | cons relayId relayIds ih =>
    rw [collect, Program.runAt_read, ih]
    rfl

theorem getElem?_collected (relayIds : List ℤ) (states : Std.ExtTreeMap ℤ Bool compare) (k : ℤ) :
    (relayIds.foldl (fun m relayId => m.insert relayId (c.relay relayId).state) states)[k]? =
      if k ∈ relayIds then some (c.relay k).state else states[k]? := by
  induction relayIds generalizing states with
  | nil => rfl
  | cons relayId relayIds ih =>
    rw [List.foldl_cons, ih]
    by_cases hmem : k ∈ relayIds
    · rw [if_pos hmem, if_pos (List.mem_cons_of_mem _ hmem)]
    · rw [if_neg hmem, Std.ExtTreeMap.getElem?_insert]
      by_cases hk : relayId = k
      · subst hk
        simp
      · simp [hk, hmem, Ne.symm hk]

theorem runAt_getAllStates : getAllStates.runAt now c = (.states c.getAllStates,c) := by
  unfold getAllStates
  rw [Program.runAt_read, runAt_collect]
  congr 2
  apply Std.ExtTreeMap.ext_getElem?
  intro k
  rw [getElem?_collected, BaseRelayController.getAllStates, Std.ExtTreeMap.getElem?_map]
  by_cases hmem : k ∈ c.relayStates
  · rw [if_pos (Std.ExtTreeMap.mem_keys.mpr hmem), Std.ExtTreeMap.getElem?_eq_some_getElem hmem, relay,
      Std.ExtTreeMap.getElem_eq_getD]
    rfl
  · rw [if_neg (fun h => hmem (Std.ExtTreeMap.mem_keys.mp h)), Std.ExtTreeMap.getElem?_eq_none hmem]
    rfl

@[simp] theorem runAt_endProgram : (endProgram relayId next).runAt now c =
    next.runAt now (c.modify relayId fun rs => { rs with active := false, mode := .toggle }) := by
  rw [endProgram, runAt_assign, runAt_assign, modify_modify]

@[simp] theorem runAt_beginOnPhase (began : TimePoint) : (beginOnPhase hw relayId began next).runAt now c =
    next.runAt now (c.beginOnPhase hw began relayId) := by
  rw [beginOnPhase, runAt_setRelayInternal, runAt_assign, runAt_assign, modify_modify]
  rfl

theorem runAt_tickRelay (began : TimePoint) : (tickRelay hw relayId began next).runAt now c =
    next.runAt now (c.tickRelay hw began relayId) := by
  unfold tickRelay BaseRelayController.tickRelay
  rw [Program.runAt_read]
  dsimp only
  split_ifs
  · rfl
  · rw [runAt_setRelayInternal, runAt_endProgram]
  · rfl
  · rw [runAt_setRelayInternal, runAt_assign, runAt_assign, modify_modify]
  · rfl
  · next hzero => rw [runAt_assign, Program.runAt_read, if_pos hzero, runAt_endProgram]
  · next hzero => rw [runAt_assign, Program.runAt_read, if_neg hzero, runAt_beginOnPhase]
  · rw [runAt_beginOnPhase]
  · rfl
  · rfl

theorem runAt_tick : (tick hw).runAt now c = (.ticked,c.tick hw now) := by
  have hloop (relayIds : List ℤ) (c : BaseRelayController H) :
      (relayIds.foldr (fun relayId next => tickRelay hw relayId now next) (.ret .ticked)).runAt now c =
        (.ticked,relayIds.foldl (BaseRelayController.tickRelay hw now) c) := by
    induction relayIds generalizing c with
    | nil => rfl
    | cons relayId relayIds ih =>
      rw [List.foldr_cons, runAt_tickRelay, ih, List.foldl_cons]
  exact hloop c.relayStates.keys c

theorem timeless_setRelayInternal (state : Bool) (h : next.Timeless) :
    (setRelayInternal hw relayId state next).Timeless := by
  intro c
  dsimp only
  split_ifs
  · exact h
  · exact h

theorem timeless_endProgram (h : next.Timeless) : (endProgram relayId next).Timeless := h

theorem timeless_beginOnPhase (began : TimePoint) (h : next.Timeless) :
    (beginOnPhase hw relayId began next).Timeless :=
  timeless_setRelayInternal true h

theorem timeless_tickRelay (began : TimePoint) (h : next.Timeless) : (tickRelay hw relayId began next).Timeless := by
  intro c
  dsimp only
  split_ifs
  · exact h
  · exact timeless_setRelayInternal false (timeless_endProgram h)
  · exact h
  · exact timeless_setRelayInternal false h
  · exact h
  · intro c
    dsimp only
    split_ifs
    · exact timeless_endProgram h
    · exact timeless_beginOnPhase began h
  · exact timeless_beginOnPhase began h
  · exact h
  · exact h

theorem timeless_collect (relayIds : List ℤ) (states : Std.ExtTreeMap ℤ Bool compare) :
    (collect relayIds states : Code H).Timeless := by
  induction relayIds generalizing states with
  | nil => trivial
  | cons relayId relayIds ih => exact fun c => ih _

end Code

variable (hw : Hardware H)

def body : Event → Code H
  | .command (.setRelay relayId state) => Code.setRelay hw relayId state
  | .command (.startTimer relayId seconds) => Code.startTimer hw relayId seconds
  | .command (.startPulse relayId durationMs) => Code.startPulse hw relayId durationMs
  | .command (.startBlink relayId onMs offMs count) => Code.startBlink hw relayId onMs offMs count
  | .tick => Code.tick hw
  | .getRelay relayId => Code.getRelay relayId
  | .getAllStates => Code.getAllStates
  | .getRelayStatus relayId => Code.getRelayStatus relayId

/-- What a call returns that is made at one instant. -/
def outcome (now : TimePoint) (c : BaseRelayController H) : Event → Outcome
  | .command cmd => .done (c.execute hw now cmd).1
  | .tick => .ticked
  | .getRelay relayId => .state (c.getRelay relayId)
  | .getAllStates => .states c.getAllStates
  | .getRelayStatus relayId => .status (c.getRelayStatus now relayId)

variable {hw}

theorem body_runAt (e : Event) (now : TimePoint) (c : BaseRelayController H) :
    (body hw e).runAt now c = (c.outcome hw now e,c.handle hw (now,e)) := by
  cases e with
  | command cmd =>
    cases cmd with
    | setRelay => exact Code.runAt_setRelay _
    | startTimer => exact Code.runAt_startTimer _
    | startPulse => exact Code.runAt_startPulse _
    | startBlink => exact Code.runAt_startBlink ..
  | tick => exact Code.runAt_tick
  | getRelay => exact Code.runAt_getRelay
  | getAllStates => exact Code.runAt_getAllStates
  | getRelayStatus => exact Code.runAt_getRelayStatus

theorem body_oneInstant (e : Event) : (body hw e).OneInstant := by
  cases e with
  | command cmd =>
    cases cmd with
    | setRelay relayId state =>
      have hret : (.ret (.done true) : Code H).Timeless := trivial
      exact .ite trivial (Code.timeless_setRelayInternal state hret).oneInstant
    | startTimer | startPulse | startBlink =>
      have hret : (.ret (.done true) : Code H).Timeless := trivial
      exact .ite trivial fun now => Code.timeless_setRelayInternal true hret
  | tick =>
    intro now c
    dsimp only
    generalize c.relayStates.keys = relayIds
    induction relayIds with
    | nil => trivial
    | cons relayId relayIds ih => exact Code.timeless_tickRelay now ih
  | getRelay relayId => exact .ite trivial fun c => trivial
  | getAllStates => exact fun c => (Code.timeless_collect _ _).oneInstant
  | getRelayStatus relayId =>
    refine .ite trivial fun c => ?_
    dsimp only
    split
    · trivial
    · exact .ite trivial fun now => trivial

/-- The calls of `IDeviceController` and the ticks, under `m_mutex`. -/
def guarded (hw : Hardware H) : Guarded TimePoint (BaseRelayController H) Event Outcome where
  body := body hw
  oneInstant := body_oneInstant

def events (served : List (Served TimePoint Event Outcome)) : List (TimePoint × Event) :=
  served.map fun e => (e.instant,e.op)

theorem serial_events {c d : BaseRelayController H} {served : List (Served TimePoint Event Outcome)}
    (h : (guarded hw).Serial c served d) : d = (events served).foldl (handle hw) c ∧
      ∀ k e, served[k]? = some e →
        e.result = ((events (served.take k)).foldl (handle hw) c).outcome hw e.instant e.op := by
  induction served generalizing c with
  | nil => exact ⟨h,nofun⟩
  | cons e served ih =>
    obtain ⟨hresult,hserial⟩ := h
    have hcall : (guarded hw).call e c = (c.outcome hw e.instant e.op,c.handle hw (e.instant,e.op)) := body_runAt ..
    rw [hcall] at hresult hserial
    obtain ⟨hstate,hresults⟩ := ih hserial
    refine ⟨hstate,?_⟩
    intro k e' hk
    cases k with
    | zero =>
      obtain rfl := Option.some.inj hk
      exact hresult.symm
    | succ k => exact hresults k e' hk

theorem reachable_foldl (hw : Hardware H) (device : H) {begun : TimePoint} {es : List (TimePoint × Event)}
    (hbegun : ∀ e ∈ es, begun ≤ e.1) (hsorted : (es.map Prod.fst).Pairwise (· ≤ ·)) :
    ∃ now, Run (timedStep hw) (begun,construct device) es (now,es.foldl (handle hw) (construct device)) ∧
      (now = begun ∨ ∃ e ∈ es, now = e.1) := by
  generalize construct device = c
  induction es generalizing begun c with
  | nil => exact ⟨begun,.refl,.inl rfl⟩
  | cons e es ih =>
    obtain ⟨hhead,hsorted⟩ := List.pairwise_cons.mp hsorted
    have hrest : ∀ e' ∈ es, e.1 ≤ e'.1 := fun e' he' => hhead _ (List.mem_map_of_mem he')
    obtain ⟨now,hr,hnow⟩ := ih hrest hsorted (c.handle hw e)
    refine ⟨now,.step (timedStep_handle (hbegun e List.mem_cons_self)) hr,.inr ?_⟩
    rcases hnow with rfl | ⟨e',he',rfl⟩
    · exact ⟨e,List.mem_cons_self,rfl⟩
    · exact ⟨e',List.mem_cons_of_mem _ he',rfl⟩

/-- Any number of threads under `m_mutex`, however their accesses and the clock are interleaved. One thread at a time
is inside. The calls that were served, in the order in which the mutex was released, have the results of the controller
steps taken one by one at non-decreasing times, and a call comes after all those that were served when it was made.
The instant of a call is not before the clock at which it was made, and not after the one at which it returned.
Whenever the mutex is free the controller is in the state that these steps reach. No call is stuck. -/
theorem threads_serialized {ι : Type} [DecidableEq ι] (hw : Hardware H) (device : H) (begun : TimePoint)
    (ls : List (Threads.Label ι TimePoint Event)) (s : Threads ι TimePoint (BaseRelayController H) Event Outcome)
    (hr : Run (Threads.Step (guarded hw)) { shared := construct device, clock := begun } ls s) :
    (∀ i op since instant rest, s.phases i = .inside op since instant rest → s.owner = some i) ∧
    (∀ k e, s.served[k]? = some e → e.since.served ≤ k ∧
      e.result = ((events (s.served.take k)).foldl (handle hw) (construct device)).outcome hw e.instant e.op) ∧
    (∀ i e, s.phases i = .returning e → e ∈ s.served) ∧
    ((events s.served).map Prod.fst).Pairwise (· ≤ ·) ∧
    (∀ e ∈ events s.served, begun ≤ e.1 ∧ e.1 ≤ s.clock) ∧
    (∀ e ∈ s.served, e.since.clock ≤ e.instant) ∧
    (∀ e at_, (e,at_) ∈ s.returned → e ∈ s.served ∧ e.instant ≤ at_.clock ∧ at_.clock ≤ s.clock) ∧
    (s.owner = none → s.shared = (events s.served).foldl (handle hw) (construct device) ∧
      ∃ now, now ≤ s.clock ∧ Reachable hw device (now,s.shared)) ∧
    ∀ i, ∃ ls' t, Run (Threads.Step (guarded hw)) s ls' t ∧ t.phases i = .idle := by
  have hi := Threads.run_inv hr
  obtain ⟨before,hserial⟩ := hi.serial
  have hwithin : ∀ e ∈ events s.served, begun ≤ e.1 ∧ e.1 ≤ s.clock := by
    intro e he
    obtain ⟨call,hcall,rfl⟩ := List.mem_map.mp he
    exact hi.within.2 call hcall
  have hsorted : ((events s.served).map Prod.fst).Pairwise (· ≤ ·) := by
    rw [events, List.map_map]
    exact hi.instants
  refine ⟨?_,?_,hi.returning,hsorted,hwithin,hi.since_le,fun e at_ h => hi.returned (e,at_) h,?_,hi.returns⟩
  · exact fun i op since instant rest hin => (hi.inside i op since instant rest hin).1
  · exact fun k e hk => ⟨hi.order k e hk,(serial_events hserial).2 k e hk⟩
  · intro hfree
    have hshared := (serial_events (hi.free hfree)).1
    obtain ⟨now,hrun,hnow⟩ := reachable_foldl hw device (fun e he => (hwithin e he).1) hsorted
    refine ⟨hshared,now,?_,begun,events s.served,?_⟩
    · rcases hnow with rfl | ⟨e,he,rfl⟩
      · exact hi.within.1
      · exact (hwithin e he).2
    · rw [hshared]
      exact hrun

/-- A client reads relay 3 while the tick thread waits, and returns at the clock 9. -/
theorem threads_serialized_query :
    ∃ s : Threads Bool TimePoint (BaseRelayController Unit) Event Outcome,
      s.phases true = .waiting .tick ⟨0,5⟩ ∧
      s.returned = [(⟨.getRelay 3,⟨0,5⟩,5,.state ((construct ()).getRelay 3)⟩,⟨1,9⟩)] ∧
      (∀ e at_, (e,at_) ∈ s.returned → e ∈ s.served ∧ e.since.clock ≤ e.instant ∧ e.instant ≤ at_.clock) ∧
      s.shared = construct () := by
  have hr := threads_serialized sil () 5
    [.call false (.getRelay 3),.call true .tick,.acquire false,.elapse 7,.access false,.release false,.elapse 9,.leave false] _
    (.step (.call rfl) (.step (.call rfl) (.step (.acquire rfl rfl) (.step (.elapse (by decide))
      (.step (.read rfl) (.step (.release rfl) (.step (.elapse (by decide)) (.single (.leave rfl)))))))))
  obtain ⟨_,_,_,_,_,hsince,hreturned,hfree,_⟩ := hr
  refine ⟨_,rfl,rfl,?_,(hfree rfl).1⟩
  intro e at_ h
  obtain ⟨hserved,hinstant,_⟩ := hreturned e at_ h
  exact ⟨hserved,hsince e hserved,hinstant⟩

end BaseRelayController
end MiniHil
