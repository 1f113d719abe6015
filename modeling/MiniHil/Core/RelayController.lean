import Mathlib.Algebra.Group.Int.Defs
import Mathlib.Algebra.Group.Nat.Defs
import Mathlib.Data.Int.Basic
import Std.Data.ExtTreeMap

/-! # The base relay controller

`BaseRelayController` of `core/base_relay_controller`: the eight relay states, the commands,
the queries and one `tick`. The two virtual functions that a derived controller supplies are
the parameter `Hardware`; every call of `setRelayPhysical` is also recorded in `calls`.
Each definition is the critical section of `m_mutex` of the member function it is named after.
-/
namespace MiniHil

/-- A reading of `std::chrono::steady_clock`: nanoseconds since boot in a signed 64-bit count. -/
abbrev TimePoint := Fin (2 ^ 63)

/-- `duration_cast<milliseconds>(now - startTime).count()` -/
def elapsedMs (now startTime : TimePoint) : ℤ :=
  Int.tdiv ((now.val : ℤ) - (startTime.val : ℤ)) 1000000

inductive RelayMode
  | toggle
  | timer
  | pulse
  | blink
  deriving DecidableEq, Repr

structure RelayState where
  mode : RelayMode := .toggle
  active : Bool := false
  state : Bool := false
  startTime : TimePoint := 0
  durationMs : UInt64 := 0
  blinkOnMs : UInt32 := 0
  blinkOffMs : UInt32 := 0
  blinkCount : UInt32 := 0
  blinkPhase : Bool := false
  deriving DecidableEq, Repr

/-- The pure virtual functions of the base class, over the state of the derived class. -/
structure Hardware (H : Type*) where
  initHardware : H → Bool × H
  setRelayPhysical : ℤ → Bool → H → Bool × H

structure BaseRelayController (H : Type*) where
  relayStates : Std.ExtTreeMap ℤ RelayState compare
  calls : List (ℤ × Bool)
  device : H

namespace BaseRelayController
variable {H : Type*}

/-- The constructor: default states for the relays 1 to 8. -/
def construct (device : H) : BaseRelayController H where
  relayStates := [1,2,3,4,5,6,7,8].foldl (fun m i => m.insert i {}) ∅
  calls := []
  device := device

/-- `init` without the start of the tick thread. -/
def init (hw : Hardware H) (c : BaseRelayController H) : Bool × BaseRelayController H :=
  let (ok, device) := hw.initHardware c.device
  (ok, { c with device })

/-- The value behind the reference `m_relayStates[relayId]`. -/
def relay (relayId : ℤ) (c : BaseRelayController H) : RelayState := c.relayStates.getD relayId {}

/-- Assignments through the reference `m_relayStates[relayId]`; like `operator[]` it inserts a
default entry for a missing key. -/
def modify (relayId : ℤ) (f : RelayState → RelayState) (c : BaseRelayController H) :
    BaseRelayController H :=
  { c with relayStates := c.relayStates.insert relayId (f (c.relay relayId)) }

def setRelayPhysical (hw : Hardware H) (relayId : ℤ) (state : Bool) (c : BaseRelayController H) :
    Bool × BaseRelayController H :=
  let (ok, device) := hw.setRelayPhysical relayId state c.device
  (ok, { c with calls := c.calls ++ [(relayId, state)], device })

/-- The result of `setRelayPhysical` is dropped. -/
def setRelayInternal (hw : Hardware H) (relayId : ℤ) (state : Bool) (c : BaseRelayController H) :
    BaseRelayController H :=
  let c := c.modify relayId id
  if (c.relay relayId).state ≠ state then
    ((c.modify relayId fun rs => { rs with state }).setRelayPhysical hw relayId state).2
  else c

def setRelay (hw : Hardware H) (relayId : ℤ) (state : Bool) (c : BaseRelayController H) :
    Bool × BaseRelayController H :=
  if relayId < 1 ∨ relayId > 8 then (false, c) else
    let c := c.modify relayId fun rs => { rs with active := false, mode := .toggle }
    (true, c.setRelayInternal hw relayId state)

/-- `none` is the `std::out_of_range` that `m_relayStates.at` throws for a missing key. -/
def getRelay (relayId : ℤ) (c : BaseRelayController H) : Option Bool :=
  if relayId < 1 ∨ relayId > 8 then some false else
    (c.relayStates[relayId]?).map RelayState.state

def getAllStates (c : BaseRelayController H) : Std.ExtTreeMap ℤ Bool compare :=
  c.relayStates.map fun _ rs => rs.state

def startTimer (hw : Hardware H) (now : TimePoint) (relayId : ℤ) (seconds : UInt32)
    (c : BaseRelayController H) : Bool × BaseRelayController H :=
  if relayId < 1 ∨ relayId > 8 then (false, c) else
    let c := c.modify relayId fun rs =>
      { rs with mode := .timer, active := true, startTime := now, durationMs := seconds.toUInt64 * 1000 }
    (true, c.setRelayInternal hw relayId true)

def startPulse (hw : Hardware H) (now : TimePoint) (relayId : ℤ) (durationMs : UInt32)
    (c : BaseRelayController H) : Bool × BaseRelayController H :=
  if relayId < 1 ∨ relayId > 8 then (false, c) else
    let c := c.modify relayId fun rs =>
      { rs with mode := .pulse, active := true, startTime := now, durationMs := durationMs.toUInt64 }
    (true, c.setRelayInternal hw relayId true)

def startBlink (hw : Hardware H) (now : TimePoint) (relayId : ℤ) (onMs offMs count : UInt32)
    (c : BaseRelayController H) : Bool × BaseRelayController H :=
  if relayId < 1 ∨ relayId > 8 then (false, c) else
    let c := c.modify relayId fun rs =>
      { rs with
        mode := .blink, active := true, blinkOnMs := onMs, blinkOffMs := offMs,
        blinkCount := count, blinkPhase := true, startTime := now }
    (true, c.setRelayInternal hw relayId true)

/-- `remaining` of the Timer and Pulse cases, in unsigned 64-bit arithmetic. -/
def remainingMs (rs : RelayState) (now : TimePoint) : UInt64 :=
  let elapsed := UInt64.ofInt (elapsedMs now rs.startTime)
  if rs.durationMs > elapsed then rs.durationMs - elapsed else 0

/-- The text that `getRelayStatus` formats from one relay state. -/
def statusText (relayId : ℤ) (rs : RelayState) (now : TimePoint) : String :=
  let physState := if rs.state then "ON" else "OFF"
  let channel := "Channel " ++ toString relayId ++ ": " ++ physState
  if !rs.active then channel ++ " (Toggle)"
  else match rs.mode with
    | .timer => channel ++ " (Timer, rem: " ++ toString ((remainingMs rs now).toNat / 1000) ++ "s)"
    | .pulse => channel ++ " (Pulse, rem: " ++ toString (remainingMs rs now).toNat ++ "ms)"
    | .blink => channel ++ " (Blink, count: " ++ toString rs.blinkCount.toNat ++ ", phase: " ++
        (if rs.blinkPhase then "ON" else "OFF") ++ ")"
    | .toggle => channel

/-- `none` as for `getRelay`. -/
def getRelayStatus (now : TimePoint) (relayId : ℤ) (c : BaseRelayController H) : Option String :=
  if relayId < 1 ∨ relayId > 8 then some "invalid channel" else
    (c.relayStates[relayId]?).map fun rs => statusText relayId rs now

def beginOnPhase (hw : Hardware H) (now : TimePoint) (relayId : ℤ) (c : BaseRelayController H) :
    BaseRelayController H :=
  (c.setRelayInternal hw relayId true).modify relayId fun rs =>
    { rs with blinkPhase := true, startTime := now }

/-- One iteration of the loop of `tick`, for the entry with key `relayId`. -/
def tickRelay (hw : Hardware H) (now : TimePoint) (c : BaseRelayController H) (relayId : ℤ) :
    BaseRelayController H :=
  let rs := c.relay relayId
  if !rs.active then c
  else if rs.mode = .timer ∨ rs.mode = .pulse then
    if UInt64.ofInt (elapsedMs now rs.startTime) ≥ rs.durationMs then
      (c.setRelayInternal hw relayId false).modify relayId fun rs =>
        { rs with active := false, mode := .toggle }
    else c
  else if rs.mode = .blink then
    if rs.blinkPhase then
      if UInt32.ofInt (elapsedMs now rs.startTime) ≥ rs.blinkOnMs then
        (c.setRelayInternal hw relayId false).modify relayId fun rs =>
          { rs with blinkPhase := false, startTime := now }
      else c
    else if UInt32.ofInt (elapsedMs now rs.startTime) ≥ rs.blinkOffMs then
      if rs.blinkCount > 0 then
        let c := c.modify relayId fun rs => { rs with blinkCount := rs.blinkCount - 1 }
        if (c.relay relayId).blinkCount = 0 then
          -- `continue`: the last cycle ends without touching the output
          c.modify relayId fun rs => { rs with active := false, mode := .toggle }
        else c.beginOnPhase hw now relayId
      else c.beginOnPhase hw now relayId
    else c
  else c

def tick (hw : Hardware H) (now : TimePoint) (c : BaseRelayController H) : BaseRelayController H :=
  c.relayStates.keys.foldl (tickRelay hw now) c

end BaseRelayController

/-- The commands of `IDeviceController` that change a relay. -/
inductive Command
  | setRelay (relayId : ℤ) (state : Bool)
  | startTimer (relayId : ℤ) (seconds : UInt32)
  | startPulse (relayId : ℤ) (durationMs : UInt32)
  | startBlink (relayId : ℤ) (onMs offMs count : UInt32)
  deriving DecidableEq, Repr

def Command.relayId : Command → ℤ
  | .setRelay relayId _ | .startTimer relayId _ | .startPulse relayId _ | .startBlink relayId _ _ _ => relayId

/-- The level a command asks for. -/
def Command.level : Command → Bool
  | .setRelay _ state => state
  | _ => true

/-- What the other threads do to a controller: a command, a tick or a query. -/
inductive Event
  | command (cmd : Command)
  | tick
  | getRelay (relayId : ℤ)
  | getAllStates
  | getRelayStatus (relayId : ℤ)
  deriving DecidableEq, Repr

namespace BaseRelayController
variable {H : Type*} (hw : Hardware H)

def execute (now : TimePoint) (c : BaseRelayController H) : Command → Bool × BaseRelayController H
  | .setRelay relayId state => c.setRelay hw relayId state
  | .startTimer relayId seconds => c.startTimer hw now relayId seconds
  | .startPulse relayId durationMs => c.startPulse hw now relayId durationMs
  | .startBlink relayId onMs offMs count => c.startBlink hw now relayId onMs offMs count

/-- The controller after an event at a given time; the queries are `const` member functions. -/
def handle (c : BaseRelayController H) (e : TimePoint × Event) : BaseRelayController H :=
  match e.2 with
  | .command cmd => (c.execute hw e.1 cmd).2
  | .tick => c.tick hw e.1
  | .getRelay _ | .getAllStates | .getRelayStatus _ => c

/-- The `setRelayPhysical` arguments of one channel, oldest first. -/
def callsOf (relayId : ℤ) (c : BaseRelayController H) : List Bool :=
  c.calls.filterMap fun p => if p.1 = relayId then some p.2 else none

end BaseRelayController

end MiniHil
