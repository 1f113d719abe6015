import MiniHil.Core.RelayController
import MiniHil.Foundation.Throwing
import MiniHil.Protocol.NlohmannJson

/-! # The JSON-RPC methods of the daemon

The handlers that `main` registers. The four that change a relay check the members of their
params, convert them, check the relay id and call the controller; they differ in the members, the
command and the texts, and share `commandHandler`.
-/
namespace MiniHil

/-- What the handlers capture: the controller, the calls made on it so far, and the readings of
the clock that these calls take. -/
structure Server (H : Type) where
  controller : BaseRelayController H
  operations : List Event := []
  clock : ℕ → TimePoint

abbrev Rpc (H : Type) := Throwing Exn (Server H)

/-- `JsonRpcRouter::MethodHandler`, from params and id. -/
abbrev MethodHandler (H : Type) := Json → Json → Rpc H Json

namespace Server
variable {H : Type}

/-- The time at which the next call on the controller is served. -/
def now (s : Server H) : TimePoint := s.clock s.operations.length

/-- The state after one call on the controller. -/
def called (hw : Hardware H) (s : Server H) (e : Event) : Server H :=
  { s with controller := s.controller.handle hw (s.now,e), operations := s.operations ++ [e] }

/-- A call of `setRelay`, `startTimer`, `startPulse` or `startBlink`. -/
def command (hw : Hardware H) (cmd : Command) : Rpc H Bool := do
  let s ← get
  set (s.called hw (.command cmd))
  pure (s.controller.execute hw s.now cmd).1

def getAllStates (hw : Hardware H) : Rpc H (Std.ExtTreeMap ℤ Bool compare) := do
  let s ← get
  set (s.called hw .getAllStates)
  pure s.controller.getAllStates

def getRelayStatus (hw : Hardware H) (relayId : ℤ) : Rpc H String := do
  let s ← get
  set (s.called hw (.getRelayStatus relayId))
  match s.controller.getRelayStatus s.now relayId with
  | some status => pure status
  | none => throw (.stdOutOfRange (ascii "map::at"))

end Server

/-- `{{"code", code}, {"error", message}}` -/
def errorResult (code : ℤ) (message : String) : Json :=
  .ofMembers [(ascii "code",.integer code),(ascii "error",.string (ascii message))]

structure Arguments where
  command : ℤ → Command
  echo : List (Bytes × Json)

/-- What distinguishes the handlers of the four methods that change a relay. -/
structure CommandMethod where
  name : Bytes
  required : List Bytes
  missing : String
  arguments : Json → Except Exn Arguments
  failed : String

def outOfRangeText : String := "Invalid params: 'relay_id' must be between 1 and 8."

def commandHandler {H : Type} (lib : JsonLib) (hw : Hardware H) (m : CommandMethod) : MethodHandler H :=
  fun params _ =>
    if !params.isObject || !(ascii "relay_id" :: m.required).all fun key => params.contains key then
      pure (errorResult (-32602) m.missing)
    else do
      let relayId ← liftM (lib.getInt (params.member (ascii "relay_id")))
      let args ← liftM (m.arguments params)
      if relayId < 1 ∨ relayId > 8 then
        pure (errorResult (-32602) outOfRangeText)
      else do
        let ok ← Server.command hw (args.command relayId)
        if !ok then
          pure (errorResult (-32603) m.failed)
        else
          pure (.ofMembers ((ascii "success",.boolean true) :: (ascii "relay_id",.integer relayId) :: args.echo))

section
variable (lib : JsonLib)

def setRelayMethod : CommandMethod where
  name := ascii "set_relay"
  required := [ascii "state"]
  missing := "Invalid params: 'relay_id' (integer) and 'state' (boolean) are required."
  arguments params := do
    let state ← JsonLib.getBool (params.member (ascii "state"))
    pure ⟨fun relayId => .setRelay relayId state,[(ascii "state",.boolean state)]⟩
  failed := "Internal error: Failed to update GPIO pin state."

def startTimerMethod : CommandMethod where
  name := ascii "start_timer"
  required := [ascii "seconds"]
  missing := "Invalid params: 'relay_id' (integer) and 'seconds' (integer) are required."
  arguments params := do
    let seconds ← lib.getUint32 (params.member (ascii "seconds"))
    pure ⟨fun relayId => .startTimer relayId seconds,[(ascii "seconds",.integer seconds.toNat)]⟩
  failed := "Internal error: Failed to start timer."

def startPulseMethod : CommandMethod where
  name := ascii "start_pulse"
  required := [ascii "duration_ms"]
  missing := "Invalid params: 'relay_id' (integer) and 'duration_ms' (integer) are required."
  arguments params := do
    let durationMs ← lib.getUint32 (params.member (ascii "duration_ms"))
    pure ⟨fun relayId => .startPulse relayId durationMs,[(ascii "duration_ms",.integer durationMs.toNat)]⟩
  failed := "Internal error: Failed to start pulse."

def startBlinkMethod : CommandMethod where
  name := ascii "start_blink"
  required := [ascii "on_ms",ascii "off_ms",ascii "count"]
  missing := "Invalid params: 'relay_id' (integer), 'on_ms' (integer), 'off_ms' (integer), and 'count' (integer) are required."
  arguments params := do
    let onMs ← lib.getUint32 (params.member (ascii "on_ms"))
    let offMs ← lib.getUint32 (params.member (ascii "off_ms"))
    let count ← lib.getUint32 (params.member (ascii "count"))
    pure ⟨fun relayId => .startBlink relayId onMs offMs count,
      [(ascii "on_ms",.integer onMs.toNat),(ascii "off_ms",.integer offMs.toNat),(ascii "count",.integer count.toNat)]⟩
  failed := "Internal error: Failed to start blink."

def commandMethods : List CommandMethod :=
  [setRelayMethod,startTimerMethod lib,startPulseMethod lib,startBlinkMethod lib]

end

section
variable {H : Type} (lib : JsonLib) (hw : Hardware H)

def getRelaysHandler : MethodHandler H := fun _ _ => do
  let states ← Server.getAllStates hw
  pure (.ofMembers (states.toList.map fun p => (ascii (toString p.1),.boolean p.2)))

def getRelayStatusHandler : MethodHandler H := fun params _ =>
  if !params.isObject || !params.contains (ascii "relay_id") then
    pure (errorResult (-32602) "Invalid params: 'relay_id' (integer) is required.")
  else do
    let relayId ← liftM (lib.getInt (params.member (ascii "relay_id")))
    if relayId < 1 ∨ relayId > 8 then
      pure (errorResult (-32602) outOfRangeText)
    else do
      let status ← Server.getRelayStatus hw relayId
      pure (.ofMembers [(ascii "relay_id",.integer relayId),(ascii "status",.string (ascii status))])

end
end MiniHil
