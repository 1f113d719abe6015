import MiniHil.Core.RelayController

/-! # The derived controllers

`SilRelayController` and `GpiodRelayController`: what `initHardware` and `setRelayPhysical` do to
the output lines. libgpiod is a parameter: which chips open, whether the line request succeeds,
and which of the `set_value` calls throw.
-/
namespace MiniHil

/-- The software-in-the-loop controller prints and succeeds. -/
def sil : Hardware Unit where
  initHardware d := (true,d)
  setRelayPhysical _ _ d := (true,d)

/-- `gpiod::line::value`; the relay board is energised by an inactive line. -/
inductive LineValue
  | inactive
  | active
  deriving DecidableEq, Repr

/-- One call of `set_value` on the line request and whether it returned without an exception. -/
structure SetValue where
  offset : ℕ
  value : LineValue
  ok : Bool
  deriving DecidableEq, Repr

structure GpiodRelayController where
  chipPath : String := "/dev/gpiochip4"
  request : Bool := false
  level : ℕ → LineValue
  attempts : List SetValue := []

/-- The outcomes of the libgpiod calls; a `set_value` may depend on all that went before. -/
structure Gpiod where
  opensChip : String → Bool
  grantsRequest : Bool
  setValue : List SetValue → ℕ → LineValue → Bool

namespace GpiodRelayController

/-- `m_relayGpioMap`: channels 1 to 8 to BCM pin offsets. -/
def relayGpioMap : List (ℤ × ℕ) :=
  [(1,5),(2,6),(3,13),(4,16),(5,19),(6,20),(7,21),(8,26)]

def initHardware (env : Gpiod) (d : GpiodRelayController) : Bool × GpiodRelayController :=
  let opened :=
    if env.opensChip d.chipPath then some d.chipPath
    else if env.opensChip "/dev/gpiochip0" then some "/dev/gpiochip0"
    else none
  match opened with
  | none => (false,d)
  | some chipPath =>
    if env.grantsRequest then
      let level := relayGpioMap.foldl (fun level p => Function.update level p.2 LineValue.active) d.level
      (true,{ d with chipPath, request := true, level })
    else (false,{ d with chipPath })

def setRelayPhysical (env : Gpiod) (relayId : ℤ) (state : Bool) (d : GpiodRelayController) :
    Bool × GpiodRelayController :=
  if !d.request then (false,d)
  else match relayGpioMap.lookup relayId with
    | none => (false,d)
    | some offset =>
      let value := if state then LineValue.inactive else LineValue.active
      let ok := env.setValue d.attempts offset value
      let d := { d with attempts := d.attempts ++ [⟨offset,value,ok⟩] }
      if ok then (true,{ d with level := Function.update d.level offset value }) else (false,d)

end GpiodRelayController

def gpiod (env : Gpiod) : Hardware GpiodRelayController where
  initHardware := GpiodRelayController.initHardware env
  setRelayPhysical := GpiodRelayController.setRelayPhysical env

end MiniHil
