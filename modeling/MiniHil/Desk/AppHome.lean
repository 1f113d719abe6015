import Mathlib.Logic.Function.Basic
import MiniHil.Desk.AppController

/-! # The relay cards of the desk

`AppHome` and its eight `RelayWidget`s while the desk is connected: what a user action shows and
which command it issues, and how signals of the controller reach the cards through the queue of
`onRelayDispatcher`.
-/
namespace MiniHil

/-- The rows of the mode selection, in its order. -/
inductive ModePage
  | toggle
  | timer
  | pulse
  | blink
  deriving DecidableEq, Repr

/-- `m_active` and the visible child of `m_stack`. -/
structure RelayWidget where
  active : Bool := false
  visibleChild : ModePage := .toggle
  deriving DecidableEq, Repr

inductive UserAction
  | modeChanged (row : ModePage)
  | toggled (state : Bool)
  | timerStarted (seconds : UInt32)
  | pulseTriggered (durationMs : UInt32)
  | blinkStarted (onMs offMs count : UInt32)
  deriving DecidableEq

namespace RelayWidget

def updateState (active : Bool) (w : RelayWidget) : RelayWidget := { w with active }

/-- The second component is what `m_signalToggled` emits. -/
def onModeChanged (relayId : Int32) (row : ModePage) (w : RelayWidget) : RelayWidget × Option DeskCommand :=
  ({ w with visibleChild := row },if w.active then some (.toggleRelay relayId false) else none)

/-- A page emits only while it is shown, and the mode selection only when another row is chosen;
the spin buttons bound the values. -/
def Offers (w : RelayWidget) : UserAction → Prop
  | .modeChanged row => row ≠ w.visibleChild
  | .toggled _ => w.visibleChild = .toggle
  | .timerStarted seconds => w.visibleChild = .timer ∧ 1 ≤ seconds ∧ seconds ≤ 3600
  | .pulseTriggered durationMs => w.visibleChild = .pulse ∧ 10 ≤ durationMs ∧ durationMs ≤ 100000
  | .blinkStarted onMs offMs count => w.visibleChild = .blink ∧ 10 ≤ onMs ∧ onMs ≤ 100000 ∧
      10 ≤ offMs ∧ offMs ≤ 100000 ∧ count ≤ 1000

instance (w : RelayWidget) : DecidablePred w.Offers
  | .modeChanged _ => inferInstanceAs (Decidable (_ ≠ _))
  | .toggled _ => inferInstanceAs (Decidable (_ = _))
  | .timerStarted _ | .pulseTriggered _ => inferInstanceAs (Decidable (_ ∧ _ ∧ _))
  | .blinkStarted _ _ _ => inferInstanceAs (Decidable (_ ∧ _ ∧ _ ∧ _ ∧ _ ∧ _))

/-- The card after a user action, and the command that `AppHome` passes on to the controller. -/
def handle (relayId : Int32) (w : RelayWidget) : UserAction → RelayWidget × Option DeskCommand
  | .modeChanged row => w.onModeChanged relayId row
  | .toggled state => (w,some (.toggleRelay relayId state))
  | .timerStarted seconds => (w,some (.startTimer relayId seconds))
  | .pulseTriggered durationMs => (w,some (.startPulse relayId durationMs))
  | .blinkStarted onMs offMs count => (w,some (.startBlink relayId onMs offMs count))

end RelayWidget

structure AppHome where
  relayWidgets : Fin 8 → RelayWidget := fun _ => {}
  relayQueue : List (ℤ × Bool) := []

namespace AppHome

/-- The id that the constructor gives to the widget with an index. -/
def relayId (i : Fin 8) : Int32 := Int32.ofNat (i.val + 1)

theorem relayId_toInt (i : Fin 8) : (relayId i).toInt = (i.val : ℤ) + 1 := by
  revert i
  decide

theorem relayId_range (i : Fin 8) : 1 ≤ (relayId i).toInt ∧ (relayId i).toInt ≤ 8 := by
  rw [relayId_toInt]
  omega

def onRelayStateUpdated (relayId : ℤ) (state : Bool) (home : AppHome) : AppHome :=
  { home with relayQueue := home.relayQueue ++ [(relayId,state)] }

def onSignal (home : AppHome) : Signal → AppHome
  | .log _ => home
  | .relayState relayId state => home.onRelayStateUpdated relayId state

/-- One turn of the loop of `onRelayDispatcher`. -/
def applyUpdate (relayWidgets : Fin 8 → RelayWidget) (update : ℤ × Bool) : Fin 8 → RelayWidget :=
  if h : 1 ≤ update.1 ∧ update.1 ≤ 8 then
    let i : Fin 8 := ⟨(update.1 - 1).toNat,by omega⟩
    Function.update relayWidgets i ((relayWidgets i).updateState update.2)
  else relayWidgets

def onRelayDispatcher (home : AppHome) : AppHome where
  relayWidgets := home.relayQueue.foldl applyUpdate home.relayWidgets
  relayQueue := []

def onUserAction (i : Fin 8) (action : UserAction) (home : AppHome) : AppHome × Option DeskCommand :=
  let (w,cmd) := (home.relayWidgets i).handle (relayId i) action
  ({ home with relayWidgets := Function.update home.relayWidgets i w },cmd)

end AppHome
end MiniHil
