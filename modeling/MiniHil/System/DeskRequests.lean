import MiniHil.Core.ChannelRefinement
import MiniHil.Desk.AppController
import MiniHil.Protocol.Replies

/-! # What the server does for a request of the desk

The texts of `sendJsonRpc` go through `processRequest` to the controller: which call is made, and
what a single channel notices of it.
-/
namespace MiniHil
open Throwing JsonRpcRouter

namespace DeskCommand

/-- The command that a request stands for, if it is not a query. -/
def command : DeskCommand → Option Command
  | .toggleRelay relayId state => some (.setRelay relayId.toInt state)
  | .startTimer relayId seconds => some (.startTimer relayId.toInt seconds)
  | .startPulse relayId durationMs => some (.startPulse relayId.toInt durationMs)
  | .startBlink relayId onMs offMs count => some (.startBlink relayId.toInt onMs offMs count)
  | .queryAllRelays => none

def Concerns (relayId : ℤ) (cmd : DeskCommand) : Prop := cmd.command.map Command.relayId = some relayId

instance (relayId : ℤ) (cmd : DeskCommand) : Decidable (cmd.Concerns relayId) :=
  inferInstanceAs (Decidable (_ = _))

/-- The server after a request: ids outside 1 to 8 are refused. -/
def served {H : Type} (hw : Hardware H) (s : Server H) (cmd : DeskCommand) : Server H :=
  match cmd.command with
  | none => s.called hw .getAllStates
  | some c => if c.relayId < 1 ∨ c.relayId > 8 then s else s.called hw (.command c)

variable {cmd : DeskCommand} {c : Command}

theorem carries (requestId : Int32) (h : cmd.command = some c) : Carries (requestParams (cmd.request requestId)) c := by
  cases cmd with
  | queryAllRelays => cases h
  | toggleRelay relayId | startTimer relayId | startPulse relayId =>
    obtain rfl := Option.some.inj h
    exact ⟨rfl,relayId.le_toInt,relayId.toInt_lt,rfl⟩
  | startBlink relayId =>
    obtain rfl := Option.some.inj h
    exact ⟨rfl,relayId.le_toInt,relayId.toInt_lt,rfl,rfl,rfl⟩

theorem isRequest_request (requestId : Int32) (cmd : DeskCommand) : isRequest (cmd.request requestId) = true := by
  cases cmd <;> rfl

theorem member_method (lib : JsonLib) (requestId : Int32) (h : cmd.command = some c) :
    (cmd.request requestId).member (ascii "method") = .string (commandMethod lib c).name := by
  cases cmd with
  | queryAllRelays => cases h
  | toggleRelay | startTimer | startPulse | startBlink =>
    obtain rfl := Option.some.inj h
    rfl

end DeskCommand

section
variable {H : Type} {lib : JsonLib} {hw : Hardware H} {s t : Server H} {requestId : Int32} {cmd : DeskCommand}

theorem exec_processSingleRequest_desk {response : Json}
    (h : exec (processSingleRequest lib (mainRouter lib hw) (cmd.request requestId)) s = (.ok response,t)) :
    t = cmd.served hw s := by
  unfold DeskCommand.served
  cases hc : cmd.command with
  | none =>
    cases cmd with
    | queryAllRelays =>
      rw [exec_processSingleRequest_relays lib hw s (DeskCommand.isRequest_request requestId .queryAllRelays) rfl] at h
      exact (Prod.mk.inj h).2.symm
    | toggleRelay | startTimer | startPulse | startBlink => cases hc
  | some c =>
    obtain ⟨echo,hchecked⟩ := (DeskCommand.carries requestId hc).checked lib
    rcases exec_processSingleRequest hw s (commandMethod_mem lib c) (DeskCommand.isRequest_request requestId cmd)
      (DeskCommand.member_method lib requestId hc) with ⟨c',_,_,hc',he,_⟩ | ⟨hnone,_,he,_⟩
    · rw [hchecked] at hc'
      rw [he] at h
      obtain ⟨_,rfl⟩ := Prod.mk.inj h
      dsimp only
      split_ifs at hc' ⊢
      obtain ⟨rfl,_⟩ := Prod.mk.inj (Option.some.inj hc')
      rfl
    · rw [hchecked] at hnone
      rw [he] at h
      obtain ⟨_,rfl⟩ := Prod.mk.inj h
      dsimp only
      split_ifs at hnone ⊢
      rfl

theorem exec_processRequest_desk (hlib : lib.Lawful) {text response : Bytes}
    (hdump : lib.dump (cmd.request requestId) = .ok text)
    (h : exec (processRequest lib (mainRouter lib hw) text) s = (.ok response,t)) : t = cmd.served hw s := by
  have hparse := hlib.parse_dump (cmd.request_exact requestId) hdump
  rw [processRequest, hparse] at h
  obtain ⟨rootResponse,u,hsingle,hrest⟩ := exec_bind_eq_ok h
  rw [← exec_processSingleRequest_desk hsingle]
  split_ifs at hrest
  · exact (Prod.mk.inj hrest).2.symm
  · obtain ⟨line,v,hline,hpure⟩ := exec_bind_eq_ok hrest
    exact (Prod.mk.inj hpure).2.symm.trans (Prod.mk.inj hline).2.symm

variable {relayId : ℤ}

theorem served_hasEight (h : s.controller.HasEight) (cmd : DeskCommand) : (cmd.served hw s).controller.HasEight := by
  unfold DeskCommand.served
  split
  · exact h.handle _
  · split_ifs
    · exact h
    · exact h.handle _

theorem channel_served_ne (h : ¬cmd.Concerns relayId) :
    (cmd.served hw s).controller.channel relayId = s.controller.channel relayId := by
  unfold DeskCommand.served
  cases hc : cmd.command with
  | none => rfl
  | some c =>
    dsimp only
    split_ifs
    · rfl
    · have hne : relayId ≠ c.relayId := by
        intro heq
        rw [DeskCommand.Concerns, hc] at h
        exact h (congrArg some heq.symm)
      exact BaseRelayController.channel_execute_ne hne

theorem channel_served_self {c : Command} (hr : 1 ≤ relayId ∧ relayId ≤ 8) (hc : cmd.command = some c)
    (h : cmd.Concerns relayId) :
    (cmd.served hw s).controller.channel relayId = (s.controller.channel relayId).command s.now c := by
  rw [DeskCommand.Concerns, hc] at h
  obtain rfl : c.relayId = relayId := Option.some.inj h
  unfold DeskCommand.served
  rw [hc]
  dsimp only
  rw [if_neg (by omega)]
  exact BaseRelayController.channel_execute_self hr

end
end MiniHil
