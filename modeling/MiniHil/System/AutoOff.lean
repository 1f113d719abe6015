import Mathlib.Data.List.Induction
import MiniHil.Desk.AppHome
import MiniHil.System.Delivery
import MiniHil.System.DeskRequests

/-! # Switching off when the mode changes

One connected desk and the server, with the requests and the responses under way in order. The desk
decides from the state that its card shows whether a change of the mode sends anything.
-/
namespace MiniHil
open Runs Throwing JsonRpcRouter AppHome

namespace Channel

/-- A program runs, or the relay is on. -/
def Active (ch : Channel) : Prop := ch.rs.active = true ∨ ch.rs.state = true

def Off (ch : Channel) : Prop := ch.rs.mode = .toggle ∧ ch.rs.active = false ∧ ch.rs.state = false

variable {ch : Channel} {now : TimePoint}

theorem Off.not_active (h : ch.Off) : ¬ch.Active := by
  rintro (ha | hs)
  · rw [h.2.1] at ha
    cases ha
  · rw [h.2.2] at hs
    cases hs

theorem Off.tick (h : ch.Off) (now : TimePoint) : (ch.tick now).Off := by
  have he : expired now ch.rs = false := by
    rw [Bool.eq_false_iff]
    intro he
    exact h.not_active (.inl (expired_active he))
  unfold Channel.tick
  rw [he]
  exact h

theorem off_command (now : TimePoint) (relayId : ℤ) : (ch.command now (.setRelay relayId false)).Off := by
  simp [command, Off, Program, Command.level]

theorem active_command {cmd : Command} (h : cmd ≠ .setRelay cmd.relayId false) : (ch.command now cmd).Active := by
  have hlevel : cmd.level = true := by
    cases cmd with
    | setRelay relayId state =>
      cases state with
      | true => rfl
      | false => exact absurd rfl h
    | startTimer | startPulse | startBlink => rfl
  right
  rw [command, drive_rs]
  exact hlevel

end Channel

structure DeskSession (H : Type) where
  requestId : Int32
  home : AppHome := {}
  requests : List (Int32 × DeskCommand) := []
  server : Server H
  processed : List DeskCommand := []
  responses : List Bytes := []

namespace DeskSession
variable {H : Type}

inductive Label
  | user (i : Fin 8) (action : UserAction)
  | poll
  | serve
  | tick
  | deliver
  | dispatch

/-- `sendJsonRpc` -/
def send (s : DeskSession H) (cmd : DeskCommand) : DeskSession H :=
  { s with requestId := s.requestId + 1, requests := s.requests ++ [(s.requestId,cmd)] }

def userAction (i : Fin 8) (action : UserAction) (s : DeskSession H) : DeskSession H :=
  match s.home.onUserAction i action with
  | (home,some cmd) => { s with home }.send cmd
  | (home,none) => { s with home }

/-- A request under way is kept as its command and id; `serve` gives the server its text. -/
inductive Step (lib : JsonLib) (hw : Hardware H) (s : DeskSession H) : Label → DeskSession H → Prop
  | user {i : Fin 8} {action : UserAction} : (s.home.relayWidgets i).Offers action →
      Step lib hw s (.user i action) (s.userAction i action)
  | poll : Step lib hw s .poll (s.send .queryAllRelays)
  | serve {requestId : Int32} {cmd : DeskCommand} {rest : List (Int32 × DeskCommand)} {text response : Bytes}
      {server : Server H} : s.requests = (requestId,cmd) :: rest → lib.dump (cmd.request requestId) = .ok text →
      exec (processRequest lib (mainRouter lib hw) text) s.server = (.ok response,server) →
      Step lib hw s .serve { s with
        requests := rest, server, processed := s.processed ++ [cmd]
        responses := if response = [] then s.responses else s.responses ++ [response] }
  | tick : Step lib hw s .tick { s with server := s.server.called hw .tick }
  | deliver {line : Bytes} {rest : List Bytes} : s.responses = (line ++ [newline]) :: rest →
      Step lib hw s .deliver { s with
        responses := rest, home := (AppController.processResponse lib line).foldl onSignal s.home }
  | dispatch : Step lib hw s .dispatch { s with home := s.home.onRelayDispatcher }

/-- A desk just connected. Its cards and the server are as earlier connections left them. -/
def start (requestId : Int32) (home : AppHome) (server : Server H) : DeskSession H := { requestId, home, server }

/-- One channel of the server. -/
def channel (relayId : Int32) (s : DeskSession H) : Channel := s.server.controller.channel relayId.toInt

/-- In the second state the server has processed all that was under way in the first one, and
nothing later for the channel. -/
def Settled (s t : DeskSession H) (relayId : Int32) : Prop :=
  ∃ later, t.processed = s.processed ++ s.requests.map Prod.snd ++ later ∧
    ∀ cmd ∈ later, ¬cmd.Concerns relayId.toInt

/-- However the session goes on, the channel is off once what is under way is processed, and until a
later command for the channel. -/
def SwitchesOff (lib : JsonLib) (hw : Hardware H) (s : DeskSession H) (relayId : Int32) : Prop :=
  ∀ ls t, Run (Step lib hw) s ls t → Settled s t relayId → (t.channel relayId).Off

/-- The last request under way for a channel switches it off. -/
def OffPending (requests : List (Int32 × DeskCommand)) (relayId : Int32) : Prop :=
  ∃ pre post, requests.map Prod.snd = pre ++ .toggleRelay relayId false :: post ∧
    ∀ cmd ∈ post, ¬cmd.Concerns relayId.toInt

variable {lib : JsonLib} {hw : Hardware H} {s t : DeskSession H} {l : Label} {ls : List Label} {relayId : Int32}

theorem userAction_eq (i : Fin 8) (action : UserAction) (s : DeskSession H) :
    (s.userAction i action).server = s.server ∧ (s.userAction i action).processed = s.processed := by
  unfold userAction
  split <;> exact ⟨rfl,rfl⟩

theorem Step.server_cases (hlib : lib.Lawful) (hstep : Step lib hw s l t) :
    (t.server = s.server ∧ t.processed = s.processed) ∨
    (t.server = s.server.called hw .tick ∧ t.processed = s.processed) ∨
    ∃ cmd, t.server = cmd.served hw s.server ∧ t.processed = s.processed ++ [cmd] := by
  cases hstep with
  | user => exact .inl (userAction_eq _ _ s)
  | poll | deliver | dispatch => exact .inl ⟨rfl,rfl⟩
  | tick => exact .inr (.inl ⟨rfl,rfl⟩)
  | serve _ hdump he => exact .inr (.inr ⟨_,exec_processRequest_desk hlib hdump he,rfl⟩)

theorem Step.hasEight (hlib : lib.Lawful) (h : s.server.controller.HasEight) (hstep : Step lib hw s l t) :
    t.server.controller.HasEight := by
  rcases hstep.server_cases hlib with ⟨hs,_⟩ | ⟨hs,_⟩ | ⟨cmd,hs,_⟩
  · rw [hs]
    exact h
  · rw [hs]
    exact h.tick _
  · rw [hs]
    exact served_hasEight h cmd

/-- A change of the mode sends a request exactly when the card shows the relay on. -/
theorem modeChanged_requests (i : Fin 8) (row : ModePage) (s : DeskSession H) :
    (s.userAction i (.modeChanged row)).requests =
      if (s.home.relayWidgets i).active then s.requests ++ [(s.requestId,.toggleRelay (AppHome.relayId i) false)]
      else s.requests := by
  cases h : (s.home.relayWidgets i).active <;>
    simp [userAction, onUserAction, RelayWidget.handle, RelayWidget.onModeChanged, h, send]

theorem modeChanged_offPending (i : Fin 8) (row : ModePage) (s : DeskSession H) :
    OffPending (s.userAction i (.modeChanged row)).requests (AppHome.relayId i) ↔
      (s.home.relayWidgets i).active = true ∨ OffPending s.requests (AppHome.relayId i) := by
  rw [modeChanged_requests]
  cases h : (s.home.relayWidgets i).active with
  | false => simp
  | true =>
    refine iff_of_true ⟨s.requests.map Prod.snd,[],?_,by simp⟩ (.inl rfl)
    simp

theorem served_off (hr : 1 ≤ relayId.toInt ∧ relayId.toInt ≤ 8) (server : Server H) :
    (((DeskCommand.toggleRelay relayId false).served hw server).controller.channel relayId.toInt).Off := by
  have hcommand : (DeskCommand.toggleRelay relayId false).command = some (.setRelay relayId.toInt false) := rfl
  rw [channel_served_self hr hcommand rfl]
  exact Channel.off_command _ _

theorem off_after (hlib : lib.Lawful) (hr : 1 ≤ relayId.toInt ∧ relayId.toInt ≤ 8) {before mid : List DeskCommand}
    (h : s.server.controller.HasEight) (hrun : Run (Step lib hw) s ls t)
    (hs : ∀ mid, s.processed = before ++ .toggleRelay relayId false :: mid →
      (∀ cmd ∈ mid, ¬cmd.Concerns relayId.toInt) → (s.channel relayId).Off)
    (ht : t.processed = before ++ .toggleRelay relayId false :: mid)
    (hmid : ∀ cmd ∈ mid, ¬cmd.Concerns relayId.toInt) : (t.channel relayId).Off := by
  induction hrun with
  | refl => exact hs mid ht hmid
  | @step s u t l ls hstep _ ih =>
    refine ih (hstep.hasEight hlib h) ?_ ht
    intro mid hu hmid
    unfold channel
    rcases hstep.server_cases hlib with ⟨hserver,hprocessed⟩ | ⟨hserver,hprocessed⟩ | ⟨cmd,hserver,hprocessed⟩
    · rw [hserver]
      exact hs mid (hprocessed ▸ hu) hmid
    · rw [hserver]
      have hoff := hs mid (hprocessed ▸ hu) hmid
      rw [Server.called, BaseRelayController.handle, BaseRelayController.channel_tick h hr]
      exact hoff.tick _
    · rw [hserver]
      rw [hprocessed] at hu
      -- the request processed is the one to switch off, or one after it
      rcases List.eq_nil_or_concat mid with rfl | ⟨mid,x,rfl⟩
      · obtain ⟨_,hcmd⟩ := List.append_inj' hu rfl
        obtain rfl := List.singleton_inj.mp hcmd
        exact served_off hr s.server
      · rw [List.concat_eq_append] at hu hmid
        have hu' : s.processed ++ [cmd] = (before ++ .toggleRelay relayId false :: mid) ++ [x] := by
          rw [hu, List.append_assoc, List.cons_append]
        obtain ⟨hprev,hcmd⟩ := List.append_inj' hu' rfl
        obtain rfl := List.singleton_inj.mp hcmd
        rw [channel_served_ne (hmid cmd (List.mem_append_right _ List.mem_cons_self))]
        exact hs mid hprev fun x hx => hmid x (List.mem_append_left _ hx)

theorem switchesOff_of_pending (hlib : lib.Lawful) (hr : 1 ≤ relayId.toInt ∧ relayId.toInt ≤ 8)
    (h : s.server.controller.HasEight) (hp : OffPending s.requests relayId) : SwitchesOff lib hw s relayId := by
  obtain ⟨pre,post,hrequests,hpost⟩ := hp
  rintro ls t hrun ⟨later,ht,hlater⟩
  have hprocessed : t.processed = (s.processed ++ pre) ++ .toggleRelay relayId false :: (post ++ later) := by
    rw [ht, hrequests]
    simp
  refine off_after hlib hr h hrun ?_ hprocessed ?_
  · intro mid hmid _
    have hlength := congrArg List.length hmid
    simp only [List.length_append, List.length_cons] at hlength
    omega
  · intro cmd hcmd
    rcases List.mem_append.mp hcmd with hcmd | hcmd
    · exact hpost cmd hcmd
    · exact hlater cmd hcmd

def leaves (relayId : Int32) (active : Bool) (cmd : DeskCommand) : Bool :=
  if cmd.Concerns relayId.toInt then cmd ≠ .toggleRelay relayId false else active

theorem command_ne_off {cmd : DeskCommand} {c : Command} (hc : cmd.command = some c) (h : cmd.Concerns relayId.toInt)
    (hne : cmd ≠ .toggleRelay relayId false) : c ≠ .setRelay c.relayId false := by
  intro hoff
  rw [DeskCommand.Concerns, hc] at h
  obtain hid : c.relayId = relayId.toInt := Option.some.inj h
  rw [hid] at hoff
  subst hoff
  cases cmd with
  | toggleRelay relayId' state =>
    obtain ⟨hrelay,rfl⟩ := Command.setRelay.inj (Option.some.inj hc)
    exact hne (by rw [Int32.toInt_inj.mp hrelay])
  | startTimer | startPulse | startBlink | queryAllRelays => cases hc

theorem active_served (hr : 1 ≤ relayId.toInt ∧ relayId.toInt ≤ 8) {server : Server H} {active : Bool} {cmd : DeskCommand}
    (h : active = true → (server.controller.channel relayId.toInt).Active) (hl : leaves relayId active cmd = true) :
    ((cmd.served hw server).controller.channel relayId.toInt).Active := by
  unfold leaves at hl
  by_cases hconcerns : cmd.Concerns relayId.toInt
  · rw [if_pos hconcerns, decide_eq_true_eq] at hl
    obtain ⟨c,hc,_⟩ := Option.map_eq_some_iff.mp hconcerns
    rw [channel_served_self hr hc hconcerns]
    exact Channel.active_command (command_ne_off hc hconcerns hl)
  · rw [if_neg hconcerns] at hl
    rw [channel_served_ne hconcerns]
    exact h hl

theorem foldl_leaves (requests : List (Int32 × DeskCommand)) (h : ¬OffPending requests relayId) :
    (requests.map Prod.snd).foldl (leaves relayId) true = true := by
  unfold OffPending at h
  generalize requests.map Prod.snd = cmds at h
  induction cmds using List.reverseRecOn with
  | nil => rfl
  | append_singleton cmds cmd ih =>
    rw [List.foldl_append, List.foldl_cons, List.foldl_nil, leaves]
    split_ifs with hconcerns
    · rw [decide_eq_true_eq]
      rintro rfl
      exact h ⟨cmds,[],rfl,by simp⟩
    · apply ih
      rintro ⟨pre,post,rfl,hpost⟩
      refine h ⟨pre,post ++ [cmd],by simp,?_⟩
      intro x hx
      rcases List.mem_append.mp hx with hx | hx
      · exact hpost x hx
      · rw [List.mem_singleton.mp hx]
        exact hconcerns

theorem exists_serve (hlib : lib.Lawful) (hw : Hardware H) {requestId : Int32} {cmd : DeskCommand}
    {rest : List (Int32 × DeskCommand)} (hs : s.requests = (requestId,cmd) :: rest) :
    ∃ u, Step lib hw s .serve u ∧ u.requests = rest ∧ u.server = cmd.served hw s.server ∧
      u.processed = s.processed ++ [cmd] ∧ u.home = s.home := by
  obtain ⟨text,hdump⟩ := hlib.dump_valid (cmd.request_validStrings requestId)
  obtain ⟨response,server,he⟩ := Delivery.processRequest_desk hlib hw hdump s.server
  exact ⟨_,.serve hs hdump he,rfl,exec_processRequest_desk hlib hdump he,rfl,rfl⟩

theorem serve_all (hlib : lib.Lawful) (hw : Hardware H) (hr : 1 ≤ relayId.toInt ∧ relayId.toInt ≤ 8)
    (requests : List (Int32 × DeskCommand)) {s : DeskSession H} (hs : s.requests = requests) {active : Bool}
    (h : active = true → (s.channel relayId).Active) :
    ∃ ls t, Run (Step lib hw) s ls t ∧ t.processed = s.processed ++ requests.map Prod.snd ∧
      ((requests.map Prod.snd).foldl (leaves relayId) active = true → (t.channel relayId).Active) := by
  induction requests generalizing s active with
  | nil => exact ⟨[],s,.refl,by simp,h⟩
  | cons request rest ih =>
    obtain ⟨u,hstep,hrest,hserver,hu,_⟩ := exists_serve hlib hw hs
    have hactive : leaves relayId active request.2 = true → (u.channel relayId).Active := by
      intro hl
      unfold channel
      rw [hserver]
      exact active_served hr h hl
    obtain ⟨ls,t,hrun,hprocessed,ht⟩ := ih hrest hactive
    refine ⟨.serve :: ls,t,.step hstep hrun,?_,ht⟩
    rw [hprocessed, hu]
    simp

theorem not_switchesOff (hlib : lib.Lawful) (hr : 1 ≤ relayId.toInt ∧ relayId.toInt ≤ 8)
    (hactive : (s.channel relayId).Active) (hp : ¬OffPending s.requests relayId) : ¬SwitchesOff lib hw s relayId := by
  intro h
  obtain ⟨ls,t,hrun,hprocessed,ht⟩ := serve_all hlib hw hr s.requests rfl fun _ => hactive
  have hoff := h ls t hrun ⟨[],by rw [hprocessed, List.append_nil],by simp⟩
  exact hoff.not_active (ht (foldl_leaves s.requests hp))

/-- In every session, when the user changes the mode of a channel that is active on the server: the
channel is switched off, and stays off until a later command for it, exactly if its card shows it on
or the last request under way for it already switches it off. -/
theorem auto_off_iff (lib : JsonLib) (hlib : lib.Lawful) (hw : Hardware H) (device : H) (es : List (TimePoint × Event))
    (server : Server H) (hserver : server.controller = es.foldl (BaseRelayController.handle hw) (.construct device))
    (requestId : Int32) (home : AppHome) (ls : List Label) (s t : DeskSession H)
    (hrun : Run (Step lib hw) (start requestId home server) ls s)
    (i : Fin 8) (row : ModePage) (hstep : Step lib hw s (.user i (.modeChanged row)) t)
    (hactive : (s.channel (AppHome.relayId i)).Active) :
    SwitchesOff lib hw t (AppHome.relayId i) ↔
      (s.home.relayWidgets i).active = true ∨ OffPending s.requests (AppHome.relayId i) := by
  have hr := relayId_range i
  have hstart : (start requestId home server).server.controller.HasEight := by
    rw [start, hserver]
    exact (BaseRelayController.construct_hasEight device).run es
  have hs : s.server.controller.HasEight :=
    hrun.invariant (P := fun s => s.server.controller.HasEight) (fun _ _ _ h => Step.hasEight hlib h) hstart
  have ht := hstep.hasEight hlib hs
  cases hstep with
  | user =>
    rw [← modeChanged_offPending i row s]
    constructor
    · intro h
      by_contra hp
      refine not_switchesOff hlib hr ?_ hp h
      unfold channel
      rw [(userAction_eq _ _ s).1]
      exact hactive
    · exact switchesOff_of_pending hlib hr ht

/-- Relay 1 is on from an earlier connection; the user switches it off and, before the server has
processed that, changes its mode. -/
theorem auto_off_iff_pending :
    let server : Server Unit :=
      ⟨[(0,.command (.setRelay 1 true))].foldl (BaseRelayController.handle sil) (.construct ()),[],fun _ => 0⟩
    let s := (start 1 {} server).userAction 0 (.toggled false)
    SwitchesOff .compact sil (s.userAction 0 (.modeChanged .timer)) (AppHome.relayId 0) := by
  intro server s
  have hrun : Run (Step .compact sil) (start 1 {} server) [.user 0 (.toggled false)] s := .single (.user rfl)
  have hstep : Step .compact sil s (.user 0 (.modeChanged .timer)) (s.userAction 0 (.modeChanged .timer)) := by
    refine .user ?_
    intro hrow
    cases hrow
  refine (auto_off_iff .compact JsonLib.compact_lawful sil () _ server rfl 1 {} _ s _ hrun 0 .timer hstep ?_).mpr (.inr ?_)
  · exact .inr rfl
  · exact ⟨[],[],rfl,by simp⟩

/-- The user starts a timer on relay 1 and changes the mode before the card shows the relay on: no
request is sent and the timer runs on. -/
theorem auto_off_fails :
    ¬∀ (H : Type) (lib : JsonLib), lib.Lawful → ∀ (hw : Hardware H) (device : H) (es : List (TimePoint × Event))
      (server : Server H), server.controller = es.foldl (BaseRelayController.handle hw) (.construct device) →
      ∀ (requestId : Int32) (home : AppHome) (ls : List Label) (s t : DeskSession H),
      Run (Step lib hw) (start requestId home server) ls s →
      ∀ (i : Fin 8) (row : ModePage), Step lib hw s (.user i (.modeChanged row)) t →
      (s.channel (AppHome.relayId i)).Active → SwitchesOff lib hw t (AppHome.relayId i) := by
  intro h
  set server : Server Unit := { controller := .construct (), clock := fun _ => 0 }
  set s := ((start 1 {} server).userAction 0 (.modeChanged .timer)).userAction 0 (.timerStarted 10)
  have hrequests : s.requests = [(1,.startTimer (AppHome.relayId 0) 10)] := rfl
  obtain ⟨u,hserve,hrest,hserver,_,hhome⟩ := exists_serve JsonLib.compact_lawful sil hrequests
  have hactive : (u.channel (AppHome.relayId 0)).Active := by
    have hcommand : (DeskCommand.startTimer (AppHome.relayId 0) 10).command = some (.startTimer 1 10) := rfl
    unfold channel
    rw [hserver, channel_served_self (relayId_range 0) hcommand rfl]
    exact Channel.active_command (by decide)
  have hshown : u.home.relayWidgets 0 = { visibleChild := .timer } := by
    rw [hhome]
    rfl
  have hrun : Run (Step .compact sil) (start 1 {} server)
      [.user 0 (.modeChanged .timer),.user 0 (.timerStarted 10),.serve] u := by
    refine .step (.user ?_) (.step (.user ?_) (.single hserve))
    · decide
    · decide
  have hstep : Step .compact sil u (.user 0 (.modeChanged .pulse)) (u.userAction 0 (.modeChanged .pulse)) := by
    refine .user ?_
    rw [hshown]
    decide
  have hoff := h Unit .compact JsonLib.compact_lawful sil () [] server rfl 1 {} _ u _ hrun 0 .pulse hstep hactive
    [] _ .refl ⟨[],?_,by simp⟩
  · unfold channel at hoff
    rw [(userAction_eq _ _ u).1] at hoff
    exact hoff.not_active hactive
  · rw [modeChanged_requests, hshown, hrest]
    simp

end DeskSession
end MiniHil
