import MiniHil.Desk.HomeView
import MiniHil.System.AutoOff
import MiniHil.System.DeskView

/-! # What the window shows at rest

One desk on the server. No request of a card is refused, and once a query was answered and all that is under
way is handled, the cards show the levels that the outputs were last driven to.
-/
namespace MiniHil
open Runs Throwing JsonRpcRouter AppController AppHome

namespace DeskCommand

def OfCard (cmd : DeskCommand) : Prop := ∀ c, cmd.command = some c → 1 ≤ c.relayId ∧ c.relayId ≤ 8

def shows {H : Type} (c : BaseRelayController H) : DeskCommand → List (ℤ × Bool)
  | .toggleRelay relayId state => [(relayId.toInt,state)]
  | .startTimer _ _ | .startPulse _ _ | .startBlink _ _ _ _ => []
  | .queryAllRelays => relayIds.map fun relayId => (relayId,(c.relay relayId).state)

end DeskCommand

/-- A line that the desk logs, with updates and no error. -/
def Shows (lib : JsonLib) (line : Bytes) (us : List (ℤ × Bool)) : Prop :=
  processResponse lib line = .log (ascii "[RX] " ++ line) :: us.map fun u => .relayState u.1 u.2

section
variable {H : Type} {lib : JsonLib} {hw : Hardware H} {s t : Server H} {requestId : Int32} {cmd : DeskCommand}
  {text line response : Bytes} {res : Json} {us : List (ℤ × Bool)}

theorem shows_result (hp : lib.parse line = .ok res) (he : res.contains (ascii "error") = false)
    (hr : res.contains (ascii "result") = true)
    (hs : resultSignals lib (res.member (ascii "result")) = .ok (us.map fun u => .relayState u.1 u.2)) : Shows lib line us := by
  have hsignals : responseSignals lib res = .ok (us.map fun u => .relayState u.1 u.2) := by
    unfold responseSignals
    rw [if_neg (by simp [he]), if_pos hr, hs]
  unfold Shows processResponse
  rw [hp]
  dsimp only
  rw [hsignals]

theorem Shows.updates (h : Shows lib line us) : updates lib line = us := by
  unfold MiniHil.updates
  rw [h, List.filterMap_cons_none rfl, List.filterMap_map]
  exact List.filterMap_some

theorem exec_processSingleRequest_result {c : Command} (hc : cmd.command = some c) (hr : 1 ≤ c.relayId ∧ c.relayId ≤ 8)
    (h : exec (processSingleRequest lib (mainRouter lib hw) (cmd.request requestId)) s = (.ok res,t)) :
    t = s.called hw (.command c) ∧
      res = makeSuccessResponse (JsonRpcRouter.requestId (cmd.request requestId)) c.result := by
  have hname := DeskCommand.member_method lib requestId hc
  have hqueries := name_notMem_queries (commandMethod_mem lib c)
  have hserved : t = s.called hw (.command c) := by
    rw [exec_processSingleRequest_desk h, DeskCommand.served, hc]
    exact if_neg (by omega)
  obtain ⟨echo,hchecked⟩ := (DeskCommand.carries requestId hc).checked lib
  rw [if_neg (by omega)] at hchecked
  refine ⟨hserved,?_⟩
  rcases exec_processSingleRequest hw s (commandMethod_mem lib c) (DeskCommand.isRequest_request requestId cmd) hname with
    ⟨_,_,_,_,he,hresult⟩ | ⟨hnone,_⟩
  · obtain rfl := Except.ok.inj (Prod.mk.inj (h.symm.trans he)).1
    rcases answer h with ⟨_,hok,ha⟩ | ⟨_,herror,_⟩
    · obtain rfl := Except.ok.inj hok
      cases ha with
      | error => cases hresult.2
      | @applied m c' =>
        obtain rfl : c' = c := Event.command.inj (called_inj hserved)
        rfl
      | relays hname' =>
        have hsame := Json.string.inj (hname.symm.trans hname')
        exact absurd (hsame ▸ List.mem_cons_self) hqueries
      | status hname' =>
        have hsame := Json.string.inj (hname.symm.trans hname')
        exact absurd (hsame ▸ List.mem_cons_of_mem _ List.mem_cons_self) hqueries
    · cases herror
  · rw [hchecked] at hnone
    cases hnone

theorem exec_processRequest_card (hlib : lib.Lawful) (h8 : s.controller.HasEight) (hcard : cmd.OfCard)
    (hdump : lib.dump (cmd.request requestId) = .ok text)
    (h : exec (processRequest lib (mainRouter lib hw) text) s = (.ok response,t)) :
    t = s.called hw cmd.call ∧ ∃ line, response = line ++ [newline] ∧ Shows lib line (cmd.shows s.controller) := by
  rw [exec_processRequest (hlib.parse_dump (cmd.request_exact requestId) hdump)] at h
  obtain ⟨rootResponse,u,hreply,h⟩ := exec_bind_eq_ok h
  obtain ⟨root,v,hsingle,hreply⟩ := exec_bind_eq_ok hreply
  obtain ⟨hroot,rfl⟩ := Prod.mk.inj hreply
  rw [(exec_answered hsingle).isNull] at hroot
  obtain rfl := Except.ok.inj hroot
  obtain ⟨rfl,line,hline,rfl⟩ := exec_dumpLine_eq_ok h
  have hid := exact_requestId requestId cmd
  cases hc : cmd.command with
  | none =>
    cases cmd with
    | queryAllRelays =>
      rw [exec_processSingleRequest_relays lib hw s (DeskCommand.isRequest_request requestId .queryAllRelays) rfl] at hsingle
      obtain ⟨hok,rfl⟩ := Prod.mk.inj hsingle
      obtain rfl := Except.ok.inj hok
      have hparse := hlib.parse_dump (exact_makeSuccessResponse hid (exact_relaysResult s.controller)) hline
      refine ⟨rfl,line,rfl,shows_result hparse rfl rfl ?_⟩
      rw [DeskCommand.shows, List.map_map]
      exact resultSignals_relays lib h8
    | toggleRelay | startTimer | startPulse | startBlink => cases hc
  | some c =>
    have hr := hcard c hc
    obtain ⟨ht,rfl⟩ := exec_processSingleRequest_result hc hr hsingle
    have hparse := hlib.parse_dump (exact_makeSuccessResponse hid (exact_result hr)) hline
    have hcall : cmd.call = .command c := by rw [DeskCommand.call, hc]
    refine ⟨by rw [hcall, ht],line,rfl,shows_result hparse rfl rfl ((resultSignals_command lib hr).trans ?_)⟩
    cases cmd with
    | queryAllRelays => cases hc
    | toggleRelay | startTimer | startPulse | startBlink =>
      obtain rfl := Option.some.inj hc
      rfl

end

theorem active_applyUpdate (w : Fin 8 → RelayWidget) (u : ℤ × Bool) (i : Fin 8) :
    (applyUpdate w u i).active = if u.1 = (relayId i).toInt then u.2 else (w i).active := by
  have hi := relayId_toInt i
  have hlt := i.isLt
  unfold applyUpdate
  split
  · next h =>
    dsimp only
    by_cases hu : u.1 = (relayId i).toInt
    · have heq : (⟨(u.1 - 1).toNat,by omega⟩ : Fin 8) = i := Fin.ext (show (u.1 - 1).toNat = i.val by omega)
      rw [if_pos hu, heq, Function.update_self, RelayWidget.updateState]
    · have hne : i ≠ ⟨(u.1 - 1).toNat,by omega⟩ := by
        intro heq
        have hval : i.val = (u.1 - 1).toNat := congrArg Fin.val heq
        omega
      rw [if_neg hu, Function.update_of_ne hne]
  · rw [if_neg (by omega)]

theorem active_foldl_all (f : ℤ → Bool) (ids : List ℤ) (w : Fin 8 → RelayWidget) (i : Fin 8) :
    ((ids.map fun relayId => (relayId,f relayId)).foldl applyUpdate w i).active =
      if (relayId i).toInt ∈ ids then f (relayId i).toInt else (w i).active := by
  induction ids generalizing w with
  | nil => rfl
  | cons id ids ih =>
    rw [List.map_cons, List.foldl_cons, ih, active_applyUpdate]
    by_cases hmem : (relayId i).toInt ∈ ids
    · rw [if_pos hmem, if_pos (List.mem_cons_of_mem _ hmem)]
    · by_cases hid : id = (relayId i).toInt
      · rw [if_neg hmem, if_pos hid, if_pos (List.mem_cons.mpr (.inl hid.symm)), hid]
      · rw [if_neg hmem, if_neg hid, if_neg]
        exact fun h => (List.mem_cons.mp h).elim (fun h => hid h.symm) hmem

namespace Channel
variable {ch : Channel}

def Driven (ch : Channel) : Prop := ch.rs.state = ch.calls.getLast?.getD false

theorem Driven.withState (h : ch.Driven) {f : RelayState → RelayState} (hf : (f ch.rs).state = ch.rs.state) :
    (ch.withState f).Driven := hf.trans h

theorem Driven.drive (h : ch.Driven) (level : Bool) : (ch.drive level).Driven := by
  unfold Driven
  rw [drive_calls, drive_rs]
  split_ifs with hs
  · exact hs.symm.trans h
  · rw [List.getLast?_concat]
    rfl

theorem Driven.command (h : ch.Driven) (now : TimePoint) (cmd : Command) : (ch.command now cmd).Driven := by
  refine (h.withState ?_).drive cmd.level
  cases cmd <;> rfl

theorem Driven.tick (h : ch.Driven) (now : TimePoint) : (ch.tick now).Driven := by
  have ht := ticked now ch
  generalize ch.tick now = ch' at ht ⊢
  cases ht with
  | idle => exact h
  | timeout => exact (h.drive false).withState rfl
  | onEnds => exact (h.drive false).withState rfl
  | lastOffEnds => exact (h.withState rfl).withState rfl
  | offEnds => exact ((h.withState rfl).drive true).withState rfl

end Channel

theorem BaseRelayController.driven_handle {H : Type} {hw : Hardware H} {c : BaseRelayController H} {relayId : ℤ}
    (h8 : c.HasEight) (hr : 1 ≤ relayId ∧ relayId ≤ 8) (h : (c.channel relayId).Driven) (e : TimePoint × Event) :
    ((c.handle hw e).channel relayId).Driven := by
  cases he : Channel.select relayId e with
  | none =>
    rw [channel_handle_none he]
    exact h
  | some input =>
    rw [channel_handle_some h8 hr he]
    obtain ⟨now,input⟩ := input
    cases input with
    | command cmd => exact h.command now cmd
    | tick => exact h.tick now

theorem RelayWidget.handle_ofCard {w : RelayWidget} {i : Fin 8} {action : UserAction} {cmd : DeskCommand}
    (h : (w.handle (relayId i) action).2 = some cmd) : cmd.OfCard := by
  have hr := relayId_range i
  intro c hc
  cases action with
  | modeChanged row =>
    simp only [handle, onModeChanged, Option.ite_none_right_eq_some] at h
    obtain ⟨_,h⟩ := h
    obtain rfl := Option.some.inj h
    obtain rfl := Option.some.inj hc
    exact hr
  | toggled | timerStarted | pulseTriggered | blinkStarted =>
    obtain rfl := Option.some.inj h
    obtain rfl := Option.some.inj hc
    exact hr

theorem DeskCommand.served_card {H : Type} {hw : Hardware H} {s : Server H} {cmd : DeskCommand} (h : cmd.OfCard) :
    cmd.served hw s = s.called hw cmd.call := by
  unfold served call
  cases hc : cmd.command with
  | none => rfl
  | some c =>
    have hr := h c hc
    exact if_neg (by omega)

/-- The calls made on the controller, but for those of the tick thread. -/
def Server.requestCalls {H : Type} (s : Server H) : List Event := s.operations.filter (· ≠ .tick)

theorem Server.requestCalls_called {H : Type} {hw : Hardware H} {s : Server H} (e : Event) :
    (s.called hw e).requestCalls = if e = .tick then s.requestCalls else s.requestCalls ++ [e] := by
  change (s.operations ++ [e]).filter (· ≠ .tick) = _
  rw [List.filter_append]
  split_ifs with he
  · rw [List.filter_cons_of_neg (by simp [he])]
    exact List.append_nil _
  · rw [List.filter_cons_of_pos (by simp [he])]
    rfl

namespace DeskSession
variable {H : Type} {lib : JsonLib} {hw : Hardware H} {s t u : DeskSession H} {l : Label} {calls : List Event}

/-- Nothing under way is out of range or an error, and the calls made, apart from the ticks, are those of the
processed requests. -/
structure Unrefused (lib : JsonLib) (calls : List Event) (s : DeskSession H) : Prop where
  hasEight : s.server.controller.HasEight
  requests : ∀ r ∈ s.requests, r.2.OfCard
  responses : ∀ response ∈ s.responses, ∃ line us, response = line ++ [newline] ∧ Shows lib line us
  calls : s.server.requestCalls = calls ++ s.processed.map DeskCommand.call

theorem userAction_cases (i : Fin 8) (action : UserAction) (s : DeskSession H) :
    s.userAction i action = { s with home := (s.home.onUserAction i action).1 } ∨
    ∃ cmd : DeskCommand, cmd.OfCard ∧
      s.userAction i action = send { s with home := (s.home.onUserAction i action).1 } cmd := by
  unfold userAction
  split
  · next home cmd heq =>
    refine .inr ⟨cmd,?_,by rw [heq]⟩
    have hcmd : ((s.home.relayWidgets i).handle (relayId i) action).2 = some cmd := congrArg Prod.snd heq
    exact RelayWidget.handle_ofCard hcmd
  · next home heq => exact .inl (by rw [heq])

theorem Unrefused.served (hs : Unrefused lib calls s) (hlib : lib.Lawful) (hstep : Step lib hw s .serve t) :
    ∃ requestId cmd rest line, s.requests = (requestId,cmd) :: rest ∧ cmd.OfCard ∧
      Shows lib line (cmd.shows s.server.controller) ∧
      t = { s with
        requests := rest, server := s.server.called hw cmd.call, processed := s.processed ++ [cmd]
        responses := s.responses ++ [line ++ [newline]] } := by
  cases hstep with
  | @serve requestId cmd rest text response server hrequests hdump he =>
    have hcard : cmd.OfCard := hs.requests (requestId,cmd) (hrequests ▸ List.mem_cons_self)
    obtain ⟨rfl,line,rfl,hline⟩ := exec_processRequest_card hlib hs.hasEight hcard hdump he
    refine ⟨requestId,cmd,rest,line,hrequests,hcard,hline,?_⟩
    rw [if_neg (List.append_ne_nil_of_right_ne_nil _ (List.cons_ne_nil _ _))]

theorem Unrefused.send (hs : Unrefused lib calls s) {cmd : DeskCommand} (hcard : cmd.OfCard) :
    Unrefused lib calls (s.send cmd) := by
  refine ⟨hs.hasEight,?_,hs.responses,hs.calls⟩
  intro r hr
  rcases List.mem_append.mp hr with hr | hr
  · exact hs.requests r hr
  · obtain rfl := List.mem_singleton.mp hr
    exact hcard

theorem Unrefused.step (hs : Unrefused lib calls s) (hlib : lib.Lawful) (hstep : Step lib hw s l t) :
    Unrefused lib calls t := by
  cases l with
  | user i action =>
    cases hstep with
    | user =>
      have hhome : Unrefused lib calls { s with home := (s.home.onUserAction i action).1 } :=
        ⟨hs.hasEight,hs.requests,hs.responses,hs.calls⟩
      rcases userAction_cases i action s with heq | ⟨cmd,hcard,heq⟩
      · rw [heq]
        exact hhome
      · rw [heq]
        exact hhome.send hcard
  | poll =>
    cases hstep
    refine hs.send ?_
    intro c hc
    cases hc
  | serve =>
    obtain ⟨requestId,cmd,rest,line,hrequests,hcard,hline,rfl⟩ := hs.served hlib hstep
    have hcall : cmd.call ≠ .tick := by
      unfold DeskCommand.call
      cases cmd.command <;> simp
    refine ⟨hs.hasEight.handle _,fun r hr => hs.requests r (hrequests ▸ List.mem_cons_of_mem _ hr),?_,?_⟩
    · intro response hmem
      rcases List.mem_append.mp hmem with hmem | hmem
      · exact hs.responses response hmem
      · exact ⟨line,_,List.mem_singleton.mp hmem,hline⟩
    · rw [Server.requestCalls_called, if_neg hcall, hs.calls, List.append_assoc, List.map_append]
      rfl
  | tick =>
    cases hstep
    refine ⟨hs.hasEight.tick _,hs.requests,hs.responses,?_⟩
    rw [Server.requestCalls_called, if_pos rfl]
    exact hs.calls
  | deliver =>
    cases hstep with
    | deliver hresponses =>
      exact ⟨hs.hasEight,hs.requests,fun response h => hs.responses response (hresponses ▸ List.mem_cons_of_mem _ h),
        hs.calls⟩
  | dispatch =>
    cases hstep
    exact ⟨hs.hasEight,hs.requests,hs.responses,hs.calls⟩

theorem start_unrefused {device : H} {es : List (TimePoint × Event)} {server : Server H}
    (hserver : server.controller = es.foldl (BaseRelayController.handle hw) (.construct device)) (requestId : Int32)
    (home : AppHome) : Unrefused lib server.requestCalls (start requestId home server) := by
  refine ⟨?_,List.forall_mem_nil _,List.forall_mem_nil _,(List.append_nil _).symm⟩
  rw [start, hserver]
  exact (BaseRelayController.construct_hasEight device).run es

/-- Whatever the user does on the cards, whenever the polls and the ticks come: every request can be processed, the
calls made on the controller are those of the processed requests in their order, and no response that comes back has
an error. -/
theorem requests_granted (lib : JsonLib) (hlib : lib.Lawful) (hw : Hardware H) (device : H) (es : List (TimePoint × Event))
    (server : Server H) (hserver : server.controller = es.foldl (BaseRelayController.handle hw) (.construct device))
    (requestId : Int32) (home : AppHome) (ls : List Label) (s : DeskSession H)
    (hrun : Run (Step lib hw) (start requestId home server) ls s) :
    (s.requests ≠ [] → ∃ t, Step lib hw s .serve t) ∧
    s.server.requestCalls = server.requestCalls ++ s.processed.map DeskCommand.call ∧
    ∀ response ∈ s.responses, ∃ line us, response = line ++ [newline] ∧ Shows lib line us := by
  have hs : Unrefused lib server.requestCalls s :=
    hrun.invariant (P := Unrefused lib _) (fun _ _ _ hs h => hs.step hlib h) (start_unrefused hserver requestId home)
  refine ⟨?_,hs.calls,hs.responses⟩
  intro hne
  obtain ⟨⟨requestId,cmd⟩,rest,hrequests⟩ := List.exists_cons_of_ne_nil hne
  obtain ⟨t,hstep,_⟩ := exists_serve hlib hw hrequests
  exact ⟨t,hstep⟩

/-- The user switches relay 1 on. -/
theorem requests_granted_toggle : ∃ s : DeskSession Unit, s.processed = [.toggleRelay 1 true] ∧
    s.server.requestCalls = [.command (.setRelay 1 true)] := by
  set server : Server Unit := { controller := .construct (), clock := fun _ => 0 }
  set s := (start 1 {} server).userAction 0 (.toggled true)
  have hrequests : s.requests = [(1,.toggleRelay 1 true)] := rfl
  obtain ⟨t,hserve,_,_,hprocessed,_⟩ := exists_serve JsonLib.compact_lawful sil hrequests
  have hgranted := requests_granted .compact JsonLib.compact_lawful sil () [] server rfl 1 {} [.user 0 (.toggled true),.serve] t
    (.step (.user rfl) (.single hserve))
  refine ⟨t,hprocessed,?_⟩
  rw [hgranted.2.1, hprocessed]
  rfl

/-- The updates that no card has shown yet. -/
def waiting (lib : JsonLib) (s : DeskSession H) : List (ℤ × Bool) :=
  s.home.relayQueue ++ s.responses.flatMap fun response => updates lib response.dropLast

def toShow (lib : JsonLib) (s : DeskSession H) (i : Fin 8) : Bool :=
  ((waiting lib s).foldl applyUpdate s.home.relayWidgets i).active

variable {i : Fin 8}

theorem toShow_userAction (j : Fin 8) (action : UserAction) (s : DeskSession H) :
    toShow lib (s.userAction j action) i = toShow lib s i := by
  have hhome : toShow lib { s with home := (s.home.onUserAction j action).1 } i = toShow lib s i :=
    HomeView.active_foldl_congr (HomeView.active_onUserAction s.home j action) (waiting lib s) i
  rcases userAction_cases j action s with heq | ⟨cmd,_,heq⟩
  · rw [heq, hhome]
  · rw [heq]
    exact hhome

theorem foldl_onSignal (signals : List Signal) (home : AppHome) :
    signals.foldl onSignal home = { home with relayQueue := home.relayQueue ++ signals.filterMap Signal.update? } := by
  induction signals generalizing home with
  | nil => simp
  | cons signal signals ih =>
    rw [List.foldl_cons, ih]
    cases signal with
    | log => rfl
    | relayState relayId state => simp [onSignal, onRelayStateUpdated, Signal.update?]

theorem toShow_deliver {line : Bytes} {rest : List Bytes} (h : s.responses = (line ++ [newline]) :: rest) :
    toShow lib { s with responses := rest, home := (processResponse lib line).foldl onSignal s.home } i = toShow lib s i := by
  have hwaiting : waiting lib { s with responses := rest, home := (processResponse lib line).foldl onSignal s.home } =
      waiting lib s := by
    unfold waiting
    rw [foldl_onSignal, h, List.flatMap_cons, List.dropLast_concat, List.append_assoc]
    rfl
  unfold toShow
  rw [hwaiting, foldl_onSignal]

theorem toShow_dispatch : toShow lib { s with home := s.home.onRelayDispatcher } i = toShow lib s i := by
  unfold toShow waiting
  conv_rhs => rw [List.foldl_append]
  rfl

theorem Step.toShow (hstep : Step lib hw s l t) (hl : l ≠ .serve) : DeskSession.toShow lib t i = DeskSession.toShow lib s i := by
  cases hstep with
  | user => exact toShow_userAction _ _ s
  | serve => exact absurd rfl hl
  | deliver h => exact toShow_deliver h
  | dispatch => exact toShow_dispatch
  | poll | tick => rfl

def Fresh (lib : JsonLib) (i : Fin 8) (s : DeskSession H) : Prop :=
  toShow lib s i = (s.channel (relayId i)).rs.state

theorem toShow_served (s : DeskSession H) {requests : List (Int32 × DeskCommand)} {server : Server H}
    {processed : List DeskCommand} {line : Bytes} {us : List (ℤ × Bool)} (h : Shows lib line us) :
    toShow lib { s with requests, server, processed, responses := s.responses ++ [line ++ [newline]] } i =
      (us.foldl applyUpdate ((waiting lib s).foldl applyUpdate s.home.relayWidgets) i).active := by
  unfold toShow waiting
  dsimp only
  rw [List.flatMap_append, List.flatMap_singleton, List.dropLast_concat, h.updates, ← List.append_assoc, List.foldl_append]

theorem Fresh.of_query (hs : Unrefused lib calls s) (hlib : lib.Lawful) (hstep : Step lib hw s .serve t) {requestId : Int32}
    {rest : List (Int32 × DeskCommand)} (hquery : s.requests = (requestId,.queryAllRelays) :: rest) (i : Fin 8) :
    Fresh lib i t := by
  obtain ⟨_,cmd,_,line,hrequests,_,hline,rfl⟩ := hs.served hlib hstep
  obtain ⟨hhead,_⟩ := List.cons.inj (hquery.symm.trans hrequests)
  obtain rfl := (Prod.mk.inj hhead).2
  unfold Fresh
  rw [toShow_served s hline, DeskCommand.shows,
    active_foldl_all fun relayId => (s.server.controller.relay relayId).state,
    if_pos (mem_relayIds_iff.mpr (relayId_range i))]
  rfl

def Silent (relayId : Int32) (s : DeskSession H) : Label → Prop
  | .tick => True
  | .serve => ∃ request rest, s.requests = request :: rest ∧ request.2.Concerns relayId.toInt ∧
      ∀ state, request.2 ≠ .toggleRelay relayId state
  | .user _ _ | .poll | .deliver | .dispatch => False

/-- A step that does not change the level of a channel silently. -/
def Steady (lib : JsonLib) (hw : Hardware H) (relayId : Int32) (s : DeskSession H) (l : Label) (t : DeskSession H) : Prop :=
  Step lib hw s l t ∧ (Silent relayId s l → (t.channel relayId).rs.state = (s.channel relayId).rs.state)

theorem Fresh.served (hs : Unrefused lib calls s) (hlib : lib.Lawful) (hf : Fresh lib i s)
    (h : Steady lib hw (relayId i) s .serve t) : Fresh lib i t := by
  obtain ⟨hstep,hsteady⟩ := h
  have hr := relayId_range i
  obtain ⟨requestId,cmd,rest,line,hrequests,hcard,hline,rfl⟩ := hs.served hlib hstep
  have hserver : cmd.served hw s.server = s.server.called hw cmd.call := DeskCommand.served_card hcard
  unfold Fresh
  rw [toShow_served s hline]
  by_cases hc : cmd.Concerns (relayId i).toInt
  · by_cases htoggle : ∃ state, cmd = .toggleRelay (relayId i) state
    · -- the response repeats the level that the command asks for
      obtain ⟨state,rfl⟩ := htoggle
      have hself : (DeskCommand.served hw s.server (.toggleRelay (relayId i) state)).controller.channel (relayId i).toInt =
          (s.server.controller.channel (relayId i).toInt).command s.server.now (.setRelay (relayId i).toInt state) :=
        channel_served_self hr rfl hc
      rw [hserver] at hself
      rw [DeskCommand.shows, List.foldl_cons, List.foldl_nil, active_applyUpdate, if_pos rfl]
      unfold channel
      rw [hself, Channel.command, Channel.drive_rs]
      rfl
    · have hsilent := hsteady ⟨(requestId,cmd),rest,hrequests,hc,fun state heq => htoggle ⟨state,heq⟩⟩
      have hnone : cmd.shows s.server.controller = [] := by
        cases cmd with
        | queryAllRelays => cases hc
        | startTimer | startPulse | startBlink => rfl
        | toggleRelay id state =>
          have hid : id.toInt = (relayId i).toInt := Option.some.inj hc
          exact absurd ⟨state,by rw [Int32.toInt_inj.mp hid]⟩ htoggle
      rw [hnone, hsilent]
      exact hf
  · have hother : (cmd.served hw s.server).controller.channel (relayId i).toInt =
        s.server.controller.channel (relayId i).toInt := channel_served_ne hc
    rw [hserver] at hother
    unfold channel
    rw [hother]
    cases cmd with
    | queryAllRelays =>
      rw [DeskCommand.shows, active_foldl_all fun relayId => (s.server.controller.relay relayId).state,
        if_pos (mem_relayIds_iff.mpr hr)]
      rfl
    | startTimer | startPulse | startBlink => exact hf
    | toggleRelay id state =>
      have hid : id.toInt ≠ (relayId i).toInt := fun h => hc (congrArg some h)
      rw [DeskCommand.shows, List.foldl_cons, List.foldl_nil, active_applyUpdate, if_neg hid]
      exact hf

theorem Fresh.steady (hs : Unrefused lib calls s) (hlib : lib.Lawful) (hf : Fresh lib i s)
    (h : Steady lib hw (relayId i) s l t) : Fresh lib i t := by
  by_cases hl : l = .serve
  · subst hl
    exact hf.served hs hlib h
  · have hstate : (t.channel (relayId i)).rs.state = (s.channel (relayId i)).rs.state := by
      cases h.1 with
      | user =>
        unfold channel
        rw [(userAction_eq _ _ s).1]
      | serve => exact absurd rfl hl
      | poll | deliver | dispatch => rfl
      | tick => exact h.2 trivial
    exact (h.1.toShow hl).trans (hf.trans hstate.symm)

theorem Step.driven (hs : Unrefused lib calls s) (hlib : lib.Lawful) (hstep : Step lib hw s l t)
    (h : (s.channel (relayId i)).Driven) : (t.channel (relayId i)).Driven := by
  have hr := relayId_range i
  cases l with
  | serve =>
    obtain ⟨_,cmd,_,_,_,_,_,rfl⟩ := hs.served hlib hstep
    exact BaseRelayController.driven_handle hs.hasEight hr h _
  | tick =>
    cases hstep
    exact BaseRelayController.driven_handle hs.hasEight hr h _
  | user i action =>
    cases hstep
    unfold channel
    rw [(userAction_eq _ _ s).1]
    exact h
  | poll | deliver | dispatch =>
    cases hstep
    exact h

theorem start_driven {device : H} {es : List (TimePoint × Event)} {server : Server H}
    (hserver : server.controller = es.foldl (BaseRelayController.handle hw) (.construct device)) (requestId : Int32)
    (home : AppHome) (i : Fin 8) : ((start requestId home server).channel (relayId i)).Driven := by
  have hr := relayId_range i
  unfold channel start
  rw [hserver, BaseRelayController.channel_run (BaseRelayController.construct_hasEight device) hr,
    BaseRelayController.channel_construct]
  generalize es.filterMap (Channel.select (relayId i).toInt) = inputs
  have hrun : ∀ ch : Channel, ch.Driven → (inputs.foldl Channel.step ch).Driven := by
    induction inputs with
    | nil => exact fun _ h => h
    | cons input inputs ih =>
      intro ch h
      obtain ⟨now,input⟩ := input
      cases input with
      | command cmd => exact ih _ (h.command now cmd)
      | tick => exact ih _ (h.tick now)
  exact hrun {} rfl

/-- Whatever went before: after an answered query, and as long as the level of a channel is not changed silently, the
card shows the level that the output was last driven to, whenever no response and no update waits. -/
theorem cards_at_rest (lib : JsonLib) (hlib : lib.Lawful) (hw : Hardware H) (device : H) (es : List (TimePoint × Event))
    (server : Server H) (hserver : server.controller = es.foldl (BaseRelayController.handle hw) (.construct device))
    (requestId : Int32) (home : AppHome) (before : List Label) (s t u : DeskSession H)
    (hbefore : Run (Step lib hw) (start requestId home server) before s) (queryId : Int32)
    (rest : List (Int32 × DeskCommand)) (hquery : s.requests = (queryId,.queryAllRelays) :: rest)
    (hserve : Step lib hw s .serve t) (i : Fin 8) (after : List Label)
    (hafter : Run (Steady lib hw (relayId i)) t after u) (hresponses : u.responses = []) (hqueue : u.home.relayQueue = []) :
    (u.home.relayWidgets i).active = (u.channel (relayId i)).rs.state ∧
      (u.home.relayWidgets i).active = (u.channel (relayId i)).calls.getLast?.getD false := by
  have hs : Unrefused lib server.requestCalls s ∧ (s.channel (relayId i)).Driven :=
    hbefore.invariant (P := fun s => Unrefused lib server.requestCalls s ∧ (s.channel (relayId i)).Driven)
      (fun _ _ _ hs h => ⟨hs.1.step hlib h,h.driven hs.1 hlib hs.2⟩)
      ⟨start_unrefused hserver requestId home,start_driven hserver requestId home i⟩
  have hu : Unrefused lib server.requestCalls u ∧ (u.channel (relayId i)).Driven ∧ Fresh lib i u :=
    hafter.invariant (P := fun u => Unrefused lib server.requestCalls u ∧ (u.channel (relayId i)).Driven ∧ Fresh lib i u)
      (fun _ _ _ hs h => ⟨hs.1.step hlib h.1,h.1.driven hs.1 hlib hs.2.1,hs.2.2.steady hs.1 hlib h⟩)
      ⟨hs.1.step hlib hserve,hserve.driven hs.1 hlib hs.2,.of_query hs.1 hlib hserve hquery i⟩
  have hshown : (u.home.relayWidgets i).active = (u.channel (relayId i)).rs.state := by
    have hfresh := hu.2.2
    unfold Fresh toShow waiting at hfresh
    rw [hresponses, hqueue] at hfresh
    exact hfresh
  exact ⟨hshown,hshown.trans hu.2.1⟩

/-- Relay 1 is on from an earlier connection, which the card shows after the first poll. -/
theorem cards_at_rest_poll : ∃ s : DeskSession Unit, s.responses = [] ∧ s.home.relayQueue = [] ∧
    (s.home.relayWidgets 0).active = true := by
  set server : Server Unit :=
    ⟨[(0,.command (.setRelay 1 true))].foldl (BaseRelayController.handle sil) (.construct ()),[],fun _ => 0⟩
  set s := (start 1 {} server).send .queryAllRelays
  have hstart : Unrefused .compact server.requestCalls (start 1 {} server) := start_unrefused rfl 1 {}
  have hs : Unrefused .compact server.requestCalls s := hstart.step JsonLib.compact_lawful (@Step.poll _ .compact sil _)
  have hrequests : s.requests = [(1,.queryAllRelays)] := rfl
  obtain ⟨t,hserve,_⟩ := exists_serve JsonLib.compact_lawful sil hrequests
  obtain ⟨_,cmd,_,line,hsame,_,_,rfl⟩ := hs.served JsonLib.compact_lawful hserve
  obtain rfl := (Prod.mk.inj (List.cons.inj (hrequests.symm.trans hsame)).1).2
  have hrest := cards_at_rest .compact JsonLib.compact_lawful sil () [(0,.command (.setRelay 1 true))] server rfl 1 {} [.poll] s _ _
    (.single .poll) 1 [] hrequests hserve 0 [.deliver,.dispatch]
    (.step ⟨.deliver rfl,False.elim⟩ (.single ⟨.dispatch,False.elim⟩)) rfl rfl
  refine ⟨_,rfl,rfl,hrest.1.trans ?_⟩
  rfl

end DeskSession
end MiniHil
