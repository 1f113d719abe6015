import MiniHil.System.Delivery
import MiniHil.System.DeskRequests

/-! # What the desks are told

Any number of desks on one server, with ticks and the calls of other clients in between. The updates that
`processResponse` makes of a response are the levels right after the call that the response answers, and
one desk gets them in the order of these calls.
-/
namespace MiniHil
open Runs Throwing JsonRpcRouter AppController

def Signal.update? : Signal → Option (ℤ × Bool)
  | .relayState relayId state => some (relayId,state)
  | .log _ => none

/-- The updates that `processResponse` emits for a line. -/
def updates (lib : JsonLib) (line : Bytes) : List (ℤ × Bool) := (processResponse lib line).filterMap Signal.update?

section
variable {lib : JsonLib} {line : Bytes} {res : Json}

theorem updates_error (hp : lib.parse line = .ok res) (he : res.contains (ascii "error") = true)
    (hnull : (res.member (ascii "error")).isNull = false) : updates lib line = [] := by
  have hsignals : responseSignals lib res = (do
      let text ← lib.dump (res.member (ascii "error"))
      pure [.log (ascii "[Error] " ++ text)]) := if_pos (by rw [he, hnull]; rfl)
  unfold updates processResponse
  rw [hp]
  dsimp only
  rw [hsignals]
  cases lib.dump (res.member (ascii "error")) <;> rfl

theorem updates_result (hp : lib.parse line = .ok res) (he : res.contains (ascii "error") = false)
    (hr : res.contains (ascii "result") = true) {signals : List Signal}
    (hs : resultSignals lib (res.member (ascii "result")) = .ok signals) :
    updates lib line = signals.filterMap Signal.update? := by
  have hsignals : responseSignals lib res = .ok signals := by
    unfold responseSignals
    rw [if_neg (by simp [he]), if_pos hr, hs]
  unfold updates processResponse
  rw [hp]
  dsimp only
  rw [hsignals]
  rfl

theorem resultSignals_command (lib : JsonLib) {cmd : Command} (hr : 1 ≤ cmd.relayId ∧ cmd.relayId ≤ 8) :
    resultSignals lib cmd.result = .ok (match cmd with
      | .setRelay relayId state => [.relayState relayId state]
      | _ => []) := by
  cases cmd with
  | setRelay relayId state =>
    have hid : lib.getInt (.integer relayId) = .ok relayId := by
      apply getInt_int32
      have hlow : 1 ≤ relayId := hr.1
      have hhigh : relayId ≤ 8 := hr.2
      omega
    change (do
      let relayId ← lib.getInt (.integer relayId)
      let state ← JsonLib.getBool (.boolean state)
      pure [Signal.relayState relayId state]) = _
    rw [hid]
    rfl
  | startTimer | startPulse | startBlink => rfl

def relayIds : List ℤ := [1,2,3,4,5,6,7,8]

theorem mem_relayIds_iff {relayId : ℤ} : relayId ∈ relayIds ↔ 1 ≤ relayId ∧ relayId ≤ 8 := by
  simp only [relayIds, List.mem_cons, List.not_mem_nil, or_false]
  omega

theorem toList_getAllStates {H : Type} {c : BaseRelayController H} (h : c.HasEight) :
    c.getAllStates.toList = relayIds.map fun relayId => (relayId,(c.relay relayId).state) := by
  have hkeys : c.getAllStates.toList.map Prod.fst = relayIds := by
    rw [Std.ExtTreeMap.map_fst_toList_eq_keys, BaseRelayController.getAllStates, Std.ExtTreeMap.keys_map,
      BaseRelayController.keys_eq h]
    rfl
  rw [← hkeys, List.map_map]
  refine (List.map_id _).symm.trans (List.map_congr_left ?_)
  rintro ⟨relayId,state⟩ hmem
  have hget := Std.ExtTreeMap.mem_toList_iff_getElem?_eq_some.mp hmem
  have hr : 1 ≤ relayId ∧ relayId ≤ 8 := mem_relayIds_iff.mp (hkeys ▸ List.mem_map_of_mem hmem)
  rw [BaseRelayController.getAllStates_eq h hr] at hget
  exact Prod.ext rfl (Option.some.inj hget).symm

theorem memberSignal_relay (state : Bool) : ∀ relayId ∈ relayIds,
    memberSignal (ascii (toString relayId),.boolean state) = some (.relayState relayId state) := by
  have hstoi : ∀ relayId ∈ relayIds, stoi (ascii (toString relayId)) = some relayId := by decide
  intro relayId hmem
  rw [memberSignal, hstoi relayId hmem]

theorem resultSignals_relays (lib : JsonLib) {H : Type} {c : BaseRelayController H} (h : c.HasEight) :
    resultSignals lib (relaysResult c) =
      .ok (relayIds.map fun relayId => .relayState relayId (c.relay relayId).state) := by
  have hobject : ∀ states : ℤ → Bool,
      Json.ofMembers (relayIds.map fun relayId => (ascii (toString relayId),.boolean (states relayId))) =
        .object (relayIds.map fun relayId => (ascii (toString relayId),.boolean (states relayId))) := by
    intro states
    rfl
  have hkeys : ∀ states : ℤ → Bool, (Json.object (relayIds.map fun relayId =>
      (ascii (toString relayId),.boolean (states relayId)))).contains (ascii "relay_id") = false := by
    intro states
    rfl
  have hresult : relaysResult c =
      .object (relayIds.map fun relayId => (ascii (toString relayId),.boolean (c.relay relayId).state)) := by
    rw [relaysResult, toList_getAllStates h, List.map_map]
    exact hobject fun relayId => (c.relay relayId).state
  have hno := hkeys fun relayId => (c.relay relayId).state
  rw [hresult, resultSignals, if_neg (by rw [hno]; exact Bool.false_ne_true), List.filterMap_map]
  refine congrArg Except.ok (List.filterMap_eq_map_iff_forall_eq_some.mpr ?_)
  exact fun relayId hmem => memberSignal_relay _ relayId hmem

variable {id result : Json}

theorem exact_makeErrorResponse {code : ℤ} (hid : id.exact = true) (hlow : -2 ^ 31 ≤ code) (hhigh : code < 2 ^ 31)
    (message : Bytes) : (makeErrorResponse id code message).exact = true := by
  have hcode : (Json.integer code).exact = true := by
    simp only [Json.exact, Bool.and_eq_true, decide_eq_true_eq]
    omega
  have herror : (Json.ofMembers [(ascii "code",.integer code),(ascii "message",.string message)]).exact = true := by
    apply Json.exact_ofMembers
    simp only [List.forall_mem_cons, List.not_mem_nil, false_implies, implies_true, and_true]
    exact ⟨hcode,rfl⟩
  apply Json.exact_ofMembers
  simp only [List.forall_mem_cons, List.not_mem_nil, false_implies, implies_true, and_true]
  exact ⟨rfl,herror,hid⟩

theorem exact_makeSuccessResponse (hid : id.exact = true) (hr : result.exact = true) :
    (makeSuccessResponse id result).exact = true := by
  apply Json.exact_ofMembers
  simp only [List.forall_mem_cons, List.not_mem_nil, false_implies, implies_true, and_true]
  exact ⟨rfl,hr,hid⟩

theorem exact_result {cmd : Command} (hr : 1 ≤ cmd.relayId ∧ cmd.relayId ≤ 8) : cmd.result.exact = true := by
  have hid : (Json.integer cmd.relayId).exact = true := by
    simp only [Json.exact, Bool.and_eq_true, decide_eq_true_eq]
    omega
  apply Json.exact_ofMembers
  cases cmd with
  | setRelay =>
    simp only [Command.echo, List.forall_mem_cons, List.not_mem_nil, false_implies, implies_true, and_true]
    exact ⟨rfl,hid,rfl⟩
  | startTimer | startPulse | startBlink =>
    simp only [Command.echo, List.forall_mem_cons, List.not_mem_nil, false_implies, implies_true, and_true,
      DeskCommand.exact_uint32]
    exact ⟨rfl,hid⟩

theorem exact_relaysResult {H : Type} (c : BaseRelayController H) : (relaysResult c).exact = true := by
  apply Json.exact_ofMembers
  intro p hp
  obtain ⟨_,_,rfl⟩ := List.mem_map.mp hp
  rfl

end

namespace DeskCommand

/-- The call that a request asks for. -/
def call (cmd : DeskCommand) : Event :=
  match cmd.command with
  | some c => .command c
  | none => .getAllStates

/-- The updates that a response to the request may have: those of a command only repeat it, and those
of a query go through the channels. -/
def Fits (cmd : DeskCommand) (us : List (ℤ × Bool)) : Prop :=
  match cmd with
  | .toggleRelay relayId state => us = [] ∨ us = [(relayId.toInt,state)]
  | .startTimer _ _ | .startPulse _ _ | .startBlink _ _ _ _ => us = []
  | .queryAllRelays => us.map Prod.fst = relayIds

end DeskCommand

section
variable {H : Type} {lib : JsonLib} {hw : Hardware H} {s t : Server H} {requestId : Int32} {cmd : DeskCommand} {text line : Bytes}

theorem exec_processRequest_response (hlib : lib.Lawful) (hdump : lib.dump (cmd.request requestId) = .ok text)
    (h : exec (processRequest lib (mainRouter lib hw) text) s = (.ok (line ++ [newline]),t)) :
    ∃ response, exec (processSingleRequest lib (mainRouter lib hw) (cmd.request requestId)) s = (.ok response,t) ∧
      lib.dump response = .ok line := by
  rw [exec_processRequest (hlib.parse_dump (cmd.request_exact requestId) hdump)] at h
  obtain ⟨rootResponse,u,hreply,h⟩ := exec_bind_eq_ok h
  obtain ⟨response,v,hresponse,hreply⟩ := exec_bind_eq_ok hreply
  obtain ⟨hroot,rfl⟩ := Prod.mk.inj hreply
  rw [(exec_answered hresponse).isNull] at hroot
  obtain rfl := Except.ok.inj hroot
  obtain ⟨rfl,text',hdump',hline⟩ := exec_dumpLine_eq_ok h
  obtain ⟨rfl,_⟩ := List.append_inj' hline rfl
  exact ⟨response,hresponse,hdump'⟩

theorem exact_requestId (requestId : Int32) (cmd : DeskCommand) :
    (JsonRpcRouter.requestId (cmd.request requestId)).exact = true := by
  have hid : JsonRpcRouter.requestId (cmd.request requestId) = .integer requestId.toInt := by
    cases cmd <;> rfl
  rw [hid]
  exact DeskCommand.exact_int32 requestId

theorem getRelay_called (h8 : s.controller.HasEight) {c : Command} (hr : 1 ≤ c.relayId ∧ c.relayId ≤ 8) :
    (s.called hw (.command c)).controller.getRelay c.relayId = some c.level := by
  have h8' : (s.called hw (.command c)).controller.HasEight := h8.handle _
  have hchannel : (s.called hw (.command c)).controller.channel c.relayId = (s.controller.channel c.relayId).command s.now c :=
    BaseRelayController.channel_execute_self hr
  rw [BaseRelayController.getRelay_eq h8' hr, BaseRelayController.relay_eq_channel, hchannel, Channel.command,
    Channel.drive_rs]

theorem called_inj {e e' : Event} (h : s.called hw e = s.called hw e') : e = e' := by
  have hoperations : s.operations ++ [e] = s.operations ++ [e'] := congrArg Server.operations h
  exact List.head_eq_of_cons_eq (List.append_cancel_left hoperations)

theorem updates_command (hlib : lib.Lawful) (h8 : s.controller.HasEight) {c : Command} (hc : cmd.command = some c)
    {response : Json} (h : exec (processSingleRequest lib (mainRouter lib hw) (cmd.request requestId)) s = (.ok response,t))
    (hline : lib.dump response = .ok line) :
    updates lib line = [] ∨ ∃ relayId state, c = .setRelay relayId state ∧ updates lib line = [(relayId,state)] ∧
      t = s.called hw (.command c) ∧ relayId ∈ relayIds ∧ t.controller.getRelay relayId = some state := by
  have hid := exact_requestId requestId cmd
  have hname := DeskCommand.member_method lib requestId hc
  have hqueries := name_notMem_queries (commandMethod_mem lib c)
  have hserved := exec_processSingleRequest_desk h
  rcases answer h with ⟨_,hok,ha⟩ | ⟨_,herror,_⟩
  · obtain rfl := Except.ok.inj hok
    cases ha with
    | error message hlow hhigh _ =>
      exact .inl (updates_error (hlib.parse_dump (exact_makeErrorResponse hid hlow hhigh message) hline) rfl rfl)
    | @applied m c' _ _ _ hrange =>
      have hsame : c' = c := by
        unfold DeskCommand.served at hserved
        rw [hc] at hserved
        dsimp only at hserved
        split_ifs at hserved
        · exact absurd hserved (called_ne _)
        · exact Event.command.inj (called_inj hserved)
      subst hsame
      have hus := updates_result (hlib.parse_dump (exact_makeSuccessResponse hid (exact_result hrange)) hline) rfl rfl
        (resultSignals_command lib hrange)
      cases c' with
      | setRelay relayId state =>
        exact .inr ⟨relayId,state,rfl,hus,rfl,mem_relayIds_iff.mpr hrange,getRelay_called h8 hrange⟩
      | startTimer | startPulse | startBlink => exact .inl hus
    | relays hname' =>
      have hsame := Json.string.inj (hname.symm.trans hname')
      exact absurd (hsame ▸ List.mem_cons_self) hqueries
    | status hname' =>
      have hsame := Json.string.inj (hname.symm.trans hname')
      exact absurd (hsame ▸ List.mem_cons_of_mem _ List.mem_cons_self) hqueries
  · cases herror

theorem updates_query (hlib : lib.Lawful) (h8 : s.controller.HasEight) {response : Json}
    (h : exec (processSingleRequest lib (mainRouter lib hw) (DeskCommand.queryAllRelays.request requestId)) s = (.ok response,t))
    (hline : lib.dump response = .ok line) :
    t = s.called hw .getAllStates ∧
      updates lib line = relayIds.map fun relayId => (relayId,(s.controller.relay relayId).state) := by
  rw [exec_processSingleRequest_relays lib hw s (DeskCommand.isRequest_request requestId .queryAllRelays) rfl] at h
  obtain ⟨hok,rfl⟩ := Prod.mk.inj h
  obtain rfl := Except.ok.inj hok
  have hid := exact_requestId requestId .queryAllRelays
  have hus := updates_result (hlib.parse_dump (exact_makeSuccessResponse hid (exact_relaysResult s.controller)) hline) rfl rfl
    (resultSignals_relays lib h8)
  rw [List.filterMap_map] at hus
  refine ⟨rfl,hus.trans (List.filterMap_eq_map_iff_forall_eq_some.mpr ?_)⟩
  exact fun _ _ => rfl

theorem updates_served (hlib : lib.Lawful) (h8 : s.controller.HasEight) (hdump : lib.dump (cmd.request requestId) = .ok text)
    (h : exec (processRequest lib (mainRouter lib hw) text) s = (.ok (line ++ [newline]),t)) :
    cmd.Fits (updates lib line) ∧ ∀ u ∈ updates lib line,
      t = s.called hw cmd.call ∧ u.1 ∈ relayIds ∧ t.controller.getRelay u.1 = some u.2 := by
  obtain ⟨response,hresponse,hline⟩ := exec_processRequest_response hlib hdump h
  cases hc : cmd.command with
  | none =>
    cases cmd with
    | queryAllRelays =>
      obtain ⟨rfl,hus⟩ := updates_query hlib h8 hresponse hline
      rw [hus]
      refine ⟨?_,?_⟩
      · change (relayIds.map fun relayId => (relayId,_)).map Prod.fst = relayIds
        rw [List.map_map]
        exact List.map_id _
      · intro u hu
        obtain ⟨relayId,hmem,rfl⟩ := List.mem_map.mp hu
        exact ⟨rfl,hmem,BaseRelayController.getRelay_eq h8 (mem_relayIds_iff.mp hmem)⟩
    | toggleRelay | startTimer | startPulse | startBlink => cases hc
  | some c =>
    have hcall : cmd.call = .command c := by rw [DeskCommand.call, hc]
    rw [hcall]
    rcases updates_command hlib h8 hc hresponse hline with hus | ⟨relayId,state,rfl,hus,rfl,hmem,hget⟩
    · rw [hus]
      refine ⟨?_,by simp⟩
      cases cmd with
      | queryAllRelays => cases hc
      | toggleRelay => exact .inl rfl
      | startTimer | startPulse | startBlink => rfl
    · rw [hus]
      refine ⟨?_,?_⟩
      · cases cmd with
        | toggleRelay =>
          obtain ⟨rfl,rfl⟩ := Command.setRelay.inj (Option.some.inj hc)
          exact .inr rfl
        | queryAllRelays | startTimer | startPulse | startBlink => cases hc
      · intro u hu
        obtain rfl := List.mem_singleton.mp hu
        exact ⟨rfl,hmem,hget⟩

end

/-- A response under way or processed. What it answers, and how many calls were made on the controller
until then, is not in its text. -/
structure Reply where
  cmd : DeskCommand
  instant : ℕ
  line : Bytes

structure DeskConnection where
  requestId : Int32
  requests : List (Int32 × DeskCommand) := []
  responses : List Reply := []
  received : List Reply := []

structure Desks (ι H : Type) where
  server : Server H
  desks : ι → DeskConnection

namespace Desks
variable {ι H : Type} [DecidableEq ι]

inductive Label (ι : Type)
  | command (i : ι) (cmd : DeskCommand)
  | other (e : Event)
  | serve (i : ι)
  | deliver (i : ι)
  | reconnect (i : ι)

def setDesk (i : ι) (d : DeskConnection) (s : Desks ι H) : Desks ι H :=
  { s with desks := Function.update s.desks i d }

/-- Each connection is served in its own order; `other` is a tick or a call for another client. What was
under way when a desk connects again does not reach it any more. -/
inductive Step (lib : JsonLib) (hw : Hardware H) (s : Desks ι H) : Label ι → Desks ι H → Prop
  | command {i : ι} {cmd : DeskCommand} : Step lib hw s (.command i cmd) (s.setDesk i { s.desks i with
      requestId := (s.desks i).requestId + 1, requests := (s.desks i).requests ++ [((s.desks i).requestId,cmd)] })
  | other {e : Event} : Step lib hw s (.other e) { s with server := s.server.called hw e }
  | serve {i : ι} {requestId : Int32} {cmd : DeskCommand} {rest : List (Int32 × DeskCommand)} {text line : Bytes}
      {server : Server H} : (s.desks i).requests = (requestId,cmd) :: rest → lib.dump (cmd.request requestId) = .ok text →
      exec (processRequest lib (mainRouter lib hw) text) s.server = (.ok (line ++ [newline]),server) →
      Step lib hw s (.serve i) ({ s with server }.setDesk i { s.desks i with
        requests := rest, responses := (s.desks i).responses ++ [Reply.mk cmd server.operations.length line] })
  | serveSilently {i : ι} {requestId : Int32} {cmd : DeskCommand} {rest : List (Int32 × DeskCommand)} {text : Bytes}
      {server : Server H} : (s.desks i).requests = (requestId,cmd) :: rest → lib.dump (cmd.request requestId) = .ok text →
      exec (processRequest lib (mainRouter lib hw) text) s.server = (.ok [],server) →
      Step lib hw s (.serve i) ({ s with server }.setDesk i { s.desks i with requests := rest })
  | deliver {i : ι} {r : Reply} {rest : List Reply} : (s.desks i).responses = r :: rest →
      Step lib hw s (.deliver i) (s.setDesk i { s.desks i with
        responses := rest, received := (s.desks i).received ++ [r] })
  | reconnect {i : ι} : Step lib hw s (.reconnect i) (s.setDesk i { s.desks i with requests := [], responses := [] })

def start (hw : Hardware H) (device : H) (clock : ℕ → TimePoint) (requestIds : ι → Int32) : Desks ι H where
  server := { controller := (BaseRelayController.init hw (.construct device)).2, clock }
  desks i := { requestId := requestIds i }

def replay (hw : Hardware H) (server : Server H) (operations : List Event) : Server H :=
  operations.foldl (Server.called hw) server

structure Shown (lib : JsonLib) (hw : Hardware H) (server : Server H) (operations : List Event) (r : Reply) : Prop where
  instant_le : r.instant ≤ operations.length
  fits : r.cmd.Fits (updates lib r.line)
  answers : ∀ u ∈ updates lib r.line, ∃ before, operations.take r.instant = before ++ [r.cmd.call]
  holds : ∀ u ∈ updates lib r.line, u.1 ∈ relayIds ∧
    (replay hw server (operations.take r.instant)).controller.getRelay u.1 = some u.2

structure Inv (lib : JsonLib) (hw : Hardware H) (server : Server H) (s : Desks ι H) : Prop where
  history : s.server = replay hw server s.server.operations
  eight : s.server.controller.HasEight
  shown : ∀ i, ∀ r ∈ (s.desks i).received ++ (s.desks i).responses, Shown lib hw server s.server.operations r
  ordered : ∀ i, ((s.desks i).received ++ (s.desks i).responses).Pairwise fun r r' => r.instant ≤ r'.instant

variable {lib : JsonLib} {hw : Hardware H} {server : Server H} {operations : List Event} {r : Reply} {s t : Desks ι H}
  {l : Label ι}

theorem Shown.append (h : Shown lib hw server operations r) (later : List Event) :
    Shown lib hw server (operations ++ later) r := by
  have htake : (operations ++ later).take r.instant = operations.take r.instant :=
    List.take_append_of_le_length h.instant_le
  refine ⟨?_,h.fits,?_,?_⟩
  · have hle := h.instant_le
    rw [List.length_append]
    omega
  · rw [htake]
    exact h.answers
  · rw [htake]
    exact h.holds

theorem replay_append (operations later : List Event) :
    replay hw server (operations ++ later) = replay hw (replay hw server operations) later := List.foldl_append

theorem Inv.step (h : Inv lib hw server s) {later : List Event} (hserver : t.server = replay hw s.server later)
    (hoperations : t.server.operations = s.server.operations ++ later) (h8 : t.server.controller.HasEight)
    {i : ι} (hne : ∀ j, j ≠ i → t.desks j = s.desks j)
    (hshown : ∀ r ∈ (t.desks i).received ++ (t.desks i).responses, Shown lib hw server t.server.operations r)
    (hordered : ((t.desks i).received ++ (t.desks i).responses).Pairwise fun r r' => r.instant ≤ r'.instant) :
    Inv lib hw server t := by
  refine ⟨?_,h8,?_,?_⟩
  · rw [hoperations, replay_append, ← h.history, hserver]
  · intro j
    by_cases hj : j = i
    · subst hj
      exact hshown
    · rw [hne j hj, hoperations]
      exact fun r hr => (h.shown j r hr).append later
  · intro j
    by_cases hj : j = i
    · subst hj
      exact hordered
    · rw [hne j hj]
      exact h.ordered j

omit [DecidableEq ι] in
theorem start_inv (hw : Hardware H) (device : H) (clock : ℕ → TimePoint) (requestIds : ι → Int32) :
    Inv lib hw (start hw device clock requestIds).server (start hw device clock requestIds) := by
  refine ⟨rfl,BaseRelayController.construct_hasEight device,?_,?_⟩
  · intro i r hr
    cases hr
  · exact fun _ => .nil

theorem served_cases (hw : Hardware H) (cmd : DeskCommand) (server : Server H) :
    ∃ later, cmd.served hw server = replay hw server later ∧
      (cmd.served hw server).operations = server.operations ++ later := by
  unfold DeskCommand.served
  split
  · exact ⟨[.getAllStates],rfl,rfl⟩
  · split_ifs
    · exact ⟨[],rfl,(List.append_nil _).symm⟩
    · exact ⟨[.command _],rfl,rfl⟩

omit [DecidableEq ι] in
theorem Inv.shown_served (hlib : lib.Lawful) (hs : Inv lib hw server s) {requestId : Int32} {cmd : DeskCommand}
    {text line : Bytes} {server' : Server H} (hdump : lib.dump (cmd.request requestId) = .ok text)
    (he : exec (processRequest lib (mainRouter lib hw) text) s.server = (.ok (line ++ [newline]),server'))
    (hnow : replay hw server server'.operations = server') :
    Shown lib hw server server'.operations (.mk cmd server'.operations.length line) := by
  obtain ⟨hfits,hholds⟩ := updates_served hlib hs.eight hdump he
  have htake : server'.operations.take server'.operations.length = server'.operations := List.take_length
  refine ⟨Nat.le_refl _,hfits,?_,?_⟩
  · intro u hu
    refine ⟨s.server.operations,htake.trans ?_⟩
    rw [(hholds u hu).1]
    rfl
  · intro u hu
    refine ⟨(hholds u hu).2.1,?_⟩
    dsimp only
    rw [htake, hnow]
    exact (hholds u hu).2.2

theorem Inv.serve (hlib : lib.Lawful) (hs : Inv lib hw server s) {i : ι} {requestId : Int32} {cmd : DeskCommand}
    {rest : List (Int32 × DeskCommand)} {text line : Bytes} {server' : Server H}
    (hdump : lib.dump (cmd.request requestId) = .ok text)
    (he : exec (processRequest lib (mainRouter lib hw) text) s.server = (.ok (line ++ [newline]),server')) :
    Inv lib hw server ({ s with server := server' }.setDesk i { s.desks i with
      requests := rest, responses := (s.desks i).responses ++ [Reply.mk cmd server'.operations.length line] }) := by
  have hserver := exec_processRequest_desk hlib hdump he
  obtain ⟨later,hreplay,hoperations⟩ := served_cases hw cmd s.server
  rw [← hserver] at hreplay hoperations
  have hlength : s.server.operations.length ≤ server'.operations.length := by
    rw [hoperations, List.length_append]
    omega
  have hnow : replay hw server server'.operations = server' := by
    rw [hoperations, replay_append, ← hs.history, ← hreplay]
  have h8 : server'.controller.HasEight := by
    rw [hserver]
    exact served_hasEight hs.eight cmd
  refine hs.step hreplay hoperations h8 (fun j hj => Function.update_of_ne hj _ _) ?_ ?_
  · simp only [setDesk, Function.update_self]
    rw [← List.append_assoc]
    intro r hr
    rcases List.mem_append.mp hr with hr | hr
    · rw [hoperations]
      exact (hs.shown i r hr).append later
    · obtain rfl := List.mem_singleton.mp hr
      exact hs.shown_served hlib hdump he hnow
  · simp only [setDesk, Function.update_self]
    rw [← List.append_assoc, List.pairwise_append]
    refine ⟨hs.ordered i,List.pairwise_singleton _ _,?_⟩
    intro r hr r' hr'
    obtain rfl := List.mem_singleton.mp hr'
    exact (hs.shown i r hr).instant_le.trans hlength

theorem Step.inv (hlib : lib.Lawful) (hs : Inv lib hw server s) (hstep : Step lib hw s l t) : Inv lib hw server t := by
  have hnil := (List.append_nil s.server.operations).symm
  cases hstep with
  | command =>
    refine hs.step rfl hnil hs.eight (fun j hj => Function.update_of_ne hj _ _) ?_ ?_
    · simpa [setDesk] using hs.shown _
    · simpa [setDesk] using hs.ordered _
  | @other e =>
    refine ⟨?_,hs.eight.handle _,?_,hs.ordered⟩
    · change s.server.called hw e = replay hw server (s.server.operations ++ [e])
      rw [replay_append, ← hs.history]
      rfl
    · exact fun i r hr => (hs.shown i r hr).append [e]
  | serve _ hdump he => exact hs.serve hlib hdump he
  | @serveSilently i _ cmd _ _ server' _ hdump he =>
    have hserver := exec_processRequest_desk hlib hdump he
    obtain ⟨later,hreplay,hoperations⟩ := served_cases hw cmd s.server
    rw [← hserver] at hreplay hoperations
    have h8 : server'.controller.HasEight := by
      rw [hserver]
      exact served_hasEight hs.eight cmd
    refine hs.step hreplay hoperations h8 (fun j hj => Function.update_of_ne hj _ _) ?_ ?_
    · simp only [setDesk, Function.update_self]
      rw [hoperations]
      exact fun r hr => (hs.shown i r hr).append later
    · simpa [setDesk] using hs.ordered i
  | @deliver i r rest hresponses =>
    refine hs.step rfl hnil hs.eight (fun j hj => Function.update_of_ne hj _ _) ?_ ?_
    · have hshown := hs.shown i
      rw [hresponses] at hshown
      simpa [setDesk] using hshown
    · have hordered := hs.ordered i
      rw [hresponses] at hordered
      simpa [setDesk] using hordered
  | @reconnect i =>
    refine hs.step rfl hnil hs.eight (fun j hj => Function.update_of_ne hj _ _) ?_ ?_
    · simp only [setDesk, Function.update_self, List.append_nil]
      exact fun r hr => hs.shown i r (List.mem_append_left _ hr)
    · simp only [setDesk, Function.update_self, List.append_nil]
      exact (List.pairwise_append.mp (hs.ordered i)).1

/-- However many desks and other clients there are and however their requests and the ticks interleave: every
update that a desk gets is the level of the channel right after the call that the response answers, the desk
gets its updates in the order of these calls, a query updates each channel once, and no other response
than that to `set_relay` updates any. -/
theorem view_truthful (lib : JsonLib) (hlib : lib.Lawful) (hw : Hardware H) (device : H) (clock : ℕ → TimePoint)
    (requestIds : ι → Int32) (ls : List (Label ι)) (s : Desks ι H)
    (hr : Run (Step lib hw) (start hw device clock requestIds) ls s) (i : ι) :
    let server := (start hw device clock requestIds).server
    s.server = replay hw server s.server.operations ∧
    (∀ r ∈ (s.desks i).received, ∀ u ∈ updates lib r.line,
      (∃ before, s.server.operations.take r.instant = before ++ [r.cmd.call]) ∧
      (replay hw server (s.server.operations.take r.instant)).controller.getRelay u.1 = some u.2) ∧
    ((s.desks i).received.flatMap fun r => (updates lib r.line).map fun _ => r.instant).Pairwise (· ≤ ·) ∧
    (∀ r ∈ (s.desks i).received, r.cmd.Fits (updates lib r.line)) ∧
    (∀ r ∈ (s.desks i).received, ∀ res, lib.parse r.line = .ok res → res.contains (ascii "error") = true →
      (res.member (ascii "error")).isNull = false → updates lib r.line = []) := by
  intro server
  have hinv : Inv lib hw server s := hr.invariant (fun _ _ _ hs => Step.inv hlib hs) (start_inv hw device clock requestIds)
  have hshown := fun r (hr : r ∈ (s.desks i).received) => hinv.shown i r (List.mem_append_left _ hr)
  refine ⟨hinv.history,?_,?_,fun r hr => (hshown r hr).fits,fun _ _ _ => updates_error⟩
  · exact fun r hr u hu => ⟨(hshown r hr).answers u hu,((hshown r hr).holds u hu).2⟩
  · have hordered := (List.pairwise_append.mp (hinv.ordered i)).1
    rw [List.pairwise_flatMap]
    refine ⟨fun r _ => List.pairwise_map.mpr (List.pairwise_of_forall fun _ _ => Nat.le_refl _),?_⟩
    refine hordered.imp ?_
    intro r r' hle x hx y hy
    obtain ⟨_,_,rfl⟩ := List.mem_map.mp hx
    obtain ⟨_,_,rfl⟩ := List.mem_map.mp hy
    exact hle

/-- One desk, which asks for all relays and gets its answer. -/
theorem view_truthful_query :
    ∃ s : Desks Unit Unit, (s.desks ()).received ≠ [] ∧
      ∀ r ∈ (s.desks ()).received, r.cmd.Fits (updates .compact r.line) := by
  set s₀ : Desks Unit Unit := start sil () (fun _ => 0) fun _ => 1
  set text : Bytes := JsonText.render (DeskCommand.queryAllRelays.request 1)
  have hdump : JsonLib.compact.dump (DeskCommand.queryAllRelays.request 1) = .ok text :=
    JsonLib.compact_dump.mpr ⟨DeskCommand.request_validStrings 1 .queryAllRelays,rfl⟩
  have hparse := JsonLib.compact_lawful.parse_dump (DeskCommand.request_exact 1 .queryAllRelays) hdump
  obtain ⟨response,t,he⟩ := Delivery.processRequest_desk JsonLib.compact_lawful sil hdump s₀.server
  rcases Delivery.processRequest_line JsonLib.compact_lawful he with rfl | ⟨line,_,rfl⟩
  · exact absurd he (exec_processRequest_ne_nil hparse)
  · have hr := view_truthful .compact JsonLib.compact_lawful sil () (fun _ => 0) (fun _ => 1)
      [.command () .queryAllRelays,.serve (),.deliver ()] _ (.step .command (.step (.serve rfl hdump he) (.single (.deliver rfl)))) ()
    exact ⟨_,by simp [setDesk],hr.2.2.2.1⟩

end Desks

end MiniHil
