import MiniHil.Protocol.RequestFailures

/-! # What a request is answered with, and what it changes

Every way through `processSingleRequest` with the methods of `main`: which response it ends with and
which call it makes on the controller. A text is answered with the texts of these responses.
-/
namespace MiniHil
open Throwing

def Command.echo : Command → List (Bytes × Json)
  | .setRelay _ state => [(ascii "state",.boolean state)]
  | .startTimer _ seconds => [(ascii "seconds",.integer seconds.toNat)]
  | .startPulse _ durationMs => [(ascii "duration_ms",.integer durationMs.toNat)]
  | .startBlink _ onMs offMs count =>
    [(ascii "on_ms",.integer onMs.toNat),(ascii "off_ms",.integer offMs.toNat),(ascii "count",.integer count.toNat)]

/-- The result of a command: what was applied is repeated in it. -/
def Command.result (cmd : Command) : Json :=
  .ofMembers ((ascii "success",.boolean true) :: (ascii "relay_id",.integer cmd.relayId) :: cmd.echo)

theorem CommandMethod.checked_command {lib : JsonLib} {m : CommandMethod} {params : Json} {cmd : Command}
    {echo : List (Bytes × Json)} (hm : m ∈ commandMethods lib) (h : m.checked lib params = some (cmd,echo)) :
    cmd.method = m.name ∧ (1 ≤ cmd.relayId ∧ cmd.relayId ≤ 8) ∧ echo = cmd.echo := by
  obtain ⟨relayId,args,ha,hlow,hhigh,rfl,rfl⟩ := checked_eq_some h
  simp only [commandMethods, List.mem_cons, List.not_mem_nil, or_false] at hm
  rcases hm with rfl | rfl | rfl | rfl
  · obtain ⟨state,_,hargs⟩ := bind_eq_ok_iff.mp ha
    obtain rfl := Except.ok.inj hargs
    exact ⟨rfl,⟨hlow,hhigh⟩,rfl⟩
  · obtain ⟨seconds,_,hargs⟩ := bind_eq_ok_iff.mp ha
    obtain rfl := Except.ok.inj hargs
    exact ⟨rfl,⟨hlow,hhigh⟩,rfl⟩
  · obtain ⟨durationMs,_,hargs⟩ := bind_eq_ok_iff.mp ha
    obtain rfl := Except.ok.inj hargs
    exact ⟨rfl,⟨hlow,hhigh⟩,rfl⟩
  · obtain ⟨onMs,_,ha⟩ := bind_eq_ok_iff.mp ha
    obtain ⟨offMs,_,ha⟩ := bind_eq_ok_iff.mp ha
    obtain ⟨count,_,hargs⟩ := bind_eq_ok_iff.mp ha
    obtain rfl := Except.ok.inj hargs
    exact ⟨rfl,⟨hlow,hhigh⟩,rfl⟩

theorem Command.carries_result {cmd : Command} (h : 1 ≤ cmd.relayId ∧ cmd.relayId ≤ 8) : Carries cmd.result cmd := by
  have hlow : -2 ^ 31 ≤ cmd.relayId := by omega
  have hhigh : cmd.relayId < 2 ^ 31 := by omega
  cases cmd with
  | setRelay | startTimer | startPulse => exact ⟨rfl,hlow,hhigh,rfl⟩
  | startBlink => exact ⟨rfl,hlow,hhigh,rfl,rfl,rfl⟩

namespace JsonRpcRouter
variable {H : Type} {lib : JsonLib} {hw : Hardware H} {reqJson params id response : Json} {s t : Server H}

theorem lookup_mainRouter {method : Bytes} {handler : MethodHandler H}
    (h : (mainRouter lib hw).lookup method = some handler) :
    (∃ m ∈ commandMethods lib, method = m.name ∧ handler = commandHandler lib hw m) ∨
    (method = ascii "get_relays" ∧ handler = getRelaysHandler hw) ∨
    (method = ascii "get_relay_status" ∧ handler = getRelayStatusHandler lib hw) := by
  have hmem : (method,handler) ∈ mainRouter lib hw := Json.lookup_mem h
  simp only [mainRouter, registerMethod, List.mem_cons, List.not_mem_nil, or_false, Prod.mk.injEq] at hmem
  rcases hmem with ⟨hn,hh⟩ | ⟨hn,hh⟩ | ⟨hn,hh⟩ | ⟨hn,hh⟩ | ⟨hn,hh⟩ | ⟨hn,hh⟩
  · exact .inr (.inr ⟨hn,hh⟩)
  · exact .inl ⟨_,by simp [commandMethods],hn,hh⟩
  · exact .inl ⟨_,by simp [commandMethods],hn,hh⟩
  · exact .inl ⟨_,by simp [commandMethods],hn,hh⟩
  · exact .inr (.inl ⟨hn,hh⟩)
  · exact .inl ⟨_,by simp [commandMethods],hn,hh⟩

/-- The router passes the state on as the handler leaves it. A result that looks like an error
becomes one, or a type error if its code or its text has the wrong type. -/
theorem exec_callMethod {method : Bytes} {handler : MethodHandler H} {r : Except Exn Json}
    (hl : (mainRouter lib hw).lookup method = some handler) (he : exec (handler params id) s = (r,t)) :
    (∃ e, exec (callMethod lib (mainRouter lib hw) method params id) s = (.error e,t)) ∨
    (∃ code message, -2 ^ 31 ≤ code ∧ code < 2 ^ 31 ∧
      exec (callMethod lib (mainRouter lib hw) method params id) s = (.ok (makeErrorResponse id code message),t)) ∨
    ∃ result, r = .ok result ∧ ¬(result.isObject && result.contains (ascii "error") && result.contains (ascii "code")) = true ∧
      exec (callMethod lib (mainRouter lib hw) method params id) s = (.ok (makeSuccessResponse id result),t) := by
  rw [callMethod, hl]
  dsimp only
  cases r with
  | error e => exact .inl ⟨e,exec_bind_error he⟩
  | ok result =>
    rw [exec_bind_ok he]
    by_cases hshape : (result.isObject && result.contains (ascii "error") && result.contains (ascii "code")) = true
    · rw [if_pos hshape]
      cases hcode : lib.getInt (result.member (ascii "code")) with
      | error e => exact .inl ⟨e,exec_bind_error (exec_lift _)⟩
      | ok code =>
        rw [exec_bind_ok (exec_lift _)]
        cases htext : JsonLib.getString (result.member (ascii "error")) with
        | error e => exact .inl ⟨e,exec_bind_error (exec_lift _)⟩
        | ok message =>
          have hrange := JsonLib.getInt_range hcode
          exact .inr (.inl ⟨code,message,hrange.1,hrange.2,exec_bind_ok (exec_lift _)⟩)
    · rw [if_neg hshape]
      exact .inr (.inr ⟨result,rfl,hshape,rfl⟩)

/-- The result of `get_relays`. -/
def relaysResult (c : BaseRelayController H) : Json :=
  .ofMembers (c.getAllStates.toList.map fun p => (ascii (toString p.1),.boolean p.2))

theorem exec_getRelaysHandler (hw : Hardware H) (params id : Json) (s : Server H) :
    exec (getRelaysHandler hw params id) s = (.ok (relaysResult s.controller),s.called hw .getAllStates) := rfl

theorem relaysResult_not_error (c : BaseRelayController H) : (relaysResult c).contains (ascii "error") = false := by
  rw [Bool.eq_false_iff]
  intro h
  obtain ⟨_,hp,hkey⟩ := List.mem_map.mp (Json.contains_ofMembers_iff.mp h)
  obtain ⟨⟨relayId,_⟩,_,rfl⟩ := List.mem_map.mp hp
  dsimp only at hkey
  cases relayId with
  | ofNat m =>
    obtain ⟨hdigits,_,_⟩ := JsonText.decimal_digits m
    have hmem : (0x65 : UInt8) ∈ ascii "error" := List.mem_cons_self
    rw [← hkey] at hmem
    have hletter : JsonText.isDigit 0x65 = true := hdigits _ hmem
    revert hletter
    decide
  | negSucc m =>
    rw [JsonText.ascii_negSucc] at hkey
    cases hkey

theorem exec_getRelayStatusHandler (lib : JsonLib) (hw : Hardware H) (params id : Json) (s : Server H) :
    ∃ r t, exec (getRelayStatusHandler lib hw params id) s = (r,t) ∧ t.controller = s.controller := by
  unfold getRelayStatusHandler
  split_ifs
  · exact ⟨_,s,rfl,rfl⟩
  · cases hr : lib.getInt (params.member (ascii "relay_id")) with
    | error e => exact ⟨.error e,s,exec_bind_error (exec_lift _),rfl⟩
    | ok relayId =>
      rw [exec_bind_ok (exec_lift _)]
      split_ifs
      · exact ⟨_,s,rfl,rfl⟩
      · have he := exec_getRelayStatus hw relayId s
        cases hs : s.controller.getRelayStatus s.now relayId with
        | none =>
          rw [hs] at he
          exact ⟨_,_,exec_bind_error he,rfl⟩
        | some status =>
          rw [hs] at he
          exact ⟨_,_,exec_bind_ok he,rfl⟩

/-- The responses of `processSingleRequest` and the states after them. -/
inductive Answer (lib : JsonLib) (hw : Hardware H) (reqJson : Json) (s : Server H) : Json → Server H → Prop
  | error {code : ℤ} (message : Bytes) {t : Server H} : -2 ^ 31 ≤ code → code < 2 ^ 31 → t.controller = s.controller →
      Answer lib hw reqJson s (makeErrorResponse (requestId reqJson) code message) t
  | applied {m : CommandMethod} {cmd : Command} : m ∈ commandMethods lib →
      reqJson.member (ascii "method") = .string m.name → cmd.method = m.name → 1 ≤ cmd.relayId ∧ cmd.relayId ≤ 8 →
      Answer lib hw reqJson s (makeSuccessResponse (requestId reqJson) cmd.result) (s.called hw (.command cmd))
  | relays : reqJson.member (ascii "method") = .string (ascii "get_relays") →
      Answer lib hw reqJson s (makeSuccessResponse (requestId reqJson) (relaysResult s.controller)) (s.called hw .getAllStates)
  | status {result : Json} {t : Server H} : reqJson.member (ascii "method") = .string (ascii "get_relay_status") →
      t.controller = s.controller → Answer lib hw reqJson s (makeSuccessResponse (requestId reqJson) result) t

theorem exec_callMethod_relays (lib : JsonLib) (hw : Hardware H) (params id : Json) (s : Server H) :
    exec (callMethod lib (mainRouter lib hw) (ascii "get_relays") params id) s =
      (.ok (makeSuccessResponse id (relaysResult s.controller)),s.called hw .getAllStates) := by
  have hlookup : (mainRouter lib hw).lookup (ascii "get_relays") = some (getRelaysHandler hw) := rfl
  rw [callMethod, hlookup]
  dsimp only
  rw [exec_bind_ok (exec_getRelaysHandler hw params id s), if_neg (by simp [relaysResult_not_error])]
  rfl

theorem exec_processSingleRequest_relays (lib : JsonLib) (hw : Hardware H) (s : Server H) (hreq : isRequest reqJson = true)
    (hm : reqJson.member (ascii "method") = .string (ascii "get_relays")) :
    exec (processSingleRequest lib (mainRouter lib hw) reqJson) s =
      (.ok (makeSuccessResponse (requestId reqJson) (relaysResult s.controller)),s.called hw .getAllStates) := by
  have hmethod : JsonLib.getString (reqJson.member (ascii "method")) = .ok (ascii "get_relays") := by rw [hm]; rfl
  unfold processSingleRequest
  rw [if_neg (by simp [hreq]), hmethod, exec_bind_ok (exec_lift _), exec_tryCatch, exec_callMethod_relays]

theorem answer_callMethod (lib : JsonLib) (hw : Hardware H) (s : Server H) {method : Bytes}
    (hm : reqJson.member (ascii "method") = .string method) :
    ∃ r t, exec (callMethod lib (mainRouter lib hw) method (requestParams reqJson) (requestId reqJson)) s = (r,t) ∧
      match r with
      | .ok response => Answer lib hw reqJson s response t
      | .error _ => t.controller = s.controller := by
  cases hl : (mainRouter lib hw).lookup method with
  | none =>
    have hlow : (-2 ^ 31 : ℤ) ≤ -32601 := by decide
    have hhigh : (-32601 : ℤ) < 2 ^ 31 := by decide
    refine ⟨.ok _,s,?_,.error (ascii "Method not found: " ++ method) hlow hhigh rfl⟩
    rw [callMethod, hl]
    rfl
  | some handler =>
    rcases lookup_mainRouter hl with ⟨m,hmem,rfl,rfl⟩ | ⟨rfl,rfl⟩ | ⟨rfl,rfl⟩
    · rcases exec_commandHandler (CommandMethod.regular hmem) lib hw (requestParams reqJson) (requestId reqJson) s with
        ⟨cmd,echo,hc,he⟩ | ⟨_,r,he,hf⟩
      · have herror := not_contains_error hmem hc cmd.relayId
        obtain ⟨hmethod,hrange,rfl⟩ := CommandMethod.checked_command hmem hc
        refine ⟨.ok _,_,?_,.applied hmem hm hmethod hrange⟩
        rw [callMethod, hl]
        dsimp only
        rw [exec_bind_ok he, if_neg (by simp [herror])]
        rfl
      · rcases exec_callMethod hl he with ⟨e,hcall⟩ | ⟨code,message,hlow,hhigh,hcall⟩ | ⟨result,hr,hshape,hcall⟩
        · exact ⟨_,s,hcall,rfl⟩
        · exact ⟨_,s,hcall,.error message hlow hhigh rfl⟩
        · subst hr
          cases hf with
          | missing | range => exact absurd rfl hshape
    · exact ⟨_,_,exec_callMethod_relays lib hw _ _ s,.relays hm⟩
    · obtain ⟨r,t,he,ht⟩ := exec_getRelayStatusHandler lib hw (requestParams reqJson) (requestId reqJson) s
      rcases exec_callMethod hl he with ⟨e,hcall⟩ | ⟨code,message,hlow,hhigh,hcall⟩ | ⟨result,_,_,hcall⟩
      · exact ⟨_,_,hcall,ht⟩
      · exact ⟨_,_,hcall,.error message hlow hhigh ht⟩
      · exact ⟨_,_,hcall,.status hm ht⟩

theorem answer {outcome : Except Exn Json} (h : exec (processSingleRequest lib (mainRouter lib hw) reqJson) s = (outcome,t)) :
    (∃ response, outcome = .ok response ∧ Answer lib hw reqJson s response t) ∨ ∃ e, outcome = .error e ∧ t = s := by
  unfold processSingleRequest at h
  dsimp only at h
  by_cases hreq : isRequest reqJson = true
  · rw [if_neg (by simp [hreq])] at h
    cases hmethod : JsonLib.getString (reqJson.member (ascii "method")) with
    | error e =>
      rw [hmethod, exec_bind_error (exec_lift _)] at h
      obtain ⟨rfl,rfl⟩ := Prod.mk.inj h
      exact .inr ⟨e,rfl,rfl⟩
    | ok method =>
      have hm := Json.getString_eq_ok_iff.mp hmethod
      obtain ⟨r,v,he,hv⟩ := answer_callMethod lib hw s hm
      rw [hmethod, exec_bind_ok (exec_lift _), exec_tryCatch, he] at h
      cases r with
      | error e =>
        obtain ⟨rfl,rfl⟩ := Prod.mk.inj h
        exact .inl ⟨_,rfl,.error _ (by decide) (by decide) hv⟩
      | ok response =>
        obtain ⟨rfl,rfl⟩ := Prod.mk.inj h
        exact .inl ⟨response,rfl,hv⟩
  · rw [if_pos (by simp [hreq])] at h
    obtain ⟨rfl,rfl⟩ := Prod.mk.inj h
    exact .inl ⟨_,rfl,.error _ (by decide) (by decide) rfl⟩

theorem name_notMem_queries {m : CommandMethod} (hm : m ∈ commandMethods lib) :
    m.name ∉ [ascii "get_relays",ascii "get_relay_status"] := by
  have hall : ∀ name ∈ [ascii "set_relay",ascii "start_timer",ascii "start_pulse",ascii "start_blink"],
      name ∉ [ascii "get_relays",ascii "get_relay_status"] := by decide
  apply hall
  simp only [commandMethods, List.mem_cons, List.not_mem_nil, or_false] at hm
  rcases hm with rfl | rfl | rfl | rfl <;> simp [setRelayMethod, startTimerMethod, startPulseMethod, startBlinkMethod]

/-- An error response leaves the controller with its record of `setRelayPhysical` calls as it was, a
result of one of the four methods repeats the one command that was applied, and a query applies none. -/
theorem request_effects (lib : JsonLib) (hw : Hardware H) (s : Server H) (reqJson : Json) (outcome : Except Exn Json)
    (t : Server H) (h : exec (processSingleRequest lib (mainRouter lib hw) reqJson) s = (outcome,t)) :
    (∀ response, outcome = .ok response → response.contains (ascii "error") = true →
      t.controller = s.controller ∧ t.controller.calls = s.controller.calls) ∧
    (∀ m ∈ commandMethods lib, reqJson.member (ascii "method") = .string m.name →
      ∀ response, outcome = .ok response → response.contains (ascii "result") = true →
      ∃ cmd, cmd.method = m.name ∧ 1 ≤ cmd.relayId ∧ cmd.relayId ≤ 8 ∧ Carries (response.member (ascii "result")) cmd ∧
        t = s.called hw (.command cmd) ∧ t.operations = s.operations ++ [.command cmd]) ∧
    (∀ method ∈ [ascii "get_relays",ascii "get_relay_status"], reqJson.member (ascii "method") = .string method →
      t.controller = s.controller) := by
  rcases answer h with ⟨response,rfl,ha⟩ | ⟨e,rfl,rfl⟩
  · cases ha with
    | error message _ _ ht =>
      refine ⟨fun _ _ _ => ⟨ht,congrArg _ ht⟩,?_,fun _ _ _ => ht⟩
      rintro m _ _ response ⟨⟩ hresult
      cases hresult
    | @applied m' cmd hm' hname' hmethod hrange =>
      refine ⟨?_,?_,?_⟩
      · rintro response ⟨⟩ herror
        cases herror
      · rintro m _ hname response ⟨⟩ _
        have hsame : m'.name = m.name := Json.string.inj (hname'.symm.trans hname)
        exact ⟨cmd,hmethod.trans hsame,hrange.1,hrange.2,Command.carries_result hrange,rfl,rfl⟩
      · intro method hquery hname
        have hsame : m'.name = method := Json.string.inj (hname'.symm.trans hname)
        exact absurd (hsame ▸ hquery) (name_notMem_queries hm')
    | relays hname' =>
      refine ⟨fun _ _ _ => ⟨rfl,rfl⟩,?_,fun _ _ _ => rfl⟩
      intro m hm hname
      have hsame : ascii "get_relays" = m.name := Json.string.inj (hname'.symm.trans hname)
      exact absurd (hsame ▸ List.mem_cons_self) (name_notMem_queries hm)
    | status hname' ht =>
      refine ⟨fun _ _ _ => ⟨ht,congrArg _ ht⟩,?_,fun _ _ _ => ht⟩
      intro m hm hname
      have hsame : ascii "get_relay_status" = m.name := Json.string.inj (hname'.symm.trans hname)
      exact absurd (hsame ▸ List.mem_cons_of_mem _ List.mem_cons_self) (name_notMem_queries hm)
  · refine ⟨?_,?_,fun _ _ _ => rfl⟩
    · rintro response ⟨⟩
    · rintro m _ _ response ⟨⟩

/-- A timer of 5 seconds on relay 3. -/
theorem request_effects_timer :
    let params : Json := .object [(ascii "relay_id",.integer 3),(ascii "seconds",.integer 5)]
    let reqJson : Json := .object [(ascii "jsonrpc",.string (ascii "2.0")),(ascii "method",.string (ascii "start_timer")),
      (ascii "params",params)]
    let s : Server Unit := { controller := .construct (), clock := fun _ => 0 }
    ∃ response t, exec (processSingleRequest .compact (mainRouter .compact sil) reqJson) s = (.ok response,t) ∧
      ∃ cmd, cmd.method = ascii "start_timer" ∧ 1 ≤ cmd.relayId ∧ cmd.relayId ≤ 8 ∧
        Carries (response.member (ascii "result")) cmd ∧ t = s.called sil (.command cmd) ∧ t.operations = [.command cmd] := by
  intro params reqJson s
  have hm : startTimerMethod .compact ∈ commandMethods .compact := by simp [commandMethods]
  have hchecked : (startTimerMethod .compact).checked .compact params ≠ none := by
    have hsome : ((startTimerMethod .compact).checked .compact params).isSome = true := by decide
    intro hnone
    rw [hnone] at hsome
    cases hsome
  rcases exec_processSingleRequest sil s hm (show isRequest reqJson = true from rfl) rfl with
    ⟨_,_,response,_,he,hr⟩ | ⟨hnone,_⟩
  · exact ⟨response,_,he,(request_effects .compact sil s reqJson _ _ he).2.1 _ hm rfl response rfl hr.1⟩
  · exact absurd hnone hchecked

structure IsResponse (id response : Json) : Prop where
  version : response.member (ascii "jsonrpc") = .string (ascii "2.0")
  outcome : IsResult response ∨ IsError response ∧ ∃ code message,
    (response.member (ascii "error")).member (ascii "code") = .integer code ∧
    (response.member (ascii "error")).member (ascii "message") = .string message
  hasId : response.contains (ascii "id") = true
  answers : response.member (ascii "id") = id

theorem isResponse_makeErrorResponse (id : Json) (code : ℤ) (message : Bytes) :
    IsResponse id (makeErrorResponse id code message) where
  version := rfl
  outcome := .inr ⟨isError_makeErrorResponse id code message,code,message,rfl,rfl⟩
  hasId := rfl
  answers := rfl

theorem isResponse_makeSuccessResponse (id result : Json) : IsResponse id (makeSuccessResponse id result) where
  version := rfl
  outcome := .inl (isResult_makeSuccessResponse id result)
  hasId := rfl
  answers := rfl

theorem Answer.isResponse (h : Answer lib hw reqJson s response t) : IsResponse (requestId reqJson) response := by
  cases h with
  | error => exact isResponse_makeErrorResponse _ _ _
  | applied | relays | status => exact isResponse_makeSuccessResponse _ _

theorem IsResponse.isNull (h : IsResponse id response) : response.isNull = false := by
  have hid := h.hasId
  cases response with
  | object => rfl
  | null | boolean | integer | float | string | array => cases hid

theorem exec_answered (h : exec (processSingleRequest lib (mainRouter lib hw) reqJson) s = (.ok response,t)) :
    IsResponse (requestId reqJson) response := by
  rcases answer h with ⟨_,heq,ha⟩ | ⟨_,heq,_⟩
  · obtain rfl := Except.ok.inj heq
    exact ha.isResponse
  · cases heq

inductive Answered (lib : JsonLib) (hw : Hardware H) : Server H → List Json → List Json → Server H → Prop
  | nil {s : Server H} : Answered lib hw s [] [] s
  | cons {s t u : Server H} {j response : Json} {js responses : List Json} :
      exec (processSingleRequest lib (mainRouter lib hw) j) s = (.ok response,t) → Answered lib hw t js responses u →
      Answered lib hw s (j :: js) (response :: responses) u

theorem processBatch_eq_ok_iff {js responses : List Json} :
    exec (processBatch lib (mainRouter lib hw) js) s = (.ok responses,t) ↔ Answered lib hw s js responses t := by
  constructor
  · intro h
    induction js generalizing s responses with
    | nil =>
      obtain ⟨hresponses,rfl⟩ := Prod.mk.inj h
      obtain rfl := Except.ok.inj hresponses
      exact .nil
    | cons j js ih =>
      rw [processBatch] at h
      obtain ⟨response,u,hj,h⟩ := exec_bind_eq_ok h
      obtain ⟨rest,v,hrest,h⟩ := exec_bind_eq_ok h
      rw [(exec_answered hj).isNull] at h
      obtain ⟨hresponses,rfl⟩ := Prod.mk.inj h
      obtain rfl := Except.ok.inj hresponses
      exact .cons hj (ih hrest)
  · intro h
    induction h with
    | nil => rfl
    | cons hj _ ih =>
      rw [processBatch, exec_bind_ok hj, exec_bind_ok ih, (exec_answered hj).isNull]
      rfl

theorem Answered.isResponse {js responses : List Json} (h : Answered lib hw s js responses t) :
    List.Forall₂ (fun j response => IsResponse (requestId j) response) js responses := by
  induction h with
  | nil => exact .nil
  | cons hj _ ih => exact .cons (exec_answered hj) ih

/-- `rootResponse`: what is dumped for a parsed text, if anything is. -/
def reply (lib : JsonLib) (router : JsonRpcRouter H) : Json → Rpc H (Option Json)
  | .array [] => pure (some (makeErrorResponse .null (-32600) (ascii "Invalid Request: Empty batch")))
  | .array elements => do
    let batchResponse ← processBatch lib router elements
    pure (if batchResponse.isEmpty then none else some (.array batchResponse))
  | rootRequest => do
    let rootResponse ← processSingleRequest lib router rootRequest
    pure (if rootResponse.isNull then none else some rootResponse)

def writeReply (lib : JsonLib) : Option Json → Rpc H Bytes
  | none => pure []
  | some rootResponse => dumpLine lib rootResponse

theorem exec_processRequest {router : JsonRpcRouter H} {rawRequest : Bytes} {root : Json}
    (hp : lib.parse rawRequest = .ok root) (s : Server H) :
    exec (processRequest lib router rawRequest) s = exec (reply lib router root >>= writeReply lib) s := by
  rw [processRequest, hp]
  cases root with
  | array elements =>
    cases elements with
    | nil => rfl
    | cons j elements =>
      dsimp only [reply]
      rw [bind_assoc]
      apply exec_bind_congr
      intro batchResponse t
      rw [pure_bind]
      cases batchResponse.isEmpty <;> rfl
  | null | boolean | integer | float | string | object =>
    dsimp only [reply]
    rw [bind_assoc]
    apply exec_bind_congr
    intro rootResponse t
    rw [pure_bind]
    cases rootResponse.isNull <;> rfl

theorem Answered.length_eq {js responses : List Json} (h : Answered lib hw s js responses t) : responses.length = js.length := by
  induction h with
  | nil => rfl
  | cons _ _ ih => exact congrArg (· + 1) ih

theorem exec_reply_batch {elements : List Json} (hne : elements ≠ []) {r : Option Json}
    (h : exec (reply lib (mainRouter lib hw) (.array elements)) s = (.ok r,t)) :
    ∃ responses, Answered lib hw s elements responses t ∧ r = some (.array responses) := by
  obtain ⟨j,js,rfl⟩ := List.exists_cons_of_ne_nil hne
  dsimp only [reply] at h
  obtain ⟨responses,u,hb,h⟩ := exec_bind_eq_ok h
  have ha := processBatch_eq_ok_iff.mp hb
  obtain ⟨hr,rfl⟩ := Prod.mk.inj h
  refine ⟨responses,ha,(Except.ok.inj hr).symm.trans (if_neg ?_)⟩
  intro hempty
  have hlength := ha.length_eq
  rw [List.isEmpty_iff.mp hempty] at hlength
  cases hlength

theorem exec_reply_ne_none {root : Json} : exec (reply lib (mainRouter lib hw) root) s ≠ (.ok none,t) := by
  intro h
  cases root with
  | array elements =>
    cases elements with
    | nil => cases h
    | cons j elements =>
      obtain ⟨_,_,hsome⟩ := exec_reply_batch (List.cons_ne_nil j elements) h
      cases hsome
  | null | boolean | integer | float | string | object =>
    dsimp only [reply] at h
    obtain ⟨response,u,hj,h⟩ := exec_bind_eq_ok h
    rw [(exec_answered hj).isNull] at h
    cases h

theorem exec_processRequest_ne_nil {rawRequest : Bytes} {root : Json} (hp : lib.parse rawRequest = .ok root) :
    exec (processRequest lib (mainRouter lib hw) rawRequest) s ≠ (.ok [],t) := by
  intro h
  rw [exec_processRequest hp] at h
  obtain ⟨rootResponse,u,hreply,h⟩ := exec_bind_eq_ok h
  cases rootResponse with
  | none => exact exec_reply_ne_none hreply
  | some rootResponse =>
    obtain ⟨text,v,_,h⟩ := exec_bind_eq_ok h
    obtain ⟨hline,_⟩ := Prod.mk.inj h
    exact List.append_ne_nil_of_right_ne_nil text (List.cons_ne_nil _ _) (Except.ok.inj hline)

/-- What a text is answered with: the responses carry the ids of the requests, or null. -/
def AnswersText (lib : JsonLib) (rawRequest : Bytes) (response : Json) : Prop :=
  match lib.parse rawRequest with
  | .error _ => IsResponse .null response
  | .ok (.array []) => IsResponse .null response
  | .ok (.array elements) => ∃ responses, response = .array responses ∧
      List.Forall₂ (fun reqJson r => IsResponse (requestId reqJson) r) elements responses
  | .ok rootRequest => IsResponse (requestId rootRequest) response

theorem answersText_reply {rawRequest : Bytes} {root rootResponse : Json} (hp : lib.parse rawRequest = .ok root)
    (h : exec (reply lib (mainRouter lib hw) root) s = (.ok (some rootResponse),t)) :
    AnswersText lib rawRequest rootResponse := by
  rw [AnswersText, hp]
  cases root with
  | array elements =>
    cases elements with
    | nil =>
      obtain ⟨hresponse,_⟩ := Prod.mk.inj h
      obtain rfl := Option.some.inj (Except.ok.inj hresponse)
      exact isResponse_makeErrorResponse _ _ _
    | cons j elements =>
      dsimp only [reply] at h
      obtain ⟨responses,u,hb,h⟩ := exec_bind_eq_ok h
      have ha := (processBatch_eq_ok_iff.mp hb).isResponse
      obtain ⟨hresponse,_⟩ := Prod.mk.inj h
      have hsome := Except.ok.inj hresponse
      split_ifs at hsome
      exact ⟨responses,(Option.some.inj hsome).symm,ha⟩
  | null | boolean | integer | float | string | object =>
    dsimp only [reply] at h
    obtain ⟨response,u,hj,h⟩ := exec_bind_eq_ok h
    have ha := exec_answered hj
    obtain ⟨hresponse,_⟩ := Prod.mk.inj h
    have hsome := Except.ok.inj hresponse
    rw [ha.isNull] at hsome
    obtain rfl := Option.some.inj hsome
    exact ha

theorem newline_notMem_dump (hlib : lib.Lawful) {j : Json} {text : Bytes} (h : lib.dump j = .ok text) :
    (0x0A : UInt8) ∉ text := by
  intro hmem
  have hprintable := hlib.dump_printable h _ hmem
  revert hprintable
  decide

/-- Whatever `processRequest` returns is empty, or one text with the newline at its end and nowhere else;
its response objects are well formed and carry the ids of the requests they answer. -/
theorem response_framing (lib : JsonLib) (hlib : lib.Lawful) (hw : Hardware H) (s t : Server H) (rawRequest response : Bytes)
    (h : exec (processRequest lib (mainRouter lib hw) rawRequest) s = (.ok response,t)) :
    response = [] ∨ ∃ j text, lib.dump j = .ok text ∧ response = text ++ [0x0A] ∧ (0x0A : UInt8) ∉ text ∧
      AnswersText lib rawRequest j := by
  rcases hp : lib.parse rawRequest with e | root
  · right
    rw [processRequest, hp] at h
    cases e with
    | parseError what =>
      obtain ⟨_,text,hdump,hline⟩ := exec_dumpLine_eq_ok h
      refine ⟨_,text,hdump,hline,newline_notMem_dump hlib hdump,?_⟩
      rw [AnswersText, hp]
      exact isResponse_makeErrorResponse _ _ _
    | outOfRange | typeError | stdOutOfRange => cases h
  · rw [exec_processRequest hp] at h
    obtain ⟨rootResponse,u,hreply,h⟩ := exec_bind_eq_ok h
    cases rootResponse with
    | none =>
      obtain ⟨hresponse,_⟩ := Prod.mk.inj h
      exact .inl (Except.ok.inj hresponse).symm
    | some rootResponse =>
      obtain ⟨_,text,hdump,hline⟩ := exec_dumpLine_eq_ok h
      exact .inr ⟨rootResponse,text,hdump,hline,newline_notMem_dump hlib hdump,answersText_reply hp hreply⟩

/-- A request with an id of another type, for a method that does not exist. -/
theorem response_framing_unknown :
    let reqJson : Json := .object [(ascii "id",.array [.null]),(ascii "jsonrpc",.string (ascii "2.0")),
      (ascii "method",.string (ascii "stop"))]
    let s : Server Unit := { controller := .construct (), clock := fun _ => 0 }
    ∃ response t, exec (processRequest .compact (mainRouter .compact sil) (JsonText.render reqJson)) s = (.ok response,t) ∧
      (response = [] ∨ ∃ j text, JsonLib.compact.dump j = .ok text ∧ response = text ++ [0x0A] ∧ (0x0A : UInt8) ∉ text ∧
        AnswersText .compact (JsonText.render reqJson) j) := by
  intro reqJson s
  have hparse : JsonLib.compact.parse (JsonText.render reqJson) = .ok reqJson :=
    JsonLib.compact_parse_render (by decide) (by decide)
  have hm : MethodIsString reqJson := fun _ => ⟨ascii "stop",rfl⟩
  obtain ⟨response,t,he⟩ := (@exec_single Unit .compact sil JsonLib.compact_lawful reqJson (by decide) s).mpr hm
  have hprocess : exec (processRequest .compact (mainRouter .compact sil) (JsonText.render reqJson)) s = (.ok response,t) := by
    rw [processRequest, hparse]
    exact he
  exact ⟨response,t,hprocess,response_framing .compact JsonLib.compact_lawful sil s t _ response hprocess⟩

end JsonRpcRouter
end MiniHil
