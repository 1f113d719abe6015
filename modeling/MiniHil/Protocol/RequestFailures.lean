import MiniHil.Protocol.CommandParams

/-! # Which request texts make `processRequest` throw

Every exception of a handler is caught, and every response built from valid strings has a text.
What is left is the conversion of the method name before the `try`, a parse error whose message
is not UTF-8, and the parse exceptions that are not `parse_error`.
-/
namespace MiniHil
open Throwing

def IsAscii (s : String) : Prop := ∀ c ∈ s.toList, c.toNat < 0x80

instance (s : String) : Decidable (IsAscii s) := decidableForallMem s.toList

theorem IsAscii.append {s t : String} (hs : IsAscii s) (ht : IsAscii t) : IsAscii (s ++ t) := by
  intro c hc
  rw [String.toList_append, List.mem_append] at hc
  exact hc.elim (hs c) (ht c)

theorem IsAscii.ofList {cs : List Char} (h : (cs.all fun c => c.toNat < 0x80) = true) : IsAscii (String.ofList cs) := by
  intro c hc
  rw [String.toList_ofList] at hc
  exact of_decide_eq_true (List.all_eq_true.mp h c hc)

theorem IsAscii.lt {s : String} (hs : IsAscii s) : ∀ b ∈ ascii s, b < 0x80 := by
  intro b hb
  obtain ⟨c,hc,rfl⟩ := List.mem_map.mp hb
  have hlt := hs c hc
  rw [UInt8.lt_iff_toNat_lt, UInt8.toNat_ofNat']
  change c.toNat % 256 < 128
  omega

theorem IsAscii.valid {s : String} (hs : IsAscii s) : Utf8.valid (ascii s) = true := Utf8.valid_ascii hs.lt

theorem isAscii_nat (n : ℕ) : IsAscii (toString n) := by
  intro c hc
  rw [Nat.toString_eq_repr, Nat.toList_repr] at hc
  have hdigit := Char.isDigit_iff_toNat.mp (Nat.isDigit_of_mem_toDigits (by decide) (by decide) hc)
  have hnine : '9'.toNat = 57 := rfl
  omega

theorem isAscii_int (n : ℤ) : IsAscii (toString n) := by
  cases n with
  | ofNat m => exact isAscii_nat m
  | negSucc m => exact IsAscii.append (s := "-") (by decide) (isAscii_nat (m + 1))

namespace Json

theorem isAscii_typeName (j : Json) : IsAscii j.typeName := by
  have hall : ∀ t ∈ ["null","boolean","number","string","array","object"], IsAscii t := by decide
  apply hall
  cases j <;> simp [typeName]

theorem valid_typeError {expected : String} (he : IsAscii expected) (j : Json) :
    Utf8.valid (j.typeError expected).what = true := by
  have hstart : IsAscii "[json.exception.type_error.302] type must be " := .ofList (by decide)
  have hbut : IsAscii ", but is " := .ofList (by decide)
  exact (((hstart.append he).append hbut).append (isAscii_typeName j)).valid

end Json

namespace BaseRelayController

theorem isAscii_statusText (relayId : ℤ) (rs : RelayState) (now : TimePoint) : IsAscii (statusText relayId rs now) := by
  have hphys : ∀ b : Bool, IsAscii (if b then "ON" else "OFF") := by
    intro b
    cases b <;> decide
  have hstart : IsAscii "Channel " := .ofList (by decide)
  have hcolon : IsAscii ": " := .ofList (by decide)
  have hchannel := ((hstart.append (isAscii_int relayId)).append hcolon).append (hphys rs.state)
  unfold statusText
  dsimp only
  cases rs.active with
  | false =>
    have htoggle : IsAscii " (Toggle)" := .ofList (by decide)
    exact hchannel.append htoggle
  | true =>
    cases rs.mode with
    | toggle => exact hchannel
    | timer =>
      have htimer : IsAscii " (Timer, rem: " := .ofList (by decide)
      have hs : IsAscii "s)" := .ofList (by decide)
      exact ((hchannel.append htimer).append (isAscii_nat _)).append hs
    | pulse =>
      have hpulse : IsAscii " (Pulse, rem: " := .ofList (by decide)
      have hms : IsAscii "ms)" := .ofList (by decide)
      exact ((hchannel.append hpulse).append (isAscii_nat _)).append hms
    | blink =>
      have hblink : IsAscii " (Blink, count: " := .ofList (by decide)
      have hphase : IsAscii ", phase: " := .ofList (by decide)
      have hclose : IsAscii ")" := .ofList (by decide)
      exact ((((hchannel.append hblink).append (isAscii_nat _)).append hphase).append (hphys rs.blinkPhase)).append hclose

theorem isAscii_getRelayStatus {H : Type*} {c : BaseRelayController H} {now : TimePoint} {relayId : ℤ} {status : String}
    (h : c.getRelayStatus now relayId = some status) : IsAscii status := by
  unfold getRelayStatus at h
  split at h
  · obtain rfl := Option.some.inj h
    decide
  · obtain ⟨rs,_,rfl⟩ := Option.map_eq_some_iff.mp h
    exact isAscii_statusText _ _ _

end BaseRelayController

/-- The returned value, or the message of the exception, has only valid strings. -/
def HasText : Except Exn Json → Prop
  | .ok j => j.validStrings = true
  | .error e => Utf8.valid e.what = true

section
variable {H : Type} {lib : JsonLib} {hw : Hardware H} {m : CommandMethod} {params id : Json} {s : Server H}

theorem hasText_errorResult {message : String} (h : IsAscii message) (code : ℤ) :
    (errorResult code message).validStrings = true := by
  refine Json.validStrings_ofMembers ?_
  simp only [List.forall_mem_cons, List.not_mem_nil, false_implies, implies_true, and_true]
  exact ⟨⟨by decide,rfl⟩,by decide,h.valid⟩

theorem isAscii_texts (hm : m ∈ commandMethods lib) :
    IsAscii m.missing ∧ ∀ key ∈ m.required, Utf8.valid key = true := by
  simp only [commandMethods, List.mem_cons, List.not_mem_nil, or_false] at hm
  rcases hm with rfl | rfl | rfl | rfl
  all_goals
    refine ⟨.ofList ?_,?_⟩
    · decide
    · simp only [setRelayMethod, startTimerMethod, startPulseMethod, startBlinkMethod]
      decide

theorem hasText_commandHandler (lib : JsonLib) (hw : Hardware H) (hm : m ∈ commandMethods lib) (params id : Json)
    (s : Server H) :
    HasText (exec (commandHandler lib hw m params id) s).1 := by
  obtain ⟨hmissing,hkeys⟩ := isAscii_texts hm
  have hregular := CommandMethod.regular hm
  rcases exec_commandHandler hregular lib hw params id s with ⟨cmd,echo,hc,he⟩ | ⟨_,r,he,hf⟩
  · rw [he]
    refine Json.validStrings_ofMembers ?_
    rw [List.forall_mem_cons, List.forall_mem_cons]
    have hsuccess : Utf8.valid (ascii "success") = true := by decide
    have hrelay : Utf8.valid (ascii "relay_id") = true := by decide
    refine ⟨⟨hsuccess,rfl⟩,⟨hrelay,rfl⟩,?_⟩
    obtain ⟨_,args,ha,_,_,_,rfl⟩ := CommandMethod.checked_eq_some hc
    intro p hp
    exact ⟨hkeys p.1 (hregular.echoes ha ▸ List.mem_map_of_mem hp),hregular.values ha p hp⟩
  · rw [he]
    cases hf with
    | missing => exact hasText_errorResult hmissing _
    | relayIdType h =>
      rw [Json.getInt_error h]
      exact Json.valid_typeError (.ofList (by decide)) _
    | argumentType h =>
      obtain ⟨j,rfl | rfl⟩ := hregular.throws h
      · exact Json.valid_typeError (.ofList (by decide)) j
      · exact Json.valid_typeError (.ofList (by decide)) j
    | range => exact hasText_errorResult (.ofList (by decide)) _

theorem hasText_getRelaysHandler : HasText (exec (getRelaysHandler hw params id) s).1 := by
  refine Json.validStrings_ofMembers ?_
  intro p hp
  obtain ⟨q,_,rfl⟩ := List.mem_map.mp hp
  exact ⟨(isAscii_int q.1).valid,rfl⟩

theorem exec_getRelayStatus (hw : Hardware H) (relayId : ℤ) (s : Server H) :
    exec (Server.getRelayStatus hw relayId) s =
      ((s.controller.getRelayStatus s.now relayId).elim (.error (.stdOutOfRange (ascii "map::at"))) .ok,
        s.called hw (.getRelayStatus relayId)) := by
  rw [Server.getRelayStatus, exec_bind_ok exec_get, exec_bind_ok exec_set]
  cases s.controller.getRelayStatus s.now relayId <;> rfl

theorem hasText_getRelayStatusHandler : HasText (exec (getRelayStatusHandler lib hw params id) s).1 := by
  have hshape : IsAscii "Invalid params: 'relay_id' (integer) is required." := .ofList (by decide)
  have hrange : IsAscii outOfRangeText := .ofList (by decide)
  unfold getRelayStatusHandler
  split_ifs
  · exact hasText_errorResult hshape _
  · cases hr : lib.getInt (params.member (ascii "relay_id")) with
    | error e =>
      rw [exec_bind_error (exec_lift _)]
      rw [Json.getInt_error hr]
      exact Json.valid_typeError (.ofList (by decide)) _
    | ok relayId =>
      rw [exec_bind_ok (exec_lift _)]
      split_ifs
      · exact hasText_errorResult hrange _
      · have he := exec_getRelayStatus hw relayId s
        cases hs : s.controller.getRelayStatus s.now relayId with
        | none =>
          rw [hs] at he
          rw [exec_bind_error he]
          change Utf8.valid (ascii "map::at") = true
          decide
        | some status =>
          rw [hs] at he
          have hascii : IsAscii status := BaseRelayController.isAscii_getRelayStatus hs
          rw [exec_bind_ok he]
          refine Json.validStrings_ofMembers ?_
          simp only [List.forall_mem_cons, List.not_mem_nil, false_implies, implies_true, and_true]
          exact ⟨⟨by decide,rfl⟩,by decide,hascii.valid⟩

end

namespace JsonRpcRouter
variable {H : Type} {lib : JsonLib} {hw : Hardware H} {reqJson : Json} {s : Server H}

theorem hasText_mainRouter {method : Bytes} {handler : MethodHandler H}
    (h : (mainRouter lib hw).lookup method = some handler) (params id : Json) (s : Server H) :
    HasText (exec (handler params id) s).1 := by
  have hall : ∀ p ∈ mainRouter lib hw, ∀ s, HasText (exec (p.2 params id) s).1 := by
    simp only [mainRouter, registerMethod, List.forall_mem_cons, List.not_mem_nil, false_implies, implies_true, and_true]
    refine ⟨?_,?_,?_,?_,?_,?_⟩
    · exact fun _ => hasText_getRelayStatusHandler
    · exact hasText_commandHandler lib hw (by simp [commandMethods]) params id
    · exact hasText_commandHandler lib hw (by simp [commandMethods]) params id
    · exact hasText_commandHandler lib hw (by simp [commandMethods]) params id
    · exact fun _ => hasText_getRelaysHandler
    · exact hasText_commandHandler lib hw (by simp [commandMethods]) params id
  exact hall (method,handler) (Json.lookup_mem h) s

theorem makeErrorResponse_valid {id : Json} {message : Bytes} (hid : id.validStrings = true)
    (hm : Utf8.valid message = true) (code : ℤ) : (makeErrorResponse id code message).validStrings = true := by
  have herror : (Json.ofMembers [(ascii "code",.integer code),(ascii "message",.string message)]).validStrings = true := by
    refine Json.validStrings_ofMembers ?_
    simp only [List.forall_mem_cons, List.not_mem_nil, false_implies, implies_true, and_true]
    exact ⟨⟨by decide,rfl⟩,by decide,hm⟩
  refine Json.validStrings_ofMembers ?_
  simp only [List.forall_mem_cons, List.not_mem_nil, false_implies, implies_true, and_true]
  exact ⟨⟨by decide,by decide⟩,⟨by decide,herror⟩,by decide,hid⟩

theorem makeSuccessResponse_valid {id result : Json} (hid : id.validStrings = true)
    (hr : result.validStrings = true) : (makeSuccessResponse id result).validStrings = true := by
  refine Json.validStrings_ofMembers ?_
  simp only [List.forall_mem_cons, List.not_mem_nil, false_implies, implies_true, and_true]
  exact ⟨⟨by decide,by decide⟩,⟨by decide,hr⟩,by decide,hid⟩

theorem hasText_callMethod (lib : JsonLib) (hw : Hardware H) {method : Bytes} (params : Json) {id : Json}
    (hid : id.validStrings = true)
    (hmethod : Utf8.valid method = true) (s : Server H) :
    HasText (exec (callMethod lib (mainRouter lib hw) method params id) s).1 := by
  unfold callMethod
  cases hl : (mainRouter lib hw).lookup method with
  | none =>
    have hvalid : Utf8.valid (ascii "Method not found: " ++ method) = true := by
      rw [Utf8.valid_ascii_append (IsAscii.lt (.ofList (by decide))), hmethod]
    exact makeErrorResponse_valid hid hvalid _
  | some handler =>
    have ht := hasText_mainRouter hl params id s
    rcases he : exec (handler params id) s with ⟨e | result,t⟩
    · rw [he] at ht
      dsimp only
      rw [exec_bind_error he]
      exact ht
    · rw [he] at ht
      dsimp only
      rw [exec_bind_ok he]
      split_ifs
      · cases hc : lib.getInt (result.member (ascii "code")) with
        | error e =>
          rw [exec_bind_error (exec_lift _), Json.getInt_error hc]
          exact Json.valid_typeError (.ofList (by decide)) _
        | ok code =>
          rw [exec_bind_ok (exec_lift _)]
          have hmember : (result.member (ascii "error")).validStrings = true := Json.validStrings_member ht
          cases hm : JsonLib.getString (result.member (ascii "error")) with
          | error e =>
            rw [exec_bind_error (exec_lift _), Json.getString_error hm]
            exact Json.valid_typeError (.ofList (by decide)) _
          | ok message =>
            rw [exec_bind_ok (exec_lift _)]
            rw [Json.getString_eq_ok_iff.mp hm] at hmember
            exact makeErrorResponse_valid hid hmember _
      · exact makeSuccessResponse_valid hid ht

/-- The value is not a JSON-RPC request object whose method is something other than a string. -/
def MethodIsString (reqJson : Json) : Prop :=
  isRequest reqJson = true → ∃ method, reqJson.member (ascii "method") = .string method

theorem exec_processSingleRequest_ok (lib : JsonLib) (hw : Hardware H) (hv : reqJson.validStrings = true)
    (hm : MethodIsString reqJson) (s : Server H) :
    ∃ response t, exec (processSingleRequest lib (mainRouter lib hw) reqJson) s = (.ok response,t) ∧
      response.validStrings = true := by
  have hid : (requestId reqJson).validStrings = true := by
    unfold requestId
    split_ifs
    · exact Json.validStrings_member hv
    · rfl
  unfold processSingleRequest
  by_cases hreq : isRequest reqJson = true
  · obtain ⟨method,hmethod⟩ := hm hreq
    have hvalid : (reqJson.member (ascii "method")).validStrings = true := Json.validStrings_member hv
    have hget : JsonLib.getString (reqJson.member (ascii "method")) = .ok method := by rw [hmethod]; rfl
    rw [hmethod] at hvalid
    have ht := hasText_callMethod lib hw (requestParams reqJson) hid hvalid s
    dsimp only
    rw [if_neg (by simp [hreq]), hget, exec_bind_ok (exec_lift _), exec_tryCatch]
    rcases he : exec (callMethod lib (mainRouter lib hw) method (requestParams reqJson) (requestId reqJson)) s with
      ⟨e | response,t⟩
    · rw [he] at ht
      have hwhat : Utf8.valid (ascii "Internal error: Exception occurred in handler: " ++ e.what) = true := by
        rw [Utf8.valid_ascii_append (IsAscii.lt (.ofList (by decide)))]
        exact ht
      exact ⟨_,t,rfl,makeErrorResponse_valid hid hwhat _⟩
    · rw [he] at ht
      exact ⟨response,t,rfl,ht⟩
  · dsimp only
    rw [if_pos (by simp [hreq])]
    exact ⟨_,s,rfl,makeErrorResponse_valid hid (IsAscii.valid (.ofList (by decide))) _⟩

theorem exec_processSingleRequest_error (lib : JsonLib) (hw : Hardware H) (hm : ¬MethodIsString reqJson) (s : Server H) :
    ∃ e, exec (processSingleRequest lib (mainRouter lib hw) reqJson) s = (.error e,s) := by
  unfold MethodIsString at hm
  push Not at hm
  obtain ⟨hreq,hno⟩ := hm
  cases hget : JsonLib.getString (reqJson.member (ascii "method")) with
  | ok method => exact absurd (Json.getString_eq_ok_iff.mp hget) (hno method)
  | error e =>
    refine ⟨e,?_⟩
    unfold processSingleRequest
    dsimp only
    rw [if_neg (by simp [hreq]), hget]
    exact exec_bind_error (exec_lift _)

theorem exec_processBatch (lib : JsonLib) (hw : Hardware H) {reqs : List Json}
    (hv : ∀ j ∈ reqs, j.validStrings = true) (s : Server H) :
    (∃ responses t, exec (processBatch lib (mainRouter lib hw) reqs) s = (.ok responses,t) ∧
      ∀ j ∈ responses, j.validStrings = true) ∧ (∀ j ∈ reqs, MethodIsString j) ∨
    (∃ e t, exec (processBatch lib (mainRouter lib hw) reqs) s = (.error e,t)) ∧ ¬∀ j ∈ reqs, MethodIsString j := by
  induction reqs generalizing s with
  | nil => exact .inl ⟨⟨[],s,rfl,by simp⟩,by simp⟩
  | cons j reqs ih =>
    rw [List.forall_mem_cons] at hv
    by_cases hm : MethodIsString j
    · obtain ⟨response,t,he,hvalid⟩ := exec_processSingleRequest_ok lib hw hv.1 hm s
      rcases ih hv.2 t with ⟨⟨responses,u,hr,hall⟩,hms⟩ | ⟨⟨e,u,hr⟩,hms⟩
      · refine .inl ⟨⟨if response.isNull then responses else response :: responses,u,?_,?_⟩,?_⟩
        · rw [processBatch, exec_bind_ok he, exec_bind_ok hr]
          rfl
        · split_ifs
          · exact hall
          · exact List.forall_mem_cons.mpr ⟨hvalid,hall⟩
        · exact List.forall_mem_cons.mpr ⟨hm,hms⟩
      · refine .inr ⟨⟨e,u,?_⟩,fun h => hms (List.forall_mem_cons.mp h).2⟩
        rw [processBatch, exec_bind_ok he, exec_bind_error hr]
    · obtain ⟨e,he⟩ := exec_processSingleRequest_error lib hw hm s
      refine .inr ⟨⟨e,s,?_⟩,fun h => hm (List.forall_mem_cons.mp h).1⟩
      rw [processBatch, exec_bind_error he]

theorem exec_dumpLine (hlib : lib.Lawful) {j : Json} (hj : j.validStrings = true) (s : Server H) :
    ∃ text, exec (dumpLine lib j) s = (.ok (text ++ [0x0A]),s) := by
  obtain ⟨text,ht⟩ := hlib.dump_valid hj
  refine ⟨text,?_⟩
  rw [dumpLine, ht, exec_bind_ok (exec_lift _)]
  rfl

theorem exec_dumpLine_eq_ok {j : Json} {line : Bytes} {s t : Server H} (h : exec (dumpLine lib j) s = (.ok line,t)) :
    t = s ∧ ∃ text, lib.dump j = .ok text ∧ line = text ++ [0x0A] := by
  obtain ⟨text,u,hlift,h⟩ := exec_bind_eq_ok h
  obtain ⟨hdump,rfl⟩ := Prod.mk.inj ((exec_lift _).symm.trans hlift)
  obtain ⟨hline,rfl⟩ := Prod.mk.inj h
  exact ⟨rfl,text,hdump,(Except.ok.inj hline).symm⟩

/-- The requests in a text: the elements of a batch, or the one value. -/
def requests : Json → List Json
  | .array elements => elements
  | j => [j]

/-- The text parses and has no request object whose method is not a string, or it is rejected with a
message that is UTF-8. -/
def Processable (lib : JsonLib) (rawRequest : Bytes) : Prop :=
  match lib.parse rawRequest with
  | .ok rootRequest => ∀ reqJson ∈ requests rootRequest, MethodIsString reqJson
  | .error (.parseError what) => Utf8.valid what = true
  | .error _ => False

theorem exec_single (hlib : lib.Lawful) {root : Json} (hv : root.validStrings = true) (s : Server H) :
    (∃ response t, exec (do
      let rootResponse ← processSingleRequest lib (mainRouter lib hw) root
      if rootResponse.isNull then pure [] else dumpLine lib rootResponse) s = (.ok response,t)) ↔ MethodIsString root := by
  by_cases hm : MethodIsString root
  · obtain ⟨response,t,he,hvalid⟩ := exec_processSingleRequest_ok lib hw hv hm s
    rw [exec_bind_ok he]
    refine iff_of_true ?_ hm
    split_ifs
    · exact ⟨_,_,rfl⟩
    · obtain ⟨text,ht⟩ := exec_dumpLine hlib hvalid t
      exact ⟨_,_,ht⟩
  · obtain ⟨e,he⟩ := exec_processSingleRequest_error lib hw hm s
    rw [exec_bind_error he]
    refine iff_of_false ?_ hm
    rintro ⟨_,_,h⟩
    cases h

/-- A batch that is not empty is its elements, and its responses if there are any. -/
theorem exec_batch (hlib : lib.Lawful) {elements : List Json} (hv : ∀ j ∈ elements, j.validStrings = true) (s : Server H) :
    (∃ response t, exec (do
      let batchResponse ← processBatch lib (mainRouter lib hw) elements
      if batchResponse.isEmpty then pure [] else dumpLine lib (.array batchResponse)) s = (.ok response,t)) ↔
      ∀ j ∈ elements, MethodIsString j := by
  rcases exec_processBatch lib hw hv s with ⟨⟨responses,t,he,hall⟩,hms⟩ | ⟨⟨e,t,he⟩,hms⟩
  · rw [exec_bind_ok he]
    refine iff_of_true ?_ hms
    split_ifs
    · exact ⟨_,_,rfl⟩
    · have hbatch : (Json.array responses).validStrings = true := Json.validElements_iff.mpr hall
      obtain ⟨text,ht⟩ := exec_dumpLine hlib hbatch t
      exact ⟨_,_,ht⟩
  · rw [exec_bind_error he]
    refine iff_of_false ?_ hms
    rintro ⟨_,_,h⟩
    cases h

/-- The answer to a text that does not parse repeats the offending bytes. -/
theorem parseError_validStrings (what : Bytes) :
    (makeErrorResponse .null (-32700) (ascii "Parse error: " ++ what)).validStrings = Utf8.valid what := by
  have hsame : Utf8.valid (ascii "Parse error: " ++ what) = Utf8.valid what := Utf8.valid_ascii_append (IsAscii.lt (.ofList (by decide)))
  set response := makeErrorResponse .null (-32700) (ascii "Parse error: " ++ what)
  cases hwhat : Utf8.valid what with
  | true =>
    have hnull : Json.null.validStrings = true := rfl
    exact makeErrorResponse_valid hnull (hsame.trans hwhat) (-32700)
  | false =>
    rw [Bool.eq_false_iff]
    intro hvalid
    have herror : (response.member (ascii "error")).validStrings = true := Json.validStrings_member hvalid
    have hmessage : ((response.member (ascii "error")).member (ascii "message")).validStrings = true :=
      Json.validStrings_member herror
    change Utf8.valid (ascii "Parse error: " ++ what) = true at hmessage
    rw [hsame, hwhat] at hmessage
    cases hmessage

/-- It has a text itself only if the message of the parse error is UTF-8. -/
theorem exec_parseError (hlib : lib.Lawful) (what : Bytes) (s : Server H) :
    (∃ response t, exec (dumpLine lib (makeErrorResponse .null (-32700) (ascii "Parse error: " ++ what))) s =
      (.ok response,t)) ↔ Utf8.valid what = true := by
  have hvalid := parseError_validStrings what
  cases hwhat : Utf8.valid what with
  | true =>
    obtain ⟨text,ht⟩ := exec_dumpLine hlib (hvalid.trans hwhat) s
    exact iff_of_true ⟨_,_,ht⟩ rfl
  | false =>
    obtain ⟨text,ht⟩ := hlib.dump_invalid (hvalid.trans hwhat)
    refine iff_of_false ?_ Bool.false_ne_true
    rintro ⟨_,_,h⟩
    rw [dumpLine, ht, exec_bind_error (exec_lift _)] at h
    cases h

/-- For every request text and every controller state, `processRequest` returns a response exactly
when the text is processable; on all other texts an exception escapes. -/
theorem processRequest_returns_iff (lib : JsonLib) (hlib : lib.Lawful) (hw : Hardware H) (s : Server H) (rawRequest : Bytes) :
    (∃ response t, exec (processRequest lib (mainRouter lib hw) rawRequest) s = (.ok response,t)) ↔
      Processable lib rawRequest := by
  unfold processRequest Processable
  rcases hp : lib.parse rawRequest with e | root
  · cases e with
    | parseError what => exact exec_parseError hlib what s
    | outOfRange | typeError | stdOutOfRange =>
      refine iff_of_false ?_ id
      rintro ⟨_,_,h⟩
      cases h
  · have hv := hlib.parse_valid hp
    cases root with
    | array elements =>
      cases elements with
      | nil =>
        have hnull : Json.null.validStrings = true := rfl
        have htext : Utf8.valid (ascii "Invalid Request: Empty batch") = true := IsAscii.valid (.ofList (by decide))
        obtain ⟨text,ht⟩ := exec_dumpLine hlib (makeErrorResponse_valid hnull htext (-32600)) s
        exact iff_of_true ⟨_,_,ht⟩ (by simp [requests])
      | cons j elements => exact exec_batch hlib (Json.validElements_iff.mp hv) s
    | null | boolean | integer | float | string | object =>
      exact (exec_single hlib hv s).trans (by simp [requests])

/-- A number as the method name. -/
theorem processRequest_throws :
    ¬∀ (H : Type) (lib : JsonLib), lib.Lawful → ∀ (hw : Hardware H) (s : Server H) (rawRequest : Bytes),
      ∃ response t, exec (processRequest lib (mainRouter lib hw) rawRequest) s = (.ok response,t) := by
  intro h
  set reqJson : Json := .object [(ascii "jsonrpc",.string (ascii "2.0")),(ascii "method",.integer 1)]
  set rawRequest : Bytes := ascii "\x7b\"jsonrpc\":\"2.0\",\"method\":1\x7d"
  set s : Server Unit := { controller := .construct (), clock := fun _ => 0 }
  have htext : rawRequest = JsonText.render reqJson := by decide
  have hparse : JsonLib.compact.parse rawRequest = .ok reqJson := by
    rw [htext]
    exact JsonLib.compact_parse_render (by decide) (by decide)
  obtain ⟨response,t,he⟩ := h Unit .compact JsonLib.compact_lawful sil s rawRequest
  have hm : ¬MethodIsString reqJson := by
    intro hm
    obtain ⟨method,hmethod⟩ := hm rfl
    cases hmethod
  obtain ⟨e,hthrows⟩ := exec_processSingleRequest_error .compact sil hm s
  rw [processRequest, hparse] at he
  rw [exec_bind_error hthrows] at he
  cases he

/-- A request for an unknown method. -/
theorem processRequest_returns_iff_unknown :
    let reqJson : Json := .object [(ascii "jsonrpc",.string (ascii "2.0")),(ascii "method",.string (ascii "stop"))]
    let s : Server Unit := { controller := .construct (), clock := fun _ => 0 }
    ∃ response t, exec (processRequest .compact (mainRouter .compact sil) (JsonText.render reqJson)) s = (.ok response,t) := by
  intro reqJson s
  refine (processRequest_returns_iff .compact JsonLib.compact_lawful sil s (JsonText.render reqJson)).mpr ?_
  have hparse : JsonLib.compact.parse (JsonText.render reqJson) = .ok reqJson :=
    JsonLib.compact_parse_render (by decide) (by decide)
  rw [Processable, hparse]
  intro j hj _
  obtain rfl := List.mem_singleton.mp hj
  exact ⟨ascii "stop",rfl⟩

end JsonRpcRouter
end MiniHil
