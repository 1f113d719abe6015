import MiniHil.Protocol.Replies

/-! # Notifications and batches

`processRequest` is written for responses that are null: they are left out of a batch, and a batch of
nothing else has no reply. No request has such a response, so notifications are answered like all other
requests. A batch is its elements one after the other up to the first one that throws.
-/
namespace MiniHil
open Throwing

namespace JsonRpcRouter
variable {H : Type} {lib : JsonLib} {hw : Hardware H} {s t : Server H} {js responses : List Json}

theorem Answered.exec_reply {elements : List Json} (hne : elements ≠ []) (h : Answered lib hw s elements responses t) :
    exec (reply lib (mainRouter lib hw) (.array elements)) s = (.ok (some (.array responses)),t) := by
  obtain ⟨j,js,rfl⟩ := List.exists_cons_of_ne_nil hne
  dsimp only [reply]
  rw [exec_bind_ok (processBatch_eq_ok_iff.mpr h)]
  cases h
  rfl

/-- A request object without an id. -/
def IsNotification (reqJson : Json) : Prop :=
  isRequest reqJson = true ∧ (∃ method, reqJson.member (ascii "method") = .string method) ∧
    reqJson.contains (ascii "id") = false

def effect (lib : JsonLib) (hw : Hardware H) (reqJson : Json) (s : Server H) : Server H :=
  match reqJson.member (ascii "method") with
  | .string method => (exec (callMethod lib (mainRouter lib hw) method (requestParams reqJson) .null) s).2
  | _ => s

/-- The elements of a batch one after the other, with a response for each that is not a notification. -/
inductive Notified (lib : JsonLib) (hw : Hardware H) : Server H → List Json → List Json → Server H → Prop
  | nil {s : Server H} : Notified lib hw s [] [] s
  | notification {s t : Server H} {j : Json} {js responses : List Json} : IsNotification j →
      Notified lib hw (effect lib hw j s) js responses t → Notified lib hw s (j :: js) responses t
  | request {s t u : Server H} {j response : Json} {js responses : List Json} : ¬IsNotification j →
      exec (processSingleRequest lib (mainRouter lib hw) j) s = (.ok response,t) → Notified lib hw t js responses u →
      Notified lib hw s (j :: js) (response :: responses) u

theorem Notified.length_le (h : Notified lib hw s js responses t) : responses.length ≤ js.length := by
  induction h with
  | nil => exact Nat.le_refl _
  | notification _ _ ih => exact Nat.le_succ_of_le ih
  | request _ _ _ ih => exact Nat.succ_le_succ ih

theorem Notified.not_isNotification (h : Notified lib hw s js responses t) (hlength : responses.length = js.length) :
    ∀ j ∈ js, ¬IsNotification j := by
  induction h with
  | nil => simp
  | notification _ hrest =>
    have hle := hrest.length_le
    rw [List.length_cons] at hlength
    omega
  | request hj _ _ ih => exact List.forall_mem_cons.mpr ⟨hj,ih (Nat.succ.inj hlength)⟩

theorem Answered.notified (h : Answered lib hw s js responses t) (hn : ∀ j ∈ js, ¬IsNotification j) :
    Notified lib hw s js responses t := by
  induction h with
  | nil => exact .nil
  | cons hj _ ih =>
    rw [List.forall_mem_cons] at hn
    exact .request hn.1 hj (ih hn.2)

/-- A notification has its effect and no answer, alone and in a batch. -/
structure Unanswered (lib : JsonLib) (hw : Hardware H) (s : Server H) (rawRequest : Bytes) (root : Json) : Prop where
  single : IsNotification root →
    exec (processRequest lib (mainRouter lib hw) rawRequest) s = (.ok [],effect lib hw root s)
  batch : ∀ elements, root = .array elements → elements ≠ [] →
    ∃ responses t, Notified lib hw s elements responses t ∧
      let rootResponse := if responses.isEmpty then none else some (Json.array responses)
      exec (reply lib (mainRouter lib hw) root) s = (.ok rootResponse,t) ∧
      exec (processRequest lib (mainRouter lib hw) rawRequest) s = exec (writeReply lib rootResponse) t

/-- Notifications are unanswered in exactly the texts that have none, as long as no element of the
batch throws. -/
theorem unanswered_iff (lib : JsonLib) (hlib : lib.Lawful) (hw : Hardware H) (s : Server H) (rawRequest : Bytes)
    (root : Json) (hp : lib.parse rawRequest = .ok root) :
    Unanswered lib hw s rawRequest root ↔ ¬IsNotification root ∧
      ∀ elements, root = .array elements → ∀ j ∈ elements, ¬IsNotification j ∧ MethodIsString j := by
  constructor
  · intro h
    refine ⟨fun hn => exec_processRequest_ne_nil hp (h.single hn),?_⟩
    rintro elements rfl j hj
    have hne : elements ≠ [] := List.ne_nil_of_mem hj
    obtain ⟨responses,t,hn,hreply,_⟩ := h.batch elements rfl hne
    obtain ⟨responses',ha,hr⟩ := exec_reply_batch hne hreply
    have hsame : responses = responses' := by
      split_ifs at hr
      exact Json.array.inj (Option.some.inj hr)
    subst hsame
    refine ⟨hn.not_isNotification ha.length_eq j hj,?_⟩
    rcases exec_processBatch lib hw (Json.validElements_iff.mp (hlib.parse_valid hp)) s with ⟨_,hms⟩ | ⟨⟨e,u,he⟩,_⟩
    · exact hms j hj
    · rw [processBatch_eq_ok_iff.mpr ha] at he
      cases he
  · rintro ⟨hroot,helements⟩
    refine ⟨fun hn => absurd hn hroot,?_⟩
    rintro elements rfl hne
    have hj := helements elements rfl
    rcases exec_processBatch lib hw (Json.validElements_iff.mp (hlib.parse_valid hp)) s with
      ⟨⟨responses,t,he,_⟩,_⟩ | ⟨_,hms⟩
    · have ha := processBatch_eq_ok_iff.mp he
      have hempty : responses.isEmpty = false := by
        rw [List.isEmpty_eq_false_iff]
        intro hnil
        have hlength := ha.length_eq
        rw [hnil] at hlength
        exact hne (List.eq_nil_of_length_eq_zero hlength.symm)
      have hreply := ha.exec_reply hne
      refine ⟨responses,t,ha.notified fun j hmem => (hj j hmem).1,?_⟩
      dsimp only
      rw [hempty]
      refine ⟨hreply,?_⟩
      rw [exec_processRequest hp, exec_bind_ok hreply]
      rfl
    · exact absurd (fun j hmem => (hj j hmem).2) hms

/-- A query of all relays without an id. -/
theorem unanswered_fails :
    ¬∀ (H : Type) (lib : JsonLib), lib.Lawful → ∀ (hw : Hardware H) (s : Server H) (rawRequest : Bytes) (root : Json),
      lib.parse rawRequest = .ok root → Unanswered lib hw s rawRequest root := by
  intro h
  set reqJson : Json := .object [(ascii "jsonrpc",.string (ascii "2.0")),(ascii "method",.string (ascii "get_relays"))]
  set s : Server Unit := { controller := .construct (), clock := fun _ => 0 }
  have hparse : JsonLib.compact.parse (JsonText.render reqJson) = .ok reqJson :=
    JsonLib.compact_parse_render (by decide) (by decide)
  have hn : IsNotification reqJson := ⟨rfl,⟨ascii "get_relays",rfl⟩,rfl⟩
  exact exec_processRequest_ne_nil hparse ((h Unit .compact JsonLib.compact_lawful sil s _ reqJson hparse).single hn)

/-- A batch of one request with an id. -/
theorem unanswered_iff_query :
    let reqJson : Json := .object [(ascii "id",.integer 1),(ascii "jsonrpc",.string (ascii "2.0")),
      (ascii "method",.string (ascii "get_relays"))]
    let s : Server Unit := { controller := .construct (), clock := fun _ => 0 }
    Unanswered .compact sil s (JsonText.render (.array [reqJson])) (.array [reqJson]) := by
  intro reqJson s
  have hparse : JsonLib.compact.parse (JsonText.render (.array [reqJson])) = .ok (.array [reqJson]) :=
    JsonLib.compact_parse_render (by decide) (by decide)
  refine (unanswered_iff .compact JsonLib.compact_lawful sil s _ _ hparse).mpr ⟨?_,?_⟩
  · rintro ⟨hreq,_⟩
    cases hreq
  · rintro elements heq j hj
    obtain rfl := Json.array.inj heq
    obtain rfl := List.mem_singleton.mp hj
    refine ⟨?_,fun _ => ⟨ascii "get_relays",rfl⟩⟩
    rintro ⟨_,_,hid⟩
    cases hid

def invalidRequest : Json :=
  makeErrorResponse .null (-32600) (ascii "Invalid Request: Missing required JSON-RPC 2.0 fields")

/-- The lines sent one after the other, with the responses they get. A line that makes
`processRequest` throw gets none; a line with an array stands for an element that is one. -/
inductive LineByLine (lib : JsonLib) (hw : Hardware H) : Server H → List Bytes → List Json → Server H → Prop
  | nil {s : Server H} : LineByLine lib hw s [] [] s
  | nested {s t : Server H} {line : Bytes} {lines : List Bytes} {elements responses : List Json} :
      lib.parse line = .ok (.array elements) → LineByLine lib hw s lines responses t →
      LineByLine lib hw s (line :: lines) (invalidRequest :: responses) t
  | answered {s t u : Server H} {line text : Bytes} {lines : List Bytes} {root response : Json} {responses : List Json} :
      lib.parse line = .ok root → (∀ elements, root ≠ .array elements) →
      exec (processRequest lib (mainRouter lib hw) line) s = (.ok (text ++ [0x0A]),t) → lib.dump response = .ok text →
      LineByLine lib hw t lines responses u → LineByLine lib hw s (line :: lines) (response :: responses) u
  | silent {s t u : Server H} {line : Bytes} {lines : List Bytes} {root : Json} {responses : List Json} :
      lib.parse line = .ok root → (∀ elements, root ≠ .array elements) →
      exec (processRequest lib (mainRouter lib hw) line) s = (.ok [],t) →
      LineByLine lib hw t lines responses u → LineByLine lib hw s (line :: lines) responses u
  | thrown {s t u : Server H} {line : Bytes} {lines : List Bytes} {root : Json} {responses : List Json} {e : Exn} :
      lib.parse line = .ok root → (∀ elements, root ≠ .array elements) →
      exec (processRequest lib (mainRouter lib hw) line) s = (.error e,t) →
      LineByLine lib hw t lines responses u → LineByLine lib hw s (line :: lines) responses u

theorem exec_processRequest_value (hlib : lib.Lawful) {line : Bytes} {root response : Json} (hp : lib.parse line = .ok root)
    (harray : ∀ elements, root ≠ .array elements)
    (h : exec (processSingleRequest lib (mainRouter lib hw) root) s = (.ok response,t))
    (hv : response.validStrings = true) :
    ∃ text, lib.dump response = .ok text ∧
      exec (processRequest lib (mainRouter lib hw) line) s = (.ok (text ++ [0x0A]),t) := by
  have hreply : exec (reply lib (mainRouter lib hw) root) s = (.ok (some response),t) := by
    have hsome : (if response.isNull then none else some response) = some response := by
      rw [(exec_answered h).isNull]
      rfl
    cases root with
    | array elements => exact absurd rfl (harray elements)
    | null | boolean | integer | float | string | object =>
      dsimp only [reply]
      rw [exec_bind_ok h, hsome]
      rfl
  obtain ⟨text,hdump⟩ := hlib.dump_valid hv
  refine ⟨text,hdump,?_⟩
  rw [exec_processRequest hp, exec_bind_ok hreply]
  dsimp only [writeReply, dumpLine]
  rw [hdump]
  rfl

theorem exec_processSingleRequest_array (elements : List Json) :
    exec (processSingleRequest lib (mainRouter lib hw) (.array elements)) s = (.ok invalidRequest,s) := rfl

theorem Answered.lineByLine (hlib : lib.Lawful) {lines : List Bytes}
    (hlines : List.Forall₂ (fun line j => lib.parse line = .ok j) lines js) (hm : ∀ j ∈ js, MethodIsString j)
    (h : Answered lib hw s js responses t) : LineByLine lib hw s lines responses t := by
  induction hlines generalizing s responses with
  | nil =>
    cases h
    exact .nil
  | @cons line j lines js hp _ ih =>
    rw [List.forall_mem_cons] at hm
    rcases h with _ | ⟨hj,hrest⟩
    have hlater := ih hm.2 hrest
    obtain ⟨response',u',he,hv⟩ := exec_processSingleRequest_ok lib hw (hlib.parse_valid hp) hm.1 s
    rw [hj] at he
    obtain ⟨hresponse,rfl⟩ := Prod.mk.inj he
    obtain rfl := Except.ok.inj hresponse
    by_cases harray : ∀ elements, j ≠ .array elements
    · obtain ⟨text,hdump,hline⟩ := exec_processRequest_value hlib hp harray hj hv
      exact .answered hp harray hline hdump hlater
    · push Not at harray
      obtain ⟨elements,rfl⟩ := harray
      rw [exec_processSingleRequest_array] at hj
      obtain ⟨hresponse,rfl⟩ := Prod.mk.inj hj
      obtain rfl := Except.ok.inj hresponse
      exact .nested hp hlater

/-- A batch leaves the controller as its elements do on lines of their own and is answered with the array of
their responses. -/
def Isolated (lib : JsonLib) (hw : Hardware H) (s : Server H) (lines : List Bytes) (rawRequest : Bytes) : Prop :=
  ∃ responses t text, LineByLine lib hw s lines responses t ∧ lib.dump (.array responses) = .ok text ∧
    exec (processRequest lib (mainRouter lib hw) rawRequest) s = (.ok (text ++ [0x0A]),t)

/-- The elements of a batch are isolated from each other exactly when none of them is a request object
whose method is not a string: such an element takes the responses of all others with it, and the
effects of those after it. -/
theorem isolated_iff (lib : JsonLib) (hlib : lib.Lawful) (hw : Hardware H) (s : Server H) (rawRequest : Bytes)
    (elements : List Json) (hne : elements ≠ []) (hp : lib.parse rawRequest = .ok (.array elements)) (lines : List Bytes)
    (hlines : List.Forall₂ (fun line j => lib.parse line = .ok j) lines elements) :
    Isolated lib hw s lines rawRequest ↔ ∀ j ∈ elements, MethodIsString j := by
  have hv := Json.validElements_iff.mp (hlib.parse_valid hp)
  rcases exec_processBatch lib hw hv s with ⟨⟨responses,t,he,hvalid⟩,hms⟩ | ⟨_,hms⟩
  · refine iff_of_true ?_ hms
    have ha := processBatch_eq_ok_iff.mp he
    have harray : (Json.array responses).validStrings = true := Json.validElements_iff.mpr hvalid
    obtain ⟨text,hdump⟩ := hlib.dump_valid harray
    refine ⟨responses,t,text,ha.lineByLine hlib hlines hms,hdump,?_⟩
    rw [exec_processRequest hp, exec_bind_ok (ha.exec_reply hne)]
    dsimp only [writeReply, dumpLine]
    rw [hdump]
    rfl
  · refine iff_of_false ?_ hms
    rintro ⟨responses,t,text,_,_,h⟩
    rw [exec_processRequest hp] at h
    obtain ⟨rootResponse,u,hreply,_⟩ := exec_bind_eq_ok h
    obtain ⟨responses',ha,_⟩ := exec_reply_batch hne hreply
    rcases exec_processBatch lib hw hv s with ⟨_,hall⟩ | ⟨⟨e,v,he⟩,_⟩
    · exact hms hall
    · rw [processBatch_eq_ok_iff.mpr ha] at he
      cases he

/-- The relay is switched on, and nobody is told: the second element of the batch has a number as its method. -/
theorem isolated_fails :
    ¬∀ (H : Type) (lib : JsonLib), lib.Lawful → ∀ (hw : Hardware H) (s : Server H) (rawRequest : Bytes)
      (elements : List Json), elements ≠ [] → lib.parse rawRequest = .ok (.array elements) → ∀ lines : List Bytes,
      List.Forall₂ (fun line j => lib.parse line = .ok j) lines elements → Isolated lib hw s lines rawRequest := by
  intro h
  set setRelay : Json := .object [(ascii "id",.integer 1),(ascii "jsonrpc",.string (ascii "2.0")),
    (ascii "method",.string (ascii "set_relay")),
    (ascii "params",.object [(ascii "relay_id",.integer 1),(ascii "state",.boolean true)])]
  set faulty : Json := .object [(ascii "jsonrpc",.string (ascii "2.0")),(ascii "method",.integer 1)]
  set s : Server Unit := { controller := .construct (), clock := fun _ => 0 }
  have hline₁ := @JsonLib.compact_parse_render setRelay (by decide) (by decide)
  have hline₂ := @JsonLib.compact_parse_render faulty (by decide) (by decide)
  have hbatch := @JsonLib.compact_parse_render (.array [setRelay,faulty]) (by decide) (by decide)
  have hne : [setRelay,faulty] ≠ [] := List.cons_ne_nil _ _
  obtain ⟨responses,t,text,_,_,he⟩ := h Unit .compact JsonLib.compact_lawful sil s _ _ hne hbatch _
    (.cons hline₁ (.cons hline₂ .nil))
  have hm : ¬MethodIsString faulty := by
    intro hm
    obtain ⟨method,hmethod⟩ := hm rfl
    cases hmethod
  rw [exec_processRequest hbatch] at he
  obtain ⟨rootResponse,u,hreply,_⟩ := exec_bind_eq_ok he
  obtain ⟨_,ha,_⟩ := exec_reply_batch hne hreply
  rcases ha with _ | ⟨_,_ | ⟨hfaulty,_⟩⟩
  obtain ⟨e,hthrows⟩ := exec_processSingleRequest_error .compact sil hm _
  rw [hthrows] at hfaulty
  cases hfaulty

/-- A batch of a number and an array. -/
theorem isolated_iff_invalid :
    let elements : List Json := [.integer 1,.array []]
    let s : Server Unit := { controller := .construct (), clock := fun _ => 0 }
    Isolated .compact sil s [JsonText.render (.integer 1),JsonText.render (.array [])] (JsonText.render (.array elements)) := by
  intro elements s
  have hline₁ := @JsonLib.compact_parse_render (.integer 1) (by decide) (by decide)
  have hline₂ := @JsonLib.compact_parse_render (.array []) (by decide) (by decide)
  have hbatch := @JsonLib.compact_parse_render (.array elements) (by decide) (by decide)
  refine (isolated_iff .compact JsonLib.compact_lawful sil s _ elements (List.cons_ne_nil _ _) hbatch _
    (.cons hline₁ (.cons hline₂ .nil))).mpr ?_
  simp [elements, MethodIsString, isRequest, Json.isObject]

end JsonRpcRouter
end MiniHil
