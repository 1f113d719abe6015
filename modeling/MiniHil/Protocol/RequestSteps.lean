import MiniHil.Protocol.Replies

/-! # A request in steps

`processRequest` cut where other threads can come in between: each step makes at most one call on the controller.
A request that is served without anything in between is served as `processRequest` serves it.
-/
namespace MiniHil
open Throwing JsonRpcRouter

inductive Work
  | single (rootRequest : Json)
  | batch (left batchResponse : List Json)
  | reply (rootResponse : Json)
  | nothing
  | fails (e : Exn)

namespace Work
variable {H : Type}

/-- The beginning of `processRequest`. -/
def parse (lib : JsonLib) (rawRequest : Bytes) : Work :=
  match lib.parse rawRequest with
  | .error (.parseError what) => .reply (makeErrorResponse .null (-32700) (ascii "Parse error: " ++ what))
  | .error e => .fails e
  | .ok (.array []) => .reply (makeErrorResponse .null (-32600) (ascii "Invalid Request: Empty batch"))
  | .ok (.array elements) => .batch elements []
  | .ok rootRequest => .single rootRequest

def next : Work → Option Json
  | .single rootRequest => some rootRequest
  | .batch (singleReq :: _) _ => some singleReq
  | .batch [] _ | .reply _ | .nothing | .fails _ => none

/-- One step: what is left then, or the response. -/
def advance (lib : JsonLib) (router : JsonRpcRouter H) : Work → Rpc H (Work ⊕ Bytes)
  | .single rootRequest => do
    let rootResponse ← processSingleRequest lib router rootRequest
    pure (.inl (if rootResponse.isNull then .nothing else .reply rootResponse))
  | .batch (singleReq :: left) batchResponse => do
    let singleRes ← processSingleRequest lib router singleReq
    pure (.inl (.batch left (if singleRes.isNull then batchResponse else batchResponse ++ [singleRes])))
  | .batch [] batchResponse => pure (.inl (if batchResponse.isEmpty then .nothing else .reply (.array batchResponse)))
  | .reply rootResponse => do
    let text ← dumpLine lib rootResponse
    pure (.inr text)
  | .nothing => pure (.inr [])
  | .fails e => throw e

def finish (lib : JsonLib) (router : JsonRpcRouter H) : Work → Rpc H Bytes
  | .single rootRequest => do
    let rootResponse ← processSingleRequest lib router rootRequest
    if rootResponse.isNull then pure [] else dumpLine lib rootResponse
  | .batch left batchResponse => do
    let more ← processBatch lib router left
    if (batchResponse ++ more).isEmpty then pure [] else dumpLine lib (.array (batchResponse ++ more))
  | .reply rootResponse => dumpLine lib rootResponse
  | .nothing => pure []
  | .fails e => throw e

variable (lib : JsonLib) (router : JsonRpcRouter H)

theorem finish_parse (rawRequest : Bytes) (s : Server H) :
    exec (finish lib router (parse lib rawRequest)) s = exec (processRequest lib router rawRequest) s := by
  unfold parse processRequest
  cases lib.parse rawRequest with
  | error e => cases e <;> rfl
  | ok root =>
    cases root with
    | array elements =>
      cases elements with
      | nil => rfl
      | cons => rfl
    | null | boolean | integer | float | string | object => rfl

theorem finish_advance (w : Work) (s : Server H) :
    exec (advance lib router w >>= fun r => match r with
      | .inl w => finish lib router w
      | .inr bytes => pure bytes) s = exec (finish lib router w) s := by
  cases w with
  | single rootRequest =>
    rw [advance, finish, bind_assoc]
    apply exec_bind_congr
    intro rootResponse t
    rw [pure_bind]
    cases rootResponse.isNull <;> rfl
  | batch left batchResponse =>
    cases left with
    | nil =>
      rw [advance, finish, processBatch, pure_bind, pure_bind, List.append_nil]
      cases batchResponse.isEmpty <;> rfl
    | cons singleReq left =>
      rw [advance, finish, processBatch, bind_assoc, bind_assoc]
      apply exec_bind_congr
      intro singleRes t
      rw [pure_bind, bind_assoc]
      apply exec_bind_congr
      intro more u
      rw [pure_bind]
      cases singleRes.isNull
      · simp [List.append_assoc]
      · rfl
  | reply rootResponse =>
    rw [advance, finish, bind_assoc]
    exact congrFun (congrArg exec (bind_pure _)) s
  | nothing | fails => rfl

/-- Steps without anything in between, to the response. -/
inductive Serves : Work → Server H → Bytes → Server H → Prop
  | last {w : Work} {s t : Server H} {bytes : Bytes} : exec (advance lib router w) s = (.ok (.inr bytes),t) → Serves w s bytes t
  | step {w w' : Work} {s u t : Server H} {bytes : Bytes} : exec (advance lib router w) s = (.ok (.inl w'),u) →
      Serves w' u bytes t → Serves w s bytes t

variable {lib router} {w : Work} {s t : Server H} {bytes : Bytes}

theorem Serves.finish (h : Serves lib router w s bytes t) : exec (finish lib router w) s = (.ok bytes,t) := by
  induction h with
  | last he =>
    rw [← finish_advance, exec_bind_ok he]
    rfl
  | step he _ ih =>
    rw [← finish_advance, exec_bind_ok he]
    exact ih

theorem serves_of_finish (h : exec (finish lib router w) s = (.ok bytes,t)) : Serves lib router w s bytes t := by
  have hreply {rootResponse : Json} {s : Server H} (h : exec (dumpLine lib rootResponse) s = (.ok bytes,t)) :
      Serves lib router (.reply rootResponse) s bytes t := .last (exec_bind_ok h)
  have hnothing {s : Server H} (h : exec (pure [] : Rpc H Bytes) s = (.ok bytes,t)) :
      Serves lib router .nothing s bytes t := by
    obtain ⟨hok,rfl⟩ := Prod.mk.inj h
    obtain rfl := Except.ok.inj hok
    exact .last rfl
  cases w with
  | single rootRequest =>
    obtain ⟨rootResponse,u,hr,h⟩ := exec_bind_eq_ok h
    refine .step (exec_bind_ok hr) ?_
    split_ifs at h ⊢
    · exact hnothing h
    · exact hreply h
  | batch left batchResponse =>
    induction left generalizing s batchResponse with
    | nil =>
      obtain ⟨more,u,hmore,h⟩ := exec_bind_eq_ok h
      obtain ⟨hok,rfl⟩ := Prod.mk.inj hmore
      obtain rfl := Except.ok.inj hok
      rw [List.append_nil] at h
      refine .step rfl ?_
      split_ifs at h ⊢
      · exact hnothing h
      · exact hreply h
    | cons singleReq left ih =>
      rw [← finish_advance] at h
      obtain ⟨r,u,hr,h⟩ := exec_bind_eq_ok h
      obtain ⟨singleRes,v,hres,hpure⟩ := exec_bind_eq_ok hr
      obtain ⟨hok,rfl⟩ := Prod.mk.inj hpure
      obtain rfl := Except.ok.inj hok
      exact .step hr (ih _ h)
  | reply rootResponse => exact hreply h
  | nothing => exact hnothing h
  | fails e => cases h

theorem serves_iff (rawRequest : Bytes) :
    Serves lib router (parse lib rawRequest) s bytes t ↔ exec (processRequest lib router rawRequest) s = (.ok bytes,t) := by
  rw [← finish_parse]
  exact ⟨Serves.finish,serves_of_finish⟩

end Work

namespace JsonRpcRouter

def Commanding (lib : JsonLib) (reqJson : Json) : Prop :=
  isRequest reqJson = true ∧ ∃ m ∈ commandMethods lib, reqJson.member (ascii "method") = .string m.name ∧
    m.checked lib (requestParams reqJson) ≠ none

variable {H : Type} {lib : JsonLib} {hw : Hardware H} {reqJson : Json} {s t : Server H}

end JsonRpcRouter

namespace Work
variable {H : Type} {lib : JsonLib} {hw : Hardware H} {s t : Server H} {w : Work} {r : Except Exn (Work ⊕ Bytes)}

def Sound : Work → Prop
  | .single rootRequest => rootRequest.validStrings = true ∧ MethodIsString rootRequest
  | .batch left batchResponse => (∀ singleReq ∈ left, singleReq.validStrings = true ∧ MethodIsString singleReq) ∧
      ∀ singleRes ∈ batchResponse, singleRes.validStrings = true
  | .reply rootResponse => rootResponse.validStrings = true
  | .nothing => True
  | .fails _ => False

theorem sound_parse (hlib : lib.Lawful) {rawRequest : Bytes} (h : Processable lib rawRequest) :
    (parse lib rawRequest).Sound := by
  unfold Processable at h
  unfold parse
  rcases hp : lib.parse rawRequest with e | root
  · rw [hp] at h
    cases e with
    | parseError what => exact (parseError_validStrings what).trans h
    | outOfRange | typeError | stdOutOfRange => exact h.elim
  · rw [hp] at h
    have hv := hlib.parse_valid hp
    cases root with
    | array elements =>
      cases elements with
      | nil => exact @makeErrorResponse_valid .null _ rfl (IsAscii.valid (.ofList (by decide))) (-32600)
      | cons j elements =>
        refine ⟨fun singleReq hmem => ⟨Json.validElements_iff.mp hv singleReq hmem,h singleReq hmem⟩,?_⟩
        exact fun _ hmem => nomatch hmem
    | null | boolean | integer | float | string | object => exact ⟨hv,h _ List.mem_cons_self⟩

theorem Sound.advance (hlib : lib.Lawful) (hw : Hardware H) (h : w.Sound) (s : Server H) :
    ∃ r t, exec (Work.advance lib (mainRouter lib hw) w) s = (.ok r,t) ∧ ∀ w', r = .inl w' → w'.Sound := by
  cases w with
  | single rootRequest =>
    obtain ⟨response,t,he,hv⟩ := exec_processSingleRequest_ok lib hw h.1 h.2 s
    refine ⟨_,t,exec_bind_ok he,?_⟩
    rintro w' ⟨⟩
    split_ifs
    · trivial
    · exact hv
  | batch left batchResponse =>
    cases left with
    | nil =>
      refine ⟨_,s,rfl,?_⟩
      rintro w' ⟨⟩
      split_ifs
      · trivial
      · exact Json.validElements_iff.mpr h.2
    | cons singleReq left =>
      obtain ⟨hleft,hresponses⟩ := h
      obtain ⟨hhead,hleft⟩ := List.forall_mem_cons.mp hleft
      obtain ⟨response,t,he,hv⟩ := exec_processSingleRequest_ok lib hw hhead.1 hhead.2 s
      refine ⟨_,t,exec_bind_ok he,?_⟩
      rintro w' ⟨⟩
      refine ⟨hleft,?_⟩
      split_ifs
      · exact hresponses
      · intro singleRes hmem
        rcases List.mem_append.mp hmem with hmem | hmem
        · exact hresponses singleRes hmem
        · obtain rfl := List.mem_singleton.mp hmem
          exact hv
  | reply rootResponse =>
    obtain ⟨text,ht⟩ := hlib.dump_valid h
    refine ⟨.inr (text ++ [0x0A]),s,?_,?_⟩
    · rw [Work.advance, dumpLine, ht]
      rfl
    · intro w' hw'
      cases hw'
  | nothing =>
    refine ⟨_,s,rfl,?_⟩
    intro w' hw'
    cases hw'
  | fails => exact h.elim

def Doomed : Work → Prop
  | .single rootRequest => ¬MethodIsString rootRequest
  | .batch left _ => ∃ singleReq ∈ left, ¬MethodIsString singleReq
  | .reply rootResponse => rootResponse.validStrings = false
  | .nothing => False
  | .fails _ => True

theorem doomed_parse {rawRequest : Bytes} (h : ¬Processable lib rawRequest) : (parse lib rawRequest).Doomed := by
  unfold Processable at h
  unfold parse
  rcases hp : lib.parse rawRequest with e | root
  · rw [hp] at h
    cases e with
    | parseError what => exact (parseError_validStrings what).trans (Bool.eq_false_iff.mpr h)
    | outOfRange | typeError | stdOutOfRange => trivial
  · rw [hp] at h
    dsimp only at h
    push Not at h
    obtain ⟨singleReq,hmem,hm⟩ := h
    cases root with
    | array elements =>
      cases elements with
      | nil => cases hmem
      | cons j elements => exact ⟨singleReq,hmem,hm⟩
    | null | boolean | integer | float | string | object =>
      obtain rfl := List.mem_singleton.mp hmem
      exact hm

theorem Doomed.advance (hlib : lib.Lawful) (h : w.Doomed) {r : Work ⊕ Bytes}
    (he : exec (Work.advance lib (mainRouter lib hw) w) s = (.ok r,t)) : ∃ w', r = .inl w' ∧ w'.Doomed := by
  cases w with
  | single rootRequest =>
    obtain ⟨e,hthrows⟩ := exec_processSingleRequest_error lib hw h s
    rw [Work.advance, exec_bind_error hthrows] at he
    cases he
  | batch left batchResponse =>
    cases left with
    | nil =>
      obtain ⟨_,hmem,_⟩ := h
      cases hmem
    | cons singleReq left =>
      by_cases hm : MethodIsString singleReq
      · obtain ⟨_,_,_,hr⟩ := exec_bind_eq_ok he
        obtain ⟨hok,_⟩ := Prod.mk.inj hr
        obtain rfl := Except.ok.inj hok
        obtain ⟨j,hmem,hno⟩ := h
        rcases List.mem_cons.mp hmem with rfl | hmem
        · exact absurd hm hno
        · exact ⟨_,rfl,j,hmem,hno⟩
      · obtain ⟨e,hthrows⟩ := exec_processSingleRequest_error lib hw hm s
        rw [Work.advance, exec_bind_error hthrows] at he
        cases he
  | reply rootResponse =>
    obtain ⟨_,hdump⟩ := hlib.dump_invalid h
    rw [Work.advance, dumpLine, hdump, exec_bind_error (exec_bind_error (exec_lift _))] at he
    cases he
  | nothing => exact h.elim
  | fails e => cases he

def size : Work → ℕ
  | .single _ => 1
  | .batch left _ => left.length + 1
  | .reply _ | .nothing | .fails _ => 0

def ResponseTo (lib : JsonLib) (rawRequest : Bytes) (rootResponse : Json) : Prop :=
  match lib.parse rawRequest with
  | .error (.parseError what) => rootResponse = makeErrorResponse .null (-32700) (ascii "Parse error: " ++ what)
  | .error _ => False
  | .ok (.array []) => rootResponse = makeErrorResponse .null (-32600) (ascii "Invalid Request: Empty batch")
  | .ok (.array elements) => ∃ responses, rootResponse = .array responses ∧
      List.Forall₂ (fun singleReq singleRes => IsResponse (requestId singleReq) singleRes) elements responses
  | .ok rootRequest => IsResponse (requestId rootRequest) rootResponse

def Answers (lib : JsonLib) (rawRequest response : Bytes) : Prop :=
  ∃ rootResponse text, lib.dump rootResponse = .ok text ∧ response = text ++ [0x0A] ∧ ResponseTo lib rawRequest rootResponse

inductive For (lib : JsonLib) (rawRequest : Bytes) : Work → Prop
  | single {rootRequest : Json} : (∀ elements, rootRequest ≠ .array elements) → lib.parse rawRequest = .ok rootRequest →
      For lib rawRequest (.single rootRequest)
  | batch {done left responses : List Json} : done ++ left ≠ [] → lib.parse rawRequest = .ok (.array (done ++ left)) →
      List.Forall₂ (fun singleReq singleRes => IsResponse (requestId singleReq) singleRes) done responses →
      For lib rawRequest (.batch left responses)
  | reply {rootResponse : Json} : ResponseTo lib rawRequest rootResponse → For lib rawRequest (.reply rootResponse)
  | fails {e : Exn} : For lib rawRequest (.fails e)

theorem for_parse (lib : JsonLib) (rawRequest : Bytes) : For lib rawRequest (parse lib rawRequest) := by
  unfold parse
  rcases hp : lib.parse rawRequest with e | root
  · cases e with
    | parseError what =>
      refine .reply ?_
      rw [ResponseTo, hp]
    | outOfRange | typeError | stdOutOfRange => exact .fails
  · cases root with
    | array elements =>
      cases elements with
      | nil =>
        refine .reply ?_
        rw [ResponseTo, hp]
      | cons j elements => exact @For.batch lib rawRequest [] (j :: elements) [] nofun hp .nil
    | null | boolean | integer | float | string | object => exact .single nofun hp

theorem For.advance {rawRequest : Bytes} (h : For lib rawRequest w) {r : Work ⊕ Bytes}
    (he : exec (Work.advance lib (mainRouter lib hw) w) s = (.ok r,t)) :
    Sum.elim (For lib rawRequest) (Answers lib rawRequest) r := by
  cases h with
  | @single rootRequest hsingle hp =>
    obtain ⟨response,u,hresponse,hr⟩ := exec_bind_eq_ok he
    obtain ⟨hok,_⟩ := Prod.mk.inj hr
    obtain rfl := Except.ok.inj hok
    have hanswers := exec_answered hresponse
    rw [hanswers.isNull]
    refine For.reply ?_
    rw [ResponseTo, hp]
    cases rootRequest with
    | array elements => exact absurd rfl (hsingle elements)
    | null | boolean | integer | float | string | object => exact hanswers
  | @batch done left responses hne hp hdone =>
    cases left with
    | nil =>
      obtain ⟨hok,_⟩ := Prod.mk.inj he
      obtain rfl := Except.ok.inj hok
      rw [List.append_nil] at hne hp
      cases hdone with
      | nil => exact absurd rfl hne
      | cons hhead htail =>
        refine For.reply ?_
        rw [ResponseTo, hp]
        exact ⟨_,rfl,.cons hhead htail⟩
    | cons singleReq left =>
      obtain ⟨response,u,hresponse,hr⟩ := exec_bind_eq_ok he
      obtain ⟨hok,_⟩ := Prod.mk.inj hr
      obtain rfl := Except.ok.inj hok
      have hanswers := exec_answered hresponse
      rw [hanswers.isNull]
      have hsplit : done ++ singleReq :: left = (done ++ [singleReq]) ++ left := by simp
      rw [hsplit] at hne hp
      refine For.batch hne hp ?_
      exact List.rel_append hdone (.cons hanswers .nil)
  | @reply rootResponse hresponse =>
    obtain ⟨text,u,htext,hr⟩ := exec_bind_eq_ok he
    obtain ⟨hok,_⟩ := Prod.mk.inj hr
    obtain rfl := Except.ok.inj hok
    obtain ⟨_,text',hdump,rfl⟩ := exec_dumpLine_eq_ok htext
    exact ⟨rootResponse,text',hdump,rfl,hresponse⟩
  | fails =>
    obtain ⟨hok,_⟩ := Prod.mk.inj he
    cases hok

end Work
end MiniHil
