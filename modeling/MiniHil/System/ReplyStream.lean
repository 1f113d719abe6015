import Mathlib.Data.List.Enum
import MiniHil.Desk.ResponseStream
import MiniHil.Protocol.Replies
import MiniHil.System.Delivery

/-! # The response stream under short writes

`handleClient` calls `send` once for each response and drops what it returns. The stream that the desk
receives is the one that was meant exactly when every call took its whole response.
-/
namespace MiniHil
open Framing Throwing JsonRpcRouter

section Accepted
variable {α : Type*} {accepted : ℕ → ℕ} {texts : List (List α)}

/-- What a transport has of texts that it accepted in part, the first of them in call number `k`. -/
def acceptedFrom (accepted : ℕ → ℕ) : ℕ → List (List α) → List α
  | _, [] => []
  | k, text :: texts => text.take (accepted k) ++ acceptedFrom accepted (k + 1) texts

theorem acceptedFrom_concat (accepted : ℕ → ℕ) (k : ℕ) (texts : List (List α)) (text : List α) :
    acceptedFrom accepted k (texts ++ [text]) =
      acceptedFrom accepted k texts ++ text.take (accepted (k + texts.length)) := by
  induction texts generalizing k with
  | nil => simp [acceptedFrom]
  | cons first texts ih =>
    have hk : k + 1 + texts.length = k + (texts.length + 1) := by omega
    rw [List.cons_append, acceptedFrom, ih, acceptedFrom, List.length_cons, hk, List.append_assoc]

theorem acceptedFrom_length_le (accepted : ℕ → ℕ) (k : ℕ) (texts : List (List α)) :
    (acceptedFrom accepted k texts).length ≤ texts.flatten.length := by
  induction texts generalizing k with
  | nil => exact le_rfl
  | cons text texts ih =>
    have hrest := ih (k + 1)
    rw [acceptedFrom, List.flatten_cons, List.length_append, List.length_append, List.length_take]
    omega

theorem acceptedFrom_eq_flatten_iff {k : ℕ} (h : ∀ i text, texts[i]? = some text → accepted (k + i) ≤ text.length) :
    acceptedFrom accepted k texts = texts.flatten ↔ ∀ i text, texts[i]? = some text → accepted (k + i) = text.length := by
  induction texts generalizing k with
  | nil => simp [acceptedFrom]
  | cons text texts ih =>
    have hfirst : accepted k ≤ text.length := h 0 text rfl
    have hshift : ∀ i, k + 1 + i = k + (i + 1) := fun i => by omega
    have hrest : ∀ i other, texts[i]? = some other → accepted (k + 1 + i) ≤ other.length := by
      intro i other hi
      rw [hshift]
      exact h (i + 1) other hi
    rw [acceptedFrom, List.flatten_cons]
    constructor
    · intro heq
      have hlen := congrArg List.length heq
      have hle := acceptedFrom_length_le accepted (k + 1) texts
      rw [List.length_append, List.length_append, List.length_take] at hlen
      have hall : accepted k = text.length := by omega
      rw [hall, List.take_length, List.append_cancel_left_eq, ih hrest] at heq
      intro i other hi
      cases i with
      | zero =>
        obtain rfl := Option.some.inj hi
        exact hall
      | succ i =>
        rw [← hshift]
        exact heq i other hi
    · intro hall
      have hfull : accepted k = text.length := hall 0 text rfl
      rw [hfull, List.take_length, List.append_cancel_left_eq, ih hrest]
      intro i other hi
      rw [hshift]
      exact hall (i + 1) other hi

end Accepted

namespace Exchange
variable {σ : Type*} {env : ClientEnv σ} {e : Exchange σ}

structure Sent (env : ClientEnv σ) (e : Exchange σ) : Prop where
  transport : e.transport = acceptedFrom env.accepted 0 e.written
  written : e.written = e.responses.filter (· ≠ [])
  lines : ∃ lines : List Bytes, e.written = lines.map (· ++ [newline]) ∧ ∀ line ∈ lines, newline ∉ line

def AnswersLines (env : ClientEnv σ) : Prop :=
  ∀ rawRequest rawResponse s t, env.processRequest rawRequest s = (.ok rawResponse,t) →
    rawResponse = [] ∨ ∃ line, newline ∉ line ∧ rawResponse = line ++ [newline]

theorem Sent.take (h : Sent env e) (hanswers : AnswersLines env) (line : Bytes) : Sent env (e.take env line) := by
  unfold Exchange.take
  split_ifs
  · exact h
  · have ht := taken env e line
    generalize e.answer env true line = e' at ht
    cases ht with
    | skipped => exact h
    | throws => exact ⟨h.transport,h.written,h.lines⟩
    | silent =>
      refine ⟨h.transport,?_,h.lines⟩
      rw [h.written]
      simp
    | @answers rawResponse handler _ hne hproc =>
      refine ⟨?_,?_,?_⟩
      · have hzero : 0 + e.written.length = e.written.length := Nat.zero_add _
        rw [acceptedFrom_concat, hzero, ← h.transport]
      · rw [h.written]
        simp [hne]
      · obtain ⟨lines,hlines,hwhole⟩ := h.lines
        obtain rfl | ⟨text,htext,rfl⟩ := hanswers _ _ _ _ hproc
        · exact absurd rfl hne
        · refine ⟨lines ++ [text],by simp [hlines],?_⟩
          intro l hl
          rcases List.mem_append.mp hl with hl | hl
          · exact hwhole l hl
          · obtain rfl := List.mem_singleton.mp hl
            exact htext

theorem Sent.foldl (h : Sent env e) (hanswers : AnswersLines env) (lines : List Bytes) :
    Sent env (lines.foldl (Exchange.take env) e) := by
  induction lines generalizing e with
  | nil => exact h
  | cons line lines ih => exact ih (h.take hanswers line)

end Exchange

section Server
variable {H : Type}

def serverEnv (lib : JsonLib) (hw : Hardware H) (running : ℕ → Bool) (environment : ℕ → Server H → Server H)
    (accepted : ℕ → ℕ) : ClientEnv (Server H) where
  running := running
  processRequest rawRequest s := exec (processRequest lib (mainRouter lib hw) rawRequest) s
  environment := environment
  accepted := accepted

theorem answersLines_serverEnv {lib : JsonLib} (hlib : lib.Lawful) (hw : Hardware H) (running : ℕ → Bool)
    (environment : ℕ → Server H → Server H) (accepted : ℕ → ℕ) :
    Exchange.AnswersLines (serverEnv lib hw running environment accepted) := by
  intro rawRequest rawResponse s t h
  rcases Delivery.processRequest_line hlib h with hnil | ⟨line,hline,heq⟩
  · exact .inl hnil
  · exact .inr ⟨line,hline.newline_notMem,heq⟩

theorem handleClient_sent {lib : JsonLib} (hlib : lib.Lawful) (hw : Hardware H) {running : ℕ → Bool}
    (hrun : ∀ n, running n = true) (environment : ℕ → Server H → Server H) (accepted : ℕ → ℕ) (server : Server H)
    (chunks : List (Chunk UInt8 2047)) :
    Exchange.Sent (serverEnv lib hw running environment accepted)
      (HandleClient.handleClient (serverEnv lib hw running environment accepted) server chunks) := by
  obtain ⟨segments,tail,hsegments⟩ := exists_spells newline (Chunk.stream chunks)
  have he : HandleClient.handleClient (serverEnv lib hw running environment accepted) server chunks = _ :=
    HandleClient.serve_spec hrun rfl List.not_mem_nil hsegments
  rw [he]
  have hstart : Exchange.Sent (serverEnv lib hw running environment accepted) { handler := server } :=
    ⟨rfl,rfl,[],rfl,by simp⟩
  exact hstart.foldl (answersLines_serverEnv hlib hw running environment accepted) segments

/-- For all requests of a client and all results of `send` from one byte up to the whole response: what
the running server puts on the wire is the concatenation of the responses, so that the desk reads every
one of them, exactly when every call of `send` took its whole response. -/
theorem reply_stream_iff (lib : JsonLib) (hlib : lib.Lawful) (hw : Hardware H) (running : ℕ → Bool)
    (hrun : ∀ n, running n = true) (environment : ℕ → Server H → Server H) (accepted : ℕ → ℕ) (server : Server H)
    (chunks : List (Chunk UInt8 2047)) :
    let e := HandleClient.handleClient (serverEnv lib hw running environment accepted) server chunks
    (∀ k rawResponse, e.written[k]? = some rawResponse → 1 ≤ accepted k ∧ accepted k ≤ rawResponse.length) →
    ((e.transport = e.responses.flatten ∧
      ∀ pieces : List (Chunk UInt8 1023), Chunk.stream pieces = e.transport →
        (LineReader.receiveLines (fun _ => true) e.written.length { incoming := pieces }).1.map (· ++ [newline]) =
          e.responses.filter (· ≠ [])) ↔
      ∀ k rawResponse, e.written[k]? = some rawResponse → accepted k = rawResponse.length) := by
  intro e hsend
  have hsent : Exchange.Sent (serverEnv lib hw running environment accepted) e :=
    handleClient_sent hlib hw hrun environment accepted server chunks
  have hflatten : e.responses.flatten = e.written.flatten := by
    rw [hsent.written]
    exact (List.flatten_filter_ne_nil).symm
  have hle : ∀ i text, e.written[i]? = some text → accepted (0 + i) ≤ text.length := by
    intro i text hi
    rw [Nat.zero_add]
    exact (hsend i text hi).2
  have hwhole := acceptedFrom_eq_flatten_iff hle
  simp only [Nat.zero_add] at hwhole
  have htransport : e.transport = acceptedFrom accepted 0 e.written := hsent.transport
  rw [← hwhole, hflatten, htransport]
  refine ⟨And.left,?_⟩
  intro hall
  refine ⟨hall,?_⟩
  intro pieces hpieces
  obtain ⟨lines,hlines,hnewline⟩ := hsent.lines
  have hstream : Chunk.stream pieces = frame newline lines := by
    rw [hpieces, hall, hlines]
    simp [frame, List.flatMap_def]
  have hreads : LineReader.Reads { incoming := pieces } lines [] := by
    refine ⟨?_,hnewline,List.not_mem_nil⟩
    rw [List.append_nil, hstream]
    rfl
  have hlength : e.written.length = lines.length := by rw [hlines, List.length_map]
  rw [hlength, hreads.receiveLines fun _ => rfl, ← hlines, hsent.written]

/-- A server answers an empty object, and `send` takes one byte at a time. -/
theorem reply_stream_iff_short :
    let server : Server Unit := { controller := .construct (), clock := fun _ => 0 }
    let chunks : List (Chunk UInt8 2047) := [⟨[0x7B,0x7D,newline],by decide,by decide⟩]
    let e := HandleClient.handleClient (serverEnv .compact sil (fun _ => true) (fun _ s => s) fun _ => 1) server chunks
    (e.transport = e.responses.flatten ∧
      ∀ pieces : List (Chunk UInt8 1023), Chunk.stream pieces = e.transport →
        (LineReader.receiveLines (fun _ => true) e.written.length { incoming := pieces }).1.map (· ++ [newline]) =
          e.responses.filter (· ≠ [])) ↔
      ∀ (k : ℕ) (rawResponse : Bytes), e.written[k]? = some rawResponse → 1 = rawResponse.length := by
  intro server chunks e
  have hsent := handleClient_sent JsonLib.compact_lawful sil (fun _ => rfl) (fun _ s => s) (fun _ => 1) server chunks
  refine reply_stream_iff .compact JsonLib.compact_lawful sil (fun _ => true) (fun _ => rfl) (fun _ s => s) (fun _ => 1)
    server chunks ?_
  intro k rawResponse hk
  obtain ⟨lines,hlines,_⟩ := hsent.lines
  have hmem := List.mem_of_getElem? hk
  rw [hlines] at hmem
  obtain ⟨line,_,rfl⟩ := List.mem_map.mp hmem
  simp

/-- The response to an empty object, cut after its first byte. -/
theorem reply_stream_fails :
    ¬∀ (H : Type) (lib : JsonLib), lib.Lawful → ∀ (hw : Hardware H) (running : ℕ → Bool), (∀ n, running n = true) →
      ∀ (environment : ℕ → Server H → Server H) (accepted : ℕ → ℕ) (server : Server H) (chunks : List (Chunk UInt8 2047)),
      let e := HandleClient.handleClient (serverEnv lib hw running environment accepted) server chunks
      (∀ k rawResponse, e.written[k]? = some rawResponse → 1 ≤ accepted k ∧ accepted k ≤ rawResponse.length) →
      e.transport = e.responses.flatten := by
  intro h
  set server : Server Unit := { controller := .construct (), clock := fun _ => 0 }
  set chunks : List (Chunk UInt8 2047) := [⟨[0x7B,0x7D,newline],by decide,by decide⟩]
  set env := serverEnv .compact sil (fun _ => true) (fun _ s => s) fun _ => 1
  have hparse : JsonLib.compact.parse [0x7B,0x7D] = .ok (.object []) :=
    @JsonLib.compact_parse_render (.object []) (by decide) (by decide)
  have hm : MethodIsString (.object []) := by
    intro hreq
    cases hreq
  obtain ⟨response,t,he⟩ := (@exec_single Unit .compact sil JsonLib.compact_lawful (.object []) (by decide) server).mpr hm
  have hprocess : exec (processRequest .compact (mainRouter .compact sil) [0x7B,0x7D]) server = (.ok response,t) := by
    rw [processRequest, hparse]
    exact he
  obtain rfl | ⟨line,hline,rfl⟩ := Delivery.processRequest_line JsonLib.compact_lawful hprocess
  · exact exec_processRequest_ne_nil hparse hprocess
  · have hspells : Spells newline (Chunk.stream chunks) [[0x7B,0x7D]] [] := ⟨rfl,by decide,by decide⟩
    have hone : HandleClient.handleClient env server chunks = _ :=
      HandleClient.serve_spec (fun _ => rfl) rfl List.not_mem_nil hspells
    have hanswer : HandleClient.handleClient env server chunks =
        { handler := t, requests := [[0x7B,0x7D]], responses := [line ++ [newline]], written := [line ++ [newline]]
          transport := (line ++ [newline]).take 1 } := by
      have hproc : env.processRequest [0x7B,0x7D] (env.environment 0 server) = (.ok (line ++ [newline]),t) := hprocess
      rw [hone]
      simp [Exchange.take, Exchange.answer, hproc, Exchange.send]
      rfl
    have hall := h Unit .compact JsonLib.compact_lawful sil _ (fun _ => rfl) (fun _ s => s) (fun _ => 1) server chunks
    dsimp only at hall
    rw [hanswer] at hall
    have hlen := congrArg List.length (hall ?_)
    · have hnil : line = [] := by simpa using hlen
      exact hline.1 hnil
    · intro k rawResponse hk
      obtain ⟨_,rfl⟩ : k = 0 ∧ rawResponse = line ++ [newline] := by
        cases k with
        | zero => exact ⟨rfl,(Option.some.inj hk).symm⟩
        | succ k => simp at hk
      simp

end Server
end MiniHil
