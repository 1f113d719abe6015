import MiniHil.Foundation.LineFraming
import MiniHil.Protocol.NlohmannJson

/-! # The requests in a byte stream

`handleClient` after its handshake: chunks of the stream are appended to a buffer, whole lines are
taken out of it, and each is handed to the request handler. However the stream was cut, the handler
sees the same lines.
-/
namespace MiniHil
open Framing

/-- The newline that ends every text. -/
abbrev newline : UInt8 := 0x0A

/-- What `handleClient` meets: the value of `m_running` before each chunk and after each line, the handler
behind `m_rpcHandler`, what other threads do to the handler before each call, and how much of each
response `send` or `SSL_write` accepts. -/
structure ClientEnv (σ : Type*) where
  running : ℕ → Bool
  processRequest : Bytes → σ → Except Exn Bytes × σ
  environment : ℕ → σ → σ
  accepted : ℕ → ℕ

/-- The handler, the calls of `processRequest` with what they returned, what was handed to `send` and
what the transport has accepted of it. An exception leaves the thread and ends the process. -/
structure Exchange (σ : Type*) where
  handler : σ
  requests : List Bytes := []
  responses : List Bytes := []
  written : List Bytes := []
  transport : Bytes := []
  crashed : Bool := false

structure HandleClient (σ : Type*) where
  requestBuffer : Bytes := []
  checks : ℕ := 0
  exchange : Exchange σ

variable {σ : Type*} {env : ClientEnv σ}

namespace Exchange

/-- `send`; what it returns is dropped. -/
def send (env : ClientEnv σ) (rawResponse : Bytes) (e : Exchange σ) : Exchange σ :=
  { e with
    written := e.written ++ [rawResponse]
    transport := e.transport ++ rawResponse.take (env.accepted e.written.length) }

def answer (env : ClientEnv σ) (running : Bool) (rawRequest : Bytes) (e : Exchange σ) : Exchange σ :=
  if rawRequest = [] ∨ rawRequest = [0x0D] then e
  else match env.processRequest rawRequest (env.environment e.requests.length e.handler) with
    | (.error _,handler) => { e with handler, requests := e.requests ++ [rawRequest], crashed := true }
    | (.ok rawResponse,handler) =>
      let e := { e with handler, requests := e.requests ++ [rawRequest], responses := e.responses ++ [rawResponse] }
      if rawResponse ≠ [] ∧ running then e.send env rawResponse else e

end Exchange

namespace HandleClient

theorem takeLine_length {buffer line rest : Bytes} (h : takeLine newline buffer = some (line,rest)) :
    rest.length < buffer.length := by
  have hmem : newline ∈ buffer := by
    by_contra hno
    rw [takeLine_eq_none_iff.mpr hno] at h
    cases h
  obtain ⟨first,after,rfl,hfirst⟩ := List.eq_append_cons_of_mem hmem
  rw [takeLine_line hfirst] at h
  obtain ⟨rfl,rfl⟩ := Prod.mk.inj (Option.some.inj h)
  rw [List.length_append, List.length_cons]
  omega

def processLines (env : ClientEnv σ) (s : HandleClient σ) : HandleClient σ :=
  match h : takeLine newline s.requestBuffer with
  | none => s
  | some (rawRequest,requestBuffer) =>
    have := takeLine_length h
    let exchange := s.exchange.answer env (env.running s.checks) rawRequest
    let next := { requestBuffer, checks := s.checks + 1, exchange }
    if exchange.crashed then next else processLines env next
termination_by s.requestBuffer.length

/-- The outer loop, over the chunks that `recv` or `SSL_read` returns; after the last one it returns
no more than zero. -/
def serve (env : ClientEnv σ) : List (Chunk UInt8 2047) → HandleClient σ → HandleClient σ
  | [], s => s
  | chunk :: chunks, s =>
    if env.running s.checks then
      let next := processLines env { s with requestBuffer := s.requestBuffer ++ chunk.bytes, checks := s.checks + 1 }
      if next.exchange.crashed then next else serve env chunks next
    else s

def handleClient (env : ClientEnv σ) (handler : σ) (chunks : List (Chunk UInt8 2047)) : Exchange σ :=
  (serve env chunks { exchange := { handler } }).exchange

end HandleClient

/-- A line as `processRequest` gets it: neither empty nor a lone carriage return. -/
def IsRequest (line : Bytes) : Bool := line ≠ [] ∧ line ≠ [0x0D]

/-- The calls of `processRequest` from the one with this number on, what those returned that did not throw,
and whether the last one threw. -/
inductive Handled (env : ClientEnv σ) : ℕ → σ → List Bytes → List Bytes → Bool → σ → Prop
  | done {n : ℕ} {handler : σ} : Handled env n handler [] [] false handler
  | throws {n : ℕ} {handler handler' : σ} {rawRequest : Bytes} {exn : Exn} :
      env.processRequest rawRequest (env.environment n handler) = (.error exn,handler') →
      Handled env n handler [rawRequest] [] true handler'
  | returns {n : ℕ} {handler next handler' : σ} {rawRequest rawResponse : Bytes} {requests responses : List Bytes}
      {crashed : Bool} : env.processRequest rawRequest (env.environment n handler) = (.ok rawResponse,next) →
      Handled env (n + 1) next requests responses crashed handler' →
      Handled env n handler (rawRequest :: requests) (rawResponse :: responses) crashed handler'

def ClientEnv.carries (env : ClientEnv σ) (written : List Bytes) : Bytes :=
  (written.mapIdx fun k rawResponse => rawResponse.take (env.accepted k)).flatten

theorem ClientEnv.carries_concat (env : ClientEnv σ) (written : List Bytes) (rawResponse : Bytes) :
    env.carries (written ++ [rawResponse]) = env.carries written ++ rawResponse.take (env.accepted written.length) := by
  unfold carries
  rw [List.mapIdx_concat, List.flatten_append, List.flatten_singleton]

namespace Exchange
variable {e : Exchange σ} {line : Bytes} {lines : List Bytes}

def take (env : ClientEnv σ) (e : Exchange σ) (line : Bytes) : Exchange σ :=
  if e.crashed then e else e.answer env true line

theorem foldl_take_of_crashed (h : e.crashed = true) (lines : List Bytes) : lines.foldl (take env) e = e := by
  induction lines with
  | nil => rfl
  | cons line lines ih => rw [List.foldl_cons, take, if_pos h, ih]

inductive Taken (env : ClientEnv σ) (e : Exchange σ) (line : Bytes) : Exchange σ → Prop
  | skipped : IsRequest line = false → Taken env e line e
  | throws {exn : Exn} {handler : σ} : IsRequest line = true →
      env.processRequest line (env.environment e.requests.length e.handler) = (.error exn,handler) →
      Taken env e line { e with handler, requests := e.requests ++ [line], crashed := true }
  | silent {handler : σ} : IsRequest line = true →
      env.processRequest line (env.environment e.requests.length e.handler) = (.ok [],handler) →
      Taken env e line { e with handler, requests := e.requests ++ [line], responses := e.responses ++ [[]] }
  | answers {rawResponse : Bytes} {handler : σ} : IsRequest line = true → rawResponse ≠ [] →
      env.processRequest line (env.environment e.requests.length e.handler) = (.ok rawResponse,handler) →
      Taken env e line
        { e with
          handler, requests := e.requests ++ [line], responses := e.responses ++ [rawResponse]
          written := e.written ++ [rawResponse]
          transport := e.transport ++ rawResponse.take (env.accepted e.written.length) }

theorem taken (env : ClientEnv σ) (e : Exchange σ) (line : Bytes) : Taken env e line (e.answer env true line) := by
  unfold answer
  split_ifs with hskip
  · exact .skipped (by simp [IsRequest]; tauto)
  · have hreq : IsRequest line = true := by simp [IsRequest]; tauto
    split
    · exact .throws hreq ‹_›
    · rename_i rawResponse handler hproc
      dsimp only
      split_ifs with hsend
      · exact .answers hreq hsend.1 hproc
      · obtain rfl : rawResponse = [] := by simpa using hsend
        exact .silent hreq hproc

/-- What a thread adds to an exchange: calls of `processRequest` and what they wrote. -/
structure Grown (env : ClientEnv σ) (e : Exchange σ) (lines requests responses : List Bytes) (e' : Exchange σ) : Prop where
  requests_eq : e'.requests = e.requests ++ requests
  responses_eq : e'.responses = e.responses ++ responses
  handled : Handled env e.requests.length e.handler requests responses e'.crashed e'.handler
  written : e'.written = e.written ++ responses.filter (· ≠ [])
  transport : e.transport = env.carries e.written → e'.transport = env.carries e'.written
  initial : requests <+: lines.filter IsRequest
  all : e'.crashed = false → requests = lines.filter IsRequest

/-- A call that returns, in front of those after it. -/
theorem Grown.returns {e₁ e' : Exchange σ} {requests responses : List Bytes} {rawResponse : Bytes}
    (h : Grown env e₁ lines requests responses e') (hreq : IsRequest line = true)
    (hproc : env.processRequest line (env.environment e.requests.length e.handler) = (.ok rawResponse,e₁.handler))
    (hrequests : e₁.requests = e.requests ++ [line]) (hresponses : e₁.responses = e.responses ++ [rawResponse])
    (hwritten : e₁.written = e.written ++ [rawResponse].filter (· ≠ []))
    (htransport : e.transport = env.carries e.written → e₁.transport = env.carries e₁.written) :
    Grown env e (line :: lines) (line :: requests) (rawResponse :: responses) e' where
  requests_eq := by rw [h.requests_eq, hrequests, List.append_assoc, List.singleton_append]
  responses_eq := by rw [h.responses_eq, hresponses, List.append_assoc, List.singleton_append]
  handled := by
    have hrest := h.handled
    rw [hrequests, List.length_append, List.length_singleton] at hrest
    exact .returns hproc hrest
  written := by rw [h.written, hwritten, List.append_assoc, ← List.filter_append, List.singleton_append]
  transport htaken := h.transport (htransport htaken)
  initial := by
    rw [List.filter_cons_of_pos hreq]
    exact List.cons_prefix_cons.mpr ⟨rfl,h.initial⟩
  all hc := by rw [List.filter_cons_of_pos hreq, h.all hc]

theorem Grown.nil (h : e.crashed = false) : Grown env e [] [] [] e where
  requests_eq := (List.append_nil _).symm
  responses_eq := (List.append_nil _).symm
  handled := by
    rw [h]
    exact .done
  written := (List.append_nil _).symm
  transport := id
  initial := List.nil_prefix
  all _ := rfl

/-- The calls are the requests among the lines, up to one whose processing throws. -/
theorem foldl_take_grown (env : ClientEnv σ) (lines : List Bytes) (h : e.crashed = false) :
    ∃ requests responses, Grown env e lines requests responses (lines.foldl (take env) e) := by
  induction lines generalizing e with
  | nil => exact ⟨[],[],.nil h⟩
  | cons line lines ih =>
    have hone : take env e line = e.answer env true line := if_neg (by simp [h])
    have ht := taken env e line
    rw [List.foldl_cons, hone]
    generalize e.answer env true line = e' at ht
    cases ht with
    | skipped hskip =>
      obtain ⟨requests,responses,hgrown⟩ := ih h
      refine ⟨requests,responses,hgrown.requests_eq,hgrown.responses_eq,hgrown.handled,hgrown.written,hgrown.transport,?_,?_⟩
      all_goals rw [List.filter_cons_of_neg (by simp [hskip])]
      exacts [hgrown.initial,hgrown.all]
    | throws hreq hproc =>
      rw [foldl_take_of_crashed rfl]
      refine ⟨[line],[],rfl,(List.append_nil _).symm,.throws hproc,(List.append_nil _).symm,id,?_,fun hc => by cases hc⟩
      rw [List.filter_cons_of_pos hreq]
      exact List.cons_prefix_cons.mpr ⟨rfl,List.nil_prefix⟩
    | silent hreq hproc =>
      obtain ⟨requests,responses,hgrown⟩ := ih
        (e := { e with handler := _, requests := e.requests ++ [line], responses := e.responses ++ [[]] }) h
      exact ⟨_,_,hgrown.returns hreq hproc rfl rfl (List.append_nil _).symm id⟩
    | @answers rawResponse handler hreq hsend hproc =>
      obtain ⟨requests,responses,hgrown⟩ := ih
        (e := { e with
          handler, requests := e.requests ++ [line], responses := e.responses ++ [rawResponse]
          written := e.written ++ [rawResponse]
          transport := e.transport ++ rawResponse.take (env.accepted e.written.length) }) h
      refine ⟨_,_,hgrown.returns hreq hproc rfl rfl ?_ ?_⟩
      · rw [List.filter_cons_of_pos (by simpa using hsend)]
        rfl
      · intro htaken
        rw [env.carries_concat, htaken]

end Exchange

namespace HandleClient
variable {s : HandleClient σ} {lines : List Bytes} {rest : Bytes}

theorem processLines_spec (hrun : ∀ n, env.running n = true) (h : s.exchange.crashed = false)
    (hs : Spells newline s.requestBuffer lines rest) :
    (processLines env s).exchange = lines.foldl (Exchange.take env) s.exchange ∧
      ((processLines env s).exchange.crashed = false → (processLines env s).requestBuffer = rest) := by
  induction lines generalizing s with
  | nil =>
    obtain ⟨hnone,hrest⟩ := hs.takeLine_nil
    have hstop : processLines env s = s := by
      rw [processLines]
      split
      · rfl
      · rename_i hsome
        rw [hnone] at hsome
        cases hsome
    rw [hstop]
    exact ⟨rfl,fun _ => hrest⟩
  | cons line lines ih =>
    obtain ⟨after,hsome,hafter⟩ := hs.takeLine_cons
    have htake : Exchange.take env s.exchange line = s.exchange.answer env true line := if_neg (by simp [h])
    have hstep : processLines env s =
        if (s.exchange.answer env true line).crashed then
          { requestBuffer := after, checks := s.checks + 1, exchange := s.exchange.answer env true line }
        else processLines env
          { requestBuffer := after, checks := s.checks + 1, exchange := s.exchange.answer env true line } := by
      rw [processLines]
      split
      · rename_i hnone
        rw [hsome] at hnone
        cases hnone
      · rename_i heq
        rw [hsome] at heq
        obtain ⟨rfl,rfl⟩ := Prod.mk.inj (Option.some.inj heq)
        simp only [hrun]
    rw [hstep, List.foldl_cons, htake]
    split_ifs with hc
    · rw [Exchange.foldl_take_of_crashed hc]
      refine ⟨rfl,?_⟩
      intro hnc
      rw [hc] at hnc
      cases hnc
    · exact ih (s := ⟨after,s.checks + 1,_⟩) (Bool.eq_false_iff.mpr hc) hafter

theorem serve_spec (hrun : ∀ n, env.running n = true) {chunks : List (Chunk UInt8 2047)} (h : s.exchange.crashed = false)
    (hb : newline ∉ s.requestBuffer) (hs : Spells newline (s.requestBuffer ++ Chunk.stream chunks) lines rest) :
    (serve env chunks s).exchange = lines.foldl (Exchange.take env) s.exchange := by
  induction chunks generalizing s lines with
  | nil =>
    have hnone : Spells newline (s.requestBuffer ++ Chunk.stream ([] : List (Chunk UInt8 2047))) [] s.requestBuffer := by
      rw [Chunk.stream, List.flatMap_nil, List.append_nil]
      exact spells_of_notMem hb
    obtain ⟨rfl,_⟩ := hs.unique hnone
    rfl
  | cons chunk chunks ih =>
    rw [Chunk.stream_cons, ← List.append_assoc] at hs
    obtain ⟨lines₁,rest₁,lines₂,h₁,h₂,rfl⟩ := hs.cut
    obtain ⟨hexchange,hbuffer⟩ := processLines_spec
      (s := { s with requestBuffer := s.requestBuffer ++ chunk.bytes, checks := s.checks + 1 }) hrun h h₁
    rw [serve, if_pos (hrun _), List.foldl_append]
    dsimp only at hexchange ⊢
    split_ifs with hc
    · rw [hexchange] at hc
      rw [hexchange, Exchange.foldl_take_of_crashed hc]
    · have hnc := Bool.eq_false_iff.mpr hc
      have hrest := hbuffer hnc
      rw [← hexchange]
      apply ih hnc
      · rw [hrest]
        exact h₁.unfinished
      · rw [hrest]
        exact h₂

/-- However the stream of a client is cut into chunks, the running server makes the same calls of
`processRequest` and writes the same bytes: one call, in order, for each whole line that is neither
empty nor a lone carriage return, and none for what follows the last newline. Each response that is not
empty is written. An exception of `processRequest`, and nothing else, ends the process, at the same call in both. -/
theorem handleClient_divisions (env : ClientEnv σ) (hrun : ∀ n, env.running n = true) (handler : σ)
    (chunks chunks' : List (Chunk UInt8 2047)) (hstream : Chunk.stream chunks = Chunk.stream chunks')
    (segments : List Bytes) (tail : Bytes) (hsegments : Spells newline (Chunk.stream chunks) segments tail) :
    let e := handleClient env handler chunks
    let e' := handleClient env handler chunks'
    e.requests = e'.requests ∧ e.responses = e'.responses ∧ e.written = e'.written ∧ e.transport = e'.transport ∧
      e.crashed = e'.crashed ∧
      (e.crashed = false → e.requests = segments.filter IsRequest) ∧
      (∃ unprocessed, segments.filter IsRequest = e.requests ++ unprocessed) ∧
      Handled env 0 handler e.requests e.responses e.crashed e.handler ∧
      e.written = e.responses.filter (· ≠ []) ∧ e.transport = env.carries e.written := by
  intro e e'
  have hs : e = segments.foldl (Exchange.take env) { handler } :=
    serve_spec hrun rfl List.not_mem_nil hsegments
  have hs' : e' = segments.foldl (Exchange.take env) { handler } :=
    serve_spec hrun rfl List.not_mem_nil (hstream ▸ hsegments)
  obtain ⟨requests,responses,hgrown⟩ := Exchange.foldl_take_grown (e := { handler }) env segments rfl
  obtain ⟨unprocessed,hunprocessed⟩ := hgrown.initial
  have hrequests := hgrown.requests_eq
  have hresponses := hgrown.responses_eq
  have hwritten := hgrown.written
  rw [List.nil_append] at hrequests hresponses hwritten
  rw [hs, hs']
  refine ⟨rfl,rfl,rfl,rfl,rfl,?_,?_,?_,?_,hgrown.transport rfl⟩
  · intro hc
    rw [hrequests, hgrown.all hc]
  · rw [hrequests]
    exact ⟨unprocessed,hunprocessed.symm⟩
  · rw [hrequests, hresponses]
    exact hgrown.handled
  · rw [hresponses, hwritten]

/-- A server that counts its requests; a line cut in two, a lone carriage return and an unfinished line. -/
theorem handleClient_divisions_cut :
    let env : ClientEnv ℕ :=
      { running := fun _ => true, processRequest := fun _ n => (.ok [0x2B,newline],n + 1), environment := fun _ n => n
        accepted := fun _ => 2 }
    let chunks : List (Chunk UInt8 2047) :=
      [⟨[0x61],by decide,by decide⟩,⟨[0x62,newline,0x0D,newline,0x63],by decide,by decide⟩]
    let chunks' : List (Chunk UInt8 2047) := [⟨[0x61,0x62,newline,0x0D,newline,0x63],by decide,by decide⟩]
    let e := handleClient env 0 chunks
    e.requests = (handleClient env 0 chunks').requests ∧ e.crashed = false ∧ e.requests = [[0x61,0x62]] ∧
      Handled env 0 0 e.requests e.responses e.crashed e.handler ∧ e.handler = 1 ∧ e.transport = [0x2B,newline] := by
  intro env chunks chunks' e
  have hspells : Spells newline (Chunk.stream chunks) [[0x61,0x62],[0x0D]] [0x63] := ⟨rfl,by decide,by decide⟩
  obtain ⟨hrequests,_,_,_,_,hall,_,hhandled,_,_⟩ :=
    handleClient_divisions env (fun _ => rfl) 0 chunks chunks' rfl _ _ hspells
  have he : e = [[0x61,0x62],[0x0D]].foldl (Exchange.take env) { handler := 0 } :=
    serve_spec (fun _ => rfl) rfl List.not_mem_nil hspells
  have hcrashed : e.crashed = false := by
    rw [he]
    rfl
  refine ⟨hrequests,hcrashed,hall hcrashed,hhandled,?_,?_⟩
  · rw [he]
    rfl
  · rw [he]
    rfl

end HandleClient
end MiniHil
