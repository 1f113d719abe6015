import Mathlib.Data.Prod.Lex
import MiniHil.Desk.AppController
import MiniHil.Foundation.LineFraming
import MiniHil.Foundation.Runs
import MiniHil.Network.RequestStream
import MiniHil.Protocol.RequestFailures

/-! # One connection from end to end

The desk writes requests, the transport cuts both byte streams into pieces, `handleClient` and
`receiveLine` put the lines together again, and `readLoop` hands them to `processResponse`. Other
connections and the tick thread may change the server at any time.
-/
namespace MiniHil
open Runs Framing Throwing JsonRpcRouter

structure Delivery (H : Type) where
  requestId : Int32
  sent : List Bytes := []
  requests : Pipe UInt8 := {}
  server : Server H
  processed : List Bytes := []
  crashed : Bool := false
  responses : List Bytes := []
  replies : Pipe UInt8 := {}
  running : Bool := true
  connectionLost : Bool := false
  received : List Bytes := []

namespace Delivery
variable {H : Type} {lib : JsonLib} {hw : Hardware H}

inductive Label
  | command (cmd : DeskCommand)
  | environment
  | serverReceives
  | serverTakesLine
  | deskReceives
  | deskTakesLine

/-- `!rawRequest.empty() && rawRequest != "\r"` fails. -/
def Skipped (line : Bytes) : Prop := line = [] ∨ line = [0x0D]

inductive Step (lib : JsonLib) (hw : Hardware H) (s : Delivery H) : Label → Delivery H → Prop
  | command {cmd : DeskCommand} {text : Bytes} : lib.dump (cmd.request s.requestId) = .ok text →
      Step lib hw s (.command cmd) { s with
        requestId := s.requestId + 1, sent := s.sent ++ [text], requests := s.requests.write (text ++ [newline]) }
  | environment (server : Server H) : Step lib hw s .environment { s with server }
  | serverReceives {requests : Pipe UInt8} : s.crashed = false → s.requests.takeLine newline = none →
      s.requests.Receives 2047 requests → Step lib hw s .serverReceives { s with requests }
  | serverSkips {line : Bytes} {requests : Pipe UInt8} : s.crashed = false →
      s.requests.takeLine newline = some (line,requests) → Skipped line →
      Step lib hw s .serverTakesLine { s with requests }
  | serverProcesses {line response : Bytes} {requests : Pipe UInt8} {server : Server H} : s.crashed = false →
      s.requests.takeLine newline = some (line,requests) → ¬Skipped line →
      exec (processRequest lib (mainRouter lib hw) line) s.server = (.ok response,server) →
      Step lib hw s .serverTakesLine { s with
        requests, server, processed := s.processed ++ [line]
        responses := if response = [] then s.responses else s.responses ++ [response]
        replies := s.replies.write response }
  | serverDies {line : Bytes} {requests : Pipe UInt8} {server : Server H} {e : Exn} : s.crashed = false →
      s.requests.takeLine newline = some (line,requests) → ¬Skipped line →
      exec (processRequest lib (mainRouter lib hw) line) s.server = (.error e,server) →
      Step lib hw s .serverTakesLine { s with requests, server, processed := s.processed ++ [line], crashed := true }
  | deskReceives {replies : Pipe UInt8} : s.running = true → s.replies.takeLine newline = none →
      s.replies.Receives 1023 replies → Step lib hw s .deskReceives { s with replies }
  | readLoopStops {replies : Pipe UInt8} : s.running = true → s.replies.takeLine newline = some ([],replies) →
      Step lib hw s .deskTakesLine { s with replies, running := false, connectionLost := true }
  | processResponse {line : Bytes} {replies : Pipe UInt8} : s.running = true →
      s.replies.takeLine newline = some (line,replies) → line ≠ [] →
      Step lib hw s .deskTakesLine { s with replies, received := s.received ++ [line] }

def start (requestId : Int32) (server : Server H) : Delivery H := { requestId, server }

/-- Nothing is in flight, and neither `handleClient` nor `readLoop` has a line to take. -/
def Delivered (lib : JsonLib) (hw : Hardware H) (s : Delivery H) : Prop :=
  s.requests.inFlight = [] ∧ s.replies.inFlight = [] ∧
    ∀ t, ¬Step lib hw s .serverTakesLine t ∧ ¬Step lib hw s .deskTakesLine t

def Label.IsLoop : Label → Prop
  | .command _ | .environment => False
  | .serverReceives | .serverTakesLine | .deskReceives | .deskTakesLine => True

/-- Steps of a connection while only so many more commands are issued and so many more times other threads
change the server. -/
def Works (lib : JsonLib) (hw : Hardware H) (p : Delivery H × ℕ) (l : Label) (q : Delivery H × ℕ) : Prop :=
  Step lib hw p.1 l q.1 ∧ (l.IsLoop → q.2 = p.2) ∧ (¬l.IsLoop → q.2 < p.2)

/-- The steps of the two loops have to be taken. -/
def Serves (lib : JsonLib) (hw : Hardware H) (p : Delivery H × ℕ) (l : Label) (q : Delivery H × ℕ) : Prop :=
  Works lib hw p l q ∧ l.IsLoop

def Label.command? : Label → Option DeskCommand
  | .command cmd => some cmd
  | _ => none

/-- The requests of commands issued one after the other. -/
def requestsFrom (requestId : Int32) : List DeskCommand → List Json
  | [] => []
  | cmd :: cmds => cmd.request requestId :: requestsFrom (requestId + 1) cmds

/-- A text that can be sent as a line: not empty and without control characters. -/
def Line (text : Bytes) : Prop := text ≠ [] ∧ ∀ b ∈ text, 0x20 ≤ b

theorem Line.newline_notMem {text : Bytes} (h : Line text) : newline ∉ text :=
  fun hmem => absurd (h.2 newline hmem) (by decide)

theorem Line.not_skipped {text : Bytes} (h : Line text) : ¬Skipped text := by
  rintro (rfl | rfl)
  · exact h.1 rfl
  · exact absurd (h.2 0x0D List.mem_cons_self) (by decide)

theorem line_of_dump (hlib : lib.Lawful) {j : Json} {text : Bytes} (h : lib.dump j = .ok text) : Line text :=
  ⟨hlib.dump_ne_nil h,hlib.dump_printable h⟩

theorem processRequest_line (hlib : lib.Lawful) {router : JsonRpcRouter H} {rawRequest response : Bytes} {s t : Server H}
    (h : exec (processRequest lib router rawRequest) s = (.ok response,t)) :
    response = [] ∨ ∃ line, Line line ∧ response = line ++ [newline] := by
  have hdump : ∀ {j : Json} {s : Server H}, exec (dumpLine lib j) s = (.ok response,t) →
      response = [] ∨ ∃ line, Line line ∧ response = line ++ [newline] := by
    intro j s h
    obtain ⟨_,text,hdump,hline⟩ := exec_dumpLine_eq_ok h
    exact .inr ⟨text,line_of_dump hlib hdump,hline⟩
  have hpure : ∀ {s : Server H}, exec (pure [] : Rpc H Bytes) s = (.ok response,t) → response = [] := by
    intro s h
    exact (Except.ok.inj (Prod.mk.inj h).1).symm
  unfold processRequest at h
  split at h
  · exact hdump h
  · cases h
  · exact hdump h
  · obtain ⟨batch,u,_,hu⟩ := exec_bind_eq_ok h
    split_ifs at hu
    · exact .inl (hpure hu)
    · exact hdump hu
  · obtain ⟨response',u,_,hu⟩ := exec_bind_eq_ok h
    split_ifs at hu
    · exact .inl (hpure hu)
    · exact hdump hu

theorem processRequest_desk (hlib : lib.Lawful) (hw : Hardware H) {requestId : Int32} {cmd : DeskCommand} {text : Bytes}
    (hdump : lib.dump (cmd.request requestId) = .ok text) (s : Server H) :
    ∃ response t, exec (processRequest lib (mainRouter lib hw) text) s = (.ok response,t) := by
  have hparse := hlib.parse_dump (cmd.request_exact requestId) hdump
  have hm : MethodIsString (cmd.request requestId) := by
    intro _
    refine ⟨cmd.method,?_⟩
    cases cmd <;> rfl
  obtain ⟨response,t,he⟩ := (exec_single hlib (cmd.request_validStrings requestId) s).mpr hm
  refine ⟨response,t,?_⟩
  rw [processRequest, hparse]
  exact he

/-- The lines that were sent are the ones processed and the ones under way, in this order, and the
same for the responses; both ends are running. -/
structure Inv (lib : JsonLib) (s : Delivery H) : Prop where
  requests : ∃ pending, s.requests.Carries newline pending ∧ s.sent = s.processed ++ pending
  texts : ∀ text ∈ s.sent, ∃ requestId cmd, lib.dump (DeskCommand.request requestId cmd) = .ok text
  replies : ∃ pending, s.replies.Carries newline pending ∧
    s.responses = (s.received ++ pending).map (· ++ [newline]) ∧ ∀ line ∈ pending, line ≠ []
  alive : s.crashed = false ∧ s.running = true ∧ s.connectionLost = false

variable {s t : Delivery H} {l : Label} {requestId : Int32} {server : Server H}

theorem start_inv (requestId : Int32) (server : Server H) : Inv lib (start requestId server) :=
  ⟨⟨[],Pipe.carries_empty,rfl⟩,by simp [start],⟨[],Pipe.carries_empty,rfl,by simp⟩,rfl,rfl,rfl⟩

theorem Inv.takes_request (h : Inv lib s) {line : Bytes} {requests : Pipe UInt8}
    (ht : s.requests.takeLine newline = some (line,requests)) :
    (∃ pending, requests.Carries newline pending ∧ s.sent = s.processed ++ [line] ++ pending) ∧
      ∃ requestId cmd, lib.dump (DeskCommand.request requestId cmd) = .ok line := by
  obtain ⟨pending,hcarries,hsent⟩ := h.requests
  obtain ⟨pending',rfl,hnext⟩ := hcarries.takeLine ht
  refine ⟨⟨pending',hnext,?_⟩,h.texts line ?_⟩
  · rw [hsent, List.append_assoc]
    rfl
  · rw [hsent]
    simp

theorem Step.inv (hlib : lib.Lawful) (hs : Inv lib s) (hstep : Step lib hw s l t) : Inv lib t := by
  cases hstep with
  | @command cmd text hdump =>
    obtain ⟨pending,hcarries,hsent⟩ := hs.requests
    have hline := line_of_dump hlib hdump
    refine ⟨⟨pending ++ [text],hcarries.write hline.newline_notMem,?_⟩,?_,hs.replies,hs.alive⟩
    · rw [← List.append_assoc, ← hsent]
    · intro x hx
      rcases List.mem_append.mp hx with hx | hx
      · exact hs.texts x hx
      · obtain rfl := List.mem_singleton.mp hx
        exact ⟨s.requestId,cmd,hdump⟩
  | environment server => exact ⟨hs.requests,hs.texts,hs.replies,hs.alive⟩
  | serverReceives _ _ hr =>
    obtain ⟨pending,hcarries,hsent⟩ := hs.requests
    exact ⟨⟨pending,hcarries.receives hr,hsent⟩,hs.texts,hs.replies,hs.alive⟩
  | serverSkips _ ht hskip =>
    obtain ⟨_,_,_,hdump⟩ := hs.takes_request ht
    exact absurd hskip (line_of_dump hlib hdump).not_skipped
  | @serverProcesses line response requests server _ ht _ he =>
    obtain ⟨hrequests,_⟩ := hs.takes_request ht
    obtain ⟨pending,hcarries,hresponses,hne⟩ := hs.replies
    refine ⟨hrequests,hs.texts,?_,hs.alive⟩
    rcases processRequest_line hlib he with rfl | ⟨text,htext,rfl⟩
    · refine ⟨pending,?_,?_,hne⟩
      · simpa [Pipe.write] using hcarries
      · simpa using hresponses
    · refine ⟨pending ++ [text],hcarries.write htext.newline_notMem,?_,?_⟩
      · rw [if_neg (by simp), hresponses]
        simp
      · intro x hx
        rcases List.mem_append.mp hx with hx | hx
        · exact hne x hx
        · obtain rfl := List.mem_singleton.mp hx
          exact htext.1
  | serverDies _ ht _ he =>
    obtain ⟨_,_,_,hdump⟩ := hs.takes_request ht
    obtain ⟨_,_,hok⟩ := processRequest_desk hlib hw hdump s.server
    rw [he] at hok
    cases hok
  | deskReceives _ _ hr =>
    obtain ⟨pending,hcarries,hresponses,hne⟩ := hs.replies
    exact ⟨hs.requests,hs.texts,⟨pending,hcarries.receives hr,hresponses,hne⟩,hs.alive⟩
  | readLoopStops _ ht =>
    obtain ⟨pending,hcarries,_,hne⟩ := hs.replies
    obtain ⟨pending',rfl,_⟩ := hcarries.takeLine ht
    exact absurd rfl (hne [] List.mem_cons_self)
  | @processResponse line replies _ ht _ =>
    obtain ⟨pending,hcarries,hresponses,hne⟩ := hs.replies
    obtain ⟨pending',rfl,hnext⟩ := hcarries.takeLine ht
    refine ⟨hs.requests,hs.texts,⟨pending',hnext,?_,fun x hx => hne x (List.mem_cons_of_mem _ hx)⟩,hs.alive⟩
    rw [hresponses]
    simp

theorem run_sent {ls : List Label} (hr : Run (Step lib hw) s ls t) :
    t.sent.map Except.ok = s.sent.map Except.ok ++
      (requestsFrom s.requestId (ls.filterMap Label.command?)).map lib.dump := by
  induction hr with
  | refl => simp [requestsFrom]
  | @step s u t l ls hstep _ ih =>
    cases hstep with
    | command hdump =>
      rw [ih]
      simp [Label.command?, requestsFrom, hdump]
    | environment | serverReceives | serverSkips | serverProcesses | serverDies | deskReceives | readLoopStops
    | processResponse => exact ih

theorem Inv.serverTakesLine (hlib : lib.Lawful) (hs : Inv lib s) (hw : Hardware H) (h : newline ∈ s.requests.buffer) :
    ∃ t, Step lib hw s .serverTakesLine t := by
  cases ht : s.requests.takeLine newline with
  | none => exact absurd h (Pipe.takeLine_eq_none_iff.mp ht)
  | some taken =>
    obtain ⟨line,requests⟩ := taken
    obtain ⟨_,_,_,hdump⟩ := hs.takes_request ht
    obtain ⟨_,_,he⟩ := processRequest_desk hlib hw hdump s.server
    exact ⟨_,.serverProcesses hs.alive.1 ht (line_of_dump hlib hdump).not_skipped he⟩

theorem Inv.deskTakesLine (hs : Inv lib s) (hw : Hardware H) (h : newline ∈ s.replies.buffer) :
    ∃ t, Step lib hw s .deskTakesLine t := by
  cases ht : s.replies.takeLine newline with
  | none => exact absurd h (Pipe.takeLine_eq_none_iff.mp ht)
  | some taken =>
    obtain ⟨line,replies⟩ := taken
    by_cases hline : line = []
    · subst hline
      exact ⟨_,.readLoopStops hs.alive.2.1 ht⟩
    · exact ⟨_,.processResponse hs.alive.2.1 ht hline⟩

theorem Inv.of_delivered (hlib : lib.Lawful) (hs : Inv lib s) (hd : s.Delivered lib hw) :
    s.processed = s.sent ∧ s.received.map (· ++ [newline]) = s.responses := by
  obtain ⟨hin,hin',htake⟩ := hd
  obtain ⟨pending,hcarries,hsent⟩ := hs.requests
  obtain ⟨pending',hcarries',hresponses,_⟩ := hs.replies
  have hbuffer : newline ∉ s.requests.buffer := by
    intro hmem
    obtain ⟨t,ht⟩ := hs.serverTakesLine hlib hw hmem
    exact (htake t).1 ht
  have hbuffer' : newline ∉ s.replies.buffer := by
    intro hmem
    obtain ⟨t,ht⟩ := hs.deskTakesLine hw hmem
    exact (htake t).2 ht
  obtain rfl := hcarries.pending_eq_nil hin hbuffer
  obtain rfl := hcarries'.pending_eq_nil hin' hbuffer'
  rw [hsent, hresponses, List.append_nil, List.append_nil]
  exact ⟨rfl,rfl⟩

theorem Inv.exists_serves (hlib : lib.Lawful) (hs : Inv lib s) (hd : ¬s.Delivered lib hw) (more : ℕ) :
    ∃ l q, Serves lib hw (s,more) l q := by
  have hserves : ∀ l t, l.IsLoop → Step lib hw s l t → ∃ l q, Serves lib hw (s,more) l q :=
    fun l t hl hstep => ⟨l,(t,more),⟨hstep,fun _ => rfl,absurd hl⟩,hl⟩
  by_cases hbuffer : newline ∈ s.requests.buffer
  · obtain ⟨t,ht⟩ := hs.serverTakesLine hlib hw hbuffer
    exact hserves .serverTakesLine t trivial ht
  by_cases hbuffer' : newline ∈ s.replies.buffer
  · obtain ⟨t,ht⟩ := hs.deskTakesLine hw hbuffer'
    exact hserves .deskTakesLine t trivial ht
  have hnone := Pipe.takeLine_eq_none_iff.mpr hbuffer
  have hnone' := Pipe.takeLine_eq_none_iff.mpr hbuffer'
  by_cases hin : s.requests.inFlight = []
  · by_cases hin' : s.replies.inFlight = []
    · refine absurd ⟨hin,hin',fun t => ⟨fun ht => ?_,fun ht => ?_⟩⟩ hd
      · cases ht with
        | serverSkips _ hsome | serverProcesses _ hsome | serverDies _ hsome => cases hnone.symm.trans hsome
      · cases ht with
        | readLoopStops _ hsome | processResponse _ hsome => cases hnone'.symm.trans hsome
    · obtain ⟨replies,hr⟩ := Pipe.exists_receives (by decide : 0 < 1023) hin'
      exact hserves .deskReceives _ trivial (.deskReceives hs.alive.2.1 hnone' hr)
  · obtain ⟨requests,hr⟩ := Pipe.exists_receives (by decide : 0 < 2047) hin
    exact hserves .serverReceives _ trivial (.serverReceives hs.alive.1 hnone hr)

def rank (p : Delivery H × ℕ) : ℕ ×ₗ ℕ ×ₗ ℕ := toLex (p.2,toLex (p.1.requests.work,p.1.replies.work))

theorem Works.rank_lt {p q : Delivery H × ℕ} (hw' : Works lib hw p l q) : rank q < rank p := by
  obtain ⟨s,more⟩ := p
  obtain ⟨t,left⟩ := q
  obtain ⟨hstep,hloop,hother⟩ := hw'
  dsimp only at hstep hloop hother
  simp only [rank, Prod.Lex.toLex_lt_toLex]
  cases hstep with
  | command _ | environment _ => exact .inl (hother id)
  | serverReceives _ _ hr => exact .inr ⟨hloop trivial,.inl hr.work_lt⟩
  | serverSkips _ ht _ | serverProcesses _ ht _ _ | serverDies _ ht _ _ =>
    exact .inr ⟨hloop trivial,.inl (Pipe.takeLine_work_lt ht)⟩
  | deskReceives _ _ hr => exact .inr ⟨hloop trivial,.inr ⟨rfl,hr.work_lt⟩⟩
  | readLoopStops _ ht | processResponse _ ht _ => exact .inr ⟨hloop trivial,.inr ⟨rfl,Pipe.takeLine_work_lt ht⟩⟩

/-- For every sequence of commands and every way the streams are cut: the texts sent are those of
the commands; the server processes exactly these, once each and in order; the desk processes exactly
the response lines, once each and in order, as soon as everything is delivered; and neither end
stops. A line that has arrived can be taken, and however the loops go on, everything is delivered, also
when more commands are issued on the way and other threads change the server. -/
theorem delivers_end_to_end (lib : JsonLib) (hlib : lib.Lawful) (hw : Hardware H) (requestId : Int32) (server : Server H)
    (ls : List Label) (s : Delivery H) (hr : Run (Step lib hw) (start requestId server) ls s) :
    s.sent.map Except.ok = (requestsFrom requestId (ls.filterMap Label.command?)).map lib.dump ∧
    (∃ pending, s.sent = s.processed ++ pending) ∧
    (∃ pending, s.responses = s.received.map (· ++ [newline]) ++ pending) ∧
    (s.crashed = false ∧ s.running = true ∧ s.connectionLost = false) ∧
    (s.Delivered lib hw → s.processed = s.sent ∧ s.received.map (· ++ [newline]) = s.responses) ∧
    (newline ∈ s.requests.buffer → ∃ t, Step lib hw s .serverTakesLine t) ∧
    (newline ∈ s.replies.buffer → ∃ t, Step lib hw s .deskTakesLine t) ∧
    ∀ more, Inevitable (Works lib hw) (Serves lib hw)
      (fun p => p.1.Delivered lib hw ∧ p.1.processed = p.1.sent ∧ p.1.received.map (· ++ [newline]) = p.1.responses) (s,more) := by
  have hinv : Inv lib s := hr.invariant (fun _ _ _ hs => Step.inv hlib hs) (start_inv requestId server)
  obtain ⟨pending,_,hsent⟩ := hinv.requests
  obtain ⟨pending',_,hresponses,_⟩ := hinv.replies
  refine ⟨run_sent hr,⟨pending,hsent⟩,⟨pending'.map (· ++ [newline]),?_⟩,hinv.alive,hinv.of_delivered hlib,
    hinv.serverTakesLine hlib hw,hinv.deskTakesLine hw,?_⟩
  · rw [hresponses, List.map_append]
  · intro more
    refine Inevitable.of_rank (I := fun p : Delivery H × ℕ => Inv lib p.1) rank ?_ ?_ hinv
    · intro p l q hp _ hworks
      exact ⟨hworks.1.inv hlib hp,hworks.rank_lt⟩
    · rintro ⟨s,more⟩ hp hnot
      exact Inv.exists_serves hlib hp (fun hd => hnot ⟨hd,Inv.of_delivered hlib hp hd⟩) more

/-- One query: it is delivered, and so is what the server answers. -/
theorem delivers_end_to_end_query : ∃ (text : Bytes) (s : Delivery Unit), s.Delivered .compact sil ∧ s.sent = [text] ∧
    s.processed = s.sent ∧ s.received.map (· ++ [newline]) = s.responses := by
  set server : Server Unit := { controller := .construct (), clock := fun _ => 0 }
  set text : Bytes := JsonText.render (DeskCommand.queryAllRelays.request 1)
  have hdump : JsonLib.compact.dump (DeskCommand.queryAllRelays.request 1) = .ok text :=
    JsonLib.compact_dump.mpr ⟨DeskCommand.request_validStrings 1 .queryAllRelays,rfl⟩
  obtain ⟨_,_,_,_,_,_,_,hend⟩ := delivers_end_to_end .compact JsonLib.compact_lawful sil 1 server [.command .queryAllRelays] _
    (.single (.command hdump))
  obtain ⟨ls,⟨s,left⟩,hr,hd,hprocessed,hreceived⟩ := (hend 0).exists_run fun _ _ _ h => h.1
  -- no further command is issued
  have hsent : left = 0 ∧ s.sent = [text] := by
    refine hr.invariant (P := fun p => p.2 = 0 ∧ p.1.sent = [text]) ?_ ⟨rfl,rfl⟩
    rintro ⟨s,more⟩ l ⟨t,left⟩ ⟨hmore,hs⟩ ⟨hstep,hloop,hother⟩
    dsimp only at hmore hs hstep hloop hother ⊢
    cases hstep with
    | command _ | environment _ =>
      have hlt := hother id
      omega
    | serverReceives | serverSkips | serverProcesses | serverDies | deskReceives | readLoopStops | processResponse =>
      exact ⟨(hloop trivial).trans hmore,hs⟩
  exact ⟨text,s,hd,hsent.2,hprocessed,hreceived⟩

end Delivery
end MiniHil
