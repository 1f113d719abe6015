import MiniHil.Foundation.LineFraming
import MiniHil.Foundation.Runs
import MiniHil.Protocol.RequestSteps
import MiniHil.System.Delivery

/-! # All clients of the daemon

Any number of clients that may send any bytes, their handlers, and the tick thread on one controller. A handler takes
one line at a time and serves it in steps, with the steps of the others in between. An exception that leaves a handler
ends the process, and so does one that leaves the listener.
-/
namespace MiniHil
open Runs Framing Throwing JsonRpcRouter

/-- A connection: what the client sent and how far that came, the lines that its handler took out of the buffer, the
request in the works, and the responses written. -/
structure ClientConnection where
  sent : Bytes := []
  requests : Pipe UInt8 := {}
  lines : List Bytes := []
  work : Option Work := none
  replies : List Bytes := []

namespace ClientConnection

/-- The lines taken out are those that were sent, the rest is in the buffer or under way, and the responses answer the
lines that are requests one for one and in order, up to the one in the works. -/
structure Orderly (lib : JsonLib) (c : ClientConnection) : Prop where
  stream : c.sent = frame newline c.lines ++ c.requests.buffer ++ c.requests.inFlight
  whole : ∀ line ∈ c.lines, newline ∉ line
  answered : ∃ done current, c.lines.filter IsRequest = done ++ current.toList ∧
    List.Forall₂ (Work.Answers lib) done c.replies ∧
    (∀ w, c.work = some w → ∃ line, current = some line ∧ w.For lib line) ∧ (c.work = none → current = none)

variable {H : Type} {lib : JsonLib} {hw : Hardware H} {c : ClientConnection} {requests : Pipe UInt8} {line : Bytes}

theorem isRequest_of_not_skipped (h : ¬Delivery.Skipped line) : IsRequest line = true := by
  simp only [Delivery.Skipped, not_or] at h
  simp [IsRequest, h]

theorem orderly_new : Orderly lib {} where
  stream := rfl
  whole := nofun
  answered := ⟨[],none,rfl,.nil,nofun,fun _ => rfl⟩

theorem Orderly.send (h : c.Orderly lib) (bytes : Bytes) :
    Orderly lib { c with sent := c.sent ++ bytes, requests := c.requests.write bytes } where
  stream := by
    simp only [Pipe.write, h.stream, List.append_assoc]
  whole := h.whole
  answered := h.answered

theorem Orderly.receive (h : c.Orderly lib) (hr : c.requests.Receives 2047 requests) : Orderly lib { c with requests } where
  stream := by
    obtain ⟨chunk,rest,hin,_,_,rfl⟩ := hr
    simp only [h.stream, hin, List.append_assoc]
  whole := h.whole
  answered := h.answered

theorem Orderly.takes (h : c.Orderly lib) (ht : c.requests.takeLine newline = some (line,requests)) :
    c.sent = frame newline (c.lines ++ [line]) ++ requests.buffer ++ requests.inFlight ∧
      ∀ l ∈ c.lines ++ [line], newline ∉ l := by
  obtain ⟨⟨l,buffer⟩,hbuffer,heq⟩ := Option.map_eq_some_iff.mp ht
  obtain ⟨rfl,rfl⟩ := Prod.mk.inj heq
  obtain ⟨hsplit,hline⟩ := takeLine_split hbuffer
  refine ⟨?_,?_⟩
  · rw [h.stream, hsplit, frame_concat]
    simp only [List.append_assoc, List.cons_append, List.nil_append]
  · intro l' hl'
    rcases List.mem_append.mp hl' with hl' | hl'
    · exact h.whole l' hl'
    · obtain rfl := List.mem_singleton.mp hl'
      exact hline

theorem Orderly.skip (h : c.Orderly lib) (ht : c.requests.takeLine newline = some (line,requests))
    (hskip : Delivery.Skipped line) : Orderly lib { c with requests, lines := c.lines ++ [line] } where
  stream := (h.takes ht).1
  whole := (h.takes ht).2
  answered := by
    have hno : IsRequest line = false := by
      rcases hskip with rfl | rfl <;> rfl
    rw [List.filter_append, List.filter_cons_of_neg (by simp [hno]), List.filter_nil, List.append_nil]
    exact h.answered

theorem Orderly.takeLine (h : c.Orderly lib) (hwork : c.work = none)
    (ht : c.requests.takeLine newline = some (line,requests)) (hskip : ¬Delivery.Skipped line) :
    Orderly lib { c with requests, lines := c.lines ++ [line], work := some (.parse lib line) } where
  stream := (h.takes ht).1
  whole := (h.takes ht).2
  answered := by
    obtain ⟨done,current,hlines,hanswers,_,hnone⟩ := h.answered
    obtain rfl := hnone hwork
    refine ⟨done,some line,?_,hanswers,?_,?_⟩
    · rw [List.filter_append, hlines, List.filter_cons_of_pos (isRequest_of_not_skipped hskip)]
      simp
    · rintro w ⟨⟩
      exact ⟨line,rfl,Work.for_parse lib line⟩
    · intro hidle
      cases hidle

theorem Orderly.advance (h : c.Orderly lib) {w w' : Work} {u v : Server H} (hwork : c.work = some w)
    (he : exec (Work.advance lib (mainRouter lib hw) w) u = (.ok (.inl w'),v)) :
    Orderly lib { c with work := some w' } where
  stream := h.stream
  whole := h.whole
  answered := by
    obtain ⟨done,current,hlines,hanswers,hsome,_⟩ := h.answered
    obtain ⟨line,rfl,hfor⟩ := hsome w hwork
    refine ⟨done,some line,hlines,hanswers,?_,nofun⟩
    rintro _ ⟨⟩
    exact ⟨line,rfl,hfor.advance he⟩

theorem Orderly.answer (h : c.Orderly lib) {w : Work} {response : Bytes} {u v : Server H} (hwork : c.work = some w)
    (he : exec (Work.advance lib (mainRouter lib hw) w) u = (.ok (.inr response),v)) :
    Orderly lib { c with
      work := none, replies := if response = [] then c.replies else c.replies ++ [response] } where
  stream := h.stream
  whole := h.whole
  answered := by
    obtain ⟨done,current,hlines,hanswers,hsome,_⟩ := h.answered
    obtain ⟨line,rfl,hfor⟩ := hsome w hwork
    have hanswer : Work.Answers lib line response := hfor.advance he
    have hne : response ≠ [] := by
      obtain ⟨_,text,_,rfl,_⟩ := hanswer
      simp
    rw [if_neg hne]
    exact ⟨done ++ [line],none,by simpa using hlines,List.rel_append hanswers (.cons hanswer .nil),nofun,fun _ => rfl⟩

end ClientConnection

structure Clients (ι H : Type) where
  controller : BaseRelayController H
  connections : ι → ClientConnection := fun _ => {}
  terminated : Bool := false

namespace Clients
variable {ι H : Type}

inductive Label (ι : Type)
  | connect (i : ι)
  | spawnFails (i : ι)
  | send (i : ι) (bytes : Bytes)
  | receive (i : ι)
  | appendFails (i : ι)
  | takeLine (i : ι)
  | advance (i : ι) (now : TimePoint)
  | tick (now : TimePoint)

/-- The controller as a handler finds it that reads the clock at a given time. -/
def server (now : TimePoint) (s : Clients ι H) : Server H := { controller := s.controller, clock := fun _ => now }

/-- No request that the client `j` has processed is one that the controller applies. -/
def Quiet (lib : JsonLib) (j : ι) (s : Clients ι H) (l : Label ι) : Prop :=
  ∀ now w reqJson, l = .advance j now → (s.connections j).work = some w → w.next = some reqJson →
    ¬Commanding lib reqJson

/-- What everybody but the client `j` sees. -/
structure SameFor (j : ι) (s s' : Clients ι H) : Prop where
  controller : s'.controller = s.controller
  connections : ∀ i, i ≠ j → s'.connections i = s.connections i
  alive : s'.terminated = s.terminated

theorem SameFor.refl (j : ι) (s : Clients ι H) : SameFor j s s := ⟨rfl,fun _ _ => rfl,rfl⟩

theorem SameFor.trans {j : ι} {s t u : Clients ι H} (h : SameFor j s t) (h' : SameFor j t u) : SameFor j s u :=
  ⟨h'.controller.trans h.controller,fun i hi => (h'.connections i hi).trans (h.connections i hi),h'.alive.trans h.alive⟩

theorem SameFor.symm {j : ι} {s t : Clients ι H} (h : SameFor j s t) : SameFor j t s :=
  ⟨h.controller.symm,fun i hi => (h.connections i hi).symm,h.alive.symm⟩

variable [DecidableEq ι]

def setConnection (i : ι) (c : ClientConnection) (s : Clients ι H) : Clients ι H :=
  { s with connections := Function.update s.connections i c }

inductive Step (lib : JsonLib) (hw : Hardware H) (s : Clients ι H) : Label ι → Clients ι H → Prop
  | connect {i : ι} : s.terminated = false → Step lib hw s (.connect i) (s.setConnection i {})
  | spawnFails {i : ι} : s.terminated = false → Step lib hw s (.spawnFails i) { s with terminated := true }
  | send {i : ι} {bytes : Bytes} : Step lib hw s (.send i bytes)
      (s.setConnection i { s.connections i with
        sent := (s.connections i).sent ++ bytes, requests := (s.connections i).requests.write bytes })
  | receive {i : ι} {requests : Pipe UInt8} : s.terminated = false → (s.connections i).work = none →
      (s.connections i).requests.takeLine newline = none → (s.connections i).requests.Receives 2047 requests →
      Step lib hw s (.receive i) (s.setConnection i { s.connections i with requests })
  | appendFails {i : ι} : s.terminated = false → (s.connections i).work = none →
      (s.connections i).requests.takeLine newline = none → (s.connections i).requests.inFlight ≠ [] →
      Step lib hw s (.appendFails i) { s with terminated := true }
  | skip {i : ι} {line : Bytes} {requests : Pipe UInt8} : s.terminated = false → (s.connections i).work = none →
      (s.connections i).requests.takeLine newline = some (line,requests) → Delivery.Skipped line →
      Step lib hw s (.takeLine i) (s.setConnection i { s.connections i with
        requests, lines := (s.connections i).lines ++ [line] })
  | takeLine {i : ι} {line : Bytes} {requests : Pipe UInt8} : s.terminated = false → (s.connections i).work = none →
      (s.connections i).requests.takeLine newline = some (line,requests) → ¬Delivery.Skipped line →
      Step lib hw s (.takeLine i) (s.setConnection i { s.connections i with
        requests, lines := (s.connections i).lines ++ [line], work := some (.parse lib line) })
  | advance {i : ι} {now : TimePoint} {w w' : Work} {server : Server H} : s.terminated = false →
      (s.connections i).work = some w →
      exec (Work.advance lib (mainRouter lib hw) w) (s.server now) = (.ok (.inl w'),server) →
      Step lib hw s (.advance i now) ({ s with controller := server.controller }.setConnection i
        { s.connections i with work := some w' })
  | answer {i : ι} {now : TimePoint} {w : Work} {response : Bytes} {server : Server H} : s.terminated = false →
      (s.connections i).work = some w →
      exec (Work.advance lib (mainRouter lib hw) w) (s.server now) = (.ok (.inr response),server) →
      Step lib hw s (.advance i now) ({ s with controller := server.controller }.setConnection i
        { s.connections i with
          work := none
          replies := if response = [] then (s.connections i).replies else (s.connections i).replies ++ [response] })
  | terminate {i : ι} {now : TimePoint} {w : Work} {e : Exn} {server : Server H} : s.terminated = false →
      (s.connections i).work = some w →
      exec (Work.advance lib (mainRouter lib hw) w) (s.server now) = (.error e,server) →
      Step lib hw s (.advance i now) { s with controller := server.controller, terminated := true }
  | tick {now : TimePoint} : s.terminated = false →
      Step lib hw s (.tick now) { s with controller := s.controller.tick hw now }

variable {lib : JsonLib} {hw : Hardware H} {s s' t : Clients ι H} {l : Label ι} {j : ι}

theorem forall_setConnection {P : ClientConnection → Prop} {i : ι} {c : ClientConnection}
    (h : ∀ k, P (s.connections k)) (hc : P c) (k : ι) : P ((s.setConnection i c).connections k) := by
  change P (Function.update s.connections i c k)
  by_cases hki : k = i
  · rw [hki, Function.update_self]
    exact hc
  · rw [Function.update_of_ne hki]
    exact h k

theorem Step.terminated (h : Step lib hw s l t) (ht : t.terminated = false) : s.terminated = false := by
  cases h with
  | send => exact ht
  | connect halive | spawnFails halive | receive halive | appendFails halive | skip halive | takeLine halive
  | advance halive | answer halive | terminate halive | tick halive => exact halive

theorem SameFor.setConnection (h : SameFor j s s') (i : ι) {c c' : ClientConnection} (hc : c' = c) :
    SameFor j (s.setConnection i c) (s'.setConnection i c') := by
  subst hc
  refine ⟨h.controller,?_,h.alive⟩
  intro k hk
  change Function.update s'.connections i c' k = Function.update s.connections i c' k
  by_cases hki : k = i
  · rw [hki, Function.update_self, Function.update_self]
  · rw [Function.update_of_ne hki, Function.update_of_ne hki, h.connections k hk]

theorem Step.orderly (h : Step lib hw s l t) (hs : ∀ i, (s.connections i).Orderly lib) (i : ι) :
    (t.connections i).Orderly lib := by
  cases h with
  | connect => exact forall_setConnection hs ClientConnection.orderly_new i
  | @send k bytes => exact forall_setConnection hs ((hs k).send bytes) i
  | @receive k _ _ _ _ hr => exact forall_setConnection hs ((hs k).receive hr) i
  | @skip k _ _ _ _ ht hskip => exact forall_setConnection hs ((hs k).skip ht hskip) i
  | @takeLine k _ _ _ hwork ht hskip => exact forall_setConnection hs ((hs k).takeLine hwork ht hskip) i
  | @advance k _ _ _ server _ hwork he =>
    exact forall_setConnection (s := { s with controller := server.controller }) hs ((hs k).advance hwork he) i
  | @answer k _ _ _ server _ hwork he =>
    exact forall_setConnection (s := { s with controller := server.controller }) hs ((hs k).answer hwork he) i
  | spawnFails | appendFails | terminate | tick => exact hs i

def AllProcessable (lib : JsonLib) (lines : List Bytes) : Prop := ∀ line ∈ lines, IsRequest line = true → Processable lib line

/-- All requests that were taken can be processed, and so can the rest of the one in the works; or the last one is in
the works and cannot be processed. -/
def Fated (lib : JsonLib) (c : ClientConnection) : Prop :=
  (AllProcessable lib c.lines ∧ ∀ w, c.work = some w → w.Sound) ∨
    ∃ earlier line w, c.lines = earlier ++ [line] ∧ AllProcessable lib earlier ∧
      IsRequest line = true ∧ ¬Processable lib line ∧ c.work = some w ∧ w.Doomed

section Fate
omit [DecidableEq ι]
variable {c : ClientConnection} {w : Work} {line : Bytes} {requests : Pipe UInt8} {u v : Server H}

theorem allProcessable_concat {lines : List Bytes} (h : AllProcessable lib lines)
    (hline : IsRequest line = true → Processable lib line) : AllProcessable lib (lines ++ [line]) := by
  intro l hmem
  rcases List.mem_append.mp hmem with hmem | hmem
  · exact h l hmem
  · obtain rfl := List.mem_singleton.mp hmem
    exact hline

theorem Fated.idle (h : Fated lib c) (hwork : c.work = none) : AllProcessable lib c.lines := by
  rcases h with h | ⟨_,_,_,_,_,_,_,hw,_⟩
  · exact h.1
  · cases hwork.symm.trans hw

theorem Fated.skip (h : Fated lib c) (hwork : c.work = none) (hskip : Delivery.Skipped line) :
    Fated lib { c with requests, lines := c.lines ++ [line] } := by
  refine .inl ⟨allProcessable_concat (h.idle hwork) ?_,fun w hw => by cases hwork.symm.trans hw⟩
  intro hrequest
  rcases hskip with rfl | rfl <;> cases hrequest

theorem Fated.takeLine (hlib : lib.Lawful) (h : Fated lib c) (hwork : c.work = none) (hskip : ¬Delivery.Skipped line) :
    Fated lib { c with requests, lines := c.lines ++ [line], work := some (.parse lib line) } := by
  by_cases hp : Processable lib line
  · refine .inl ⟨allProcessable_concat (h.idle hwork) fun _ => hp,?_⟩
    rintro w ⟨⟩
    exact Work.sound_parse hlib hp
  · exact .inr ⟨_,line,_,rfl,h.idle hwork,ClientConnection.isRequest_of_not_skipped hskip,hp,rfl,Work.doomed_parse hp⟩

theorem Fated.advance (hlib : lib.Lawful) (h : Fated lib c) {w' : Work} (hwork : c.work = some w)
    (he : exec (Work.advance lib (mainRouter lib hw) w) u = (.ok (.inl w'),v)) : Fated lib { c with work := some w' } := by
  rcases h with ⟨hall,hsound⟩ | ⟨earlier,line,w₀,hlines,hearlier,hrequest,hp,hw₀,hdoomed⟩
  · refine .inl ⟨hall,?_⟩
    rintro _ ⟨⟩
    obtain ⟨r,t,hr,hnext⟩ := (hsound w hwork).advance hlib hw u
    obtain ⟨hok,_⟩ := Prod.mk.inj (hr.symm.trans he)
    exact hnext w' (Except.ok.inj hok)
  · obtain rfl := Option.some.inj (hwork.symm.trans hw₀)
    obtain ⟨w'',heq,hdoomed⟩ := hdoomed.advance hlib he
    obtain rfl := Sum.inl.inj heq
    exact .inr ⟨earlier,line,_,hlines,hearlier,hrequest,hp,rfl,hdoomed⟩

theorem Fated.answer (hlib : lib.Lawful) (h : Fated lib c) {response : Bytes} {replies : List Bytes} (hwork : c.work = some w)
    (he : exec (Work.advance lib (mainRouter lib hw) w) u = (.ok (.inr response),v)) :
    Fated lib { c with work := none, replies } := by
  rcases h with ⟨hall,_⟩ | ⟨_,_,w₀,_,_,_,_,hw₀,hdoomed⟩
  · exact .inl ⟨hall,fun _ h => by cases h⟩
  · obtain rfl := Option.some.inj (hwork.symm.trans hw₀)
    obtain ⟨_,heq,_⟩ := hdoomed.advance hlib he
    cases heq

end Fate

end Clients
end MiniHil
