import MiniHil.Network.SessionTable

/-! # Stopping the server

One call of `stop` against `listenLoop` and the handlers, with and without TLS. The handlers are detached,
so `stop` joins the listener and then waits for the session table to be empty.
-/
namespace MiniHil
open Runs

/-- Where `listenLoop` stands; in its body the listener of `Sessions` tells. -/
inductive ListenLoop
  | checking
  | accepting
  | failed
  | body
  | ended
  deriving DecidableEq, Repr

inductive Serving
  | checking
  | reading
  | scanning
  | processing
  | answering
  | sending
  deriving DecidableEq, Repr

/-- Where the call of `stop` stands. -/
inductive Stop
  | idle
  | flagged
  | closed
  | joined
  | polling
  | returned
  deriving DecidableEq, Repr

structure TcpServer where
  useSsl : Bool
  running : Bool := true
  serverSocket : Option ℕ
  loop : ListenLoop := .checking
  sessions : Sessions := {}
  serving : ℕ → Serving := fun _ => .checking
  stop : Stop := .idle

namespace TcpServer

inductive Label
  | listen
  | accept (socketFd : ℕ)
  | acceptFails
  | push
  | spawn
  | enter (connection : ℕ)
  | handshake (connection : ℕ) (ok : Bool)
  | check (connection : ℕ)
  | read (connection : ℕ) (ok : Bool)
  | takeLine (connection : ℕ) (found : Bool)
  | processRequest (connection : ℕ) (answered : Bool)
  | send (connection : ℕ)
  | free (connection : ℕ)
  | close (connection : ℕ)
  | remove (connection : ℕ)
  | clearRunning
  | closeServerSocket
  | join
  | shutdownClients
  | poll
  deriving DecidableEq, Repr

/-- `start` has returned. -/
def start (useSsl : Bool) (serverSocket : ℕ) : TcpServer := { useSsl, serverSocket := some serverSocket }

/-- A handler is in the loop of `handleClient`. -/
def Serves (s : TcpServer) (n : ℕ) (at_ : Serving) : Prop :=
  (∃ h, s.sessions.handlers n = some h ∧ h.phase = .serving) ∧ s.serving n = at_

def setServing (s : TcpServer) (n : ℕ) (at_ : Serving) : TcpServer :=
  { s with serving := Function.update s.serving n at_ }

/-- The steps of the listener, of the handlers and of `stop`. Calls may fail at any time, also after
the descriptor was shut down; an exception of `processRequest` ends the process and is no step. -/
inductive Step (s : TcpServer) : Label → TcpServer → Prop
  -- `while (m_running)` and `accept`
  | listen : s.loop = .checking → Step s .listen { s with loop := if s.running then .accepting else .ended }
  | accept {socketFd : ℕ} {sessions : Sessions} : s.loop = .accepting → s.serverSocket ≠ some socketFd →
      Sessions.Step s.sessions (.accept socketFd) sessions → Step s (.accept socketFd) { s with loop := .body, sessions }
  | acceptFails : s.loop = .accepting → Step s .acceptFails { s with loop := .failed }
  | failed : s.loop = .failed → Step s .listen { s with loop := if s.running then .checking else .ended }
  | push {sessions : Sessions} : s.loop = .body → Sessions.Step s.sessions .push sessions → Step s .push { s with sessions }
  | spawn {sessions : Sessions} : s.loop = .body → Sessions.Step s.sessions .spawn sessions →
      Step s .spawn { s with loop := .checking, sessions }
  -- `handleClient`, up to the loop
  | enter {n : ℕ} {h : Handler} : s.useSsl = false → s.sessions.handlers n = some h → h.phase = .spawned →
      Step s (.enter n) ({ s with sessions := s.sessions.setHandler n { h with phase := .serving } }.setServing n .checking)
  | lookup {n : ℕ} {sessions : Sessions} : s.useSsl = true → Sessions.Step s.sessions (.lookup n) sessions →
      Step s (.enter n) ({ s with sessions }.setServing n .checking)
  | handshake {n : ℕ} {ok : Bool} {sessions : Sessions} : Sessions.Step s.sessions (.handshake n ok) sessions →
      Step s (.handshake n ok) ({ s with sessions }.setServing n .checking)
  -- the loop
  | stays {n : ℕ} : s.Serves n .checking → s.running = true → Step s (.check n) (s.setServing n .reading)
  | leaves {n : ℕ} {sessions : Sessions} : s.Serves n .checking → s.running = false →
      Sessions.Step s.sessions (.disconnect n) sessions → Step s (.check n) { s with sessions }
  | reads {n : ℕ} : s.Serves n .reading → Step s (.read n true) (s.setServing n .scanning)
  | readFails {n : ℕ} {sessions : Sessions} : s.Serves n .reading → Sessions.Step s.sessions (.disconnect n) sessions →
      Step s (.read n false) { s with sessions }
  | noLine {n : ℕ} : s.Serves n .scanning → Step s (.takeLine n false) (s.setServing n .checking)
  | line {n : ℕ} : s.Serves n .scanning → Step s (.takeLine n true) (s.setServing n .processing)
  | processes {n : ℕ} {answered : Bool} : s.Serves n .processing →
      Step s (.processRequest n answered) (s.setServing n (if answered then .answering else .scanning))
  | answers {n : ℕ} : s.Serves n .answering → Step s (.check n) (s.setServing n (if s.running then .sending else .scanning))
  | sends {n : ℕ} : s.Serves n .sending → Step s (.send n) (s.setServing n .scanning)
  -- the teardown
  | free {n : ℕ} {sessions : Sessions} : Sessions.Step s.sessions (.free n) sessions → Step s (.free n) { s with sessions }
  | close {n : ℕ} {sessions : Sessions} : Sessions.Step s.sessions (.close n) sessions → Step s (.close n) { s with sessions }
  | remove {n : ℕ} {sessions : Sessions} : Sessions.Step s.sessions (.remove n) sessions →
      Step s (.remove n) { s with sessions }
  -- `stop`
  | clearRunning : s.stop = .idle → s.running = true → Step s .clearRunning { s with running := false, stop := .flagged }
  | closeServerSocket : s.stop = .flagged → Step s .closeServerSocket { s with serverSocket := none, stop := .closed }
  | join : s.stop = .closed → s.loop = .ended → Step s .join { s with stop := .joined }
  | shutdownClients : s.stop = .joined → Step s .shutdownClients { s with stop := .polling }
  | poll : s.stop = .polling →
      Step s .poll { s with stop := if s.sessions.clientSessions.isEmpty then .returned else .polling }

/-- The listener of `Sessions` is in the body of the loop only, and `stop` goes on only after the
listener has ended and returns only with an empty table. -/
structure Inv (s : TcpServer) : Prop where
  kept : s.sessions.Kept
  loop : s.loop ≠ .body → s.sessions.listener = .accepting
  joined : s.stop = .joined ∨ s.stop = .polling ∨ s.stop = .returned → s.loop = .ended
  returned : s.stop = .returned → s.sessions.clientSessions = []

variable {s t : TcpServer} {n : ℕ}

theorem start_inv (useSsl : Bool) (serverSocket : ℕ) : Inv (start useSsl serverSocket) where
  kept := .initial
  loop _ := rfl
  joined h := by rcases h with h | h | h <;> cases h
  returned h := nomatch h

/-- A handler does not touch the listener and puts nothing into the table. -/
theorem Inv.ofHandler (hi : Inv s) {sessions : Sessions} (hk : sessions.Kept)
    (hl : sessions.listener = s.sessions.listener)
    (hc : s.sessions.clientSessions = [] → sessions.clientSessions = []) (serving : ℕ → Serving) :
    Inv { s with sessions, serving } where
  kept := hk
  loop hb := hl.trans (hi.loop hb)
  joined := hi.joined
  returned hr := hc (hi.returned hr)

/-- In the body of its loop the listener is not at its end, so `stop` has not got past it. -/
theorem Inv.not_joined (hi : Inv s) (hne : s.loop ≠ .ended) : ¬(s.stop = .joined ∨ s.stop = .polling ∨ s.stop = .returned) :=
  fun h => hne (hi.joined h)

theorem Inv.ofListener (hi : Inv s) (hne : s.loop ≠ .ended) {loop : ListenLoop} {sessions : Sessions}
    (hk : sessions.Kept) (hl : loop ≠ .body → sessions.listener = .accepting) : Inv { s with loop, sessions } where
  kept := hk
  loop := hl
  joined hj := absurd hj (hi.not_joined hne)
  returned hr := absurd (.inr (.inr hr)) (hi.not_joined hne)

theorem Step.inv {l : Label} (hi : Inv s) (hs : Step s l t) : Inv t := by
  cases hs with
  | listen hl =>
    refine hi.ofListener (by rw [hl]; decide) hi.kept fun _ => hi.loop ?_
    rw [hl]
    decide
  | acceptFails hl | failed hl =>
    refine hi.ofListener (by rw [hl]; decide) hi.kept fun _ => hi.loop ?_
    rw [hl]
    decide
  | accept hl _ hstep => exact hi.ofListener (by rw [hl]; decide) (hi.kept.step hstep) fun h => absurd rfl h
  | push hl hstep => exact hi.ofListener (by rw [hl]; decide) (hi.kept.step hstep) fun h => absurd hl h
  | spawn hl hstep =>
    refine hi.ofListener (by rw [hl]; decide) (hi.kept.step hstep) fun _ => ?_
    cases hstep
    rfl
  | @enter n h _ hn hp =>
    have hk : (s.sessions.setHandler n { h with phase := .serving }).Kept :=
      hi.kept.advance hn { h with phase := .serving } rfl (by rw [hp]; decide) nofun (Finset.Subset.refl _) nofun _
    exact hi.ofHandler hk rfl id _
  | lookup _ hstep | handshake hstep | leaves _ _ hstep | readFails _ hstep | free hstep | close hstep =>
    refine hi.ofHandler (hi.kept.step hstep) ?_ ?_ _
    · cases hstep
      rfl
    · cases hstep
      exact id
  | remove hstep =>
    refine hi.ofHandler (hi.kept.step hstep) ?_ ?_ _
    · cases hstep
      rfl
    · cases hstep
      intro hnil
      dsimp only
      rw [hnil]
      rfl
  | stays | reads | noLine | line | processes | answers | sends => exact hi.ofHandler hi.kept rfl id _
  | clearRunning | closeServerSocket =>
    refine ⟨hi.kept,hi.loop,?_,nofun⟩
    rintro (h | h | h) <;> cases h
  | join _ hend => exact ⟨hi.kept,hi.loop,fun _ => hend,fun h => nomatch h⟩
  | shutdownClients hj => exact ⟨hi.kept,hi.loop,fun _ => hi.joined (.inl hj),fun h => nomatch h⟩
  | poll hp =>
    refine ⟨hi.kept,hi.loop,fun _ => hi.joined (.inr (.inl hp)),?_⟩
    intro hr
    dsimp only at hr
    split_ifs at hr with hempty
    exact List.isEmpty_iff.mp hempty

theorem Inv.quiet (hi : Inv s) (hend : s.loop = .ended) (hempty : s.sessions.clientSessions = []) :
    (∀ n < s.sessions.connections, ∃ h, s.sessions.handlers n = some h ∧ h.phase = .ended) ∧ s.sessions.openFds = ∅ := by
  have hl : s.sessions.listener = .accepting := hi.loop (by rw [hend]; decide)
  have hfree := Sessions.not_accepting hl
  have htable := hi.kept.table
  rw [hempty] at htable
  have hended : ∀ n h, s.sessions.handlers n = some h → h.phase = .ended := by
    intro n h hn
    have hentry := htable.eq_none (Finset.mem_range.mpr (hi.kept.handler_lt n h hn))
    rw [Sessions.entry_of_handler hn] at hentry
    by_contra hne
    rw [if_neg hne] at hentry
    cases hentry
  constructor
  · intro n hlt
    cases hn : s.sessions.handlers n with
    | none =>
      obtain ⟨fd,ha⟩ := hi.kept.started n hlt hn
      exact absurd ha (hfree n fd)
    | some h => exact ⟨h,rfl,hended n h hn⟩
  · rw [Finset.eq_empty_iff_forall_notMem]
    intro fd hopen
    rcases hi.kept.opened fd hopen with ⟨n,ha⟩ | ⟨n,h,hn,_,hc⟩
    · exact hfree n fd ha
    · rw [hended n h hn] at hc
      cases hc

theorem no_step {l : Label} (hend : s.loop = .ended) (hstop : s.stop = .returned)
    (hh : ∀ n h, s.sessions.handlers n = some h → h.phase = .ended) : ¬Step s l t := by
  have hno : ∀ {n h}, s.sessions.handlers n = some h → ∀ {p : Phase}, p ≠ .ended → h.phase ≠ p := by
    intro n h hn p hp heq
    exact hp (heq.symm.trans (hh n h hn))
  have hserves : ∀ {n at_}, ¬s.Serves n at_ := by
    rintro n at_ ⟨⟨h,hn,hp⟩,_⟩
    exact hno hn (by decide) hp
  intro hs
  cases hs with
  | listen hl | acceptFails hl | failed hl | accept hl | push hl | spawn hl =>
    rw [hend] at hl
    cases hl
  | enter _ hn hp => exact hno hn (by decide) hp
  | lookup _ hstep => cases hstep with
    | lookup hn hp => exact hno hn (by decide) hp
  | handshake hstep => cases hstep with
    | handshake hn hp => exact hno hn (by decide) hp
  | free hstep => cases hstep with
    | free hn hp => exact hno hn (by decide) hp
  | close hstep => cases hstep with
    | close hn hp => exact hno hn (by decide) hp
  | remove hstep => cases hstep with
    | remove hn hp => exact hno hn (by decide) hp
  | stays h | leaves h | reads h | readFails h | noLine h | line h | processes h | answers h | sends h =>
    exact hserves h
  | clearRunning h | closeServerSocket h | join h | shutdownClients h | poll h =>
    rw [hstop] at h
    cases h

/-- When `stop` returns, however it interleaved with the listener and any number of handlers: the listener
has ended, the table is empty, every connection that was ever accepted has a handler at its end, no
descriptor is open, and there is nothing left that could call `processRequest`, send or close. -/
theorem stop_quiescent (useSsl : Bool) (serverSocket : ℕ) (es : List Label) (s : TcpServer)
    (hr : Run Step (start useSsl serverSocket) es s) (hstop : s.stop = .returned) :
    s.loop = .ended ∧ s.sessions.clientSessions = [] ∧
    (∀ n < s.sessions.connections, ∃ h, s.sessions.handlers n = some h ∧ h.phase = .ended) ∧
    s.sessions.openFds = ∅ ∧ ∀ l t, ¬Step s l t := by
  have hinv : Inv s := hr.invariant (fun _ _ _ hi => Step.inv hi) (start_inv useSsl serverSocket)
  have hend := hinv.joined (.inr (.inr hstop))
  have hempty := hinv.returned hstop
  obtain ⟨hended,hclosed⟩ := hinv.quiet hend hempty
  refine ⟨hend,hempty,hended,hclosed,fun l t => no_step hend hstop ?_⟩
  intro n h hn
  obtain ⟨h',hn',hp⟩ := hended n (hinv.kept.handler_lt n h hn)
  obtain rfl := Option.some.inj (hn.symm.trans hn')
  exact hp

/-- `stop` finds a client that waits for bytes, and polls once before its entry is gone. -/
theorem stop_quiescent_client : ∃ s, Run Step (start false 3) [.listen,.accept 7,.push,.spawn,.enter 0,.check 0,
      .clearRunning,.closeServerSocket,.listen,.join,.shutdownClients,.poll,.read 0 false,.free 0,.close 0,.remove 0,
      .poll] s ∧
    s.sessions.connections = 1 ∧ s.stop = .returned ∧ s.sessions.openFds = ∅ ∧ ∀ l t, ¬Step s l t := by
  have hserves {s : TcpServer} {at_ : Serving} {h : Handler} (hh : s.sessions.handlers 0 = some h)
      (hp : h.phase = .serving) (ha : s.serving 0 = at_) : s.Serves 0 at_ := ⟨⟨h,hh,hp⟩,ha⟩
  obtain ⟨s,hr,hc,hstop⟩ : ∃ s, Run Step (start false 3) [.listen,.accept 7,.push,.spawn,.enter 0,.check 0,
        .clearRunning,.closeServerSocket,.listen,.join,.shutdownClients,.poll,.read 0 false,.free 0,.close 0,.remove 0,
        .poll] s ∧ s.sessions.connections = 1 ∧ s.stop = .returned :=
    ⟨_,.step (.listen rfl) (.step (.accept rfl (by decide) (.accept rfl (by decide))) (.step (.push rfl (.push rfl))
      (.step (.spawn rfl (.spawn rfl)) (.step (.enter rfl rfl rfl) (.step (.stays (hserves rfl rfl rfl) rfl)
      (.step (.clearRunning rfl rfl) (.step (.closeServerSocket rfl) (.step (.listen rfl) (.step (.join rfl rfl)
      (.step (.shutdownClients rfl) (.step (.poll rfl) (.step (.readFails (hserves rfl rfl rfl) (.disconnect rfl rfl))
      (.step (.free (.free rfl rfl)) (.step (.close (.close rfl rfl)) (.step (.remove (.remove rfl rfl))
      (.step (.poll rfl) .refl)))))))))))))))),rfl,rfl⟩
  obtain ⟨_,_,_,hclosed,hno⟩ := stop_quiescent false 3 _ s hr hstop
  exact ⟨s,hr,hc,hstop,hclosed,hno⟩

end TcpServer
end MiniHil
