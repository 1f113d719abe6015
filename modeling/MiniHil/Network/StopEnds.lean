import Mathlib.Algebra.BigOperators.Group.Finset.Basic
import MiniHil.Network.Stopping

/-! # Stopping comes to its end

Once `m_running` is false, the listener and every handler have only so much left to do, whatever the clients have
sent before; and when `stop` waits for them, none is left in a call that nobody interrupts.
-/
namespace MiniHil
open Runs

namespace TcpServer

/-- The steps of a handler that finds no further line and `m_running` false. -/
def handlerRank (h : Handler) (serving : Serving) : ℕ :=
  match h.phase with
  | .spawned => 6
  | .handshaking => 5
  | .serving => match serving with
    | .processing => 7
    | .reading | .answering | .sending => 6
    | .scanning => 5
    | .checking => 4
  | .freeing => 3
  | .closing => 2
  | .removing => 1
  | .ended => 0

def connectionRank (handlers : ℕ → Option Handler) (serving : ℕ → Serving) (n : ℕ) : ℕ :=
  match handlers n with
  | none => 0
  | some h => handlerRank h (serving n)

def listenerRank (loop : ListenLoop) (listener : Listener) : ℕ :=
  match loop, listener with
  | .accepting, _ => 10
  | .body, .accepted _ _ => 9
  | .body, .tracked _ _ => 8
  | .body, .accepting | .checking, _ | .failed, _ => 1
  | .ended, _ => 0

def stopRank : Stop → ℕ
  | .idle => 5
  | .flagged => 4
  | .closed => 3
  | .joined => 2
  | .polling => 1
  | .returned => 0

def rank (p : TcpServer × ℕ) : ℕ :=
  ∑ n ∈ Finset.range p.1.sessions.connections, connectionRank p.1.sessions.handlers p.1.serving n +
    listenerRank p.1.loop p.1.sessions.listener + stopRank p.1.stop + 3 * p.2

theorem sum_advance {f g : ℕ → ℕ} {k n d e : ℕ} (hn : n < k) (hne : ∀ m ≠ n, g m = f m) (h : g n + d ≤ f n + e) :
    ∑ m ∈ Finset.range k, g m + d ≤ ∑ m ∈ Finset.range k, f m + e := by
  have hmem := Finset.mem_range.mpr hn
  have hrest : ∑ m ∈ (Finset.range k).erase n, g m = ∑ m ∈ (Finset.range k).erase n, f m :=
    Finset.sum_congr rfl fun m hm => hne m (Finset.ne_of_mem_erase hm)
  have hf := Finset.add_sum_erase (Finset.range k) f hmem
  have hg := Finset.add_sum_erase (Finset.range k) g hmem
  omega

def Label.ofHandler : Label → Bool
  | .enter _ | .handshake _ _ | .check _ | .read _ _ | .takeLine _ _ | .processRequest _ _ | .send _ | .free _ | .close _
  | .remove _ => true
  | _ => false

/-- The lines that a step takes out of a buffer. -/
def Label.lines : Label → ℕ
  | .takeLine _ true => 1
  | _ => 0

variable {s t : TcpServer} {l : Label} {n : ℕ} {h h' : Handler}

/-- What a handler does leaves everything but its own place and the table alone. -/
structure Frame (s t : TcpServer) : Prop where
  connections : t.sessions.connections = s.sessions.connections
  listener : t.sessions.listener = s.sessions.listener
  loop : t.loop = s.loop
  stop : t.stop = s.stop
  running : t.running = s.running
  serverSocket : t.serverSocket = s.serverSocket

theorem Step.frame (hs : Step s l t) (hl : l.ofHandler = true) : Frame s t := by
  cases hs with
  | listen | accept | acceptFails | failed | push | spawn | clearRunning | closeServerSocket | join | shutdownClients | poll =>
    cases hl
  | enter | stays | reads | noLine | line | processes | answers | sends => exact ⟨rfl,rfl,rfl,rfl,rfl,rfl⟩
  | lookup _ hstep | handshake hstep | leaves _ _ hstep | readFails _ hstep | free hstep | close hstep | remove hstep =>
    cases hstep
    exact ⟨rfl,rfl,rfl,rfl,rfl,rfl⟩

theorem setServing_self (s : TcpServer) (n : ℕ) (at_ : Serving) : (s.setServing n at_).serving n = at_ :=
  Function.update_self ..

structure Advances (s t : TcpServer) (lines n : ℕ) (h h' : Handler) : Prop where
  handler : s.sessions.handlers n = some h
  handlers : t.sessions.handlers = Function.update s.sessions.handlers n (some h')
  serving : ∀ m ≠ n, t.serving m = s.serving m
  rank : handlerRank h' (t.serving n) + 1 ≤ handlerRank h (s.serving n) + 3 * lines

theorem Serves.advances {at_ : Serving} (hs : s.Serves n at_) (next : Serving) {lines : ℕ}
    (hrank : ∀ h : Handler, h.phase = .serving → handlerRank h next + 1 ≤ handlerRank h at_ + 3 * lines) :
    ∃ h h', Advances s (s.setServing n next) lines n h h' := by
  obtain ⟨⟨h,hn,hp⟩,rfl⟩ := hs
  refine ⟨h,h,hn,?_,fun m hm => Function.update_of_ne hm ..,?_⟩
  · rw [← hn]
    exact (Function.update_eq_self ..).symm
  · rw [setServing_self]
    exact hrank h hp

theorem advances_disconnect {sessions : Sessions} (hstep : Sessions.Step s.sessions (.disconnect n) sessions) :
    ∃ h h', Advances s { s with sessions } 0 n h h' := by
  cases hstep with
  | @disconnect n h hn hp =>
    refine ⟨h,_,hn,rfl,fun _ _ => rfl,?_⟩
    simp only [handlerRank, hp]
    cases s.serving n <;> simp

theorem Step.advances (hs : Step s l t) (hl : l.ofHandler = true) (hrun : s.running = false) :
    ∃ n h h', Advances s t l.lines n h h' := by
  cases hs with
  | listen | accept | acceptFails | failed | push | spawn | clearRunning | closeServerSocket | join | shutdownClients | poll =>
    cases hl
  | @enter n h _ hn hp =>
    refine ⟨n,h,_,hn,rfl,fun m hm => Function.update_of_ne hm ..,?_⟩
    rw [setServing_self]
    simp [handlerRank, hp, Label.lines]
  | lookup _ hstep =>
    cases hstep with
    | @lookup _ h hn hp =>
      refine ⟨_,h,_,hn,rfl,fun m hm => Function.update_of_ne hm ..,?_⟩
      rw [setServing_self]
      unfold Sessions.lookUp
      split <;> simp [handlerRank, hp, Label.lines]
  | @handshake _ ok _ hstep =>
    cases hstep with
    | @handshake _ h _ hn hp =>
      refine ⟨_,h,_,hn,rfl,fun m hm => Function.update_of_ne hm ..,?_⟩
      rw [setServing_self]
      cases ok <;> simp [handlerRank, hp, Label.lines]
  | stays _ hr =>
    rw [hrun] at hr
    cases hr
  | leaves _ _ hstep | readFails _ hstep => exact ⟨_,advances_disconnect hstep⟩
  | reads h => exact ⟨_,h.advances .scanning fun h hp => by simp [handlerRank, hp, Label.lines]⟩
  | noLine h => exact ⟨_,h.advances .checking fun h hp => by simp [handlerRank, hp, Label.lines]⟩
  | line h => exact ⟨_,h.advances .processing fun h hp => by simp [handlerRank, hp, Label.lines]⟩
  | @processes n answered h =>
    refine ⟨_,h.advances _ fun h hp => ?_⟩
    cases answered <;> simp [handlerRank, hp, Label.lines]
  | answers h =>
    rw [if_neg (by simp [hrun])]
    exact ⟨_,h.advances .scanning fun h hp => by simp [handlerRank, hp, Label.lines]⟩
  | sends h => exact ⟨_,h.advances .scanning fun h hp => by simp [handlerRank, hp, Label.lines]⟩
  | free hstep =>
    cases hstep with
    | @free _ h hn hp => exact ⟨_,h,_,hn,rfl,fun _ _ => rfl,by simp [handlerRank, hp, Label.lines]⟩
  | close hstep =>
    cases hstep with
    | @close _ h hn hp => exact ⟨_,h,_,hn,rfl,fun _ _ => rfl,by simp [handlerRank, hp, Label.lines]⟩
  | remove hstep =>
    cases hstep with
    | @remove _ h hn hp => exact ⟨_,h,_,hn,rfl,fun _ _ => rfl,by simp [handlerRank, hp, Label.lines]⟩

theorem Advances.connectionRank {lines : ℕ} (ha : Advances s t lines n h h') :
    TcpServer.connectionRank t.sessions.handlers t.serving n + 1 ≤ TcpServer.connectionRank s.sessions.handlers s.serving n + 3 * lines ∧
      ∀ m ≠ n, TcpServer.connectionRank t.sessions.handlers t.serving m = TcpServer.connectionRank s.sessions.handlers s.serving m := by
  unfold TcpServer.connectionRank
  constructor
  · rw [ha.handlers, Function.update_self, ha.handler]
    exact ha.rank
  · intro m hm
    rw [ha.handlers, Function.update_of_ne hm, ha.serving m hm]

/-- What holds from `m_running = false` on, and before. -/
structure Flagged (s : TcpServer) : Prop where
  inv : Inv s
  running : s.stop ≠ .idle → s.running = false
  body : s.loop = .body → s.sessions.listener ≠ .accepting
  serverSocket : s.stop = .idle ∨ s.stop = .flagged ∨ s.serverSocket = none

theorem start_flagged (useSsl : Bool) (serverSocket : ℕ) : Flagged (start useSsl serverSocket) where
  inv := start_inv useSsl serverSocket
  running h := absurd rfl h
  body h := nomatch h
  serverSocket := .inl rfl

theorem Flagged.closed (hf : Flagged s) (hidle : s.stop ≠ .idle) (hflagged : s.stop ≠ .flagged) : s.serverSocket = none :=
  (hf.serverSocket.resolve_left hidle).resolve_left hflagged

theorem Step.flagged (hs : Step s l t) (hf : Flagged s) : Flagged t := by
  have hinv := hs.inv hf.inv
  by_cases hl : l.ofHandler = true
  · have hframe := hs.frame hl
    refine ⟨hinv,?_,?_,?_⟩
    · rw [hframe.stop, hframe.running]
      exact hf.running
    · rw [hframe.loop, hframe.listener]
      exact hf.body
    · rw [hframe.stop, hframe.serverSocket]
      exact hf.serverSocket
  · cases hs with
    | enter | lookup | handshake | stays | leaves | reads | readFails | noLine | line | processes | answers | sends | free
    | close | remove => exact absurd rfl hl
    | listen | failed =>
      refine ⟨hinv,hf.running,?_,hf.serverSocket⟩
      intro h
      dsimp only at h
      split_ifs at h
    | acceptFails =>
      refine ⟨hinv,hf.running,?_,hf.serverSocket⟩
      intro h
      cases h
    | accept _ _ hstep | push _ hstep =>
      cases hstep
      refine ⟨hinv,hf.running,?_,hf.serverSocket⟩
      intro _ h
      cases h
    | spawn _ hstep =>
      cases hstep
      refine ⟨hinv,hf.running,?_,hf.serverSocket⟩
      intro h
      cases h
    | clearRunning => exact ⟨hinv,fun _ => rfl,hf.body,.inr (.inl rfl)⟩
    | closeServerSocket hst =>
      have hne : s.stop ≠ .idle := by rw [hst]; decide
      exact ⟨hinv,fun _ => hf.running hne,hf.body,.inr (.inr rfl)⟩
    | join hst _ | shutdownClients hst | poll hst =>
      have hne : s.stop ≠ .idle := by rw [hst]; decide
      have hclosed : s.serverSocket = none := hf.closed hne (by rw [hst]; decide)
      exact ⟨hinv,fun _ => hf.running hne,hf.body,.inr (.inr hclosed)⟩

theorem Step.stop_ne_idle (hs : Step s l t) (hidle : s.stop ≠ .idle) : t.stop ≠ .idle := by
  by_cases hl : l.ofHandler = true
  · rw [(hs.frame hl).stop]
    exact hidle
  · cases hs with
    | enter | lookup | handshake | stays | leaves | reads | readFails | noLine | line | processes | answers | sends | free
    | close | remove => exact absurd rfl hl
    | listen | failed | acceptFails | accept | push | spawn => exact hidle
    | clearRunning | closeServerSocket | join | shutdownClients => exact Stop.noConfusion
    | poll =>
      dsimp only
      split_ifs <;> decide

/-- The server with the number of lines that the clients have sent and no handler has taken. While the table is not
empty, `stop` sleeps between two looks at it. -/
def Works (p : TcpServer × ℕ) (l : Label) (q : TcpServer × ℕ) : Prop :=
  Step p.1 l q.1 ∧ p.2 = q.2 + l.lines ∧ (l = .poll → q.1.stop = .returned)

/-- A call that may block: `accept` until the server socket is closed, and what a handler does with its descriptor
until `stop` has gone through the table. -/
def MayBlock (s : TcpServer) : Label → Prop
  | .accept _ | .acceptFails => s.serverSocket ≠ none
  | .handshake _ _ | .read _ _ | .send _ => s.stop ≠ .polling
  | _ => False

def Prompt (p : TcpServer × ℕ) (l : Label) (q : TcpServer × ℕ) : Prop := Works p l q ∧ ¬MayBlock p.1 l

theorem Works.rank_lt {p q : TcpServer × ℕ} (hw : Works p l q) (hf : Flagged p.1) (hidle : p.1.stop ≠ .idle) :
    rank q < rank p := by
  obtain ⟨s,lines⟩ := p
  obtain ⟨t,left⟩ := q
  obtain ⟨hs,hlines,hpoll⟩ := hw
  dsimp only at hs hlines hpoll hf hidle
  subst hlines
  have hrun := hf.running hidle
  unfold rank
  dsimp only
  by_cases hl : l.ofHandler = true
  · obtain ⟨n,h,h',ha⟩ := hs.advances hl hrun
    have hframe := hs.frame hl
    have hsum := sum_advance (hf.inv.kept.handler_lt n h ha.handler) ha.connectionRank.2 ha.connectionRank.1
    rw [hframe.connections, hframe.stop, hframe.loop, hframe.listener]
    omega
  · cases hs with
    | enter | lookup | handshake | stays | leaves | reads | readFails | noLine | line | processes | answers | sends | free
    | close | remove => exact absurd rfl hl
    | listen hloop | failed hloop =>
      rw [if_neg (by simp [hrun]), hloop]
      simp only [listenerRank, Label.lines]
      omega
    | acceptFails hloop =>
      rw [hloop]
      simp only [listenerRank, Label.lines]
      omega
    | accept hloop _ hstep =>
      -- the new connection has no handler yet
      cases hstep with
      | accept hlistener =>
        have hnone : s.sessions.handlers s.sessions.connections = none := by
          by_contra hsome
          obtain ⟨h,hn⟩ := Option.ne_none_iff_exists'.mp hsome
          exact absurd (hf.inv.kept.handler_lt _ h hn) (Nat.lt_irrefl _)
        rw [Finset.sum_range_succ, hloop]
        simp only [connectionRank, hnone, listenerRank, Label.lines]
        omega
    | push hloop hstep =>
      cases hstep with
      | push hlistener =>
        rw [hloop, hlistener]
        simp only [connectionRank, listenerRank, Label.lines]
        omega
    | spawn hloop hstep =>
      cases hstep with
      | @spawn n socketFd hlistener =>
        obtain ⟨hn,hnone⟩ := hf.inv.kept.fresh n socketFd (.inr hlistener)
        have hsum := @sum_advance (connectionRank s.sessions.handlers s.serving)
          (connectionRank (s.sessions.setHandler n { socketFd }).handlers s.serving) _ n 0 6 hn ?_ ?_
        · change ∑ m ∈ Finset.range s.sessions.connections, _ + _ + _ + _ < _
          rw [hloop, hlistener]
          simp only [listenerRank, Label.lines]
          omega
        · intro m hm
          simp only [connectionRank, Sessions.setHandler, Function.update_of_ne hm]
        · simp only [connectionRank, Sessions.setHandler, Function.update_self, hnone, handlerRank]
          omega
    | clearRunning hst => exact absurd hst hidle
    | closeServerSocket hst | join hst _ | shutdownClients hst =>
      rw [hst]
      simp only [stopRank, Label.lines]
      omega
    | poll hst =>
      rw [hpoll rfl, hst]
      simp only [stopRank, Label.lines]
      omega

theorem exists_handler_step (hrun : s.running = false) (hn : s.sessions.handlers n = some h) (hne : h.phase ≠ .ended) :
    ∃ l t, Step s l t ∧ l.ofHandler = true ∧ l.lines = 0 := by
  cases hp : h.phase with
  | spawned =>
    cases hssl : s.useSsl with
    | false => exact ⟨_,_,.enter hssl hn hp,rfl,rfl⟩
    | true => exact ⟨_,_,.lookup hssl (.lookup hn hp),rfl,rfl⟩
  | handshaking => exact ⟨.handshake n false,_,.handshake (.handshake hn hp),rfl,rfl⟩
  | serving =>
    have hserves {at_ : Serving} (ha : s.serving n = at_) : s.Serves n at_ := ⟨⟨h,hn,hp⟩,ha⟩
    cases ha : s.serving n with
    | checking => exact ⟨_,_,.leaves (hserves ha) hrun (.disconnect hn hp),rfl,rfl⟩
    | reading => exact ⟨_,_,.readFails (hserves ha) (.disconnect hn hp),rfl,rfl⟩
    | scanning => exact ⟨_,_,.noLine (hserves ha),rfl,rfl⟩
    | processing => exact ⟨.processRequest n false,_,.processes (hserves ha),rfl,rfl⟩
    | answering => exact ⟨_,_,.answers (hserves ha),rfl,rfl⟩
    | sending => exact ⟨_,_,.sends (hserves ha),rfl,rfl⟩
  | freeing => exact ⟨_,_,.free (.free hn hp),rfl,rfl⟩
  | closing => exact ⟨_,_,.close (.close hn hp),rfl,rfl⟩
  | removing => exact ⟨_,_,.remove (.remove hn hp),rfl,rfl⟩
  | ended => exact absurd hp hne

theorem exists_listener_step (hf : Flagged s) (hclosed : s.serverSocket = none) (hne : s.loop ≠ .ended) :
    ∃ l t, Step s l t ∧ ¬MayBlock s l ∧ l.lines = 0 ∧ l ≠ .poll := by
  cases hloop : s.loop with
  | checking => exact ⟨.listen,_,.listen hloop,id,rfl,by decide⟩
  | accepting => exact ⟨.acceptFails,_,.acceptFails hloop,fun h => h hclosed,rfl,by decide⟩
  | failed => exact ⟨.listen,_,.failed hloop,id,rfl,by decide⟩
  | body =>
    cases hlistener : s.sessions.listener with
    | accepting => exact absurd hlistener (hf.body hloop)
    | accepted => exact ⟨.push,_,.push hloop (.push hlistener),id,rfl,by decide⟩
    | tracked => exact ⟨.spawn,_,.spawn hloop (.spawn hlistener),id,rfl,by decide⟩
  | ended => exact absurd hloop hne

theorem Flagged.exists_handler (hf : Flagged s) (hend : s.loop = .ended) (hne : s.sessions.clientSessions ≠ []) :
    ∃ n h, s.sessions.handlers n = some h ∧ h.phase ≠ .ended := by
  obtain ⟨session,rest,hsessions⟩ := List.exists_cons_of_ne_nil hne
  have hmem : session.socketFd ∈ s.sessions.clientSessions.map ClientSession.socketFd := by
    rw [hsessions]
    exact List.mem_cons_self
  obtain ⟨n,_,hentry⟩ := hf.inv.kept.table.exists_holder hmem
  have hfree := Sessions.not_accepting (hf.inv.loop (by rw [hend]; decide))
  cases hn : s.sessions.handlers n with
  | none =>
    unfold Sessions.entry at hentry
    rw [hn] at hentry
    cases hl : s.sessions.listener with
    | tracked m fd => exact absurd (.inr hl) (hfree m fd)
    | accepting | accepted =>
      rw [hl] at hentry
      cases hentry
  | some h =>
    refine ⟨n,h,hn,?_⟩
    intro hp
    rw [Sessions.entry_of_handler hn, if_pos hp] at hentry
    cases hentry

theorem exists_prompt (hf : Flagged s) (hidle : s.stop ≠ .idle) (hreturned : s.stop ≠ .returned) (lines : ℕ) :
    ∃ l q, Prompt (s,lines) l q := by
  have hrun := hf.running hidle
  cases hstop : s.stop with
  | idle => exact absurd hstop hidle
  | returned => exact absurd hstop hreturned
  | flagged => exact ⟨.closeServerSocket,(_,lines),⟨.closeServerSocket hstop,rfl,by simp⟩,id⟩
  | closed =>
    by_cases hend : s.loop = .ended
    · exact ⟨.join,(_,lines),⟨.join hstop hend,rfl,by simp⟩,id⟩
    · have hclosed := hf.closed hidle (by rw [hstop]; decide)
      obtain ⟨l,t,hs,hb,hlines,hl⟩ := exists_listener_step hf hclosed hend
      exact ⟨l,(t,lines),⟨hs,by rw [hlines]; rfl,fun h => absurd h hl⟩,hb⟩
  | joined => exact ⟨.shutdownClients,(_,lines),⟨.shutdownClients hstop,rfl,by simp⟩,id⟩
  | polling =>
    by_cases hempty : s.sessions.clientSessions = []
    · refine ⟨.poll,(_,lines),⟨.poll hstop,rfl,fun _ => ?_⟩,id⟩
      exact if_pos (by rw [hempty]; rfl)
    · obtain ⟨n,h,hn,hne⟩ := hf.exists_handler (hf.inv.joined (.inr (.inl hstop))) hempty
      obtain ⟨l,t,hs,hl,hlines⟩ := exists_handler_step hrun hn hne
      refine ⟨l,(t,lines),⟨hs,by rw [hlines]; rfl,?_⟩,?_⟩
      · rintro rfl
        cases hl
      · -- every descriptor was shut down
        intro hb
        cases l with
        | handshake | read | send => exact hb hstop
        | accept | acceptFails => cases hl
        | listen | push | spawn | enter | check | takeLine | processRequest | free | close | remove | clearRunning
        | closeServerSocket | join | shutdownClients | poll => exact hb

/-- Once `stop` was called it returns, however its steps, those of the listener and those of the handlers follow each
other and however many lines the clients have sent. Only `accept` with the server socket closed and calls on a
descriptor that was shut down have to return for it: when `stop` shuts the descriptors of the table down, those of all
handlers are in it. -/
theorem stop_returns (useSsl : Bool) (serverSocket : ℕ) (es : List Label) (s : TcpServer)
    (hr : Run Step (start useSsl serverSocket) es s) (hstop : s.stop ≠ .idle) (lines : ℕ) :
    Inevitable Works Prompt (fun p => p.1.stop = .returned) (s,lines) ∧
    (s.stop = .joined → ∀ n h, s.sessions.handlers n = some h → h.phase ≠ .ended →
      h.socketFd ∈ s.sessions.clientSessions.map ClientSession.socketFd) := by
  have hf : Flagged s := hr.invariant (fun _ _ _ hf h => h.flagged hf) (start_flagged useSsl serverSocket)
  constructor
  · refine Inevitable.of_rank (I := fun p : TcpServer × ℕ => Flagged p.1 ∧ p.1.stop ≠ .idle) rank ?_ ?_ ⟨hf,hstop⟩
    · rintro p l q ⟨hf,hidle⟩ _ hw
      refine ⟨⟨hw.1.flagged hf,?_⟩,hw.rank_lt hf hidle⟩
      exact hw.1.stop_ne_idle hidle
    · rintro ⟨s,lines⟩ ⟨hf,hidle⟩ hreturned
      exact exists_prompt hf hidle hreturned lines
  · intro _ n h hn hne
    have hentry := Sessions.entry_of_handler hn
    rw [if_neg hne] at hentry
    exact hf.inv.kept.table.mem (Finset.mem_range.mpr (hf.inv.kept.handler_lt n h hn)) hentry

/-- A client that waits for an answer when `stop` is called, with two more lines sent. -/
theorem stop_returns_client : ∃ s, Run Step (start false 3) [.listen,.accept 7,.push,.spawn,.enter 0,.check 0,.clearRunning] s ∧
    Inevitable Works Prompt (fun p => p.1.stop = .returned) (s,2) := by
  have hserves {s : TcpServer} {at_ : Serving} {h : Handler} (hh : s.sessions.handlers 0 = some h)
      (hp : h.phase = .serving) (ha : s.serving 0 = at_) : s.Serves 0 at_ := ⟨⟨h,hh,hp⟩,ha⟩
  have hr : ∃ s, Run Step (start false 3) [.listen,.accept 7,.push,.spawn,.enter 0,.check 0,.clearRunning] s ∧ s.stop ≠ .idle :=
    ⟨_,.step (.listen rfl) (.step (.accept rfl (by decide) (.accept rfl (by decide))) (.step (.push rfl (.push rfl))
      (.step (.spawn rfl (.spawn rfl)) (.step (.enter rfl rfl rfl) (.step (.stays (hserves rfl rfl rfl) rfl)
      (.single (.clearRunning rfl rfl))))))),by decide⟩
  obtain ⟨s,hr,hstop⟩ := hr
  exact ⟨s,hr,(stop_returns false 3 _ s hr hstop 2).1⟩

end TcpServer
end MiniHil
