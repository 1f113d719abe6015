import MiniHil.Desk.Connection

/-! # The lifecycle of the read threads

The order shutdown, join, disconnect keeps the client to one thread at a time, and everything the read
thread takes out of the buffer came on the connection that is open.
-/
namespace MiniHil
open Runs

/-- The former read thread was joined and the next one is not started yet. -/
def Ui.alone : Ui → Bool
  | .disconnecting _ _ | .announcing _ _ | .resetting _ | .connecting _ | .starting | .spawning | .failed => true
  | _ => false

/-- `TcpClient::connect` has succeeded and the read thread is not started yet. -/
def Ui.opened : Ui → Bool
  | .starting | .spawning => true
  | _ => false

/-- `TcpClient::connect` is past its own `disconnect`. -/
def Ui.closed : Ui → Bool
  | .connecting _ => true
  | _ => false

namespace DeskController

def current (s : DeskController) : Option ℕ := s.client.socketFd.bind s.sockets

def Holds (s : DeskController) : ReadLoop → Prop
  | .receiving fd => s.client.socketFd = some fd
  | .received line => ∀ b ∈ line, s.current = some b.connection
  | _ => True

/-- A read thread exists from its start until it is joined. -/
structure Orderly (s : DeskController) (l : Label) (t : DeskController) : Prop where
  one_reader : ∀ m n, t.readLoops m ≠ none → t.readLoops n ≠ none → m = n
  joined_before : l = .spawn → ∀ n, s.readLoops n = none
  disconnects_alone : l = .disconnect → ∀ n, s.readLoops n = none
  of_current : ∀ n line, l = .processResponse n line → ∃ c, s.current = some c ∧ ∀ b ∈ line, b.connection = c

structure Inv (s : DeskController) : Prop where
  reader : ∀ n p, s.readLoops n = some p → s.readThread = some n ∧ (∃ c, s.current = some c) ∧ s.Holds p
  alone : s.ui.alone = true → s.readThread = none
  opened : s.ui.opened = true → ∃ c, s.current = some c
  closed : s.ui.closed = true → s.client.socketFd = none
  buffer : ∀ b ∈ s.client.readBuffer, s.current = some b.connection
  ssl : ∀ c, s.client.ssl = some c → s.current = some c

theorem Inv.initial : Inv {} where
  reader _ _ h := nomatch h
  alone _ := rfl
  opened h := nomatch h
  closed h := nomatch h
  buffer _ h := nomatch h
  ssl _ h := nomatch h

variable {s t : DeskController} {n : ℕ} {p : ReadLoop}

theorem Inv.no_reader (hi : Inv s) (h : s.readThread = none) (n : ℕ) : s.readLoops n = none := by
  cases hn : s.readLoops n with
  | none => rfl
  | some p =>
    have hthread := (hi.reader n p hn).1
    rw [h] at hthread
    cases hthread

theorem Inv.one_reader (hi : Inv s) {m : ℕ} (hm : s.readLoops m ≠ none) (hn : s.readLoops n ≠ none) : m = n := by
  obtain ⟨p,hp⟩ := Option.ne_none_iff_exists'.mp hm
  obtain ⟨q,hq⟩ := Option.ne_none_iff_exists'.mp hn
  exact Option.some.inj ((hi.reader m p hp).1.symm.trans (hi.reader n q hq).1)

theorem Inv.source (hi : Inv s) {fd c : ℕ} (hn : s.readLoops n = some (.receiving fd)) (hc : s.source fd = some c) :
    s.current = some c := by
  have hfd : s.client.socketFd = some fd := (hi.reader n _ hn).2.2
  unfold DeskController.source at hc
  split_ifs at hc
  · exact hi.ssl c hc
  · rw [current, hfd]
    exact hc

theorem takeLine_subset {buffer line rest : List ReceivedByte} (h : TcpClient.takeLine buffer = some (line,rest)) :
    line ⊆ buffer ∧ rest ⊆ buffer := by
  unfold TcpClient.takeLine at h
  split_ifs at h
  obtain ⟨rfl,rfl⟩ := Prod.mk.inj (Option.some.inj h)
  exact ⟨(List.takeWhile_sublist _).subset,((List.tail_sublist _).trans (List.dropWhile_sublist _)).subset⟩

theorem setLoop_cases {m : ℕ} {p' q : ReadLoop} (h : (s.setLoop n p').readLoops m = some q) :
    m = n ∧ q = p' ∨ m ≠ n ∧ s.readLoops m = some q := by
  change Function.update s.readLoops n (some p') m = some q at h
  by_cases hm : m = n
  · rw [hm, Function.update_self, Option.some.injEq] at h
    exact .inl ⟨hm,h.symm⟩
  · rw [Function.update_of_ne hm] at h
    exact .inr ⟨hm,h⟩

theorem Inv.setLoop (hi : Inv s) (hn : s.readLoops n = some p) {p' : ReadLoop} (hp : s.Holds p')
    {readBuffer : List ReceivedByte} (hbuffer : ∀ b ∈ readBuffer, s.current = some b.connection)
    (running connectionState : Bool) :
    Inv { s.setLoop n p' with client := { s.client with readBuffer }, running, connectionState } where
  reader m q hm := by
    rcases setLoop_cases hm with ⟨rfl,rfl⟩ | ⟨_,hm⟩
    · obtain ⟨hthread,hc,_⟩ := hi.reader m p hn
      refine ⟨hthread,hc,?_⟩
      cases q <;> exact hp
    · obtain ⟨hthread,hc,hq⟩ := hi.reader m q hm
      refine ⟨hthread,hc,?_⟩
      cases q <;> exact hq
  alone := hi.alone
  opened := hi.opened
  closed := hi.closed
  buffer := hbuffer
  ssl := hi.ssl

theorem Inv.move (hi : Inv s) {ui : Ui} (halone : ui.alone = true → s.readThread = none)
    (hopened : ui.opened = true → ∃ c, s.current = some c)
    (hclosed : ui.closed = true → s.client.socketFd = none) (running connectionState : Bool) :
    Inv { s with ui, running, connectionState } where
  reader n p hn := by
    obtain ⟨hthread,hc,hp⟩ := hi.reader n p hn
    refine ⟨hthread,hc,?_⟩
    cases p <;> exact hp
  alone := halone
  opened := hopened
  closed := hclosed
  buffer := hi.buffer
  ssl := hi.ssl

theorem Inv.disconnect (hi : Inv s) (h : s.readThread = none) {ui : Ui} (hui : ui.opened = false) :
    Inv { s.disconnect with ui } where
  reader n p hn := by
    have hnone := hi.no_reader h n
    cases hnone.symm.trans hn
  alone _ := h
  opened ho := absurd (hui.symm.trans ho) Bool.false_ne_true
  closed _ := rfl
  buffer _ hb := nomatch hb
  ssl _ hc := nomatch hc

theorem Inv.empty (hi : Inv s) (hclosed : s.client.socketFd = none) : s.client.readBuffer = [] ∧ s.client.ssl = none := by
  have hnone : s.current = none := by rw [current, hclosed]; rfl
  constructor
  · rw [List.eq_nil_iff_forall_not_mem]
    intro b hb
    cases hnone.symm.trans (hi.buffer b hb)
  · cases hssl : s.client.ssl with
    | none => rfl
    | some c => cases hnone.symm.trans (hi.ssl c hssl)

theorem Inv.connect (hi : Inv s) (h : s.readThread = none) (hclosed : s.client.socketFd = none) (useSsl : Bool) (fd : ℕ) :
    Inv { s.opened useSsl fd with ui := .starting } := by
  obtain ⟨hbuffer,hssl⟩ := hi.empty hclosed
  have hcurrent : current { s.opened useSsl fd with ui := .starting } = some s.connections := Function.update_self ..
  refine ⟨?_,fun _ => h,fun _ => ⟨_,hcurrent⟩,nofun,?_,?_⟩
  · intro n p hn
    have hno := hi.no_reader h n
    cases hno.symm.trans hn
  · intro b hb
    change b ∈ s.client.readBuffer at hb
    rw [hbuffer] at hb
    cases hb
  · intro c hc
    change (if useSsl then some s.connections else s.client.ssl) = some c at hc
    rw [hssl] at hc
    split_ifs at hc
    rw [hcurrent, hc]

theorem Inv.connectFails (hi : Inv s) (h : s.readThread = none) (hclosed : s.client.socketFd = none)
    (useSsl handshake : Bool) : Inv { s with
      client := { s.client with socketFd := none, useSsl, ssl := if useSsl && handshake then none else s.client.ssl }
      ui := .failed } := by
  obtain ⟨hbuffer,hssl⟩ := hi.empty hclosed
  refine ⟨?_,fun _ => h,nofun,nofun,?_,?_⟩
  · intro n p hn
    have hno := hi.no_reader h n
    cases hno.symm.trans hn
  · intro b hb
    change b ∈ s.client.readBuffer at hb
    rw [hbuffer] at hb
    cases hb
  · intro c hc
    change (if useSsl && handshake then none else s.client.ssl) = some c at hc
    rw [hssl] at hc
    split_ifs at hc

theorem Inv.spawn (hi : Inv s) (h : s.readThread = none) (hopened : ∃ c, s.current = some c) :
    Inv { s.setLoop s.started .checking with
      readThread := some s.started, started := s.started + 1, ui := .connected } := by
  refine ⟨?_,nofun,nofun,nofun,hi.buffer,hi.ssl⟩
  intro m q hm
  rcases setLoop_cases hm with ⟨rfl,rfl⟩ | ⟨_,hm⟩
  · exact ⟨rfl,hopened,trivial⟩
  · have hno := hi.no_reader h m
    cases hno.symm.trans hm

theorem Inv.join (hi : Inv s) (hthread : s.readThread = some n) {ui : Ui} (hopened : ui.opened = false)
    (hclosed : ui.closed = false) :
    Inv { s with readThread := none, readLoops := Function.update s.readLoops n none, ui } := by
  refine ⟨?_,fun _ => rfl,?_,?_,hi.buffer,hi.ssl⟩
  · intro m q hm
    exfalso
    change Function.update s.readLoops n none m = some q at hm
    by_cases hmn : m = n
    · rw [hmn, Function.update_self] at hm
      cases hm
    · rw [Function.update_of_ne hmn] at hm
      have hother := (hi.reader m q hm).1
      rw [hthread] at hother
      exact hmn (Option.some.inj hother).symm
  · intro h
    cases hopened.symm.trans h
  · intro h
    cases hclosed.symm.trans h

theorem Step.inv {l : Label} (hi : Inv s) (hs : Step s l t) : Inv t := by
  cases hs with
  | request | exchange | shutdownSocket | announceConnected | announceFailed | queryAllRelays =>
    refine hi.move ?_ ?_ ?_ _ _ <;> exact nofun
  | join _ hthread _ => exact hi.join hthread rfl rfl
  | notJoinable hu hthread =>
    refine hi.move (fun _ => hthread) ?_ ?_ _ _ <;> exact nofun
  | disconnect hu | reset hu => exact hi.disconnect (hi.alone (by rw [hu]; rfl)) rfl
  | @announceDisconnected _ call hu =>
    have hnone := hi.alone (by rw [hu]; rfl)
    refine hi.move (fun _ => hnone) ?_ ?_ _ _
    · cases call <;> exact nofun
    · cases call <;> exact nofun
  | @connect useSsl fd hu _ => exact hi.connect (hi.alone (by rw [hu]; rfl)) (hi.closed (by rw [hu]; rfl)) useSsl fd
  | connectFails hu => exact hi.connectFails (hi.alone (by rw [hu]; rfl)) (hi.closed (by rw [hu]; rfl)) _ _
  | setRunning hu =>
    refine hi.move (fun _ => hi.alone (by rw [hu]; rfl)) (fun _ => hi.opened (by rw [hu]; rfl)) ?_ _ _
    exact nofun
  | spawn hu => exact hi.spawn (hi.alone (by rw [hu]; rfl)) (hi.opened (by rw [hu]; rfl))
  | checkRunning hn => exact hi.setLoop hn (by split_ifs <;> trivial) hi.buffer _ _
  | isOpen hn => exact hi.setLoop hn (by split_ifs <;> trivial) hi.buffer _ _
  | takeLine hn hline =>
    obtain ⟨hl,hr⟩ := takeLine_subset hline
    refine hi.setLoop hn ?_ (fun b hb => hi.buffer b (hr hb)) _ _
    exact fun b hb => hi.buffer b (hl hb)
  | noLine hn _ =>
    refine hi.setLoop hn ?_ hi.buffer _ _
    exact trivial
  | load hn =>
    refine hi.setLoop hn ?_ hi.buffer _ _
    split
    · assumption
    · exact nofun
  | receive hn hc =>
    refine hi.setLoop hn ?_ ?_ _ _
    · exact trivial
    · intro b hb
      rcases List.mem_append.mp hb with hb | hb
      · exact hi.buffer b hb
      · obtain ⟨_,_,rfl⟩ := List.mem_map.mp hb
        exact hi.source hn hc
  | receiveFails hn =>
    refine hi.setLoop hn ?_ hi.buffer _ _
    exact nofun
  | checkLoss hn => exact hi.setLoop hn (by split_ifs <;> trivial) hi.buffer _ _
  | clearRunning hn | announceLost hn | processResponse hn =>
    refine hi.setLoop hn ?_ hi.buffer _ _
    exact trivial

theorem Inv.orderly {l : Label} (hi : Inv s) (hs : Step s l t) : Orderly s l t where
  one_reader _ _ := (hs.inv hi).one_reader
  joined_before hl := by
    subst hl
    cases hs with
    | spawn hu => exact hi.no_reader (hi.alone (by rw [hu]; rfl))
  disconnects_alone hl := by
    subst hl
    cases hs with
    | disconnect hu | reset hu => exact hi.no_reader (hi.alone (by rw [hu]; rfl))
  of_current n line hl := by
    subst hl
    cases hs with
    | processResponse hn hne =>
      obtain ⟨_,⟨c,hc⟩,hline⟩ := hi.reader n _ hn
      refine ⟨c,hc,fun b hb => ?_⟩
      exact Option.some.inj ((hline b hb).symm.trans hc)

/-- Whatever the user interface asks for, however connecting ends and whenever the server closes: every step
of every run keeps to one read thread, to the order join before the next start and before every disconnect, and
to lines of the connection that is open. -/
theorem reads_orderly (es : List Label) : Always Step Orderly {} es := by
  intro pre e post s t _ hr hs
  have hi : Inv s := hr.invariant (fun _ _ _ hi hs => Step.inv hi hs) .initial
  exact hi.orderly hs

end DeskController
end MiniHil
