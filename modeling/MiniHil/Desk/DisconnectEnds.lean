import MiniHil.Desk.ReadThread

/-! # Disconnecting comes to its end

The window calls `requestDisconnect` on its own thread, also when it is closed, and there the call waits for the read
thread. Once `m_running` is false the read thread has only so much left to do, and what it may wait for is the socket
that was shut down.
-/
namespace MiniHil
open Runs

/-- `requestDisconnect` for a call, from `m_running = false` on. -/
def Ui.Leaves (call : Call) : Ui → Prop
  | .shuttingDown _ c | .joining _ c | .disconnecting _ c | .announcing _ c => c = call
  | _ => False

namespace DeskController

/-- The steps of a read thread that finds `m_running` false and reads nothing more. -/
def loopRank : ReadLoop → ℕ
  | .opening => 6
  | .scanning => 5
  | .loading => 4
  | .receiving _ => 3
  | .received _ | .losing => 2
  | .checking | .announcing => 1
  | .ended => 0

def threadRank (s : DeskController) : ℕ := ((s.readThread.bind s.readLoops).map loopRank).getD 0

def uiRank : Ui → ℕ
  | .shuttingDown _ _ => 4
  | .joining _ _ => 3
  | .disconnecting _ _ => 2
  | .announcing _ _ => 1
  | _ => 0

def rank (p : DeskController × ℕ) : ℕ := uiRank p.1.ui + threadRank p.1 + 3 * p.2

/-- The bytes that a step takes from the socket. -/
def Label.bytes : Label → ℕ
  | .receive _ bytes => bytes.length
  | _ => 0

variable {s t : DeskController} {l : Label} {n : ℕ} {p p' : ReadLoop} {call : Call}

theorem threadRank_of_reader (hthread : s.readThread = some n) (hn : s.readLoops n = some p) : threadRank s = loopRank p := by
  rw [threadRank, hthread, Option.bind_some, hn]
  rfl

theorem threadRank_of_none (hthread : s.readThread = none) : threadRank s = 0 := by
  rw [threadRank, hthread]
  rfl

structure Cleared (s : DeskController) : Prop where
  inv : Inv s
  running : ∀ call, s.ui.Leaves call → s.running = false
  joinable : ∀ n, s.readThread = some n → s.readLoops n ≠ none
  closed : ∀ wasRunning call, s.ui = .announcing wasRunning call → s.client.socketFd = none

theorem Cleared.initial : Cleared {} where
  inv := .initial
  running _ h := h.elim
  joinable _ h := nomatch h
  closed _ _ h := nomatch h

theorem Cleared.setLoop (hc : Cleared s) {t : DeskController} (hinv : Inv t) (hloops : t.readLoops = (s.setLoop n p').readLoops)
    (hthread : t.readThread = s.readThread) (hui : t.ui = s.ui) (hfd : t.client.socketFd = s.client.socketFd)
    (hrun : s.running = false → t.running = false) : Cleared t where
  inv := hinv
  running call hl := by
    rw [hui] at hl
    exact hrun (hc.running call hl)
  joinable m hm := by
    rw [hthread] at hm
    rw [hloops]
    change Function.update s.readLoops n (some p') m ≠ none
    by_cases h : m = n
    · rw [h, Function.update_self]
      exact Option.some_ne_none _
    · rw [Function.update_of_ne h]
      exact hc.joinable m hm
  closed wasRunning call h := by
    rw [hui] at h
    rw [hfd]
    exact hc.closed wasRunning call h

/-- The call goes on with what follows on `requestDisconnect`: nobody reads, and the client is closed. -/
structure Left (call : Call) (s : DeskController) : Prop where
  ui : s.ui = call.next
  no_reader : ∀ n, s.readLoops n = none
  closed : s.client.socketFd = none

theorem threadRank_setLoop (hi : Inv s) (hn : s.readLoops n = some p) (hloops : t.readLoops = (s.setLoop n p').readLoops)
    (hthread : t.readThread = s.readThread) : threadRank s = loopRank p ∧ threadRank t = loopRank p' := by
  have hreader := (hi.reader n p hn).1
  refine ⟨threadRank_of_reader hreader hn,threadRank_of_reader (hthread.trans hreader) ?_⟩
  rw [hloops]
  exact Function.update_self ..

theorem advances_setLoop (hi : Inv s) (hu : s.ui.Leaves call) (hn : s.readLoops n = some p) {bytes : ℕ}
    (hloops : t.readLoops = (s.setLoop n p').readLoops) (hthread : t.readThread = s.readThread) (hui : t.ui = s.ui)
    (hrank : loopRank p' + 1 ≤ loopRank p + 3 * bytes) :
    (t.ui.Leaves call ∨ Left call t) ∧ uiRank t.ui + threadRank t + 1 ≤ uiRank s.ui + threadRank s + 3 * bytes := by
  obtain ⟨hs,ht⟩ := threadRank_setLoop hi hn hloops hthread
  rw [hs, ht, hui]
  exact ⟨.inl hu,by omega⟩

/-- Every step that can be taken then is one towards the end, but for the bytes that were still received. -/
theorem Step.leaves (hs : Step s l t) (hc : Cleared s) (hu : s.ui.Leaves call) :
    (t.ui.Leaves call ∨ Left call t) ∧ uiRank t.ui + threadRank t + 1 ≤ uiRank s.ui + threadRank s + 3 * l.bytes := by
  have hrun := hc.running call hu
  have hi := hc.inv
  cases hs with
  | request h | exchange h | reset h | connect h | connectFails h | setRunning h | spawn h | announceConnected h
  | announceFailed h | queryAllRelays h =>
    rw [h] at hu
    exact hu.elim
  | shutdownSocket h =>
    rw [h] at hu ⊢
    refine ⟨.inl hu,?_⟩
    change 3 + threadRank s + 1 ≤ 4 + threadRank s + 0
    omega
  | join h hthread =>
    rw [h] at hu ⊢
    refine ⟨.inl hu,?_⟩
    rw [threadRank_of_none (s := { s with readThread := none, readLoops := _, ui := _ }) rfl]
    change 2 + 0 + 1 ≤ 3 + threadRank s + 0
    omega
  | notJoinable h =>
    rw [h] at hu ⊢
    refine ⟨.inl hu,?_⟩
    change 2 + threadRank s + 1 ≤ 3 + threadRank s + 0
    omega
  | disconnect h =>
    rw [h] at hu ⊢
    refine ⟨.inl hu,?_⟩
    change 1 + threadRank s + 1 ≤ 2 + threadRank s + 0
    omega
  | @announceDisconnected wasRunning c h =>
    have hnone := hi.no_reader (hi.alone (by rw [h]; rfl))
    have hclosed := hc.closed _ _ h
    rw [h] at hu ⊢
    obtain rfl : c = call := hu
    refine ⟨.inr ⟨rfl,hnone,hclosed⟩,?_⟩
    have hnext : uiRank c.next = 0 := by cases c <;> rfl
    change uiRank c.next + threadRank s + 1 ≤ 1 + threadRank s + 0
    omega
  | checkRunning hn =>
    rw [hrun]
    exact advances_setLoop hi hu hn rfl rfl rfl (Nat.le_of_ble_eq_true rfl)
  | isOpen hn =>
    refine advances_setLoop hi hu hn rfl rfl rfl ?_
    split_ifs <;> simp [loopRank, Label.bytes]
  | takeLine hn | noLine hn | receiveFails hn | clearRunning hn | announceLost hn | processResponse hn =>
    exact advances_setLoop hi hu hn rfl rfl rfl (Nat.le_of_ble_eq_true rfl)
  | load hn =>
    refine advances_setLoop hi hu hn rfl rfl rfl ?_
    split <;> simp [loopRank, Label.bytes]
  | @receive _ _ _ bytes hn _ hne =>
    refine advances_setLoop hi hu hn rfl rfl rfl ?_
    have hpos := List.length_pos_of_ne_nil hne
    simp only [loopRank, Label.bytes]
    omega
  | checkLoss hn =>
    rw [hrun]
    exact advances_setLoop hi hu hn rfl rfl rfl (Nat.le_of_ble_eq_true rfl)

/-- The controller with the number of bytes that the server has sent and the read thread has not received. -/
def Works (p : DeskController × ℕ) (l : Label) (q : DeskController × ℕ) : Prop := Step p.1 l q.1 ∧ p.2 = q.2 + l.bytes

/-- A call that may block: `SSL_read` and `recv` until the socket was shut down. -/
def MayBlock (s : DeskController) : Label → Prop
  | .receive _ _ => ∀ wasRunning call, s.ui ≠ .joining wasRunning call
  | _ => False

def Prompt (p : DeskController × ℕ) (l : Label) (q : DeskController × ℕ) : Prop := Works p l q ∧ ¬MayBlock p.1 l

/-- A read thread that is not at its end can go on without a further byte. -/
theorem exists_thread_step (hn : s.readLoops n = some p) (hne : p ≠ .ended) : ∃ l t, Step s l t ∧ l.bytes = 0 := by
  cases p with
  | checking => exact ⟨_,_,.checkRunning hn,rfl⟩
  | opening => exact ⟨_,_,.isOpen hn,rfl⟩
  | scanning =>
    cases hline : TcpClient.takeLine s.client.readBuffer with
    | none => exact ⟨_,_,.noLine hn hline,rfl⟩
    | some line => exact ⟨_,_,.takeLine hn hline,rfl⟩
  | loading => exact ⟨_,_,.load hn,rfl⟩
  | receiving fd => exact ⟨_,_,.receiveFails hn,rfl⟩
  | received line =>
    cases line with
    | nil => exact ⟨_,_,.checkLoss hn,rfl⟩
    | cons b line => exact ⟨_,_,.processResponse hn (List.cons_ne_nil _ _),rfl⟩
  | losing => exact ⟨_,_,.clearRunning hn,rfl⟩
  | announcing => exact ⟨_,_,.announceLost hn,rfl⟩
  | ended => exact absurd rfl hne

theorem exists_prompt (hc : Cleared s) (hu : s.ui.Leaves call) (bytes : ℕ) : ∃ l q, Prompt (s,bytes) l q := by
  cases hui : s.ui with
  | shuttingDown wasRunning c => exact ⟨.shutdownSocket,(_,bytes),⟨.shutdownSocket hui,rfl⟩,id⟩
  | disconnecting wasRunning c => exact ⟨.disconnect,(_,bytes),⟨.disconnect hui,rfl⟩,id⟩
  | announcing wasRunning c => exact ⟨.announceDisconnected,(_,bytes),⟨.announceDisconnected hui,rfl⟩,id⟩
  | joining wasRunning c =>
    cases hthread : s.readThread with
    | none => exact ⟨.join,(_,bytes),⟨.notJoinable hui hthread,rfl⟩,id⟩
    | some n =>
      obtain ⟨p,hn⟩ := Option.ne_none_iff_exists'.mp (hc.joinable n hthread)
      by_cases hend : p = .ended
      · exact ⟨.join,(_,bytes),⟨.join hui hthread (hend ▸ hn),rfl⟩,id⟩
      · obtain ⟨l,t,hs,hbytes⟩ := exists_thread_step hn hend
        refine ⟨l,(t,bytes),⟨hs,by rw [hbytes]; rfl⟩,?_⟩
        -- the thread reads from the socket that was shut down
        intro hb
        cases l with
        | receive => exact hb wasRunning c hui
        | request | exchange | shutdownSocket | join | disconnect | announceDisconnected | connect | setRunning | spawn
        | announceConnected | announceFailed | queryAllRelays | checkRunning | isOpen | scan | load | checkLoss
        | clearRunning | announceLost | processResponse => exact hb
  | idle | exchanging | resetting | connecting | starting | spawning | connected | querying | failed =>
    rw [hui] at hu
    exact hu.elim

end DeskController
end MiniHil
