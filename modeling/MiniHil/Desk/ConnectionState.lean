import MiniHil.Desk.ReadThread

/-! # What the desk announces about its connection

The button follows the connection-state signal, its click and the polling follow `isConnected`. A read
thread that announces the end of its connection leaves the descriptor open.
-/
namespace MiniHil
open Runs

/-- A `requestDisconnect` is in progress that has not joined the read thread. -/
def Ui.shutting : Ui → Bool
  | .exchanging _ | .shuttingDown _ _ | .joining _ _ => true
  | _ => false

def ReadLoop.settled : ReadLoop → Bool
  | .receiving _ | .ended => true
  | _ => false

namespace DeskController

/-- No call is in progress and the read thread is blocked or has ended. -/
def Settled (s : DeskController) : Prop :=
  s.ui = .idle ∧ ∀ n p, s.readLoops n = some p → p.settled = true

def onConnectClicked (s : DeskController) (useSsl : Bool) : Call :=
  if s.isConnected then .requestDisconnect else .requestConnect useSsl

def onPollTimeout (s : DeskController) : Bool := s.isConnected

/-- The announced and the actual state agree, so a click on the button while it reads Connect starts a
connection and nothing is polled then. -/
def Agrees (s : DeskController) : Prop :=
  s.isConnected = s.connectionState ∧
  (s.connectionState = false → (∀ useSsl, s.onConnectClicked useSsl = .requestConnect useSsl) ∧ s.onPollTimeout = false)

/-- A read thread announces the end of its connection only while a `requestDisconnect` is about to join it. -/
def LostWhileShutting (s : DeskController) (l : Label) (_ : DeskController) : Prop :=
  ∀ n, l = .announceLost n → s.ui.shutting = true

theorem Agrees.of_eq {s : DeskController} (h : s.isConnected = s.connectionState) : Agrees s := by
  refine ⟨h,fun hoff => ?_⟩
  have hclosed : s.isConnected = false := h.trans hoff
  refine ⟨fun useSsl => ?_,hclosed⟩
  rw [onConnectClicked, hclosed]
  rfl

/-- A read thread goes on from one place to another: it clears `m_running`, announces the loss, or
changes neither, and then it leaves its loop only with `m_running` cleared. -/
structure Reads (s : DeskController) (n : ℕ) (p q : ReadLoop) (t : DeskController) : Prop where
  before : s.readLoops n = some p
  after : t.readLoops = Function.update s.readLoops n (some q)
  ui : t.ui = s.ui
  socketFd : t.client.socketFd = s.client.socketFd
  readThread : t.readThread = s.readThread
  effect : (p ≠ .announcing ∧ q ≠ .announcing ∧ (q = .ended → s.running = false) ∧
      t.running = s.running ∧ t.connectionState = s.connectionState) ∨
    (p ≠ .announcing ∧ q = .announcing ∧ t.running = false ∧ t.connectionState = s.connectionState) ∨
    (p = .announcing ∧ q = .ended ∧ t.running = s.running ∧ t.connectionState = false)

variable {s t : DeskController} {n : ℕ} {p q : ReadLoop} {l : Label}

/-- A read thread runs, with `m_running` set unless it is about to announce a loss. -/
def Up (s : DeskController) : Prop :=
  ∃ n p, s.readLoops n = some p ∧ p ≠ .ended ∧ (s.running = true ↔ p ≠ .announcing)

def Down (s : DeskController) : Prop :=
  s.readThread = none ∧ s.client.socketFd = none ∧ s.running = false ∧ s.connectionState = false

def AnnouncedAt (s : DeskController) : Ui → Prop
  | .idle => s.Down ∨ s.Up ∧ s.connectionState = true
  | .exchanging _ => s.Down ∨ s.Up ∧ s.connectionState = true ∨ s.running = false ∧ s.connectionState = false
  | .shuttingDown wasRunning _ | .joining wasRunning _ => s.running = false ∧
      (s.connectionState = true → wasRunning = true ∨ ∃ n, s.readLoops n = some .announcing)
  | .disconnecting wasRunning _ => s.running = false ∧ (s.connectionState = true → wasRunning = true)
  | .announcing wasRunning _ =>
    s.client.socketFd = none ∧ s.running = false ∧ (s.connectionState = true → wasRunning = true)
  | .resetting _ | .connecting _ | .failed => s.Down
  | .starting => True
  | .spawning => s.running = true
  | .connected => s.Up
  | .querying => s.Up ∧ s.connectionState = true

def Announced (s : DeskController) : Prop := s.AnnouncedAt s.ui

theorem Inv.reader_unique (hi : Inv s) {m : ℕ} (hm : s.readLoops m = some q) (hn : s.readLoops n = some p) :
    m = n ∧ q = p := by
  obtain rfl : m = n := Option.some.inj ((hi.reader m q hm).1.symm.trans (hi.reader n p hn).1)
  exact ⟨rfl,Option.some.inj (hm.symm.trans hn)⟩

theorem Inv.isConnected (hi : Inv s) (hn : s.readLoops n = some p) : s.isConnected = true := by
  obtain ⟨_,⟨c,hc⟩,_⟩ := hi.reader n p hn
  obtain ⟨fd,hfd,_⟩ := Option.bind_eq_some_iff.mp hc
  rw [DeskController.isConnected, hfd]
  rfl

theorem Reads.not_alone (hr : Reads s n p q t) (hi : Inv s) : s.readThread ≠ none := by
  intro hnone
  cases (hi.no_reader hnone n).symm.trans hr.before

theorem Reads.up (hr : Reads s n p q t) (hi : Inv s) (hup : s.Up) (hp : p ≠ .announcing) : t.Up := by
  obtain ⟨m,p',hm,hne,hrun⟩ := hup
  obtain ⟨rfl,rfl⟩ := hi.reader_unique hm hr.before
  have hrunning : s.running = true := hrun.mpr hp
  have hq : t.readLoops m = some q := by rw [hr.after, Function.update_self]
  rcases hr.effect with ⟨_,hqa,hend,hsame,_⟩ | ⟨_,hqa,hclear,_⟩ | ⟨hpa,_⟩
  · refine ⟨m,q,hq,?_,fun _ => hqa,fun _ => hsame.trans hrunning⟩
    intro hqe
    rw [hrunning] at hend
    cases hend hqe
  · refine ⟨m,q,hq,by rw [hqa]; exact nofun,?_,fun h => absurd hqa h⟩
    rw [hclear]
    exact nofun
  · exact absurd hpa hp

theorem Reads.up_announced (hr : Reads s n p q t) (hi : Inv s) (hup : s.Up ∧ s.connectionState = true)
    (hp : p ≠ .announcing) : t.Up ∧ t.connectionState = true := by
  refine ⟨hr.up hi hup.1 hp,?_⟩
  rcases hr.effect with ⟨_,_,_,_,hsame⟩ | ⟨_,_,_,hsame⟩ | ⟨hpa,_⟩
  · exact hsame.trans hup.2
  · exact hsame.trans hup.2
  · exact absurd hpa hp

/-- A step of the read thread keeps to what was announced, unless it announces a loss on its own. -/
theorem Reads.announced (hr : Reads s n p q t) (hi : Inv s) (ha : s.Announced)
    (hg : p = .announcing → s.ui.shutting = true) : t.Announced := by
  have hdown : ¬s.Down := fun h => hr.not_alone hi h.1
  have halone : s.ui.alone = true → False := fun h => hr.not_alone hi (hi.alone h)
  unfold Announced at ha ⊢
  rw [hr.ui]
  cases hu : s.ui with
  | disconnecting | announcing | resetting | connecting | starting | spawning | failed =>
    exact (halone (by rw [hu]; rfl)).elim
  | idle =>
    rw [hu] at ha hg
    exact .inr (hr.up_announced hi (ha.resolve_left hdown) fun h => nomatch hg h)
  | querying =>
    rw [hu] at ha hg
    exact hr.up_announced hi ha fun h => nomatch hg h
  | connected =>
    rw [hu] at ha hg
    exact hr.up hi ha fun h => nomatch hg h
  | exchanging call =>
    rw [hu] at ha
    rcases ha.resolve_left hdown with hup | ⟨hrun,hcs⟩
    · right
      rcases hr.effect with ⟨hp,_⟩ | ⟨hp,_⟩ | ⟨hpa,_,hsame,hoff⟩
      · exact .inl (hr.up_announced hi hup hp)
      · exact .inl (hr.up_announced hi hup hp)
      · obtain ⟨m,p',hm,_,hrun⟩ := hup.1
        obtain ⟨rfl,rfl⟩ := hi.reader_unique hm hr.before
        refine .inr ⟨hsame.trans ?_,hoff⟩
        rw [Bool.eq_false_iff]
        exact fun h => hrun.mp h hpa
    · refine .inr (.inr ?_)
      rcases hr.effect with ⟨_,_,_,hsame,hsame'⟩ | ⟨_,_,hclear,hsame'⟩ | ⟨_,_,hsame,hoff⟩
      · exact ⟨hsame.trans hrun,hsame'.trans hcs⟩
      · exact ⟨hclear,hsame'.trans hcs⟩
      · exact ⟨hsame.trans hrun,hoff⟩
  | shuttingDown w call | joining w call =>
    rw [hu] at ha
    obtain ⟨hrun,hcs⟩ := ha
    rcases hr.effect with ⟨hp,_,_,hsame,hsame'⟩ | ⟨_,hq,hclear,_⟩ | ⟨_,_,hsame,hoff⟩
    · refine ⟨hsame.trans hrun,fun h => .inl ?_⟩
      refine (hcs (hsame'.symm.trans h)).resolve_right ?_
      rintro ⟨m,hm⟩
      exact hp (hi.reader_unique hm hr.before).2.symm
    · refine ⟨hclear,fun _ => .inr ⟨n,?_⟩⟩
      rw [hr.after, Function.update_self, hq]
    · refine ⟨hsame.trans hrun,fun h => ?_⟩
      cases hoff.symm.trans h

theorem Announced.quiet (ha : s.Announced) (hi : Inv s) (hn : s.readLoops n = some p) (hp : p ≠ .announcing)
    (hq : q ≠ .announcing) (hend : q = .ended → s.running = false) (readBuffer : List ReceivedByte) :
    Announced { s.setLoop n q with client := { s.client with readBuffer } } := by
  have hr : Reads s n p q { s.setLoop n q with client := { s.client with readBuffer } } :=
    ⟨hn,rfl,rfl,rfl,rfl,.inl ⟨hp,hq,hend,rfl,rfl⟩⟩
  exact hr.announced hi ha fun h => absurd h hp

/-- Once no read thread is left to announce a loss, only the call itself can. -/
theorem AnnouncedAt.joined {wasRunning : Bool} {call : Call} (h : s.AnnouncedAt (.joining wasRunning call))
    (hno : ∀ m, s.readLoops m ≠ some .announcing) :
    s.running = false ∧ (s.connectionState = true → wasRunning = true) := by
  refine ⟨h.1,fun hcs => (h.2 hcs).resolve_right ?_⟩
  rintro ⟨m,hm⟩
  exact hno m hm

theorem AnnouncedAt.off {wasRunning : Bool} {call : Call} (h : s.AnnouncedAt (.announcing wasRunning call)) :
    (if wasRunning then false else s.connectionState) = false := by
  cases wasRunning with
  | true => rfl
  | false =>
    rw [if_neg Bool.false_ne_true, Bool.eq_false_iff]
    exact fun hcs => nomatch h.2.2 hcs

theorem Step.announced (hi : Inv s) (ha : s.Announced) (hg : LostWhileShutting s l t) (hs : Step s l t) :
    t.Announced := by
  cases hs with
  | request hu =>
    rw [Announced, hu] at ha
    exact ha.imp id .inl
  | exchange hu =>
    rw [Announced, hu] at ha
    refine ⟨rfl,fun hcs => ?_⟩
    rcases ha with ⟨_,_,_,hoff⟩ | ⟨⟨n,p,hn,_,hrun⟩,_⟩ | ⟨_,hoff⟩
    · cases hoff.symm.trans hcs
    · by_cases hp : p = .announcing
      · exact .inr ⟨n,hp ▸ hn⟩
      · exact .inl (hrun.mpr hp)
    · cases hoff.symm.trans hcs
  | shutdownSocket hu =>
    rw [Announced, hu] at ha
    exact ha
  | @join _ _ n hu _ hn =>
    rw [Announced, hu] at ha
    have hjoined := AnnouncedAt.joined ha fun m hm => nomatch (hi.reader_unique hm hn).2
    exact hjoined
  | notJoinable hu hthread =>
    rw [Announced, hu] at ha
    have hjoined := AnnouncedAt.joined ha fun m hm => nomatch (hi.no_reader hthread m).symm.trans hm
    exact hjoined
  | disconnect hu =>
    rw [Announced, hu] at ha
    exact ⟨rfl,ha⟩
  | @announceDisconnected w call hu =>
    have hthread := hi.alone (by rw [hu]; rfl)
    rw [Announced, hu] at ha
    have hoff := AnnouncedAt.off ha
    cases call with
    | requestConnect useSsl => exact ⟨hthread,ha.1,ha.2.1,hoff⟩
    | requestDisconnect | stop => exact .inl ⟨hthread,ha.1,ha.2.1,hoff⟩
  | reset hu =>
    rw [Announced, hu] at ha
    exact ⟨ha.1,rfl,ha.2.2⟩
  | connect hu => exact trivial
  | connectFails hu =>
    rw [Announced, hu] at ha
    exact ⟨ha.1,rfl,ha.2.2⟩
  | setRunning hu => exact rfl
  | spawn hu =>
    rw [Announced, hu] at ha
    exact ⟨s.started,.checking,Function.update_self ..,nofun,fun _ => nofun,fun _ => ha⟩
  | announceConnected hu =>
    rw [Announced, hu] at ha
    exact ⟨ha,rfl⟩
  | announceFailed hu =>
    rw [Announced, hu] at ha
    exact .inl ⟨ha.1,ha.2.1,ha.2.2.1,rfl⟩
  | queryAllRelays hu =>
    rw [Announced, hu] at ha
    exact .inr ha
  | checkRunning hn | checkLoss hn =>
    refine ha.quiet hi hn ?_ ?_ ?_ s.client.readBuffer
    · exact nofun
    · split_ifs <;> exact nofun
    · split_ifs with hrun
      · exact nofun
      · exact fun _ => Bool.eq_false_iff.mpr hrun
  | isOpen hn | load hn =>
    refine ha.quiet hi hn ?_ ?_ ?_ s.client.readBuffer
    · exact nofun
    · split <;> exact nofun
    · split <;> exact nofun
  | takeLine hn _ | receive hn _ _ _ =>
    refine ha.quiet hi hn ?_ ?_ ?_ _ <;> exact nofun
  | noLine hn _ | receiveFails hn | processResponse hn _ =>
    refine ha.quiet hi hn ?_ ?_ ?_ s.client.readBuffer <;> exact nofun
  | @clearRunning n hn =>
    have hr : Reads s n .losing .announcing ({ s with running := false }.setLoop n .announcing) :=
      ⟨hn,rfl,rfl,rfl,rfl,.inr (.inl ⟨nofun,rfl,rfl,rfl⟩)⟩
    exact hr.announced hi ha nofun
  | @announceLost n hn =>
    have hr : Reads s n .announcing .ended ({ s with connectionState := false }.setLoop n .ended) :=
      ⟨hn,rfl,rfl,rfl,rfl,.inr (.inr ⟨rfl,rfl,rfl,rfl⟩)⟩
    exact hr.announced hi ha fun _ => hg n rfl

/-- Where no call is in progress, the announced and the actual state agree as long as no read thread
announced a loss on its own. -/
theorem Inv.agrees (hi : Inv s) (ha : s.Announced) (hu : s.ui = .idle) : s.Agrees := by
  apply Agrees.of_eq
  rw [Announced, hu] at ha
  rcases ha with ⟨_,hfd,_,hcs⟩ | ⟨⟨n,p,hn,_,_⟩,hcs⟩
  · rw [DeskController.isConnected, hfd, hcs]
    rfl
  · rw [hi.isConnected hn, hcs]

/-- In every run in which a read thread announces a loss only while a `requestDisconnect` is about to join it,
the announced state is the actual one whenever things have settled. -/
theorem announced_agrees (es : List Label) (s : DeskController) (hg : Always Step LostWhileShutting {} es)
    (hr : Run Step {} es s) (hs : s.Settled) : s.Agrees := by
  have hinv : Inv s ∧ s.Announced := by
    refine hg.invariant (I := fun s => Inv s ∧ s.Announced) ⟨.initial,.inl ⟨rfl,rfl,rfl,rfl⟩⟩ ?_ (List.append_nil es).symm hr
    exact fun s l t hi hg hs => ⟨hs.inv hi.1,hs.announced hi.1 hi.2 hg⟩
  exact hinv.1.agrees hinv.2 hs.1

/-- The user disconnects while the read thread waits for a line. -/
theorem announced_agrees_disconnect : ∃ es s, Run Step {} es s ∧ s.started = 1 ∧ s.Agrees := by
  obtain ⟨s,hr,hstarted,hidle,hthreads⟩ : ∃ s, Run Step {}
      [.request (.requestConnect false),.exchange,.shutdownSocket,.join,.disconnect,.announceDisconnected,.disconnect,
        .connect (some 3),.setRunning,.spawn,.announceConnected,.queryAllRelays,.checkRunning 0,.isOpen 0,.scan 0,
        .load 0,.request .requestDisconnect,.exchange,.shutdownSocket,.receive 0 [],.checkLoss 0,.join,.disconnect,
        .announceDisconnected] s ∧ s.started = 1 ∧ s.ui = .idle ∧ ∀ n, s.readLoops n = none := by
    refine ⟨_,.step (.request rfl) (.step (.exchange rfl) (.step (.shutdownSocket rfl) (.step (.notJoinable rfl rfl)
      (.step (.disconnect rfl) (.step (.announceDisconnected rfl) (.step (.reset rfl) (.step (.connect rfl rfl)
      (.step (.setRunning rfl) (.step (.spawn rfl) (.step (.announceConnected rfl) (.step (.queryAllRelays rfl)
      (.step (.checkRunning rfl) (.step (.isOpen rfl) (.step (.noLine rfl rfl) (.step (.load rfl) (.step (.request rfl)
      (.step (.exchange rfl) (.step (.shutdownSocket rfl) (.step (.receiveFails rfl) (.step (.checkLoss rfl)
      (.step (.join rfl rfl rfl) (.step (.disconnect rfl) (.step (.announceDisconnected rfl)
      .refl))))))))))))))))))))))),rfl,rfl,?_⟩
    intro n
    by_cases hn : n = 0
    · subst hn
      rfl
    · simp [setLoop, disconnect, opened]
  refine ⟨_,s,hr,hstarted,announced_agrees _ s ?_ hr ⟨hidle,?_⟩⟩
  · rintro pre e post t u hes _ _ n rfl
    have hmem : Label.announceLost n ∈ pre ++ Label.announceLost n :: post :=
      List.mem_append_right _ List.mem_cons_self
    rw [← hes] at hmem
    simp at hmem
  · intro n p hn
    cases (hthreads n).symm.trans hn

theorem loss_disagrees (es : List Label) (hr : Run Step {} es s) (hu : s.ui = .idle) (hs : Step s (.announceLost n) t) :
    t.Settled ∧ ¬t.Agrees := by
  have hi : Inv s := hr.invariant (fun _ _ _ hi hs => Step.inv hi hs) .initial
  cases hs with
  | announceLost hn =>
    refine ⟨⟨hu,?_⟩,?_⟩
    · intro m q hm
      rcases setLoop_cases hm with ⟨_,rfl⟩ | ⟨hmn,hm⟩
      · rfl
      · exact absurd (hi.reader_unique hm hn).1 hmn
    · intro h
      cases (hi.isConnected hn).symm.trans h.1

/-- The server closes while the desk waits for a line and the user does nothing. -/
theorem announced_agrees_fails : ¬∀ es s, Run Step {} es s → s.Settled → s.Agrees := by
  intro h
  obtain ⟨s,hr,hu,hn⟩ : ∃ s, Run Step {}
      [.request (.requestConnect false),.exchange,.shutdownSocket,.join,.disconnect,.announceDisconnected,.disconnect,
        .connect (some 3),.setRunning,.spawn,.announceConnected,.queryAllRelays,.checkRunning 0,.isOpen 0,.scan 0,
        .load 0,.receive 0 [],.checkLoss 0,.clearRunning 0] s ∧ s.ui = .idle ∧ s.readLoops 0 = some .announcing :=
    ⟨_,.step (.request rfl) (.step (.exchange rfl) (.step (.shutdownSocket rfl) (.step (.notJoinable rfl rfl)
      (.step (.disconnect rfl) (.step (.announceDisconnected rfl) (.step (.reset rfl) (.step (.connect rfl rfl)
      (.step (.setRunning rfl) (.step (.spawn rfl) (.step (.announceConnected rfl) (.step (.queryAllRelays rfl)
      (.step (.checkRunning rfl) (.step (.isOpen rfl) (.step (.noLine rfl rfl) (.step (.load rfl)
      (.step (.receiveFails rfl) (.step (.checkLoss rfl) (.step (.clearRunning rfl) .refl)))))))))))))))))),rfl,rfl⟩
  have hlost := Step.announceLost hn
  obtain ⟨hsettled,hdis⟩ := loss_disagrees _ hr hu hlost
  exact hdis (h _ _ (hr.concat hlost) hsettled)

end DeskController
end MiniHil
