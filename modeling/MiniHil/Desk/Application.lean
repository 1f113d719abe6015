import MiniHil.Desk.ConnectionState
import MiniHil.Desk.HomeView
import MiniHil.Foundation.Overwrite

/-! # The desk as a whole

The controller with its read thread, and the window that its signals reach. A thread that has come to the end of
a step still has to emit what belongs to it; the other thread and the main loop go on in between. The main loop
runs on the thread of the user interface, so that it stands still while a call of the controller is in progress.
-/
namespace MiniHil
open Runs

namespace DeskController

def Label.reads : Label → Bool
  | .checkRunning _ | .isOpen _ | .scan _ | .load _ | .receive _ _ | .checkLoss _ | .clearRunning _ | .announceLost _
  | .processResponse _ _ => true
  | _ => false

def announcement (ui : Ui) : Label → Option Bool
  | .announceDisconnected => match ui with
    | .announcing true _ => some false
    | _ => none
  | .announceConnected => some true
  | .announceFailed | .announceLost _ => some false
  | _ => none

def Alive (s : DeskController) : Prop := ∃ n p, s.readLoops n = some p ∧ p ≠ .ended

def Heard (s : DeskController) : Prop := s.Alive → s.ui = .connected ∨ s.connectionState = true

variable {s t : DeskController} {l : Label} {n : ℕ} {p : ReadLoop}

theorem Step.announcement (hs : Step s l t) : t.connectionState = (announcement s.ui l).getD s.connectionState := by
  cases hs with
  | @announceDisconnected w _ hu =>
    rw [hu]
    cases w <;> rfl
  | _ => rfl

theorem Inv.not_alive (hi : Inv s) (h : s.readThread = none) : ¬s.Alive := by
  rintro ⟨n,p,hn,_⟩
  cases (hi.no_reader h n).symm.trans hn

theorem alive_setLoop (s : DeskController) (n : ℕ) (hp : p ≠ .ended) : (s.setLoop n p).Alive :=
  ⟨n,p,Function.update_self ..,hp⟩

/-- The user interface does not end a read thread, and joins it only when it has ended. -/
theorem Step.alive (hs : Step s l t) (hl : l.reads = false) (ha : s.Alive) : t.Alive := by
  obtain ⟨m,q,hm,hq⟩ := ha
  cases hs with
  | @join _ _ n _ _ hn =>
    refine ⟨m,q,?_,hq⟩
    have hne : m ≠ n := by
      rintro rfl
      exact hq (Option.some.inj (hm.symm.trans hn))
    exact (Function.update_of_ne hne ..).trans hm
  | spawn => exact alive_setLoop _ _ nofun
  | checkRunning | isOpen | takeLine | noLine | load | receive | receiveFails | checkLoss | clearRunning | announceLost
  | processResponse => cases hl
  | _ => exact ⟨m,q,hm,hq⟩

theorem Step.connected (hs : Step s l t) (hu : s.ui = .connected) (ha : DeskController.announcement s.ui l = none) :
    t.ui = .connected := by
  cases hs with
  | announceConnected => cases ha
  | checkRunning | isOpen | takeLine | noLine | load | receive | receiveFails | checkLoss | clearRunning | announceLost
  | processResponse => exact hu
  | request h | exchange h | shutdownSocket h | join h _ _ | notJoinable h _ | disconnect h | announceDisconnected h
  | reset h | connect h _ | connectFails h | setRunning h | spawn h | announceFailed h | queryAllRelays h =>
    cases hu.symm.trans h

theorem alive_of_setLoop (hn : s.readLoops n = some p) (hp : p ≠ .ended) : s.Alive := ⟨n,p,hn,hp⟩

theorem Heard.move (h : s.Heard) (hu : s.ui ≠ .connected) {t : DeskController} (ha : t.Alive → s.Alive)
    (hsame : t.connectionState = s.connectionState) : t.Heard := by
  intro halive
  exact .inr (hsame.trans ((h (ha halive)).resolve_left hu))

theorem Heard.reads (h : s.Heard) (hn : s.readLoops n = some p) (hp : p ≠ .ended) {t : DeskController}
    (hu : t.ui = s.ui) (hsame : t.connectionState = s.connectionState) : t.Heard := by
  intro _
  rw [hu, hsame]
  exact h (alive_of_setLoop hn hp)

theorem Step.heard (hi : Inv s) (h : s.Heard) (hs : Step s l t) : t.Heard := by
  cases hs with
  | request hu | exchange hu | shutdownSocket hu | notJoinable hu | queryAllRelays hu =>
    exact h.move (by rw [hu]; exact nofun) id rfl
  | @join _ _ n hu _ hn =>
    refine h.move (by rw [hu]; exact nofun) ?_ rfl
    rintro ⟨m,q,hm,hq⟩
    refine ⟨m,q,?_,hq⟩
    change Function.update s.readLoops n none m = some q at hm
    have hne : m ≠ n := by
      rintro rfl
      rw [Function.update_self] at hm
      cases hm
    rwa [Function.update_of_ne hne] at hm
  | disconnect hu | announceDisconnected hu | reset hu | connect hu | connectFails hu | setRunning hu | announceFailed hu =>
    exact fun ha => absurd ha (hi.not_alive (hi.alone (by rw [hu]; rfl)))
  | spawn => exact fun _ => .inl rfl
  | announceConnected => exact fun _ => .inr rfl
  | checkRunning hn | isOpen hn | takeLine hn | noLine hn | load hn | receive hn | receiveFails hn | checkLoss hn
  | clearRunning hn | processResponse hn => exact h.reads hn nofun rfl rfl
  | announceLost hn =>
    rintro ⟨m,q,hm,hq⟩
    rcases setLoop_cases hm with ⟨_,rfl⟩ | ⟨hne,hm⟩
    · exact absurd rfl hq
    · exact absurd (hi.reader_unique hm hn).1 hne

end DeskController

/-- The arguments of `requestConnect`. -/
structure Target where
  ip : Bytes := []
  port : Int32 := 0
  useSsl : Bool := false
  useMtls : Bool := false
  deriving DecidableEq, Repr

def Target.connecting (target : Target) : Bytes :=
  ascii "[System] Connecting to " ++ target.ip ++ ascii ":" ++ ascii (toString target.port.toInt) ++
    ascii " (SSL: " ++ ascii (if target.useSsl then "ON" else "OFF") ++
    ascii ", mTLS: " ++ ascii (if target.useMtls then "ON" else "OFF") ++ ascii ")..."

/-- The controller and the window, with the signals that the thread of the user interface and the read thread still
have to emit, and the relay updates that were emitted since the desk was announced as not connected. -/
structure EntryApplication where
  controller : DeskController := {}
  home : HomeView
  requestId : Int32 := 1
  target : Target := {}
  emitting : List Signal := []
  reading : List Signal := []
  reported : List (ℤ × Bool) := []

namespace EntryApplication

/-- The main loop has the thread of the user interface for itself. -/
def Idle (s : EntryApplication) : Prop := s.controller.ui = .idle ∧ s.emitting = []

def signals (lib : JsonLib) (s : EntryApplication) : DeskController.Label → List Signal
  | .announceDisconnected => match s.controller.ui with
    | .announcing wasRunning call => (if wasRunning then [.log (ascii "[System] Disconnected.")] else []) ++
      match call with
      | .requestConnect _ => [.log s.target.connecting]
      | .requestDisconnect | .stop => []
    | _ => []
  | .announceConnected => [.log (ascii "[System] Connected successfully.")]
  | .announceFailed => [.log (ascii "[System] Connection failed.")]
  | .announceLost _ => [.log (ascii "[System] Connection lost.")]
  | .processResponse _ line => AppController.processResponse lib (line.map ReceivedByte.byte)
  | _ => []

def announce (s : EntryApplication) : Option Bool → EntryApplication
  | none => s
  | some true => { s with home := s.home.onConnectionStateUpdated true }
  | some false => { s with home := s.home.onConnectionStateUpdated false, reported := [] }

def emit (s : EntryApplication) (signal : Signal) : EntryApplication :=
  { s with
    home := s.home.onSignal signal
    reported := match signal with
      | .relayState relayId state => s.reported ++ [(relayId,state)]
      | .log _ => s.reported }

/-- `sendJsonRpc`: the next request id and the text it logs. -/
inductive Sends (lib : JsonLib) (s : EntryApplication) (cmd : DeskCommand) : Int32 → Bytes → Prop
  | notConnected : s.controller.isConnected = false → Sends lib s cmd s.requestId (ascii "[System] Error: Not connected.")
  | sent {text : Bytes} : s.controller.isConnected = true → lib.dump (cmd.request s.requestId) = .ok text →
      Sends lib s cmd (s.requestId + 1) (ascii "[TX] " ++ text)
  | fails : s.controller.isConnected = true →
      Sends lib s cmd (s.requestId + 1) (ascii "[System] Error sending command.")

inductive Event
  | onConnectClicked (target : Target)
  | onShutdown
  | user (l : DeskController.Label)
  | reader (l : DeskController.Label)
  | queryAllRelays
  | emit
  | emitRead
  | mainLoop
  | onUserAction (i : Fin 8) (action : UserAction)
  | onPollTimeout

inductive Step (lib : JsonLib) (s : EntryApplication) : Event → EntryApplication → Prop
  | onConnectClicked {target : Target} {c : DeskController} : s.Idle →
      s.controller.Step (.request (s.controller.onConnectClicked target.useSsl)) c →
      Step lib s (.onConnectClicked target) { s with controller := c, target }
  | onShutdown {c : DeskController} : s.Idle → s.controller.Step (.request .stop) c →
      Step lib s .onShutdown { s with controller := c }
  -- the threads of the controller
  | user {l : DeskController.Label} {c : DeskController} : l.reads = false → (∀ call, l ≠ .request call) →
      l ≠ .queryAllRelays → s.emitting = [] → s.controller.Step l c →
      Step lib s (.user l) { s.announce (DeskController.announcement s.controller.ui l) with
        controller := c, emitting := s.signals lib l }
  | reader {l : DeskController.Label} {c : DeskController} : l.reads = true → s.reading = [] → s.controller.Step l c →
      Step lib s (.reader l) { s.announce (DeskController.announcement s.controller.ui l) with
        controller := c, reading := s.signals lib l }
  | queryAllRelays {c : DeskController} {requestId : Int32} {text : Bytes} : s.emitting = [] →
      s.controller.Step .queryAllRelays c → Sends lib s .queryAllRelays requestId text →
      Step lib s .queryAllRelays { s with controller := c, requestId, emitting := [.log text] }
  | emit {signal : Signal} {rest : List Signal} : s.emitting = signal :: rest →
      Step lib s .emit { s.emit signal with emitting := rest }
  | emitRead {signal : Signal} {rest : List Signal} : s.reading = signal :: rest →
      Step lib s .emitRead { s.emit signal with reading := rest }
  -- the main loop
  | mainLoop {home : HomeView} : s.Idle → s.home.mainLoop = some home → Step lib s .mainLoop { s with home }
  | onUserAction {i : Fin 8} {action : UserAction} {home : HomeView} : s.Idle → s.home.cards i = true →
      (s.home.relayWidgets i).Offers action → s.home.onUserAction i action = (home,none) →
      Step lib s (.onUserAction i action) { s with home }
  | onCommand {i : Fin 8} {action : UserAction} {home : HomeView} {cmd : DeskCommand} {requestId : Int32} {text : Bytes} :
      s.Idle → s.home.cards i = true → (s.home.relayWidgets i).Offers action →
      s.home.onUserAction i action = (home,some cmd) → Sends lib s cmd requestId text →
      Step lib s (.onUserAction i action) { s with home, requestId, emitting := [.log text] }
  | onPollTimeout {requestId : Int32} {text : Bytes} : s.Idle → s.controller.onPollTimeout = true →
      Sends lib s .queryAllRelays requestId text →
      Step lib s .onPollTimeout { s with requestId, emitting := [.log text] }

/-- `on_startup` -/
def onStartup (timestamp : ℕ → Bytes) : EntryApplication := { home := .construct timestamp }

def Update (signal : Signal) : Prop := ∃ relayId state, signal = .relayState relayId state

def Follows (s : EntryApplication) : Prop :=
  ∀ (i : Fin 8) b, Overwrite.lastWritten s.reported ((i.val : ℤ) + 1) = some b → s.home.upcoming i = b

structure Inv (s : EntryApplication) : Prop where
  controller : s.controller.Inv
  heard : s.controller.Heard
  flag : s.home.connectionState = s.controller.connectionState
  emitting : ∀ signal ∈ s.emitting, ¬Update signal
  reading : (∃ signal ∈ s.reading, Update signal) → s.controller.Alive
  notified : s.home.Notified
  dark : s.controller.connectionState = false → s.controller.ui ≠ .connected → s.home.GoesDark ∧ s.reported = []
  follows : s.Follows

variable {lib : JsonLib} {s t : EntryApplication} {l : DeskController.Label} {c : DeskController}

theorem announce_home (s : EntryApplication) (a : Option Bool) :
    (s.announce a).home.connectionState = a.getD s.home.connectionState ∧ (s.announce a).home.upcoming = s.home.upcoming := by
  cases a with
  | none => exact ⟨rfl,rfl⟩
  | some connected => cases connected <;> exact ⟨rfl,rfl⟩

theorem announce_keeps (s : EntryApplication) (a : Option Bool) :
    (s.announce a).emitting = s.emitting ∧ (s.announce a).reading = s.reading := by
  cases a with
  | none => exact ⟨rfl,rfl⟩
  | some connected => cases connected <;> exact ⟨rfl,rfl⟩

theorem announce_notified (h : s.home.Notified) (a : Option Bool) : (s.announce a).home.Notified := by
  cases a with
  | none => exact h
  | some connected => cases connected <;> exact h.onConnectionStateUpdated _

theorem announce_follows (h : s.Follows) (a : Option Bool) : (s.announce a).Follows := by
  cases a with
  | none => exact h
  | some connected =>
    cases connected with
    | true => exact h
    | false =>
      intro i b hb
      cases hb

theorem Inv.step (h : s.Inv) (hs : s.controller.Step l c) {emitting reading : List Signal}
    (hemitting : ∀ signal ∈ emitting, ¬Update signal) (hreading : (∃ signal ∈ reading, Update signal) → c.Alive) :
    Inv { s.announce (DeskController.announcement s.controller.ui l) with controller := c, emitting, reading } where
  controller := hs.inv h.controller
  heard := hs.heard h.controller h.heard
  flag := by
    rw [hs.announcement, ← h.flag]
    exact (announce_home s _).1
  emitting := hemitting
  reading := hreading
  notified := announce_notified h.notified _
  dark hoff hui := by
    have hflag := hs.announcement
    change c.connectionState = false at hoff
    rw [hoff] at hflag
    cases ha : DeskController.announcement s.controller.ui l with
    | none =>
      rw [ha] at hflag
      exact h.dark hflag.symm fun hu => hui (hs.connected hu ha)
    | some connected =>
      rw [ha] at hflag
      cases hflag
      exact ⟨h.notified.goesDark false,rfl⟩
  follows := announce_follows h.follows _

theorem signals_of_user (lib : JsonLib) (s : EntryApplication) (hl : l.reads = false) :
    ∀ signal ∈ s.signals lib l, ¬Update signal := by
  rintro signal hmem ⟨relayId,state,rfl⟩
  cases l with
  | announceDisconnected =>
    change _ ∈ (match s.controller.ui with
      | .announcing wasRunning call => _
      | _ => []) at hmem
    split at hmem
    · rename_i w call _
      cases w <;> cases call <;> simp at hmem
    · cases hmem
  | announceConnected | announceFailed =>
    cases List.mem_singleton.mp hmem
  | announceLost | processResponse => cases hl
  | _ => cases hmem

theorem signals_of_reader (hs : s.controller.Step l c) (hl : l.reads = true)
    (hu : ∃ signal ∈ s.signals lib l, Update signal) : c.Alive := by
  obtain ⟨signal,hmem,relayId,state,rfl⟩ := hu
  cases hs with
  | processResponse => exact DeskController.alive_setLoop _ _ nofun
  | announceLost => cases List.mem_singleton.mp hmem
  | checkRunning | isOpen | takeLine | noLine | load | receive | receiveFails | checkLoss | clearRunning => cases hmem
  | _ => cases hl

theorem Inv.emitLog (h : s.Inv) (text : Bytes) {emitting reading : List Signal}
    (hemitting : ∀ signal ∈ emitting, ¬Update signal) (hreading : (∃ signal ∈ reading, Update signal) → s.controller.Alive) :
    Inv { s.emit (.log text) with emitting, reading } :=
  ⟨h.controller,h.heard,h.flag,hemitting,hreading,h.notified.postLogMessage text,
    fun hoff hui => ⟨(h.dark hoff hui).1.postLogMessage text,(h.dark hoff hui).2⟩,h.follows⟩

theorem Inv.emitUpdate (h : s.Inv) (relayId : ℤ) (state : Bool) (halive : s.controller.Alive) {reading : List Signal} :
    Inv { s.emit (.relayState relayId state) with reading } := by
  refine ⟨h.controller,h.heard,h.flag,h.emitting,fun _ => halive,h.notified.onRelayStateUpdated relayId state,?_,?_⟩
  · intro hoff hui
    rcases h.heard halive with hu | hon
    · exact absurd hu hui
    · cases hoff.symm.trans hon
  · intro i b hb
    change Overwrite.lastWritten (s.reported ++ [(relayId,state)]) ((i.val : ℤ) + 1) = some b at hb
    change (s.home.onRelayStateUpdated relayId state).upcoming i = b
    rw [Overwrite.lastWritten_concat] at hb
    rw [HomeView.upcoming_onRelayStateUpdated]
    by_cases hi : relayId = (i.val : ℤ) + 1
    · rw [if_pos hi] at hb ⊢
      exact Option.some.inj hb
    · rw [if_neg hi] at hb ⊢
      exact h.follows i b hb

theorem Inv.mainLoop (h : s.Inv) (hidle : s.Idle) {home : HomeView} (hm : s.home.mainLoop = some home) :
    Inv { s with home } where
  controller := h.controller
  heard := h.heard
  flag := (HomeView.connectionState_mainLoop hm).trans h.flag
  emitting := h.emitting
  reading := h.reading
  notified := h.notified.mainLoop hm
  dark hoff hui := ⟨(h.dark hoff hui).1.mainLoop (h.flag.trans hoff) hm,(h.dark hoff hui).2⟩
  follows i b hb := by
    cases hflag : s.controller.connectionState with
    | true =>
      change home.upcoming i = b
      rw [HomeView.upcoming_mainLoop (h.flag.trans hflag) hm]
      exact h.follows i b hb
    | false =>
      have hnone : s.reported = [] := (h.dark hflag (by rw [hidle.1]; exact nofun)).2
      change Overwrite.lastWritten s.reported _ = some b at hb
      rw [hnone] at hb
      cases hb

/-- A request that is sent, or not, from the thread of the user interface leaves only a text to be logged. -/
theorem Inv.send (h : s.Inv) {home : HomeView} (i : Fin 8) (action : UserAction)
    (hhome : home = s.home ∨ home = (s.home.onUserAction i action).1) (requestId : Int32) {emitting : List Signal}
    (hemitting : ∀ signal ∈ emitting, ¬Update signal) : Inv { s with home, requestId, emitting } := by
  rcases hhome with rfl | rfl
  · exact ⟨h.controller,h.heard,h.flag,hemitting,h.reading,h.notified,h.dark,h.follows⟩
  · refine ⟨h.controller,h.heard,h.flag,hemitting,h.reading,h.notified.onUserAction i action,?_,?_⟩
    · exact fun hoff hui => ⟨(h.dark hoff hui).1.onUserAction i action,(h.dark hoff hui).2⟩
    · intro j b hb
      change (s.home.onUserAction i action).1.upcoming j = b
      rw [HomeView.upcoming_onUserAction]
      exact h.follows j b hb

theorem not_update_log {text : Bytes} : ∀ signal ∈ [Signal.log text], ¬Update signal := by
  rintro signal hmem ⟨_,_,rfl⟩
  cases List.mem_singleton.mp hmem

theorem Inv.initial (timestamp : ℕ → Bytes) : (onStartup timestamp).Inv where
  controller := .initial
  heard := by
    rintro ⟨_,_,hn,_⟩
    cases hn
  flag := rfl
  emitting _ hmem := nomatch hmem
  reading h := by
    obtain ⟨_,hmem,_⟩ := h
    cases hmem
  notified := ⟨fun hne => absurd rfl hne,fun hne => absurd rfl hne,.inl List.mem_cons_self,rfl⟩
  dark _ _ := ⟨.inl ⟨[],[],rfl,fun hne => absurd rfl hne⟩,rfl⟩
  follows _ _ hb := nomatch hb

theorem Step.inv {e : Event} (h : s.Inv) (hs : Step lib s e t) : t.Inv := by
  cases hs with
  | onConnectClicked hidle hstep | onShutdown hidle hstep =>
    have hnext := h.step hstep h.emitting fun hu => hstep.alive rfl (h.reading hu)
    exact ⟨hnext.controller,hnext.heard,hnext.flag,hnext.emitting,hnext.reading,hnext.notified,hnext.dark,hnext.follows⟩
  | user hl _ _ _ hstep =>
    refine h.step hstep (signals_of_user lib s hl) ?_
    rw [(announce_keeps s _).2]
    exact fun hu => hstep.alive hl (h.reading hu)
  | reader hl _ hstep =>
    refine h.step hstep ?_ (signals_of_reader hstep hl)
    rw [(announce_keeps s _).1]
    exact h.emitting
  | @queryAllRelays c requestId text _ hstep _ =>
    have hnext := h.step hstep (@not_update_log text) fun hu => hstep.alive rfl (h.reading hu)
    exact ⟨hnext.controller,hnext.heard,hnext.flag,hnext.emitting,hnext.reading,hnext.notified,hnext.dark,hnext.follows⟩
  | @emit signal rest hrest =>
    have hmem : signal ∈ s.emitting := hrest ▸ List.mem_cons_self
    have hothers : ∀ other ∈ rest, ¬Update other := fun other ho => h.emitting other (hrest ▸ List.mem_cons_of_mem _ ho)
    cases signal with
    | log text => exact h.emitLog text hothers h.reading
    | relayState relayId state => exact absurd ⟨relayId,state,rfl⟩ (h.emitting _ hmem)
  | @emitRead signal rest hrest =>
    have hmem : signal ∈ s.reading := hrest ▸ List.mem_cons_self
    have hothers : (∃ other ∈ rest, Update other) → s.controller.Alive := by
      rintro ⟨other,ho,hu⟩
      exact h.reading ⟨other,hrest ▸ List.mem_cons_of_mem _ ho,hu⟩
    cases signal with
    | log text => exact h.emitLog text h.emitting hothers
    | relayState relayId state => exact h.emitUpdate relayId state (h.reading ⟨_,hmem,relayId,state,rfl⟩)
  | mainLoop hidle hm => exact h.mainLoop hidle hm
  | @onUserAction i action home _ _ _ hhome =>
    exact h.send i action (.inr (congrArg Prod.fst hhome).symm) s.requestId h.emitting
  | @onCommand i action home _ _ _ _ _ _ hhome =>
    exact h.send i action (.inr (congrArg Prod.fst hhome).symm) _ not_update_log
  | onPollTimeout => exact h.send 0 (.toggled false) (.inl rfl) _ not_update_log

/-- However the read thread, the calls of the user interface and the main loop interleave: whenever no call is in
progress and every notification has been handled, header and cards fit the connection state that was announced last,
the log has every text once and in the order in which they were posted, all cards are off if the desk is announced as
not connected, and otherwise each card shows the last update that was reported for it. -/
theorem window_follows (lib : JsonLib) (timestamp : ℕ → Bytes) (es : List Event) (s : EntryApplication)
    (hr : Run (Step lib) (onStartup timestamp) es s) (hidle : s.Idle) (hpipe : s.home.pipe = []) :
    s.home.Fits s.controller.connectionState ∧ s.home.logText = s.home.fullLog ∧
      (s.controller.connectionState = false → ∀ i, (s.home.relayWidgets i).active = false) ∧
      ∀ (i : Fin 8) b, Overwrite.lastWritten s.reported ((i.val : ℤ) + 1) = some b → (s.home.relayWidgets i).active = b := by
  have h : s.Inv := hr.invariant (fun _ _ _ hi hs => Step.inv hi hs) (.initial timestamp)
  have hlog : s.home.logQueue = [] := by
    by_contra hne
    cases hpipe ▸ h.notified.log hne
  have hrelay : s.home.relayQueue = [] := by
    by_contra hne
    cases hpipe ▸ h.notified.relay hne
  refine ⟨?_,?_,?_,?_⟩
  · rcases h.notified.connection with hmem | hfits
    · cases hpipe ▸ hmem
    · exact h.flag ▸ hfits
  · have htext := h.notified.text
    rw [hlog] at htext
    exact (List.append_nil _).symm.trans htext
  · intro hoff
    exact (h.dark hoff (by rw [hidle.1]; exact nofun)).1.dark hpipe
  · intro i b hb
    have hshown := h.follows i b hb
    rw [HomeView.upcoming, hrelay] at hshown
    exact hshown

/-- The user connects, and the main loop handles what was emitted meanwhile. -/
theorem window_follows_connect : ∃ es s, Run (Step .compact) (onStartup fun _ => []) es s ∧
    s.home.Fits true ∧ s.home.posted.length = 3 ∧ s.home.logText = s.home.fullLog := by
  obtain ⟨s,hr,hidle,hpipe,hflag,hposted⟩ : ∃ s, Run (Step .compact) (onStartup fun _ => [])
      [.mainLoop,.onConnectClicked {},.user .exchange,.user .shutdownSocket,.user .join,.user .disconnect,
        .user .announceDisconnected,.emit,.user .disconnect,.user (.connect (some 3)),.user .setRunning,.user .spawn,
        .user .announceConnected,.reader (.checkRunning 0),.emit,.queryAllRelays,.emit,.mainLoop,.mainLoop,.mainLoop,
        .mainLoop] s ∧ s.Idle ∧ s.home.pipe = [] ∧ s.controller.connectionState = true ∧ s.home.posted.length = 3 := by
    refine ⟨_,.step (.mainLoop ⟨rfl,rfl⟩ rfl) (.step (.onConnectClicked ⟨rfl,rfl⟩ (.request rfl)) (.step
      (.user rfl nofun nofun rfl (.exchange rfl)) (.step (.user rfl nofun nofun rfl (.shutdownSocket rfl)) (.step
      (.user rfl nofun nofun rfl (.notJoinable rfl rfl)) (.step (.user rfl nofun nofun rfl (.disconnect rfl)) (.step
      (.user rfl nofun nofun rfl (.announceDisconnected rfl)) (.step (.emit rfl) (.step
      (.user rfl nofun nofun rfl (.reset rfl)) (.step (.user rfl nofun nofun rfl (.connect rfl rfl)) (.step
      (.user rfl nofun nofun rfl (.setRunning rfl)) (.step (.user rfl nofun nofun rfl (.spawn rfl)) (.step
      (.user rfl nofun nofun rfl (.announceConnected rfl)) (.step (.reader rfl rfl (.checkRunning rfl)) (.step
      (.emit rfl) (.step (.queryAllRelays rfl (.queryAllRelays rfl) (.fails rfl)) (.step (.emit rfl) (.step
      (.mainLoop ⟨rfl,rfl⟩ rfl) (.step (.mainLoop ⟨rfl,rfl⟩ rfl) (.step (.mainLoop ⟨rfl,rfl⟩ rfl) (.step
      (.mainLoop ⟨rfl,rfl⟩ rfl) .refl)))))))))))))))))))),⟨rfl,rfl⟩,rfl,rfl,rfl⟩
  obtain ⟨hfits,hlog,_⟩ := window_follows _ _ _ s hr hidle hpipe
  exact ⟨_,s,hr,hflag ▸ hfits,hposted,hlog⟩

end EntryApplication
end MiniHil
