import MiniHil.Desk.AppHome
import MiniHil.Foundation.LineFraming
import MiniHil.Foundation.Runs

/-! # The window of the desk and its dispatchers

The signals of the controller reach the window on any thread. What they say is put down under a mutex, and a
`Glib::Dispatcher` is emitted; the notifications of all three dispatchers come through one pipe, in order, to the main
loop, which runs the handler of each.
-/
namespace MiniHil
open Framing

inductive Dispatcher
  | log
  | relay
  | connection
  deriving DecidableEq, Repr

/-- `AppHome` with its log view, its header and the notifications that the main loop has not handled yet. -/
structure HomeView extends AppHome where
  timestamp : ℕ → Bytes
  posted : List Bytes := []
  logQueue : List Bytes := []
  logText : Bytes := []
  connectionState : Bool := false
  connectBtn : Bytes := ascii "Connect"
  ipEntry : Bool := true
  portEntry : Bool := true
  sslCheck : Bool := true
  mtlsCheck : Bool := true
  cards : Fin 8 → Bool := fun _ => true
  pipe : List Dispatcher := []

namespace HomeView

def stamped (v : HomeView) (n : ℕ) (msg : Bytes) : Bytes := v.timestamp n ++ [0x20] ++ msg

def postLogMessage (msg : Bytes) (v : HomeView) : HomeView :=
  { v with
    posted := v.posted ++ [msg]
    logQueue := v.logQueue ++ [v.stamped v.posted.length msg]
    pipe := v.pipe ++ [.log] }

def onRelayStateUpdated (relayId : ℤ) (state : Bool) (v : HomeView) : HomeView :=
  { v with toAppHome := v.toAppHome.onRelayStateUpdated relayId state, pipe := v.pipe ++ [.relay] }

def onConnectionStateUpdated (connected : Bool) (v : HomeView) : HomeView :=
  { v with connectionState := connected, pipe := v.pipe ++ [.connection] }

def onSignal (v : HomeView) : Signal → HomeView
  | .log text => v.postLogMessage text
  | .relayState relayId state => v.onRelayStateUpdated relayId state

def onLogDispatcher (v : HomeView) : HomeView :=
  { v with logText := v.logQueue.foldl (fun text front => text ++ (front ++ [0x0A])) v.logText, logQueue := [] }

def onRelayDispatcher (v : HomeView) : HomeView := { v with toAppHome := v.toAppHome.onRelayDispatcher }

def onConnectionDispatcher (v : HomeView) : HomeView :=
  if v.connectionState then
    { v with
      connectBtn := ascii "Disconnect", ipEntry := false, portEntry := false, sslCheck := false, mtlsCheck := false
      cards := fun _ => true }
  else
    { v with
      connectBtn := ascii "Connect", ipEntry := true, portEntry := true, sslCheck := true, mtlsCheck := true
      relayWidgets := fun i => (v.relayWidgets i).updateState false
      cards := fun _ => false }

/-- The handler that the main loop runs for a notification. -/
def handle (v : HomeView) : Dispatcher → HomeView
  | .log => v.onLogDispatcher
  | .relay => v.onRelayDispatcher
  | .connection => v.onConnectionDispatcher

def mainLoop (v : HomeView) : Option HomeView :=
  match v.pipe with
  | [] => none
  | k :: rest => some ({ v with pipe := rest }.handle k)

def onUserAction (i : Fin 8) (action : UserAction) (v : HomeView) : HomeView × Option DeskCommand :=
  let (home,cmd) := v.toAppHome.onUserAction i action
  ({ v with toAppHome := home },cmd)

/-- The end of the constructor. -/
def construct (timestamp : ℕ → Bytes) : HomeView := onConnectionStateUpdated false { timestamp }

/-- The header and the cards fit the connection state. -/
structure Fits (v : HomeView) (connected : Bool) : Prop where
  connectBtn : v.connectBtn = ascii (if connected then "Disconnect" else "Connect")
  header : v.ipEntry = !connected ∧ v.portEntry = !connected ∧ v.sslCheck = !connected ∧ v.mtlsCheck = !connected
  cards : ∀ i, v.cards i = connected

theorem fits_onConnectionDispatcher (v : HomeView) :
    v.onConnectionDispatcher.Fits v.onConnectionDispatcher.connectionState := by
  unfold onConnectionDispatcher
  cases v.connectionState <;> exact ⟨rfl,⟨rfl,rfl,rfl,rfl⟩,fun _ => rfl⟩

/-- The whole log, when everything that was posted is in the view. -/
def fullLog (v : HomeView) : Bytes := frame 0x0A (v.posted.mapIdx fun n msg => v.stamped n msg)

def upcoming (v : HomeView) (i : Fin 8) : Bool := (v.relayQueue.foldl AppHome.applyUpdate v.relayWidgets i).active

structure Notified (v : HomeView) : Prop where
  log : v.logQueue ≠ [] → .log ∈ v.pipe
  relay : v.relayQueue ≠ [] → .relay ∈ v.pipe
  connection : .connection ∈ v.pipe ∨ v.Fits v.connectionState
  text : v.logText ++ frame 0x0A v.logQueue = v.fullLog

/-- The cards are off, or will be when the notifications in the pipe have been handled: what switches a card on
comes before the last one that switches all of them off. -/
def GoesDark (v : HomeView) : Prop :=
  (∃ pre post, v.pipe = pre ++ .connection :: post ∧ (v.relayQueue ≠ [] → .relay ∈ pre)) ∨
    .connection ∉ v.pipe ∧ v.relayQueue = [] ∧ ∀ i, (v.relayWidgets i).active = false

variable {v w : HomeView}

theorem foldl_log (text : Bytes) (queue : List Bytes) :
    queue.foldl (fun text front => text ++ (front ++ [0x0A])) text = text ++ frame 0x0A queue := by
  induction queue generalizing text with
  | nil => simp [frame]
  | cons front queue ih =>
    rw [List.foldl_cons, ih, frame_cons]
    simp

theorem Notified.postLogMessage (h : v.Notified) (msg : Bytes) : (v.postLogMessage msg).Notified where
  log _ := List.mem_append_right _ List.mem_cons_self
  relay hne := List.mem_append_left _ (h.relay hne)
  connection := h.connection.imp (List.mem_append_left _) fun hf => ⟨hf.connectBtn,hf.header,hf.cards⟩
  text := by
    have hfull : (v.postLogMessage msg).fullLog = v.fullLog ++ (v.stamped v.posted.length msg ++ [0x0A]) := by
      rw [fullLog, HomeView.postLogMessage, List.mapIdx_concat, frame_concat]
      rfl
    rw [hfull, ← h.text, HomeView.postLogMessage, frame_concat, List.append_assoc]

theorem Notified.onRelayStateUpdated (h : v.Notified) (relayId : ℤ) (state : Bool) :
    (v.onRelayStateUpdated relayId state).Notified where
  log hne := List.mem_append_left _ (h.log hne)
  relay _ := List.mem_append_right _ List.mem_cons_self
  connection := h.connection.imp (List.mem_append_left _) fun hf => ⟨hf.connectBtn,hf.header,hf.cards⟩
  text := h.text

theorem Notified.onConnectionStateUpdated (h : v.Notified) (connected : Bool) :
    (v.onConnectionStateUpdated connected).Notified where
  log hne := List.mem_append_left _ (h.log hne)
  relay hne := List.mem_append_left _ (h.relay hne)
  connection := .inl (List.mem_append_right _ List.mem_cons_self)
  text := h.text

theorem GoesDark.postLogMessage (h : v.GoesDark) (msg : Bytes) : (v.postLogMessage msg).GoesDark := by
  rcases h with ⟨pre,post,hpipe,hrelay⟩ | ⟨hpipe,hoff⟩
  · refine .inl ⟨pre,post ++ [.log],?_,hrelay⟩
    rw [HomeView.postLogMessage, hpipe, List.append_assoc, List.cons_append]
  · refine .inr ⟨?_,hoff⟩
    simp [HomeView.postLogMessage, hpipe]

/-- Whatever waits, an announcement that the desk is not connected puts out all cards. -/
theorem Notified.goesDark (h : v.Notified) (connected : Bool) : (v.onConnectionStateUpdated connected).GoesDark :=
  .inl ⟨v.pipe,[],rfl,h.relay⟩

theorem upcoming_onRelayStateUpdated (v : HomeView) (relayId : ℤ) (state : Bool) (i : Fin 8) :
    (v.onRelayStateUpdated relayId state).upcoming i = if relayId = (i.val : ℤ) + 1 then state else v.upcoming i := by
  unfold upcoming
  rw [HomeView.onRelayStateUpdated, AppHome.onRelayStateUpdated, List.foldl_append, List.foldl_cons, List.foldl_nil,
    AppHome.applyUpdate]
  by_cases hrange : 1 ≤ relayId ∧ relayId ≤ 8
  · rw [dif_pos hrange]
    by_cases hi : relayId = (i.val : ℤ) + 1
    · have hidx : (⟨(relayId - 1).toNat,by omega⟩ : Fin 8) = i := Fin.ext (by simp [hi])
      rw [if_pos hi]
      simp only [hidx, Function.update_self, RelayWidget.updateState]
    · have hidx : i ≠ ⟨(relayId - 1).toNat,by omega⟩ := by
        rintro rfl
        simp only at hi
        omega
      rw [if_neg hi]
      simp only [Function.update_of_ne hidx]
  · have hi : relayId ≠ (i.val : ℤ) + 1 := by omega
    rw [dif_neg hrange, if_neg hi]

theorem handle_cases (hv : v.mainLoop = some w) : ∃ k rest, v.pipe = k :: rest ∧ w = { v with pipe := rest }.handle k := by
  unfold mainLoop at hv
  split at hv
  · cases hv
  · exact ⟨_,_,‹_›,(Option.some.inj hv).symm⟩

theorem onConnectionDispatcher_keeps (v : HomeView) : v.onConnectionDispatcher.connectionState = v.connectionState ∧
    v.onConnectionDispatcher.logQueue = v.logQueue ∧ v.onConnectionDispatcher.relayQueue = v.relayQueue ∧
    v.onConnectionDispatcher.pipe = v.pipe ∧ v.onConnectionDispatcher.logText = v.logText ∧
    v.onConnectionDispatcher.fullLog = v.fullLog := by
  unfold onConnectionDispatcher
  split <;> exact ⟨rfl,rfl,rfl,rfl,rfl,rfl⟩

theorem connectionState_mainLoop (hv : v.mainLoop = some w) : w.connectionState = v.connectionState := by
  obtain ⟨k,rest,_,rfl⟩ := handle_cases hv
  cases k with
  | log | relay => rfl
  | connection => exact (onConnectionDispatcher_keeps { v with pipe := rest }).1

theorem mem_rest {k l : Dispatcher} {rest : List Dispatcher} (hpipe : v.pipe = k :: rest) (hl : l ∈ v.pipe) (hne : l ≠ k) :
    l ∈ rest := by
  rw [hpipe] at hl
  exact (List.mem_cons.mp hl).resolve_left hne

theorem Notified.mainLoop (h : v.Notified) (hv : v.mainLoop = some w) : w.Notified := by
  obtain ⟨k,rest,hpipe,rfl⟩ := handle_cases hv
  cases k with
  | log =>
    refine ⟨fun hne => absurd rfl hne,fun hne => mem_rest hpipe (h.relay hne) (by decide),?_,?_⟩
    · refine h.connection.imp (fun hmem => mem_rest hpipe hmem (by decide)) ?_
      exact fun hf => ⟨hf.connectBtn,hf.header,hf.cards⟩
    · change v.logQueue.foldl (fun text front => text ++ (front ++ [0x0A])) v.logText ++ frame 0x0A [] = v.fullLog
      rw [foldl_log, ← h.text]
      simp [frame]
  | relay =>
    refine ⟨fun hne => mem_rest hpipe (h.log hne) (by decide),fun hne => absurd rfl hne,?_,h.text⟩
    refine h.connection.imp (fun hmem => mem_rest hpipe hmem (by decide)) ?_
    exact fun hf => ⟨hf.connectBtn,hf.header,hf.cards⟩
  | connection =>
    have hfits := fits_onConnectionDispatcher { v with pipe := rest }
    obtain ⟨_,hlog,hrelay,hkept,htext,hfull⟩ := onConnectionDispatcher_keeps { v with pipe := rest }
    change (onConnectionDispatcher { v with pipe := rest }).Notified
    refine ⟨?_,?_,.inr hfits,?_⟩
    · rw [hlog, hkept]
      exact fun hne => mem_rest hpipe (h.log hne) (by decide)
    · rw [hrelay, hkept]
      exact fun hne => mem_rest hpipe (h.relay hne) (by decide)
    · rw [htext, hlog, hfull]
      exact h.text

/-- While the desk is announced as not connected, no handler brings a card back. -/
theorem GoesDark.mainLoop (h : v.GoesDark) (hc : v.connectionState = false) (hv : v.mainLoop = some w) : w.GoesDark := by
  obtain ⟨k,rest,hpipe,rfl⟩ := handle_cases hv
  rcases h with ⟨pre,post,hsplit,hrelay⟩ | ⟨hno,hqueue,hoff⟩
  · rw [hpipe] at hsplit
    cases pre with
    | nil =>
      -- the last announcement itself: nothing waits behind it that could switch a card on
      obtain ⟨rfl,rfl⟩ := List.cons.inj hsplit
      have hqueue : v.relayQueue = [] := by
        by_contra hne
        cases hrelay hne
      change (onConnectionDispatcher { v with pipe := rest }).GoesDark
      unfold onConnectionDispatcher
      rw [if_neg (by simp [hc])]
      by_cases hmem : Dispatcher.connection ∈ rest
      · obtain ⟨pre,post,hrest⟩ := List.append_of_mem hmem
        exact .inl ⟨pre,post,hrest,fun hne => absurd hqueue hne⟩
      · exact .inr ⟨hmem,hqueue,fun _ => rfl⟩
    | cons l pre =>
      obtain ⟨rfl,hrest⟩ := List.cons.inj hsplit
      refine .inl ⟨pre,post,?_⟩
      cases k with
      | log => exact ⟨hrest,fun hne => (List.mem_cons.mp (hrelay hne)).resolve_left nofun⟩
      | relay => exact ⟨hrest,fun hne => absurd rfl hne⟩
      | connection =>
        obtain ⟨_,_,hqueue,hkept,_⟩ := onConnectionDispatcher_keeps { v with pipe := rest }
        refine ⟨hkept.trans hrest,fun hne => ?_⟩
        exact (List.mem_cons.mp (hrelay (hqueue ▸ hne))).resolve_left nofun
  · rw [hpipe, List.mem_cons, not_or] at hno
    cases k with
    | log => exact .inr ⟨hno.2,hqueue,hoff⟩
    | relay =>
      refine .inr ⟨hno.2,rfl,fun i => ?_⟩
      change (v.relayQueue.foldl AppHome.applyUpdate v.relayWidgets i).active = false
      rw [hqueue]
      exact hoff i
    | connection => exact absurd rfl hno.1

theorem GoesDark.dark (h : v.GoesDark) (hpipe : v.pipe = []) (i : Fin 8) : (v.relayWidgets i).active = false := by
  rcases h with ⟨pre,post,hsplit,_⟩ | ⟨_,_,hoff⟩
  · rw [hpipe] at hsplit
    cases pre <;> cases hsplit
  · exact hoff i

theorem upcoming_mainLoop (hc : v.connectionState = true) (hv : v.mainLoop = some w) : w.upcoming = v.upcoming := by
  obtain ⟨k,rest,_,rfl⟩ := handle_cases hv
  cases k with
  | log | relay => rfl
  | connection =>
    change (onConnectionDispatcher { v with pipe := rest }).upcoming = v.upcoming
    unfold onConnectionDispatcher
    rw [if_pos hc]
    rfl

theorem active_onUserAction (home : AppHome) (i : Fin 8) (action : UserAction) (j : Fin 8) :
    ((home.onUserAction i action).1.relayWidgets j).active = (home.relayWidgets j).active := by
  change (Function.update home.relayWidgets i ((home.relayWidgets i).handle (AppHome.relayId i) action).1 j).active = _
  by_cases hj : j = i
  · subst hj
    rw [Function.update_self]
    cases action <;> rfl
  · rw [Function.update_of_ne hj]

theorem active_foldl_congr {a b : Fin 8 → RelayWidget} (hab : ∀ i, (a i).active = (b i).active) (queue : List (ℤ × Bool))
    (i : Fin 8) : (queue.foldl AppHome.applyUpdate a i).active = (queue.foldl AppHome.applyUpdate b i).active := by
  refine Runs.foldl_simulation (R := fun a b : Fin 8 → RelayWidget => ∀ i, (a i).active = (b i).active)
    ?_ queue hab i
  intro a b update hab j
  unfold AppHome.applyUpdate
  split
  · rename_i hrange
    by_cases hj : j = ⟨(update.1 - 1).toNat,by omega⟩
    · subst hj
      simp only [Function.update_self, RelayWidget.updateState]
    · simp only [Function.update_of_ne hj, hab j]
  · exact hab j

theorem upcoming_onUserAction (v : HomeView) (i : Fin 8) (action : UserAction) :
    (v.onUserAction i action).1.upcoming = v.upcoming :=
  funext (active_foldl_congr (active_onUserAction v.toAppHome i action) v.relayQueue)

theorem Notified.onUserAction (h : v.Notified) (i : Fin 8) (action : UserAction) : (v.onUserAction i action).1.Notified :=
  ⟨h.log,h.relay,h.connection.imp id fun hf => ⟨hf.connectBtn,hf.header,hf.cards⟩,h.text⟩

theorem GoesDark.onUserAction (h : v.GoesDark) (i : Fin 8) (action : UserAction) : (v.onUserAction i action).1.GoesDark := by
  refine h.imp id fun hoff => ⟨hoff.1,hoff.2.1,fun j => ?_⟩
  exact (active_onUserAction v.toAppHome i action j).trans (hoff.2.2 j)

end HomeView
end MiniHil
