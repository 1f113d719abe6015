import MiniHil.Desk.ClientMemory
import MiniHil.Desk.ReadThread

/-! # The client's memory under two threads

The calls on the client as the user interface and the read threads make them: `SSL_read` and `recv` run outside the mutex
of the client, with a descriptor that was loaded before, while the user interface shuts down, joins and frees.
-/
namespace MiniHil
open Runs

structure DeskMemory where
  desk : DeskController := {}
  memory : ClientMemory := {}
  /-- The descriptor that a read thread has loaded. -/
  loaded : ℕ → Option ℕ := fun _ => none

namespace DeskMemory

structure Answers where
  calls : ConnectCalls
  useMtls : Bool
  writes : ℕ

/-- The SSL box of a connect in progress. -/
def useSsl (d : DeskMemory) : Bool :=
  match d.desk.ui with
  | .connecting useSsl => useSsl
  | _ => false

def program (d : DeskMemory) (answers : Answers) : DeskController.Label → Checked ClientMemory Bool
  | .disconnect => (fun _ => true) <$> ClientMemory.disconnect
  | .connect _ => ClientMemory.openSocket answers.calls d.useSsl answers.useMtls
  | .shutdownSocket => (fun _ => true) <$> ClientMemory.shutdownSocket
  | .queryAllRelays => (fun _ => true) <$> ClientMemory.send answers.writes
  | .receive n _ =>
    match d.loaded n with
    | some socketFd => (fun _ => true) <$> ClientMemory.transfer socketFd
    | none => pure true
  | _ => pure true

def load (d : DeskMemory) : DeskController.Label → ℕ → Option ℕ
  | .load n => Function.update d.loaded n d.memory.socketFd
  | _ => d.loaded

/-- A connect has a descriptor exactly if the calls succeed. -/
def succeeds : DeskController.Label → Bool
  | .connect fd => fd.isSome
  | _ => true

inductive Label
  | step (l : DeskController.Label) (answers : Answers)
  | command (writes : ℕ)

/-- A step of the controller with its calls on the client, or a request for a relay. -/
inductive Step (d : DeskMemory) : Label → DeskMemory → Prop
  | step {l : DeskController.Label} {t : DeskController} {answers : Answers} {memory : ClientMemory} :
      DeskController.Step d.desk l t → d.program answers l d.memory = some (succeeds l,memory) →
      Step d (.step l answers) { desk := t, memory, loaded := d.load l }
  | command {writes : ℕ} {memory : ClientMemory} : d.desk.ui = .idle →
      ClientMemory.send writes d.memory = some ((),memory) → Step d (.command writes) { d with memory }

/-- `~TcpClient`, and `~OpenSslSession` behind it. -/
def destroy : Checked ClientMemory Unit := do
  ClientMemory.disconnect
  ClientMemory.sslDisconnect

/-- Nothing that can be done next is undefined, and nothing is left behind. -/
structure Safe (d : DeskMemory) : Prop where
  step : ∀ l t answers, DeskController.Step d.desk l t → d.program answers l d.memory ≠ none
  command : ∀ writes, ClientMemory.send writes d.memory ≠ none
  closed : d.desk.client.socketFd = none → d.memory.heap.objects = []
  destroy : ∃ memory, destroy d.memory = some ((),memory) ∧ memory.heap.objects = []

structure Inv (d : DeskMemory) : Prop where
  desk : d.desk.Inv
  held : d.memory.Held
  closed : d.memory.socketFd = none ↔ d.desk.client.socketFd = none
  loaded : ∀ n fd, d.desk.readLoops n = some (.receiving fd) → d.loaded n = d.memory.socketFd

theorem Inv.initial : Inv {} where
  desk := .initial
  held := .closed ClientMemory.initial_closed
  closed := Iff.rfl
  loaded _ _ h := by cases h

variable {d e : DeskMemory} {s t : DeskController} {l : DeskController.Label} {answers : Answers} {ok : Bool}
  {memory : ClientMemory}

theorem Inv.closed_memory (hi : Inv d) (hfd : d.desk.client.socketFd = none) : d.memory.Closed := by
  have hnone := hi.closed.mpr hfd
  cases hi.held with
  | closed h => exact h
  | opened _ h | secured _ _ _ h =>
    rw [h.socketFd] at hnone
    cases hnone

def Keeps : DeskController.Label → Prop
  | .disconnect | .connect _ | .load _ => False
  | _ => True

theorem setLoop_receiving {n : ℕ} {p : ReadLoop} (hp : ∀ fd, p ≠ .receiving fd) {m fd : ℕ}
    (hm : (s.setLoop n p).readLoops m = some (.receiving fd)) : s.readLoops m = some (.receiving fd) := by
  rcases DeskController.setLoop_cases hm with ⟨_,heq⟩ | ⟨_,hm⟩
  · exact absurd heq.symm (hp fd)
  · exact hm

theorem keeps_frame (hs : DeskController.Step s l t) (hl : Keeps l) : t.client.socketFd = s.client.socketFd ∧
    ∀ n fd, t.readLoops n = some (.receiving fd) → s.readLoops n = some (.receiving fd) := by
  cases hs with
  | disconnect | reset | connect | connectFails | load => exact hl.elim
  | request | exchange | shutdownSocket | notJoinable | announceDisconnected | setRunning | announceConnected
  | announceFailed | queryAllRelays => exact ⟨rfl,fun _ _ h => h⟩
  | @join _ _ k _ hthread _ =>
    refine ⟨rfl,fun n fd h => ?_⟩
    change Function.update s.readLoops k none n = _ at h
    by_cases hn : n = k
    · rw [hn, Function.update_self] at h
      cases h
    · rwa [Function.update_of_ne hn] at h
  | spawn | takeLine | noLine | receive | receiveFails | clearRunning | announceLost | processResponse =>
    exact ⟨rfl,fun _ _ h => setLoop_receiving (fun _ heq => by cases heq) h⟩
  | checkRunning | isOpen | checkLoss =>
    refine ⟨rfl,fun _ _ h => setLoop_receiving (fun _ heq => ?_) h⟩
    split_ifs at heq

theorem map_run {x : Checked ClientMemory Unit} {m m' : ClientMemory} (hx : x.run m = some ((),m')) :
    ((fun _ => true) <$> x).run m = some (true,m') := by
  rw [StateT.run_map, hx]
  rfl

theorem Inv.program_keeps (hi : Inv d) (hs : DeskController.Step d.desk l t) (hl : Keeps l) (answers : Answers) :
    ∃ ok, d.program answers l d.memory = some (ok,d.memory) := by
  have htransfer {n fd : ℕ} (hn : d.desk.readLoops n = some (.receiving fd)) (bytes : List UInt8) :
      ∃ ok, d.program answers (.receive n bytes) d.memory = some (ok,d.memory) := by
    have hloaded := hi.loaded n fd hn
    cases hfd : d.memory.socketFd with
    | none =>
      rw [hfd] at hloaded
      refine ⟨true,?_⟩
      simp only [program, hloaded]
      rfl
    | some socketFd =>
      rw [hfd] at hloaded
      refine ⟨true,?_⟩
      simp only [program, hloaded]
      exact map_run (hi.held.transfer hfd)
  cases hs with
  | disconnect | reset | connect | connectFails | load => exact hl.elim
  | receive hn | receiveFails hn => exact htransfer hn _
  | shutdownSocket => exact ⟨true,map_run hi.held.shutdownSocket⟩
  | queryAllRelays => exact ⟨true,map_run (hi.held.send _)⟩
  | request | exchange | join | notJoinable | announceDisconnected | setRunning | spawn | announceConnected | announceFailed
  | checkRunning | isOpen | takeLine | noLine | checkLoss | clearRunning | announceLost | processResponse =>
    exact ⟨true,rfl⟩

theorem Inv.program_disconnect (hi : Inv d) (answers : Answers) :
    ∃ memory, d.program answers .disconnect d.memory = some (true,memory) ∧ memory.Closed := by
  obtain ⟨_,memory,hrun,hclosed⟩ := ClientMemory.disconnect_spec d.memory hi.held
  exact ⟨memory,map_run hrun,hclosed⟩

theorem program_connect (hclosed : d.memory.Closed) (answers : Answers) (fd : Option ℕ) :
    ∃ ok memory, d.program answers (.connect fd) d.memory = some (ok,memory) ∧
      if ok then memory.Held ∧ memory.socketFd ≠ none else memory.Closed :=
  ClientMemory.openSocket_spec answers.calls d.useSsl answers.useMtls d.memory hclosed

theorem Inv.connecting (hi : Inv d) {fd : Option ℕ} (hs : DeskController.Step d.desk (.connect fd) t) :
    d.memory.Closed ∧ t.client.socketFd = fd ∧ ∀ n, t.readLoops n = none := by
  cases hs with
  | connect hu | connectFails hu =>
    exact ⟨hi.closed_memory (hi.desk.closed (by rw [hu]; rfl)),rfl,hi.desk.no_reader (hi.desk.alone (by rw [hu]; rfl))⟩

theorem Inv.disconnecting (hi : Inv d) (hs : DeskController.Step d.desk .disconnect t) :
    t.client.socketFd = none ∧ ∀ n, t.readLoops n = none := by
  cases hs with
  | disconnect hu | reset hu => exact ⟨rfl,hi.desk.no_reader (hi.desk.alone (by rw [hu]; rfl))⟩

theorem Inv.keeps (hi : Inv d) (hs : DeskController.Step d.desk l t) (hl : Keeps l)
    (hp : d.program answers l d.memory = some (ok,memory)) : Inv { desk := t, memory, loaded := d.load l } := by
  obtain ⟨_,hrun⟩ := hi.program_keeps hs hl answers
  obtain ⟨-,rfl⟩ := Prod.mk.inj (Option.some.inj (hrun.symm.trans hp))
  obtain ⟨hfd,hreceiving⟩ := keeps_frame hs hl
  have hload : d.load l = d.loaded := by
    cases l with
    | load => exact hl.elim
    | _ => rfl
  refine ⟨hs.inv hi.desk,hi.held,hfd ▸ hi.closed,fun n fd h => ?_⟩
  dsimp only at h ⊢
  rw [hload]
  exact hi.loaded n fd (hreceiving n fd h)

theorem Inv.load (hi : Inv d) {n : ℕ} (hs : DeskController.Step d.desk (.load n) t) :
    Inv { desk := t, memory := d.memory, loaded := d.load (.load n) } := by
  have hdesk := hs.inv hi.desk
  cases hs with
  | load hn =>
    refine ⟨hdesk,hi.held,hi.closed,fun m fd h => ?_⟩
    change Function.update d.loaded n d.memory.socketFd m = _
    rcases DeskController.setLoop_cases h with ⟨rfl,_⟩ | ⟨hne,h⟩
    · exact Function.update_self ..
    · rw [Function.update_of_ne hne]
      exact hi.loaded m fd h

theorem Inv.disconnect (hi : Inv d) (hs : DeskController.Step d.desk .disconnect t)
    (hp : d.program answers .disconnect d.memory = some (ok,memory)) : Inv { desk := t, memory, loaded := d.loaded } := by
  obtain ⟨_,hrun,hclosed⟩ := hi.program_disconnect answers
  obtain ⟨-,rfl⟩ := Prod.mk.inj (Option.some.inj (hrun.symm.trans hp))
  obtain ⟨hfd,hnone⟩ := hi.disconnecting hs
  refine ⟨hs.inv hi.desk,.closed hclosed,iff_of_true hclosed.socketFd hfd,fun n _ h => ?_⟩
  cases (hnone n).symm.trans h

theorem Inv.connect (hi : Inv d) {fd : Option ℕ} (hs : DeskController.Step d.desk (.connect fd) t)
    (hp : d.program answers (.connect fd) d.memory = some (fd.isSome,memory)) :
    Inv { desk := t, memory, loaded := d.loaded } := by
  obtain ⟨hclosed,hfd,hnone⟩ := hi.connecting hs
  have hpost : if fd.isSome then memory.Held ∧ memory.socketFd ≠ none else memory.Closed := by
    obtain ⟨ok,_,hrun,hpost⟩ := program_connect hclosed answers fd
    obtain ⟨hok,rfl⟩ := Prod.mk.inj (Option.some.inj (hrun.symm.trans hp))
    rwa [hok] at hpost
  have hloaded : ∀ n fd, t.readLoops n = some (.receiving fd) → d.loaded n = memory.socketFd := fun n _ h => by
    cases (hnone n).symm.trans h
  cases fd with
  | none =>
    rw [if_neg (by simp)] at hpost
    exact ⟨hs.inv hi.desk,.closed hpost,iff_of_true hpost.socketFd hfd,hloaded⟩
  | some socketFd =>
    rw [if_pos (by simp)] at hpost
    exact ⟨hs.inv hi.desk,hpost.1,iff_of_false hpost.2 (by rw [hfd]; exact Option.some_ne_none _),hloaded⟩

theorem Step.inv {l : Label} (hs : Step d l e) (hi : Inv d) : Inv e := by
  cases hs with
  | @step l _ _ _ hs hp =>
    cases l with
    | disconnect => exact hi.disconnect hs hp
    | connect fd => exact hi.connect hs hp
    | load n =>
      obtain ⟨-,rfl⟩ := Prod.mk.inj (Option.some.inj hp)
      exact hi.load hs
    | _ => exact hi.keeps hs trivial hp
  | command _ hsend =>
    obtain ⟨-,rfl⟩ := Prod.mk.inj (Option.some.inj ((hi.held.send _).symm.trans hsend))
    exact hi

theorem Inv.safe (hi : Inv d) : Safe d where
  step l t answers hs := by
    cases l with
    | disconnect =>
      obtain ⟨_,hrun,_⟩ := hi.program_disconnect answers
      exact Option.ne_none_iff_exists'.mpr ⟨_,hrun⟩
    | connect fd =>
      obtain ⟨_,_,hrun,_⟩ := program_connect (hi.connecting hs).1 answers fd
      exact Option.ne_none_iff_exists'.mpr ⟨_,hrun⟩
    | load => exact Option.some_ne_none _
    | _ =>
      obtain ⟨_,hrun⟩ := hi.program_keeps hs trivial answers
      exact Option.ne_none_iff_exists'.mpr ⟨_,hrun⟩
  command writes := Option.ne_none_iff_exists'.mpr ⟨_,hi.held.send writes⟩
  closed hfd := (hi.closed_memory hfd).heap.objects
  destroy := by
    obtain ⟨_,memory,hrun,hclosed⟩ :=
      (ClientMemory.disconnect_spec.bind fun _ => ClientMemory.sslDisconnect_none) d.memory hi.held
    exact ⟨memory,hrun,hclosed.heap.objects⟩

/-- In every run of the user interface and its read threads, whichever calls fail and whenever the server closes: no step
that can come next closes or frees anything twice or calls a function on what was closed or freed, a client without a
connection holds nothing, and its destruction leaves nothing open. -/
theorem client_memory_safe (es : List Label) (d : DeskMemory) (hr : Run Step {} es d) : Safe d :=
  (hr.invariant (fun _ _ _ hi hs => Step.inv hs hi) .initial).safe

theorem step_memory (memory : ClientMemory) (hs : DeskController.Step d.desk l t)
    (hp : d.program answers l d.memory = some (succeeds l,memory)) :
    Step d (.step l answers) { desk := t, memory, loaded := d.load l } := .step hs hp

/-- A connect with SSL, and the window closed while the read thread is in `SSL_read`. -/
theorem client_memory_safe_session : ∃ es d, Run Step {} es d ∧ d.desk.readLoops 0 = some (.receiving 5) ∧
    d.desk.ui = .joining true .stop ∧ d.memory.ssl = some 2 ∧ Safe d := by
  let answers : Answers := ⟨⟨3,1,0,true,1,1,1,true,1⟩,false,2⟩
  let secured : ClientMemory := ⟨⟨[(2,.session 0),(1,.context),(0,.socket)],3⟩,some 0,true,some 1,some 2⟩
  have hsecured : secured.Held := .secured 0 1 2 ⟨⟨rfl,by decide,by decide⟩,rfl,rfl,rfl⟩
  have hr : Run Step {} [.step (.request (.requestConnect true)) answers,.step .exchange answers,
      .step .shutdownSocket answers,.step .join answers,.step .disconnect answers,.step .announceDisconnected answers,
      .step .disconnect answers,.step (.connect (some 5)) answers,.step .setRunning answers,.step .spawn answers,
      .step .announceConnected answers,.step .queryAllRelays answers,.step (.checkRunning 0) answers,
      .step (.isOpen 0) answers,.step (.scan 0) answers,.step (.load 0) answers,.command 1,.step (.request .stop) answers,
      .step .exchange answers,.step .shutdownSocket answers] _ :=
    .step (step_memory {} (.request rfl) rfl) (.step (step_memory {} (.exchange rfl) rfl)
    (.step (step_memory {} (.shutdownSocket rfl) rfl) (.step (step_memory {} (.notJoinable rfl rfl) rfl)
    (.step (step_memory {} (.disconnect rfl) rfl) (.step (step_memory {} (.announceDisconnected rfl) rfl)
    (.step (step_memory {} (.reset rfl) rfl) (.step (step_memory secured (.connect rfl rfl) rfl)
    (.step (step_memory secured (.setRunning rfl) rfl) (.step (step_memory secured (.spawn rfl) rfl)
    (.step (step_memory secured (.announceConnected rfl) rfl)
    (.step (step_memory secured (.queryAllRelays rfl) (map_run (hsecured.send 2)))
    (.step (step_memory secured (.checkRunning rfl) rfl) (.step (step_memory secured (.isOpen rfl) rfl)
    (.step (step_memory secured (.noLine rfl rfl) rfl) (.step (step_memory secured (.load rfl) rfl)
    (.step (.command rfl (hsecured.send 1)) (.step (step_memory secured (.request rfl) rfl)
    (.step (step_memory secured (.exchange rfl) rfl)
    (.single (step_memory secured (.shutdownSocket rfl) rfl))))))))))))))))))))
  exact ⟨_,_,hr,rfl,rfl,rfl,client_memory_safe _ _ hr⟩

end DeskMemory
end MiniHil
