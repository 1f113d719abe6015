import Mathlib.Data.Finset.Erase
import Mathlib.Data.Finset.Insert
import Mathlib.Logic.Function.Basic
import MiniHil.Foundation.Runs

/-! # The session table of the TLS server

The listener, any number of client handlers and the critical sections of `m_clientsMutex`, step by
step. Connections are numbered; the SSL object created for a connection has its number. A handler
knows its connection only by the descriptor, which the system may hand out again once it is closed.
-/
namespace MiniHil
open Runs

/-- `ClientSession` -/
structure ClientSession where
  socketFd : ℕ
  ssl : ℕ
  deriving DecidableEq, Repr

/-- Where `listenLoop` stands. -/
inductive Listener
  | accepting
  | accepted (connection socketFd : ℕ)
  | tracked (connection socketFd : ℕ)
  deriving DecidableEq, Repr

/-- Where `handleClient` stands; a handshake that fails and a connection that ends are both torn
down by freeing the SSL object, closing the descriptor and removing the entry. -/
inductive Phase
  | spawned
  | handshaking
  | serving
  | freeing
  | closing
  | removing
  | ended
  deriving DecidableEq, Repr

def Phase.entered : Phase → Bool
  | .spawned | .ended => false
  | _ => true

/-- `SSL_free` was called. -/
def Phase.released : Phase → Bool
  | .closing | .removing | .ended => true
  | _ => false

structure Handler where
  socketFd : ℕ
  phase : Phase := .spawned
  ssl : Option ℕ := none
  deriving DecidableEq, Repr

structure Sessions where
  connections : ℕ := 0
  listener : Listener := .accepting
  clientSessions : List ClientSession := []
  handlers : ℕ → Option Handler := fun _ => none
  openFds : Finset ℕ := ∅
  freed : List ℕ := []

namespace Sessions

inductive Label
  | accept (socketFd : ℕ)
  | push
  | spawn
  | lookup (connection : ℕ)
  | handshake (connection : ℕ) (ok : Bool)
  | transfer (connection : ℕ)
  | disconnect (connection : ℕ)
  | free (connection : ℕ)
  | close (connection : ℕ)
  | remove (connection : ℕ)
  deriving DecidableEq, Repr

def find (socketFd : ℕ) (clientSessions : List ClientSession) : Option ClientSession :=
  clientSessions.find? fun session => session.socketFd = socketFd

def erase (socketFd : ℕ) (clientSessions : List ClientSession) : List ClientSession :=
  clientSessions.eraseP fun session => session.socketFd = socketFd

def setHandler (s : Sessions) (connection : ℕ) (h : Handler) : Sessions :=
  { s with handlers := Function.update s.handlers connection (some h) }

def lookUp (clientSessions : List ClientSession) (h : Handler) : Handler :=
  match find h.socketFd clientSessions with
  | some session => { h with ssl := some session.ssl, phase := .handshaking }
  | none => { h with ssl := none, phase := .serving }

inductive Step (s : Sessions) : Label → Sessions → Prop
  | accept {socketFd : ℕ} : s.listener = .accepting → socketFd ∉ s.openFds →
      Step s (.accept socketFd) { s with
        connections := s.connections + 1, listener := .accepted s.connections socketFd
        openFds := insert socketFd s.openFds }
  | push {n socketFd : ℕ} : s.listener = .accepted n socketFd →
      Step s .push { s with
        listener := .tracked n socketFd, clientSessions := s.clientSessions ++ [⟨socketFd,n⟩] }
  | spawn {n socketFd : ℕ} : s.listener = .tracked n socketFd →
      Step s .spawn { s.setHandler n { socketFd } with listener := .accepting }
  | lookup {n : ℕ} {h : Handler} : s.handlers n = some h → h.phase = .spawned →
      Step s (.lookup n) (s.setHandler n (lookUp s.clientSessions h))
  | handshake {n : ℕ} {h : Handler} {ok : Bool} : s.handlers n = some h → h.phase = .handshaking →
      Step s (.handshake n ok) (s.setHandler n { h with phase := if ok then .serving else .freeing })
  | transfer {n : ℕ} {h : Handler} : s.handlers n = some h → h.phase = .serving → Step s (.transfer n) s
  | disconnect {n : ℕ} {h : Handler} : s.handlers n = some h → h.phase = .serving →
      Step s (.disconnect n) (s.setHandler n { h with phase := .freeing })
  | free {n : ℕ} {h : Handler} : s.handlers n = some h → h.phase = .freeing →
      Step s (.free n) { s.setHandler n { h with phase := .closing } with freed := h.ssl.toList ++ s.freed }
  | close {n : ℕ} {h : Handler} : s.handlers n = some h → h.phase = .closing →
      Step s (.close n) { s.setHandler n { h with phase := .removing } with openFds := s.openFds.erase h.socketFd }
  | remove {n : ℕ} {h : Handler} : s.handlers n = some h → h.phase = .removing →
      Step s (.remove n) { s.setHandler n { h with phase := .ended } with
        clientSessions := erase h.socketFd s.clientSessions }

def Label.usesSsl : Label → Option ℕ
  | .handshake n _ | .transfer n | .disconnect n | .free n => some n
  | _ => none

/-- The SSL object that a step uses was created for the handler's own connection and has not been
freed, and the entry that a step removes was pushed for it. -/
def Safe (s : Sessions) (l : Label) (_ : Sessions) : Prop :=
  (∀ n h ssl, l.usesSsl = some n → s.handlers n = some h → h.ssl = some ssl → ssl = n ∧ ssl ∉ s.freed) ∧
  ∀ n h session, l = .remove n → s.handlers n = some h → find h.socketFd s.clientSessions = some session →
    session.ssl = n

/-- When a handler looks itself up, no entry of another connection has its descriptor. -/
def LooksUpAlone (s : Sessions) (l : Label) (_ : Sessions) : Prop :=
  ∀ n h, l = .lookup n → s.handlers n = some h →
    ∀ session ∈ s.clientSessions, session.socketFd = h.socketFd → session.ssl = n

section
variable {socketFd other : ℕ} {session : ClientSession} {clientSessions : List ClientSession}

theorem find_append (h : find socketFd clientSessions = some session) (more : List ClientSession) :
    find socketFd (clientSessions ++ more) = some session := by
  rw [find, List.find?_append]
  rw [find] at h
  rw [h]
  rfl

theorem find_erase_ne (h : socketFd ≠ other) :
    find socketFd (erase other clientSessions) = find socketFd clientSessions := by
  induction clientSessions with
  | nil => rfl
  | cons x xs ih =>
    unfold find erase at *
    by_cases hx : x.socketFd = other
    · have hne : ¬x.socketFd = socketFd := fun hs => h (hs.symm.trans hx)
      rw [List.eraseP_cons_of_pos (by simpa using hx), List.find?_cons_of_neg (by simpa using hne)]
    · rw [List.eraseP_cons_of_neg (by simpa using hx), List.find?_cons, List.find?_cons, ih]

theorem mem_erase {found : ClientSession} (hf : find socketFd clientSessions = some found)
    (hm : session ∈ clientSessions) (hne : session ≠ found) : session ∈ erase socketFd clientSessions := by
  induction clientSessions with
  | nil => cases hm
  | cons x xs ih =>
    unfold find erase at *
    by_cases hx : x.socketFd = socketFd
    · simp only [List.find?_cons, hx, decide_true, Option.some.injEq] at hf
      rw [List.eraseP_cons_of_pos (by simpa using hx)]
      rcases List.mem_cons.mp hm with rfl | hm
      · exact absurd hf hne
      · exact hm
    · rw [List.eraseP_cons_of_neg (by simpa using hx)]
      rw [List.find?_cons_of_neg (by simpa using hx)] at hf
      rcases List.mem_cons.mp hm with rfl | hm
      · exact List.mem_cons_self
      · exact List.mem_cons_of_mem _ (ih hf hm)

theorem find_of_alone (hm : session ∈ clientSessions)
    (hall : ∀ x ∈ clientSessions, x.socketFd = session.socketFd → x.ssl = session.ssl) :
    find session.socketFd clientSessions = some session := by
  cases hf : find session.socketFd clientSessions with
  | none =>
    have hno := List.find?_eq_none.mp hf session hm
    simp at hno
  | some x =>
    have hfd : x.socketFd = session.socketFd := by simpa using List.find?_some hf
    have hssl := hall x (List.mem_of_find?_eq_some hf) hfd
    rcases x with ⟨fd,ssl⟩
    rcases session with ⟨fd',ssl'⟩
    dsimp only at hfd hssl
    rw [hfd, hssl]

end

structure Inv (s : Sessions) : Prop where
  handler_lt : ∀ n h, s.handlers n = some h → n < s.connections
  accepted_fresh : ∀ n fd, s.listener = .accepted n fd → n < s.connections ∧ s.handlers n = none
  tracked_fresh : ∀ n fd, s.listener = .tracked n fd →
    n < s.connections ∧ s.handlers n = none ∧ ⟨fd,n⟩ ∈ s.clientSessions
  present : ∀ n h, s.handlers n = some h → h.phase ≠ .ended → ⟨h.socketFd,n⟩ ∈ s.clientSessions
  found : ∀ n h, s.handlers n = some h → h.phase.entered →
    h.ssl = some n ∧ find h.socketFd s.clientSessions = some ⟨h.socketFd,n⟩
  freed_released : ∀ n ∈ s.freed, ∃ h, s.handlers n = some h ∧ h.phase.released

theorem Inv.initial : Inv {} where
  handler_lt _ _ h := nomatch h
  accepted_fresh _ _ h := nomatch h
  tracked_fresh _ _ h := nomatch h
  present _ _ h := nomatch h
  found _ _ h := nomatch h
  freed_released _ h := nomatch h

variable {s t : Sessions} {n : ℕ} {h : Handler}

theorem setHandler_cases {m : ℕ} {h' k : Handler} (hk : (s.setHandler n h').handlers m = some k) :
    m = n ∧ k = h' ∨ m ≠ n ∧ s.handlers m = some k := by
  change Function.update s.handlers n (some h') m = some k at hk
  by_cases hm : m = n
  · rw [hm, Function.update_self, Option.some.injEq] at hk
    exact .inl ⟨hm,hk.symm⟩
  · rw [Function.update_of_ne hm] at hk
    exact .inr ⟨hm,hk⟩

theorem Inv.advance (hi : Inv s) (hn : s.handlers n = some h) (h' : Handler) (hfd : h'.socketFd = h.socketFd)
    (hend : h.phase ≠ .ended)
    (hfound : h'.phase.entered → h'.ssl = some n ∧ find h.socketFd s.clientSessions = some ⟨h.socketFd,n⟩)
    {freed : List ℕ} (hfreed : ∀ m ∈ freed, m = n ∨ m ∈ s.freed) (hrel : n ∈ freed → h'.phase.released)
    (openFds : Finset ℕ) : Inv { s.setHandler n h' with freed, openFds } where
  handler_lt m k hk := by
    rcases setHandler_cases hk with ⟨rfl,rfl⟩ | ⟨_,hk⟩
    · exact hi.handler_lt m h hn
    · exact hi.handler_lt m k hk
  accepted_fresh m fd hl := by
    obtain ⟨hlt,hnone⟩ := hi.accepted_fresh m fd hl
    have hm : m ≠ n := fun hm => by rw [hm, hn] at hnone; cases hnone
    exact ⟨hlt,(Function.update_of_ne hm ..).trans hnone⟩
  tracked_fresh m fd hl := by
    obtain ⟨hlt,hnone,hmem⟩ := hi.tracked_fresh m fd hl
    have hm : m ≠ n := fun hm => by rw [hm, hn] at hnone; cases hnone
    exact ⟨hlt,(Function.update_of_ne hm ..).trans hnone,hmem⟩
  present m k hk hp := by
    rcases setHandler_cases hk with ⟨rfl,rfl⟩ | ⟨_,hk⟩
    · rw [hfd]
      exact hi.present m h hn hend
    · exact hi.present m k hk hp
  found m k hk hp := by
    rcases setHandler_cases hk with ⟨rfl,rfl⟩ | ⟨_,hk⟩
    · rw [hfd]
      exact hfound hp
    · exact hi.found m k hk hp
  freed_released m hm := by
    by_cases hmn : m = n
    · subst hmn
      exact ⟨h',Function.update_self ..,hrel hm⟩
    · obtain ⟨k,hk,hr⟩ := hi.freed_released m ((hfreed m hm).resolve_left hmn)
      exact ⟨k,(Function.update_of_ne hmn ..).trans hk,hr⟩

/-- A handler whose lookup is over and that did not free its SSL object yet still has it. -/
theorem Inv.not_freed (hi : Inv s) (hn : s.handlers n = some h) (hp : ¬h.phase.released) : n ∉ s.freed := by
  intro hf
  obtain ⟨k,hk,hr⟩ := hi.freed_released n hf
  rw [hn, Option.some.injEq] at hk
  exact hp (hk ▸ hr)

theorem Inv.setPhase (hi : Inv s) (hn : s.handlers n = some h) {p : Phase} (hentered : h.phase.entered)
    (hrel : h.phase.released → p.released) (openFds : Finset ℕ) :
    Inv { s.setHandler n { h with phase := p } with openFds } := by
  refine hi.advance hn { h with phase := p } rfl ?_ (fun _ => hi.found n h hn hentered) (fun _ hm => .inr hm) ?_ openFds
  · intro hend
    rw [hend] at hentered
    cases hentered
  · intro hf
    by_contra hp
    exact hi.not_freed hn (fun hr => hp (hrel hr)) hf

theorem Inv.free (hi : Inv s) (hn : s.handlers n = some h) (hp : h.phase = .freeing) :
    Inv { s.setHandler n { h with phase := .closing } with freed := h.ssl.toList ++ s.freed } := by
  have hf := hi.found n h hn (by rw [hp]; rfl)
  refine hi.advance hn { h with phase := .closing } rfl (by rw [hp]; decide) (fun _ => hf) ?_ (fun _ => rfl) s.openFds
  intro m hm
  rw [hf.1] at hm
  exact List.mem_cons.mp hm

theorem Inv.lookUp (hi : Inv s) (hn : s.handlers n = some h) (hp : h.phase = .spawned)
    (halone : ∀ session ∈ s.clientSessions, session.socketFd = h.socketFd → session.ssl = n) :
    Inv (s.setHandler n (lookUp s.clientSessions h)) := by
  have hmem := hi.present n h hn (by rw [hp]; decide)
  have hfind : find h.socketFd s.clientSessions = some ⟨h.socketFd,n⟩ := find_of_alone hmem halone
  have heq : Sessions.lookUp s.clientSessions h = { h with ssl := some n, phase := .handshaking } := by
    rw [Sessions.lookUp, hfind]
  rw [heq]
  refine hi.advance hn { h with ssl := some n, phase := .handshaking } rfl (by rw [hp]; decide) (fun _ => ⟨rfl,hfind⟩)
    (fun _ hm => .inr hm) ?_ s.openFds
  intro hf
  exact absurd hf (hi.not_freed hn (by rw [hp]; decide))

theorem Inv.remove (hi : Inv s) (hn : s.handlers n = some h) (hp : h.phase = .removing) :
    Inv { s.setHandler n { h with phase := .ended } with clientSessions := erase h.socketFd s.clientSessions } := by
  obtain ⟨hssl,hfind⟩ := hi.found n h hn (by rw [hp]; rfl)
  have hend : Inv (s.setHandler n { h with phase := .ended }) := by
    refine hi.advance hn { h with phase := .ended } rfl ?_ (fun he => nomatch he) (fun _ hm => .inr hm) ?_ s.openFds
    · rw [hp]
      decide
    · exact fun _ => rfl
  exact {
    handler_lt := hend.handler_lt
    accepted_fresh := hend.accepted_fresh
    freed_released := hend.freed_released
    tracked_fresh := fun m fd hl => by
      obtain ⟨hlt,hnone,hmem⟩ := hend.tracked_fresh m fd hl
      refine ⟨hlt,hnone,mem_erase hfind hmem ?_⟩
      intro heq
      have hm : m = n := congrArg ClientSession.ssl heq
      subst hm
      cases (Function.update_self ..).symm.trans hnone
    present := fun m k hk hke => by
      rcases setHandler_cases hk with ⟨rfl,rfl⟩ | ⟨hm,hk'⟩
      · exact absurd rfl hke
      · refine mem_erase hfind (hi.present m k hk' hke) ?_
        intro heq
        exact hm (congrArg ClientSession.ssl heq)
    found := fun m k hk hke => by
      rcases setHandler_cases hk with ⟨rfl,rfl⟩ | ⟨hm,hk'⟩
      · cases hke
      · obtain ⟨hks,hkf⟩ := hi.found m k hk' hke
        have hne : k.socketFd ≠ h.socketFd := by
          intro hfd
          rw [hfd, hfind, Option.some.injEq] at hkf
          exact hm (congrArg ClientSession.ssl hkf).symm
        exact ⟨hks,(find_erase_ne hne).trans hkf⟩ }

theorem Inv.accept (hi : Inv s) (socketFd : ℕ) :
    Inv { s with
      connections := s.connections + 1, listener := .accepted s.connections socketFd
      openFds := insert socketFd s.openFds } where
  handler_lt m k hk := Nat.lt_succ_of_lt (hi.handler_lt m k hk)
  accepted_fresh m fd hm := by
    obtain ⟨rfl,rfl⟩ := Listener.accepted.inj hm
    refine ⟨Nat.lt_succ_self _,?_⟩
    cases hk : s.handlers s.connections with
    | none => rfl
    | some k => exact absurd (hi.handler_lt _ k hk) (Nat.lt_irrefl _)
  tracked_fresh _ _ hm := nomatch hm
  present := hi.present
  found := hi.found
  freed_released := hi.freed_released

theorem Inv.push (hi : Inv s) {socketFd : ℕ} (hl : s.listener = .accepted n socketFd) :
    Inv { s with
      listener := .tracked n socketFd, clientSessions := s.clientSessions ++ [⟨socketFd,n⟩] } where
  handler_lt := hi.handler_lt
  accepted_fresh _ _ hm := nomatch hm
  tracked_fresh m fd hm := by
    obtain ⟨rfl,rfl⟩ := Listener.tracked.inj hm
    obtain ⟨hlt,hnone⟩ := hi.accepted_fresh _ _ hl
    exact ⟨hlt,hnone,List.mem_append_right _ (List.mem_singleton_self _)⟩
  present m k hk hp := List.mem_append_left _ (hi.present m k hk hp)
  found m k hk hp := ⟨(hi.found m k hk hp).1,find_append (hi.found m k hk hp).2 _⟩
  freed_released := hi.freed_released

theorem Inv.spawn (hi : Inv s) {socketFd : ℕ} (hl : s.listener = .tracked n socketFd) :
    Inv { s.setHandler n { socketFd } with listener := .accepting } where
  handler_lt m k hk := by
    rcases setHandler_cases hk with ⟨rfl,-⟩ | ⟨_,hk⟩
    · exact (hi.tracked_fresh m socketFd hl).1
    · exact hi.handler_lt m k hk
  accepted_fresh _ _ hm := nomatch hm
  tracked_fresh _ _ hm := nomatch hm
  present m k hk hp := by
    rcases setHandler_cases hk with ⟨rfl,rfl⟩ | ⟨_,hk⟩
    · exact (hi.tracked_fresh m socketFd hl).2.2
    · exact hi.present m k hk hp
  found m k hk hp := by
    rcases setHandler_cases hk with ⟨rfl,rfl⟩ | ⟨_,hk⟩
    · cases hp
    · exact hi.found m k hk hp
  freed_released m hm := by
    obtain ⟨k,hk,hr⟩ := hi.freed_released m hm
    have hmn : m ≠ n := by
      rintro rfl
      rw [(hi.tracked_fresh m socketFd hl).2.1] at hk
      cases hk
    exact ⟨k,(Function.update_of_ne hmn ..).trans hk,hr⟩

theorem Inv.step {l : Label} (hi : Inv s) (halone : LooksUpAlone s l t) (hs : Step s l t) : Inv t := by
  cases hs with
  | accept _ _ => exact hi.accept _
  | push hl => exact hi.push hl
  | spawn hl => exact hi.spawn hl
  | lookup hn hp => exact hi.lookUp hn hp (halone _ _ rfl hn)
  | handshake hn hp | disconnect hn hp =>
    refine hi.setPhase hn (by rw [hp]; rfl) ?_ s.openFds
    intro hr
    rw [hp] at hr
    cases hr
  | transfer _ _ => exact hi
  | free hn hp => exact hi.free hn hp
  | close hn hp => exact hi.setPhase hn (by rw [hp]; rfl) (fun _ => rfl) _
  | remove hn hp => exact hi.remove hn hp

/-- What a step uses is its own, because the handler found its own entry. -/
theorem Inv.safe {l : Label} (hi : Inv s) (hs : Step s l t) : Safe s l t := by
  have hown : ∀ n h h', s.handlers n = some h → s.handlers n = some h' → h'.phase.entered → ¬h'.phase.released →
      ∀ ssl, h.ssl = some ssl → ssl = n ∧ ssl ∉ s.freed := by
    intro n h h' hh hh' hentered hrel ssl hssl
    obtain rfl := Option.some.inj (hh.symm.trans hh')
    rw [(hi.found n h hh hentered).1, Option.some.injEq] at hssl
    exact ⟨hssl.symm,hssl ▸ hi.not_freed hh hrel⟩
  constructor
  · intro n h ssl hu hh hssl
    cases hs with
    | handshake hn hp | transfer hn hp | disconnect hn hp | free hn hp =>
      cases hu
      exact hown n h _ hh hn (by rw [hp]; rfl) (by rw [hp]; decide) ssl hssl
    | _ => cases hu
  · intro n h session hl hh hfind
    subst hl
    cases hs with
    | remove hn hp =>
      obtain rfl := Option.some.inj (hh.symm.trans hn)
      rw [(hi.found n h hh (by rw [hp]; rfl)).2, Option.some.injEq] at hfind
      rw [← hfind]

/-- In every run in which a handler looks itself up only after the last handler with its descriptor
has removed its entry, no step goes wrong. -/
theorem sessions_kept_apart {es : List Label} (h : Always Step LooksUpAlone {} es) : Always Step Safe {} es :=
  h.of_guard Inv.initial (fun _ _ _ hi halone hs => hi.step halone hs) (fun _ _ _ hi hs => hi.safe hs)

/-- Two connections with descriptor 7, one after the other: the entry of the first is removed before the second is
accepted. -/
theorem sessions_kept_apart_reused :
    let es : List Label := [.accept 7,.push,.spawn,.lookup 0,.handshake 0 true,.disconnect 0,.free 0,.close 0,.remove 0,
      .accept 7,.push,.spawn,.lookup 1,.handshake 1 true]
    Always Step Safe {} es ∧ ∃ s, Run Step {} es s ∧ s.freed = [0] := by
  intro es
  have hother {s t : Sessions} {l : Label} (hl : ∀ n, l ≠ .lookup n) : LooksUpAlone s l t :=
    fun n _ heq => absurd heq (hl n)
  refine ⟨sessions_kept_apart ?_,_,.step (.accept rfl (by decide)) (.step (.push rfl) (.step (.spawn rfl)
    (.step (.lookup rfl rfl) (.step (.handshake rfl rfl) (.step (.disconnect rfl rfl) (.step (.free rfl rfl)
    (.step (.close rfl rfl) (.step (.remove rfl rfl) (.step (.accept rfl (by decide)) (.step (.push rfl)
    (.step (.spawn rfl) (.step (.lookup rfl rfl) (.single (.handshake rfl rfl)))))))))))))),rfl⟩
  refine .cons fun _ hs => ⟨hother (by simp),?_⟩
  cases hs with | accept
  refine .cons fun _ hs => ⟨hother (by simp),?_⟩
  cases hs with | push hl
  cases hl
  refine .cons fun _ hs => ⟨hother (by simp),?_⟩
  cases hs with | spawn hl
  cases hl
  refine .cons fun _ hs => ⟨?_,?_⟩
  · rintro n h ⟨⟩ _ session hm _
    rw [List.mem_singleton.mp hm]
  cases hs with | lookup hn
  obtain rfl := Option.some.inj hn
  refine .cons fun _ hs => ⟨hother (by simp),?_⟩
  cases hs with | handshake hn
  obtain rfl := Option.some.inj hn
  refine .cons fun _ hs => ⟨hother (by simp),?_⟩
  cases hs with | disconnect hn
  obtain rfl := Option.some.inj hn
  refine .cons fun _ hs => ⟨hother (by simp),?_⟩
  cases hs with | free hn
  obtain rfl := Option.some.inj hn
  refine .cons fun _ hs => ⟨hother (by simp),?_⟩
  cases hs with | close hn
  obtain rfl := Option.some.inj hn
  refine .cons fun _ hs => ⟨hother (by simp),?_⟩
  cases hs with | remove hn
  obtain rfl := Option.some.inj hn
  refine .cons fun _ hs => ⟨hother (by simp),?_⟩
  cases hs with | accept
  refine .cons fun _ hs => ⟨hother (by simp),?_⟩
  cases hs with | push hl
  cases hl
  refine .cons fun _ hs => ⟨hother (by simp),?_⟩
  cases hs with | spawn hl
  cases hl
  refine .cons fun _ hs => ⟨?_,?_⟩
  · rintro n h ⟨⟩ _ session hm _
    rw [List.mem_singleton.mp hm]
    rfl
  cases hs with | lookup hn
  obtain rfl := Option.some.inj hn
  exact .cons fun _ _ => ⟨hother (by simp),.nil⟩

/-- The first connection closes descriptor 7, the second one gets it before the entry of the first
is removed, and its handler shakes hands over the SSL object that was freed. -/
theorem sessions_kept_apart_fails : ¬∀ es : List Label, Always Step Safe {} es := by
  intro h
  have hsafe := h [.accept 7,.push,.spawn,.lookup 0,.handshake 0 true,.disconnect 0,.free 0,.close 0,
      .accept 7,.push,.spawn,.lookup 1,.handshake 1 true]
    [.accept 7,.push,.spawn,.lookup 0,.handshake 0 true,.disconnect 0,.free 0,.close 0,
      .accept 7,.push,.spawn,.lookup 1] (.handshake 1 true) [] _ _ rfl
    (.step (.accept rfl (by decide)) (.step (.push rfl) (.step (.spawn rfl) (.step (.lookup rfl rfl)
      (.step (.handshake rfl rfl) (.step (.disconnect rfl rfl) (.step (.free rfl rfl) (.step (.close rfl rfl)
      (.step (.accept rfl (by decide)) (.step (.push rfl) (.step (.spawn rfl)
      (.step (.lookup rfl rfl) .refl)))))))))))) (.handshake rfl rfl)
  exact absurd (hsafe.1 1 _ 0 rfl rfl rfl).1 (by decide)

end Sessions
end MiniHil
