import MiniHil.Foundation.Registry
import MiniHil.Network.Sessions

/-! # The session table and its holders

A connection is in the table from before its handler is started until after the handler has closed the
descriptor. Handlers find and remove entries by descriptor only, and with a reused descriptor they may take
each other's; the table still has as many entries with a descriptor as there are connections with it.
-/
namespace MiniHil
open Registry

/-- `close` was called. -/
def Phase.closed : Phase → Bool
  | .removing | .ended => true
  | _ => false

namespace Sessions

/-- The descriptor with which a connection is in the table. -/
def entry (s : Sessions) (n : ℕ) : Option ℕ :=
  match s.handlers n, s.listener with
  | some h, _ => if h.phase = .ended then none else some h.socketFd
  | none, .tracked m socketFd => if m = n then some socketFd else none
  | none, _ => none

/-- The listener has accepted the connection and not yet started its handler. -/
def Accepting (s : Sessions) (n socketFd : ℕ) : Prop :=
  s.listener = .accepted n socketFd ∨ s.listener = .tracked n socketFd

theorem not_accepting {s : Sessions} (hl : s.listener = .accepting) (n socketFd : ℕ) : ¬s.Accepting n socketFd := by
  rintro (ha | ha)
  all_goals
    rw [hl] at ha
    cases ha

theorem Accepting.unique {s : Sessions} {m n fd socketFd : ℕ} (hm : s.Accepting m fd) (hn : s.Accepting n socketFd) :
    m = n ∧ fd = socketFd := by
  rcases hn with hl | hl <;> rcases hm with ha | ha
  all_goals
    rw [hl] at ha
    cases ha
  all_goals exact ⟨rfl,rfl⟩

/-- Every connection has a handler or is still with the listener, the table has an entry for each one
that is tracked, and every open descriptor belongs to one that has not closed it. -/
structure Kept (s : Sessions) : Prop where
  handler_lt : ∀ n h, s.handlers n = some h → n < s.connections
  fresh : ∀ n socketFd, s.Accepting n socketFd → n < s.connections ∧ s.handlers n = none
  started : ∀ n < s.connections, s.handlers n = none → ∃ socketFd, s.Accepting n socketFd
  table : Matches (Finset.range s.connections) s.entry (s.clientSessions.map ClientSession.socketFd)
  opened : ∀ socketFd ∈ s.openFds, (∃ n, s.Accepting n socketFd) ∨
    ∃ n h, s.handlers n = some h ∧ h.socketFd = socketFd ∧ h.phase.closed = false

theorem Kept.initial : Kept {} where
  handler_lt _ _ h := nomatch h
  fresh _ _ h := h.elim nofun nofun
  started n hn := absurd hn (Nat.not_lt_zero n)
  table := matches_empty _
  opened _ h := absurd h (Finset.notMem_empty _)

variable {s t : Sessions} {n socketFd : ℕ} {h h' : Handler}

theorem entry_setHandler (s : Sessions) (n : ℕ) (h : Handler) :
    (s.setHandler n h).entry = Function.update s.entry n (if h.phase = .ended then none else some h.socketFd) := by
  funext m
  by_cases hm : m = n
  · subst hm
    simp [entry, setHandler]
  · simp [entry, setHandler, hm]

theorem entry_of_handler (hn : s.handlers n = some h) :
    s.entry n = if h.phase = .ended then none else some h.socketFd := by
  simp [entry, hn]

theorem entry_advance (hn : s.handlers n = some h) (hfd : h'.socketFd = h.socketFd) (hend : h.phase ≠ .ended)
    (hend' : h'.phase ≠ .ended) : (s.setHandler n h').entry = s.entry := by
  have hentry : s.entry n = some h.socketFd := (entry_of_handler hn).trans (if_neg hend)
  rw [entry_setHandler, if_neg hend', hfd, ← hentry, Function.update_eq_self]

theorem map_erase (socketFd : ℕ) (clientSessions : List ClientSession) :
    (erase socketFd clientSessions).map ClientSession.socketFd =
      (clientSessions.map ClientSession.socketFd).erase socketFd := by
  have hkey : (fun session : ClientSession => decide (session.socketFd = socketFd)) =
      (fun fd => fd == socketFd) ∘ ClientSession.socketFd := by
    funext session
    exact (beq_eq_decide _ _).symm
  rw [List.erase_eq_eraseP', List.eraseP_map, erase, hkey]

theorem Kept.handler_lt_setHandler (hk : Kept s) (hn : s.handlers n = some h) (m : ℕ) (k : Handler)
    (hm : (s.setHandler n h').handlers m = some k) : m < s.connections := by
  rcases setHandler_cases hm with ⟨rfl,-⟩ | ⟨_,hm⟩
  · exact hk.handler_lt m h hn
  · exact hk.handler_lt m k hm

theorem Kept.fresh_setHandler (hk : Kept s) (hn : s.handlers n = some h) (m fd : ℕ) (hl : s.Accepting m fd) :
    m < s.connections ∧ (s.setHandler n h').handlers m = none := by
  obtain ⟨hlt,hnone⟩ := hk.fresh m fd hl
  have hm : m ≠ n := fun hm => by rw [hm, hn] at hnone; cases hnone
  exact ⟨hlt,(Function.update_of_ne hm ..).trans hnone⟩

theorem Kept.started_setHandler (hk : Kept s) (m : ℕ) (hlt : m < s.connections)
    (hnone : (s.setHandler n h').handlers m = none) : m ≠ n ∧ ∃ fd, s.Accepting m fd := by
  have hm : m ≠ n := by
    rintro rfl
    cases (Function.update_self ..).symm.trans hnone
  exact ⟨hm,hk.started m hlt ((Function.update_of_ne hm ..).symm.trans hnone)⟩

theorem Kept.advance (hk : Kept s) (hn : s.handlers n = some h) (h' : Handler) (hfd : h'.socketFd = h.socketFd)
    (hend : h.phase ≠ .ended) (hend' : h'.phase ≠ .ended) {openFds : Finset ℕ} (hsub : openFds ⊆ s.openFds)
    (hclosed : h'.phase.closed = true → h.socketFd ∉ openFds) (freed : List ℕ) :
    Kept { s.setHandler n h' with freed, openFds } where
  handler_lt := hk.handler_lt_setHandler hn
  fresh := hk.fresh_setHandler hn
  started m hlt hnone := (hk.started_setHandler m hlt hnone).2
  table := by
    change Matches _ (s.setHandler n h').entry _
    rw [entry_advance hn hfd hend hend']
    exact hk.table
  opened fd hopen := by
    rcases hk.opened fd (hsub hopen) with hl | ⟨m,k,hm,rfl,hc⟩
    · exact .inl hl
    · right
      by_cases hmn : m = n
      · subst hmn
        obtain rfl := Option.some.inj (hm.symm.trans hn)
        refine ⟨m,h',Function.update_self ..,hfd,?_⟩
        rw [Bool.eq_false_iff]
        exact fun hc' => hclosed hc' hopen
      · exact ⟨m,k,(Function.update_of_ne hmn ..).trans hm,rfl,hc⟩

theorem Kept.remove (hk : Kept s) (hn : s.handlers n = some h) (hp : h.phase = .removing) :
    Kept { s.setHandler n { h with phase := .ended } with clientSessions := erase h.socketFd s.clientSessions } where
  handler_lt := hk.handler_lt_setHandler hn
  fresh := hk.fresh_setHandler hn
  started m hlt hnone := (hk.started_setHandler m hlt hnone).2
  table := by
    have hentry : s.entry n = some h.socketFd := (entry_of_handler hn).trans (if_neg (by rw [hp]; decide))
    change Matches _ (s.setHandler n { h with phase := .ended }).entry ((erase h.socketFd s.clientSessions).map _)
    rw [entry_setHandler, if_pos rfl, map_erase]
    exact hk.table.remove (Finset.mem_range.mpr (hk.handler_lt n h hn)) hentry
  opened fd hopen := by
    rcases hk.opened fd hopen with hl | ⟨m,k,hm,rfl,hc⟩
    · exact .inl hl
    · right
      have hmn : m ≠ n := by
        rintro rfl
        obtain rfl := Option.some.inj (hm.symm.trans hn)
        rw [hp] at hc
        cases hc
      exact ⟨m,k,(Function.update_of_ne hmn ..).trans hm,rfl,hc⟩

theorem Kept.accept (hk : Kept s) (hl : s.listener = .accepting) (socketFd : ℕ) :
    Kept { s with
      connections := s.connections + 1, listener := .accepted s.connections socketFd
      openFds := insert socketFd s.openFds } := by
  have hnone : s.handlers s.connections = none := by
    cases hm : s.handlers s.connections with
    | none => rfl
    | some k => exact absurd (hk.handler_lt _ k hm) (Nat.lt_irrefl _)
  have hfree := not_accepting hl
  refine ⟨fun m k hm => Nat.lt_succ_of_lt (hk.handler_lt m k hm),?_,?_,?_,?_⟩
  · rintro m fd (ha | ha)
    · obtain ⟨rfl,_⟩ := Listener.accepted.inj ha
      exact ⟨Nat.lt_succ_self _,hnone⟩
    · cases ha
  · intro m hlt hm
    rcases Nat.lt_succ_iff_lt_or_eq.mp hlt with hlt | rfl
    · obtain ⟨fd,ha⟩ := hk.started m hlt hm
      exact absurd ha (hfree m fd)
    · exact ⟨socketFd,.inl rfl⟩
  · have hentry : Sessions.entry { s with
        connections := s.connections + 1, listener := .accepted s.connections socketFd
        openFds := insert socketFd s.openFds } = s.entry := by
      funext m
      cases hm : s.handlers m <;> simp [entry, hm, hl]
    rw [hentry]
    change Matches (Finset.range (s.connections + 1)) _ _
    rw [Finset.range_add_one]
    exact hk.table.join (by simp [entry, hnone, hl])
  · intro fd hopen
    rcases Finset.mem_insert.mp hopen with rfl | hopen
    · exact .inl ⟨s.connections,.inl rfl⟩
    · rcases hk.opened fd hopen with ⟨m,ha⟩ | hh
      · exact absurd ha (hfree m fd)
      · exact .inr hh

theorem Kept.push (hk : Kept s) (hl : s.listener = .accepted n socketFd) :
    Kept { s with
      listener := .tracked n socketFd, clientSessions := s.clientSessions ++ [⟨socketFd,n⟩] } := by
  obtain ⟨hlt,hnone⟩ := hk.fresh n socketFd (.inl hl)
  have hsame : ∀ m fd, s.Accepting m fd → m = n ∧ fd = socketFd := fun m fd ha => ha.unique (.inl hl)
  refine ⟨hk.handler_lt,?_,?_,?_,?_⟩
  · rintro m fd (ha | ha)
    · cases ha
    · obtain ⟨rfl,_⟩ := Listener.tracked.inj ha
      exact ⟨hlt,hnone⟩
  · intro m hm hmnone
    obtain ⟨fd,ha⟩ := hk.started m hm hmnone
    obtain ⟨rfl,rfl⟩ := hsame m fd ha
    exact ⟨fd,.inr rfl⟩
  · have hentry : Sessions.entry { s with
        listener := .tracked n socketFd, clientSessions := s.clientSessions ++ [⟨socketFd,n⟩] } =
        Function.update s.entry n (some socketFd) := by
      funext m
      by_cases hm : m = n
      · subst hm
        simp [entry, hnone]
      · cases hmh : s.handlers m <;> simp [entry, hmh, hl, hm, Ne.symm hm]
    rw [hentry]
    change Matches _ _ ((s.clientSessions ++ [ClientSession.mk socketFd n]).map ClientSession.socketFd)
    rw [List.map_append]
    exact hk.table.add (Finset.mem_range.mpr hlt) (by simp [entry, hnone, hl]) socketFd
  · intro fd hopen
    rcases hk.opened fd hopen with ⟨m,ha⟩ | hh
    · obtain ⟨rfl,rfl⟩ := hsame m fd ha
      exact .inl ⟨m,.inr rfl⟩
    · exact .inr hh

theorem Kept.spawn (hk : Kept s) (hl : s.listener = .tracked n socketFd) :
    Kept { s.setHandler n { socketFd } with listener := .accepting } := by
  obtain ⟨hlt,hnone⟩ := hk.fresh n socketFd (.inr hl)
  have hsame : ∀ m fd, s.Accepting m fd → m = n ∧ fd = socketFd := fun m fd ha => ha.unique (.inr hl)
  refine ⟨?_,fun m fd ha => ha.elim nofun nofun,?_,?_,?_⟩
  · intro m k hm
    rcases setHandler_cases hm with ⟨rfl,-⟩ | ⟨_,hm⟩
    · exact hlt
    · exact hk.handler_lt m k hm
  · intro m hm hmnone
    obtain ⟨hmn,fd,ha⟩ := hk.started_setHandler m hm hmnone
    exact absurd (hsame m fd ha).1 hmn
  · have hentry : Sessions.entry { s.setHandler n { socketFd } with listener := .accepting } = s.entry := by
      funext m
      by_cases hm : m = n
      · subst hm
        simp [entry, setHandler, hnone, hl]
      · cases hmh : s.handlers m <;> simp [entry, setHandler, hmh, hl, hm, Ne.symm hm]
    rw [hentry]
    exact hk.table
  · intro fd hopen
    right
    rcases hk.opened fd hopen with ⟨m,ha⟩ | ⟨m,k,hm,hfd,hc⟩
    · obtain ⟨rfl,rfl⟩ := hsame m fd ha
      exact ⟨m,{ socketFd := fd },Function.update_self ..,rfl,rfl⟩
    · have hmn : m ≠ n := by
        rintro rfl
        rw [hnone] at hm
        cases hm
      exact ⟨m,k,(Function.update_of_ne hmn ..).trans hm,hfd,hc⟩

theorem Kept.step {l : Label} (hk : Kept s) (hs : Step s l t) : Kept t := by
  cases hs with
  | accept hl _ => exact hk.accept hl _
  | push hl => exact hk.push hl
  | spawn hl => exact hk.spawn hl
  | @lookup n h hn hp =>
    have hlook : (lookUp s.clientSessions h).socketFd = h.socketFd ∧ (lookUp s.clientSessions h).phase ≠ .ended ∧
        (lookUp s.clientSessions h).phase.closed = false := by
      unfold lookUp
      split <;> exact ⟨rfl,nofun,rfl⟩
    refine hk.advance hn _ hlook.1 (by rw [hp]; decide) hlook.2.1 (Finset.Subset.refl _) ?_ s.freed
    rw [hlook.2.2]
    exact nofun
  | @handshake n h ok hn hp =>
    refine hk.advance hn { h with phase := if ok then .serving else .freeing } rfl (by rw [hp]; decide) ?_
      (Finset.Subset.refl _) ?_ s.freed
    · cases ok <;> exact nofun
    · cases ok <;> exact nofun
  | transfer _ _ => exact hk
  | @disconnect n h hn hp =>
    exact hk.advance hn { h with phase := .freeing } rfl (by rw [hp]; decide) nofun (Finset.Subset.refl _) nofun s.freed
  | @free n h hn hp =>
    exact hk.advance hn { h with phase := .closing } rfl (by rw [hp]; decide) nofun (Finset.Subset.refl _) nofun _
  | @close n h hn hp =>
    exact hk.advance hn { h with phase := .removing } rfl (by rw [hp]; decide) nofun (Finset.erase_subset _ _)
      (fun _ => Finset.notMem_erase _ _) s.freed
  | remove hn hp => exact hk.remove hn hp

end Sessions
end MiniHil
