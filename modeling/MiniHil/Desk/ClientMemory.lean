import MiniHil.Desk.SecureClient
import MiniHil.Foundation.OwnedHeap

/-! # The client and what it owns

`TcpClient` and `OpenSslSession` over a heap of descriptors, SSL contexts and sessions. A call with a descriptor that was
closed, or with a context or session that was freed, is undefined.
-/
namespace MiniHil

inductive ClientObject
  | socket
  | context
  | session (socketFd : ℕ)
  deriving DecidableEq, Repr

/-- The members of the two classes, `none` where they are negative or null. A descriptor that the system gives out again
is a new object. -/
structure ClientMemory where
  heap : Heap ClientObject := {}
  socketFd : Option ℕ := none
  useSsl : Bool := false
  sslCtx : Option ℕ := none
  ssl : Option ℕ := none

namespace ClientMemory

def alloc (b : ClientObject) : Checked ClientMemory ℕ := fun m =>
  let (n,heap) := m.heap.alloc b
  some (n,{ m with heap })

def free (n : ℕ) : Checked ClientMemory Unit := fun m => (m.heap.free n).map fun heap => ((),{ m with heap })

def access (n : ℕ) (b : ClientObject) : Checked ClientMemory Unit := fun m => if m.heap.get n = some b then some ((),m) else none

def accessSession (n : ℕ) : Checked ClientMemory Unit := fun m =>
  match m.heap.get n with
  | some (.session socketFd) => access socketFd .socket m
  | _ => none

def freeSession : Checked ClientMemory Unit := do
  match (← get).ssl with
  | some ssl =>
    free ssl
    modify fun m => { m with ssl := none }
  | none => pure ()

def freeContext : Checked ClientMemory Unit := do
  match (← get).sslCtx with
  | some ctx =>
    free ctx
    modify fun m => { m with sslCtx := none }
  | none => pure ()

/-- `OpenSslSession::disconnect` -/
def sslDisconnect : Checked ClientMemory Unit := do
  freeSession
  freeContext

/-- `OpenSslMtlsConfigurator::configureContext` -/
def configureContext (calls : ConnectCalls) (ctx : ℕ) : Checked ClientMemory Bool := do
  access ctx .context
  if calls.loadVerifyLocations ≤ 0 then pure false
  else
    access ctx .context
    if calls.useCertificateFile ≤ 0 then pure false
    else
      access ctx .context
      if calls.usePrivateKeyFile ≤ 0 then pure false
      else
        access ctx .context
        pure true

def prepareContext (calls : ConnectCalls) (ctx : ℕ) (useMtls : Bool) : Checked ClientMemory Bool :=
  if useMtls then configureContext calls ctx
  else do
    access ctx .context
    pure true

def initAndConnect (calls : ConnectCalls) (socketFd : ℕ) (useMtls : Bool) : Checked ClientMemory Bool := do
  sslDisconnect
  if !calls.sslCtxNew then pure false
  else
    let ctx ← alloc .context
    modify fun m => { m with sslCtx := some ctx }
    let ok ← prepareContext calls ctx useMtls
    if !ok then
      sslDisconnect
      pure false
    else
      access ctx .context
      if !calls.sslNew then
        sslDisconnect
        pure false
      else
        let ssl ← alloc (.session socketFd)
        modify fun m => { m with ssl := some ssl }
        accessSession ssl
        if calls.sslConnect ≤ 0 then
          sslDisconnect
          pure false
        else pure true

def close (socketFd : ℕ) : Checked ClientMemory Unit := do
  free socketFd
  modify fun m => { m with socketFd := none }

/-- `TcpClient::disconnect` -/
def disconnect : Checked ClientMemory Unit := do
  sslDisconnect
  match (← get).socketFd with
  | some socketFd =>
    access socketFd .socket
    close socketFd
  | none => pure ()

/-- `TcpClient::connect` behind its `disconnect`. -/
def openSocket (calls : ConnectCalls) (useSsl useMtls : Bool) : Checked ClientMemory Bool := do
  modify fun m => { m with useSsl }
  if calls.socket < 0 then
    modify fun m => { m with socketFd := none }
    pure false
  else
    let socketFd ← alloc .socket
    modify fun m => { m with socketFd := some socketFd }
    if calls.inetPton ≤ 0 then
      close socketFd
      pure false
    else
      access socketFd .socket
      if calls.connect < 0 then
        close socketFd
        pure false
      else if useSsl then
        let ok ← initAndConnect calls socketFd useMtls
        if !ok then
          close socketFd
          pure false
        else pure true
      else pure true

def shutdownSocket : Checked ClientMemory Unit := do
  match (← get).socketFd with
  | some socketFd => access socketFd .socket
  | none => pure ()

/-- One `recv`, `send`, `SSL_read` or `SSL_write`, with the descriptor that was loaded before. -/
def transfer (socketFd : ℕ) : Checked ClientMemory Unit := do
  let m ← get
  if m.useSsl then
    match m.ssl with
    | some ssl => accessSession ssl
    | none => pure ()
  else access socketFd .socket

/-- `TcpClient::send` with a number of writes. -/
def send (writes : ℕ) : Checked ClientMemory Unit := do
  match (← get).socketFd with
  | some socketFd => (List.replicate writes socketFd).forM transfer
  | none => pure ()

open Checked

structure Holds (objs : List (ℕ × ClientObject)) (socketFd sslCtx ssl : Option ℕ) (m : ClientMemory) : Prop where
  heap : m.heap.Is objs
  socketFd : m.socketFd = socketFd
  sslCtx : m.sslCtx = sslCtx
  ssl : m.ssl = ssl

def Closed : ClientMemory → Prop := Holds [] none none none

def Opened (fd : ℕ) : ClientMemory → Prop := Holds [(fd,.socket)] (some fd) none none

def Prepared (fd ctx : ℕ) : ClientMemory → Prop := Holds [(ctx,.context),(fd,.socket)] (some fd) (some ctx) none

def Secured (fd ctx ssl : ℕ) : ClientMemory → Prop :=
  Holds [(ssl,.session fd),(ctx,.context),(fd,.socket)] (some fd) (some ctx) (some ssl)

inductive Held (m : ClientMemory) : Prop
  | closed : Closed m → Held m
  | opened (fd : ℕ) : Opened fd m → Held m
  | secured (fd ctx ssl : ℕ) : Secured fd ctx ssl m → Held m

theorem initial_closed : Closed {} where
  heap := ⟨rfl,List.nodup_nil,fun _ h => by cases h⟩
  socketFd := rfl
  sslCtx := rfl
  ssl := rfl

variable {objs pre post : List (ℕ × ClientObject)} {fd ctx ssl : Option ℕ} {n k : ℕ} {b : ClientObject}

theorem alloc_spec (b : ClientObject) : Spec (Holds objs fd ctx ssl) (alloc b) fun n => Holds ((n,b) :: objs) fd ctx ssl :=
  fun _ hs => ⟨_,_,rfl,hs.heap.alloc b,hs.socketFd,hs.sslCtx,hs.ssl⟩

theorem free_spec (pre : List (ℕ × ClientObject)) :
    Spec (Holds (pre ++ (n,b) :: post) fd ctx ssl) (free n) fun _ => Holds (pre ++ post) fd ctx ssl := by
  intro m hs
  obtain ⟨heap,hfree,hi⟩ := hs.heap.free
  refine ⟨(),{ m with heap },?_,hi,hs.socketFd,hs.sslCtx,hs.ssl⟩
  change (m.heap.free n).map _ = _
  rw [hfree]
  rfl

theorem Holds.access {m : ClientMemory} (h : Holds objs fd ctx ssl m) (hmem : (n,b) ∈ objs) : access n b m = some ((),m) := by
  obtain ⟨pre,post,rfl⟩ := List.append_of_mem hmem
  exact if_pos h.heap.get

theorem Holds.accessSession {m : ClientMemory} (h : Holds objs fd ctx ssl m) (hmem : (n,.session k) ∈ objs)
    (hsocket : (k,.socket) ∈ objs) : accessSession n m = some ((),m) := by
  obtain ⟨pre,post,rfl⟩ := List.append_of_mem hmem
  rw [ClientMemory.accessSession, h.heap.get]
  exact h.access hsocket

theorem access_spec (hmem : (n,b) ∈ objs) : Spec (Holds objs fd ctx ssl) (access n b) fun _ => Holds objs fd ctx ssl :=
  fun m hs => ⟨(),m,hs.access hmem,hs⟩

theorem accessSession_spec (hmem : (n,.session k) ∈ objs) (hsocket : (k,.socket) ∈ objs) :
    Spec (Holds objs fd ctx ssl) (accessSession n) fun _ => Holds objs fd ctx ssl :=
  fun m hs => ⟨(),m,hs.accessSession hmem hsocket,hs⟩

theorem freeSession_some : Spec (Holds ((n,b) :: objs) fd ctx (some n)) freeSession fun _ => Holds objs fd ctx none := by
  refine Spec.get_bind fun m hm => ?_
  rw [hm.ssl]
  exact (free_spec []).bind fun _ => Spec.modify fun _ h => ⟨h.heap,h.socketFd,h.sslCtx,rfl⟩

theorem freeSession_none : Spec (Holds objs fd ctx none) freeSession fun _ => Holds objs fd ctx none := by
  refine Spec.get_bind fun m hm => ?_
  rw [hm.ssl]
  exact Spec.pure fun _ h => h

theorem freeContext_some : Spec (Holds ((n,b) :: objs) fd (some n) ssl) freeContext fun _ => Holds objs fd none ssl := by
  refine Spec.get_bind fun m hm => ?_
  rw [hm.sslCtx]
  exact (free_spec []).bind fun _ => Spec.modify fun _ h => ⟨h.heap,h.socketFd,rfl,h.ssl⟩

theorem freeContext_none : Spec (Holds objs fd none ssl) freeContext fun _ => Holds objs fd none ssl := by
  refine Spec.get_bind fun m hm => ?_
  rw [hm.sslCtx]
  exact Spec.pure fun _ h => h

theorem sslDisconnect_secured (socketFd c s : ℕ) : Spec (Secured socketFd c s) sslDisconnect fun _ => Opened socketFd :=
  freeSession_some.bind fun _ => freeContext_some

theorem sslDisconnect_prepared (socketFd c : ℕ) : Spec (Prepared socketFd c) sslDisconnect fun _ => Opened socketFd :=
  freeSession_none.bind fun _ => freeContext_some

theorem sslDisconnect_none : Spec (Holds objs fd none none) sslDisconnect fun _ => Holds objs fd none none :=
  freeSession_none.bind fun _ => freeContext_none

theorem close_spec (socketFd : ℕ) : Spec (Opened socketFd) (close socketFd) fun _ => Closed :=
  (free_spec []).bind fun _ => Spec.modify fun _ h => ⟨h.heap,rfl,h.sslCtx,h.ssl⟩

theorem configureContext_spec (calls : ConnectCalls) (socketFd c : ℕ) :
    Spec (Prepared socketFd c) (configureContext calls c) fun _ => Prepared socketFd c := by
  have haccess : Spec (Prepared socketFd c) (access c .context) fun _ => Prepared socketFd c :=
    access_spec List.mem_cons_self
  unfold configureContext
  refine haccess.bind fun _ => ?_
  split_ifs
  · exact Spec.pure fun _ h => h
  · refine haccess.bind fun _ => Spec.pure fun _ h => h
  · refine haccess.bind fun _ => haccess.bind fun _ => Spec.pure fun _ h => h
  · refine haccess.bind fun _ => haccess.bind fun _ => haccess.bind fun _ => Spec.pure fun _ h => h

theorem prepareContext_spec (calls : ConnectCalls) (socketFd c : ℕ) (useMtls : Bool) :
    Spec (Prepared socketFd c) (prepareContext calls c useMtls) fun _ => Prepared socketFd c := by
  unfold prepareContext
  split_ifs
  · exact configureContext_spec calls socketFd c
  · exact (access_spec List.mem_cons_self).bind fun _ => Spec.pure fun _ h => h

theorem initAndConnect_spec (calls : ConnectCalls) (socketFd : ℕ) (useMtls : Bool) :
    Spec (Opened socketFd) (initAndConnect calls socketFd useMtls) fun ok m =>
      if ok then ∃ c s, Secured socketFd c s m else Opened socketFd m := by
  unfold initAndConnect
  refine sslDisconnect_none.bind fun _ => ?_
  by_cases hctx : (!calls.sslCtxNew) = true
  · rw [if_pos hctx]
    exact Spec.pure fun _ h => h
  rw [if_neg hctx]
  refine (alloc_spec .context).bind fun c => ?_
  have hset : Spec (Holds [(c,.context),(socketFd,.socket)] (some socketFd) none none)
      (modify fun m => { m with sslCtx := some c }) fun _ => Prepared socketFd c :=
    Spec.modify fun _ h => ⟨h.heap,h.socketFd,rfl,h.ssl⟩
  refine hset.bind fun _ => (prepareContext_spec calls socketFd c useMtls).bind fun ok => ?_
  have hgiveUp : Spec (Prepared socketFd c) (do sslDisconnect; pure false) fun ok m =>
      if ok then ∃ c s, Secured socketFd c s m else Opened socketFd m :=
    (sslDisconnect_prepared socketFd c).bind fun _ => Spec.pure fun _ h => h
  cases ok with
  | false => exact hgiveUp
  | true =>
    refine (access_spec List.mem_cons_self).bind fun _ => ?_
    by_cases hnew : (!calls.sslNew) = true
    · rw [if_pos hnew]
      exact hgiveUp
    rw [if_neg hnew]
    refine (alloc_spec (.session socketFd)).bind fun s => ?_
    have hset : Spec (Holds [(s,.session socketFd),(c,.context),(socketFd,.socket)] (some socketFd) (some c) none)
        (modify fun m => { m with ssl := some s }) fun _ => Secured socketFd c s :=
      Spec.modify fun _ h => ⟨h.heap,h.socketFd,h.sslCtx,rfl⟩
    refine hset.bind fun _ => (accessSession_spec List.mem_cons_self (by simp)).bind fun _ => ?_
    split_ifs with hconnect
    · exact (sslDisconnect_secured socketFd c s).bind fun _ => Spec.pure fun _ h => h
    · exact Spec.pure fun _ h => ⟨c,s,h⟩

theorem openSocket_spec (calls : ConnectCalls) (useSsl useMtls : Bool) :
    Spec Closed (openSocket calls useSsl useMtls) fun ok m => if ok then Held m ∧ m.socketFd ≠ none else Closed m := by
  unfold openSocket
  have hset : Spec Closed (modify fun m => { m with useSsl }) fun _ => Closed :=
    Spec.modify fun _ h => ⟨h.heap,h.socketFd,h.sslCtx,h.ssl⟩
  refine hset.bind fun _ => ?_
  by_cases hsocket : calls.socket < 0
  · rw [if_pos hsocket]
    have hnone : Spec Closed (modify fun m => { m with socketFd := none }) fun _ => Closed :=
      Spec.modify fun _ h => ⟨h.heap,rfl,h.sslCtx,h.ssl⟩
    exact hnone.bind fun _ => Spec.pure fun _ h => h
  rw [if_neg hsocket]
  refine (alloc_spec .socket).bind fun socketFd => ?_
  have hset : Spec (Holds [(socketFd,.socket)] none none none) (modify fun m => { m with socketFd := some socketFd })
      fun _ => Opened socketFd := Spec.modify fun _ h => ⟨h.heap,rfl,h.sslCtx,h.ssl⟩
  refine hset.bind fun _ => ?_
  have hgiveUp : Spec (Opened socketFd) (do close socketFd; pure false) fun ok m =>
      if ok then Held m ∧ m.socketFd ≠ none else Closed m :=
    (close_spec socketFd).bind fun _ => Spec.pure fun _ h => h
  by_cases hinet : calls.inetPton ≤ 0
  · rw [if_pos hinet]
    exact hgiveUp
  rw [if_neg hinet]
  refine (access_spec List.mem_cons_self).bind fun _ => ?_
  by_cases hconnect : calls.connect < 0
  · rw [if_pos hconnect]
    exact hgiveUp
  rw [if_neg hconnect]
  cases useSsl with
  | false => exact Spec.pure fun m h => ⟨.opened socketFd h,by rw [h.socketFd]; exact Option.some_ne_none _⟩
  | true =>
    refine (initAndConnect_spec calls socketFd useMtls).bind fun ok => ?_
    cases ok with
    | false => exact hgiveUp
    | true =>
      refine Spec.pure fun m h => ?_
      obtain ⟨c,s,h⟩ := h
      exact ⟨.secured socketFd c s h,by rw [h.socketFd]; exact Option.some_ne_none _⟩

theorem disconnect_spec : Spec Held disconnect fun _ => Closed := by
  have hopened (socketFd : ℕ) : Spec (Opened socketFd) (do
      match (← get).socketFd with
      | some socketFd =>
        access socketFd .socket
        close socketFd
      | none => pure ()) fun _ => Closed := by
    refine Spec.get_bind fun m hm => ?_
    rw [hm.socketFd]
    exact (access_spec List.mem_cons_self).bind fun _ => close_spec socketFd
  intro m hm
  cases hm with
  | closed h =>
    refine (sslDisconnect_none.bind fun _ => Spec.get_bind fun m hm => ?_) m h
    rw [hm.socketFd]
    exact Spec.pure fun _ h => h
  | opened socketFd h => exact (sslDisconnect_none.bind fun _ => hopened socketFd) m h
  | secured socketFd c s h => exact ((sslDisconnect_secured socketFd c s).bind fun _ => hopened socketFd) m h

variable {m : ClientMemory} {socketFd : ℕ}

theorem Held.access (h : Held m) (hfd : m.socketFd = some socketFd) : ClientMemory.access socketFd .socket m = some ((),m) := by
  cases h with
  | closed h =>
    rw [h.socketFd] at hfd
    cases hfd
  | opened _ h | secured _ _ _ h =>
    rw [h.socketFd] at hfd
    obtain rfl := Option.some.inj hfd
    exact h.access (by simp)

theorem Held.accessSession (h : Held m) {s : ℕ} (hs : m.ssl = some s) : accessSession s m = some ((),m) := by
  cases h with
  | closed h | opened _ h =>
    rw [h.ssl] at hs
    cases hs
  | secured socketFd c _ h =>
    rw [h.ssl] at hs
    obtain rfl := Option.some.inj hs
    exact h.accessSession List.mem_cons_self (by simp)

theorem Held.shutdownSocket (h : Held m) : shutdownSocket m = some ((),m) := by
  change (match m.socketFd with
    | some socketFd => ClientMemory.access socketFd .socket
    | none => pure ()) m = _
  cases hfd : m.socketFd with
  | none => rfl
  | some socketFd => exact h.access hfd

theorem Held.transfer (h : Held m) (hfd : m.socketFd = some socketFd) : transfer socketFd m = some ((),m) := by
  change (if m.useSsl then match m.ssl with
    | some ssl => ClientMemory.accessSession ssl
    | none => pure ()
    else ClientMemory.access socketFd .socket) m = _
  split_ifs
  · cases hs : m.ssl with
    | none => rfl
    | some s => exact h.accessSession hs
  · exact h.access hfd

theorem Held.send (h : Held m) (writes : ℕ) : send writes m = some ((),m) := by
  change (match m.socketFd with
    | some socketFd => (List.replicate writes socketFd).forM ClientMemory.transfer
    | none => pure ()) m = _
  cases hfd : m.socketFd with
  | none => rfl
  | some socketFd =>
    dsimp only
    induction writes with
    | zero => rfl
    | succ writes ih =>
      rw [List.replicate_succ]
      change (ClientMemory.transfer socketFd m).bind _ = _
      rw [h.transfer hfd]
      exact ih

end ClientMemory
end MiniHil
