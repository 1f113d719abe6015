import MiniHil.Foundation.Json
import MiniHil.Foundation.Ledger

/-! # What the server holds

`TcpServer::start`, `stop` and the destructor as they treat the listening socket, the SSL context and
the listener thread. The other threads only read these members, and what `stop` does to the client
connections is in `Stopping`. A descriptor that the system gives out again is a new resource.
-/
namespace MiniHil

/-- What the calls in one `start` return. `setsockopt` is left out, its failure is only reported. -/
structure StartCalls where
  sslCtxNew : Bool
  useCertificateFile : ℤ
  usePrivateKeyFile : ℤ
  loadVerifyLocations : ℤ
  socket : ℤ
  bind : ℤ
  listen : ℤ

structure ServerResources where
  useSsl : Bool
  useMtls : Bool
  caPath : Bytes
  running : Bool := false
  /-- `none` where the member is negative. -/
  serverSocket : Option ℕ := none
  /-- The thread is joinable. -/
  listenerThread : Bool := false
  sslCtx : Option ℕ := none
  sockets : Ledger := {}
  contexts : Ledger := {}
  /-- `std::terminate`, for a thread that is assigned or destroyed while it is joinable. -/
  terminated : Bool := false

namespace ServerResources

def freeContext (s : ServerResources) : ServerResources :=
  match s.sslCtx with
  | some ctx => { s with sslCtx := none, contexts := s.contexts.release ctx }
  | none => s

def closeServerSocket (s : ServerResources) : ServerResources :=
  match s.serverSocket with
  | some serverSocket => { s with serverSocket := none, sockets := s.sockets.release serverSocket }
  | none => s

/-- The first part of `start`: a context is freed by the call that fails, and kept otherwise. -/
def loadContext (calls : StartCalls) (s : ServerResources) : Bool × ServerResources :=
  if !calls.sslCtxNew then (false,s)
  else
    let ctx := s.contexts.created
    let s := { s with contexts := s.contexts.create }
    if calls.useCertificateFile ≤ 0 then (false,{ s with contexts := s.contexts.release ctx })
    else if calls.usePrivateKeyFile ≤ 0 then (false,{ s with contexts := s.contexts.release ctx })
    else if s.useMtls && !s.caPath.isEmpty && calls.loadVerifyLocations ≤ 0 then
      (false,{ s with contexts := s.contexts.release ctx })
    else (true,{ s with sslCtx := some ctx })

/-- The second part of `start`. -/
def openServerSocket (calls : StartCalls) (s : ServerResources) : Bool × ServerResources :=
  if calls.socket < 0 then (false,{ s with serverSocket := none }.freeContext)
  else
    let s := { s with serverSocket := some s.sockets.created, sockets := s.sockets.create }
    if calls.bind < 0 then (false,s.closeServerSocket.freeContext)
    else if calls.listen < 0 then (false,s.closeServerSocket.freeContext)
    else (true,{ s with running := true, listenerThread := true, terminated := s.terminated || s.listenerThread })

def start (calls : StartCalls) (s : ServerResources) : Bool × ServerResources :=
  if s.running then (true,s)
  else if s.useSsl then
    match s.loadContext calls with
    | (false,s) => (false,s)
    | (true,s) => s.openServerSocket calls
  else s.openServerSocket calls

def stop (s : ServerResources) : ServerResources :=
  if !s.running then s
  else
    let s := { s with running := false }.closeServerSocket
    { s with listenerThread := false }.freeContext

def destroy (s : ServerResources) : ServerResources :=
  let s := s.stop
  { s with terminated := s.terminated || s.listenerThread }

inductive Request
  | start (calls : StartCalls)
  | stop

def perform (s : ServerResources) : Request → ServerResources
  | .start calls => (s.start calls).2
  | .stop => s.stop

/-- A server as it is constructed, after some calls. -/
def after (useSsl useMtls : Bool) (caPath : Bytes) (requests : List Request) : ServerResources :=
  requests.foldl perform { useSsl, useMtls, caPath }

/-- The members name what is held: a socket and a thread exactly while the server runs, and then with
SSL a context. -/
structure Inv (ssl : Bool) (s : ServerResources) : Prop where
  useSsl : s.useSsl = ssl
  sockets : s.sockets.Owned s.serverSocket.toList
  contexts : s.contexts.Owned s.sslCtx.toList
  serverSocket : s.serverSocket.isSome = s.running
  listenerThread : s.listenerThread = s.running
  sslCtx : s.sslCtx.isSome = (s.running && ssl)
  terminated : s.terminated = false

variable {ssl : Bool} {s : ServerResources} {calls : StartCalls}

theorem Inv.initial (useSsl useMtls : Bool) (caPath : Bytes) : Inv useSsl { useSsl, useMtls, caPath } where
  useSsl := rfl
  sockets := Ledger.owned_initial
  contexts := Ledger.owned_initial
  serverSocket := rfl
  listenerThread := rfl
  sslCtx := rfl
  terminated := rfl

theorem freeContext_eq (h : s.contexts.Owned s.sslCtx.toList) : ∃ contexts : Ledger, contexts.Owned [] ∧
    s.freeContext = { s with sslCtx := none, contexts } := by
  unfold freeContext
  cases hctx : s.sslCtx with
  | none =>
    rw [hctx] at h
    refine ⟨s.contexts,h,?_⟩
    dsimp only
    rw [← hctx]
  | some ctx =>
    rw [hctx] at h
    exact ⟨_,h.release,rfl⟩

theorem closeServerSocket_eq (h : s.sockets.Owned s.serverSocket.toList) : ∃ sockets : Ledger, sockets.Owned [] ∧
    s.closeServerSocket = { s with serverSocket := none, sockets } := by
  unfold closeServerSocket
  cases hsocket : s.serverSocket with
  | none =>
    rw [hsocket] at h
    refine ⟨s.sockets,h,?_⟩
    dsimp only
    rw [← hsocket]
  | some serverSocket =>
    rw [hsocket] at h
    exact ⟨_,h.release,rfl⟩

theorem Inv.of_idle (hssl : s.useSsl = ssl) (hsockets : s.sockets.Owned []) (hcontexts : s.contexts.Owned [])
    (hsocket : s.serverSocket = none) (hctx : s.sslCtx = none) (hrun : s.running = false) (hthread : s.listenerThread = false)
    (hterm : s.terminated = false) : Inv ssl s where
  useSsl := hssl
  sockets := by rw [hsocket]; exact hsockets
  contexts := by rw [hctx]; exact hcontexts
  serverSocket := by rw [hsocket, hrun]; rfl
  listenerThread := hthread.trans hrun.symm
  sslCtx := by rw [hctx, hrun]; rfl
  terminated := hterm

theorem Inv.idle (hi : Inv ssl s) (hrun : s.running = false) :
    s.serverSocket = none ∧ s.listenerThread = false ∧ s.sslCtx = none := by
  have hsocket := hi.serverSocket.trans hrun
  have hctx : s.sslCtx.isSome = false := by rw [hi.sslCtx, hrun, Bool.false_and]
  exact ⟨Option.isNone_iff_eq_none.mp (Option.isSome_eq_false_iff.mp hsocket),hi.listenerThread.trans hrun,
    Option.isNone_iff_eq_none.mp (Option.isSome_eq_false_iff.mp hctx)⟩

theorem loadContext_eq (h : s.contexts.Owned []) :
    ∃ contexts : Ledger, (contexts.Owned [] ∧ s.loadContext calls = (false,{ s with contexts })) ∨
      ∃ ctx, contexts.Owned [ctx] ∧ s.loadContext calls = (true,{ s with sslCtx := some ctx, contexts }) := by
  have hfreed := h.create.release
  unfold loadContext
  dsimp only
  split_ifs
  · exact ⟨s.contexts,.inl ⟨h,rfl⟩⟩
  · exact ⟨_,.inl ⟨hfreed,rfl⟩⟩
  · exact ⟨_,.inl ⟨hfreed,rfl⟩⟩
  · exact ⟨_,.inl ⟨hfreed,rfl⟩⟩
  · exact ⟨_,.inr ⟨_,h.create,rfl⟩⟩

theorem openServerSocket_inv (hssl : s.useSsl = ssl) (hsockets : s.sockets.Owned [])
    (hcontexts : s.contexts.Owned s.sslCtx.toList) (hrun : s.running = false) (hthread : s.listenerThread = false)
    (hctx : s.sslCtx.isSome = ssl) (hterm : s.terminated = false) :
    Inv ssl (s.openServerSocket calls).2 ∧ (s.openServerSocket calls).2.running = (s.openServerSocket calls).1 := by
  have hfailed {t : ServerResources} (hsockets : t.sockets.Owned [])
      (ht : t = { s with serverSocket := none, sockets := t.sockets }) :
      Inv ssl t.freeContext ∧ t.freeContext.running = false := by
    have hcontexts' : t.contexts.Owned t.sslCtx.toList := by
      rw [ht]
      exact hcontexts
    obtain ⟨contexts,hfreed,hfree⟩ := freeContext_eq hcontexts'
    rw [hfree, ht]
    exact ⟨.of_idle hssl hsockets hfreed rfl rfl hrun hthread hterm,hrun⟩
  have hclosed :
      Inv ssl { s with serverSocket := some s.sockets.created, sockets := s.sockets.create }.closeServerSocket.freeContext ∧
      { s with serverSocket := some s.sockets.created, sockets := s.sockets.create }.closeServerSocket.freeContext.running =
        false := by
    apply hfailed
    · exact hsockets.create.release
    · rfl
  unfold openServerSocket
  dsimp only
  split_ifs
  · exact hfailed hsockets rfl
  · exact hclosed
  · exact hclosed
  · refine ⟨?_,rfl⟩
    constructor
    · exact hssl
    · exact hsockets.create
    · exact hcontexts
    · rfl
    · rfl
    · exact hctx
    · rw [hterm, hthread]
      rfl

theorem Inv.start (hi : Inv ssl s) : Inv ssl (s.start calls).2 ∧ (s.start calls).2.running = (s.start calls).1 := by
  unfold ServerResources.start
  by_cases hrun : s.running = true
  · rw [if_pos hrun]
    exact ⟨hi,hrun⟩
  rw [if_neg hrun]
  rw [Bool.not_eq_true] at hrun
  obtain ⟨hsocket,hthread,hctx⟩ := hi.idle hrun
  have hsockets := hi.sockets
  have hcontexts := hi.contexts
  rw [hsocket] at hsockets
  split_ifs with hssl
  · rw [hctx] at hcontexts
    obtain ⟨contexts,⟨howned,hload⟩ | ⟨ctx,howned,hload⟩⟩ := @loadContext_eq s calls hcontexts
    · rw [hload]
      exact ⟨.of_idle hi.useSsl hsockets howned hsocket hctx hrun hthread hi.terminated,hrun⟩
    · rw [hload]
      exact openServerSocket_inv hi.useSsl hsockets howned hrun hthread (hssl.symm.trans hi.useSsl) hi.terminated
  · have hnone : s.sslCtx.isSome = ssl := by
      rw [hctx, ← hi.useSsl, Bool.eq_false_iff.mpr hssl]
      rfl
    exact openServerSocket_inv hi.useSsl hsockets hcontexts hrun hthread hnone hi.terminated

theorem Inv.stop (hi : Inv ssl s) : Inv ssl s.stop ∧ s.stop.running = false := by
  unfold ServerResources.stop
  split_ifs with hrun
  · exact ⟨hi,by simpa using hrun⟩
  · have hclose := @closeServerSocket_eq { s with running := false } hi.sockets
    obtain ⟨sockets,hclosed,hclose⟩ := hclose
    have hfree := @freeContext_eq { s with running := false, serverSocket := none, sockets, listenerThread := false }
      hi.contexts
    obtain ⟨contexts,hfreed,hfree⟩ := hfree
    dsimp only
    rw [hclose]
    dsimp only
    rw [hfree]
    exact ⟨.of_idle hi.useSsl hclosed hfreed rfl rfl rfl rfl hi.terminated,rfl⟩

theorem Inv.perform (hi : Inv ssl s) (request : Request) : Inv ssl (s.perform request) := by
  cases request with
  | start calls => exact hi.start.1
  | stop => exact hi.stop.1

theorem Inv.run (hi : Inv ssl s) (requests : List Request) : Inv ssl (requests.foldl ServerResources.perform s) := by
  induction requests generalizing s with
  | nil => exact hi
  | cons request requests ih => exact ih (hi.perform request)

structure Consistent (ssl : Bool) (s : ServerResources) : Prop where
  listening : s.serverSocket.isSome = s.running
  openSockets : s.sockets.live = s.serverSocket.toList
  listenerThread : s.listenerThread = s.running
  allocated : s.sslCtx.isSome = (s.running && ssl)
  liveContexts : s.contexts.live = s.sslCtx.toList
  terminated : s.terminated = false

theorem Inv.consistent (hi : Inv ssl s) : Consistent ssl s where
  listening := hi.serverSocket
  openSockets := hi.sockets.live_eq
  listenerThread := hi.listenerThread
  allocated := hi.sslCtx
  liveContexts := hi.contexts.live_eq
  terminated := hi.terminated

/-- For every server and all calls, whatever the system answers: after each call the socket, the thread
and the context are there exactly while the server runs, a start that fails leaves nothing, nothing is
released twice, and after the destructor everything was released. -/
theorem resources_balanced (useSsl useMtls : Bool) (caPath : Bytes) (requests : List Request) :
    let s := after useSsl useMtls caPath requests
    Consistent useSsl s ∧
    (∀ calls, (s.start calls).2.running = (s.start calls).1) ∧
    (∀ calls, (s.start calls).1 = false → (s.start calls).2.running = false ∧ (s.start calls).2.sockets.live = [] ∧
      (s.start calls).2.contexts.live = []) ∧
    (∀ n, s.sockets.released.count n ≤ 1 ∧ s.contexts.released.count n ≤ 1) ∧
    (∀ n, (s.destroy.sockets.released.count n = if n < s.destroy.sockets.created then 1 else 0) ∧
      s.destroy.contexts.released.count n = if n < s.destroy.contexts.created then 1 else 0) ∧
    s.destroy.terminated = false := by
  intro s
  have hi : Inv useSsl s := (Inv.initial useSsl useMtls caPath).run requests
  refine ⟨hi.consistent,fun calls => (@Inv.start useSsl s calls hi).2,?_,?_,?_,?_⟩
  · intro calls hfails
    obtain ⟨hi',hrunning⟩ := @Inv.start useSsl s calls hi
    have hrun := hrunning.trans hfails
    obtain ⟨hsocket,_,hctx⟩ := hi'.idle hrun
    refine ⟨hrun,?_,?_⟩
    · rw [hi'.sockets.live_eq, hsocket]
      rfl
    · rw [hi'.contexts.live_eq, hctx]
      rfl
  · intro n
    exact ⟨hi.sockets.count_le_one n,hi.contexts.count_le_one n⟩
  all_goals
    obtain ⟨hi',hrun⟩ := hi.stop
    obtain ⟨hsocket,hthread,hctx⟩ := hi'.idle hrun
  · have hsockets := hi'.sockets
    have hcontexts := hi'.contexts
    rw [hsocket] at hsockets
    rw [hctx] at hcontexts
    intro n
    exact ⟨hsockets.count_eq n,hcontexts.count_eq n⟩
  · rw [destroy, hi'.terminated, hthread]
    rfl

/-- With SSL: a start whose `listen` fails, after one that succeeded and a stop. -/
theorem resources_balanced_listen :
    let calls : StartCalls := ⟨true,1,1,1,3,0,0⟩
    let s := after true false [] [.start calls,.stop]
    (s.start { calls with listen := -1 }).2.running = false ∧ (s.start { calls with listen := -1 }).2.sockets.live = [] ∧
      (s.start { calls with listen := -1 }).2.contexts.live = [] := by
  intro calls s
  exact (resources_balanced true false [] [.start calls,.stop]).2.2.1 { calls with listen := -1 } (by decide)

end ServerResources
end MiniHil
