import MiniHil.Foundation.Json

/-! # The desk's client and its SSL session

`TcpClient` with the `OpenSslSession` and the `OpenSslMtlsConfigurator` that the factory gives it: what
`connect` sets up on a connection, and which way the bytes of `send` and `receiveLine` take. A descriptor
stands for its connection.
-/
namespace MiniHil

/-- What the calls in one `connect` return. -/
structure ConnectCalls where
  socket : ℤ
  inetPton : ℤ
  connect : ℤ
  sslCtxNew : Bool
  loadVerifyLocations : ℤ
  useCertificateFile : ℤ
  usePrivateKeyFile : ℤ
  sslNew : Bool
  sslConnect : ℤ

structure ClientContext where
  verifyLocations : Option Bytes := none
  certificateFile : Option Bytes := none
  privateKeyFile : Option Bytes := none
  verifyPeer : Bool := false
  deriving DecidableEq, Repr

structure Ssl where
  context : ClientContext
  connection : ℕ
  /-- `SSL_connect` has succeeded. -/
  connected : Bool := false
  deriving DecidableEq, Repr

structure SecureClient where
  socketFd : Option ℕ := none
  useSsl : Bool := false
  sslCtx : Option ClientContext := none
  ssl : Option Ssl := none

structure Transfer where
  connection : ℕ
  ssl : Option Ssl
  bytes : Bytes

namespace SecureClient

def configDir (home : Option Bytes) : Bytes :=
  match home with
  | some home => home ++ ascii "/.minihil/"
  | none => ascii "./"

/-- `OpenSslMtlsConfigurator::configureContext` -/
def configureContext (home : Option Bytes) (calls : ConnectCalls) (ctx : ClientContext) : Bool × ClientContext :=
  if calls.loadVerifyLocations ≤ 0 then (false,ctx)
  else
    let ctx := { ctx with verifyLocations := some (configDir home ++ ascii "ca.crt") }
    if calls.useCertificateFile ≤ 0 then (false,ctx)
    else
      let ctx := { ctx with certificateFile := some (configDir home ++ ascii "client.crt") }
      if calls.usePrivateKeyFile ≤ 0 then (false,ctx)
      else (true,{ ctx with privateKeyFile := some (configDir home ++ ascii "client.key"), verifyPeer := true })

/-- `OpenSslSession::disconnect` -/
def freeSession (c : SecureClient) : SecureClient := { c with ssl := none, sslCtx := none }

def initAndConnect (home : Option Bytes) (calls : ConnectCalls) (connection : ℕ) (useMtls : Bool) (c : SecureClient) :
    Bool × SecureClient :=
  let c := c.freeSession
  if !calls.sslCtxNew then (false,c)
  else
    let (ok,ctx) := if useMtls then configureContext home calls {} else (true,{ verifyPeer := false })
    let c := { c with sslCtx := some ctx }
    if !ok then (false,c.freeSession)
    else if !calls.sslNew then (false,c.freeSession)
    else
      let c := { c with ssl := some { context := ctx, connection } }
      if calls.sslConnect ≤ 0 then (false,c.freeSession)
      else (true,{ c with ssl := some { context := ctx, connection, connected := true } })

def disconnect (c : SecureClient) : SecureClient := { c.freeSession with socketFd := none }

def connect (home : Option Bytes) (calls : ConnectCalls) (connection : ℕ) (useSsl useMtls : Bool) (c : SecureClient) :
    Bool × SecureClient :=
  let c := { c.disconnect with useSsl }
  if calls.socket < 0 then (false,c)
  else
    let c := { c with socketFd := some connection }
    if calls.inetPton ≤ 0 then (false,{ c with socketFd := none })
    else if calls.connect < 0 then (false,{ c with socketFd := none })
    else if c.useSsl then
      match c.initAndConnect home calls connection useMtls with
      | (false,c) => (false,{ c with socketFd := none })
      | (true,c) => (true,c)
    else (true,c)

def isOpen (c : SecureClient) : Bool := c.socketFd.isSome

def transport (c : SecureClient) : Option (ℕ × Option Ssl) :=
  match c.socketFd with
  | none => none
  | some socketFd => if c.useSsl then c.ssl.map fun ssl => (ssl.connection,some ssl) else some (socketFd,none)

/-- What the writes of `send` transfer, by what they return. -/
def send (c : SecureClient) : List ℤ → Bytes → List Transfer
  | [], _ => []
  | sent :: returns, message =>
    if message = [] ∨ sent ≤ 0 then []
    else match c.transport with
      | none => []
      | some (connection,ssl) =>
        ⟨connection,ssl,message.take sent.toNat⟩ :: c.send returns (message.drop sent.toNat)

/-- What one read of `receiveLine` transfers. -/
def receive (c : SecureClient) (bytes : Bytes) : List Transfer :=
  match c.transport with
  | none => []
  | some (connection,ssl) => [⟨connection,ssl,bytes⟩]

variable {home : Option Bytes} {calls : ConnectCalls} {n : ℕ} {useSsl useMtls : Bool} {c : SecureClient}

def Configured (home : Option Bytes) (ctx : ClientContext) : Prop :=
  (∃ calls, configureContext home calls {} = (true,ctx)) ∧ ctx.verifyPeer = true

theorem configured_of_eq {ctx : ClientContext} (h : configureContext home calls {} = (true,ctx)) : Configured home ctx := by
  refine ⟨⟨calls,h⟩,?_⟩
  unfold configureContext at h
  dsimp only at h
  split_ifs at h
  · cases (Prod.mk.inj h).1
  · cases (Prod.mk.inj h).1
  · cases (Prod.mk.inj h).1
  · rw [← (Prod.mk.inj h).2]

inductive Connects (home : Option Bytes) (n : ℕ) (useSsl useMtls : Bool) : Bool × SecureClient → Prop
  | failed {c : SecureClient} : c.socketFd = none → c.ssl = none → Connects home n useSsl useMtls (false,c)
  | plain {c : SecureClient} : useSsl = false → c.socketFd = some n → c.useSsl = false → c.ssl = none →
      Connects home n useSsl useMtls (true,c)
  | secured {c : SecureClient} {ssl : Ssl} : useSsl = true → c.socketFd = some n → c.useSsl = true → c.ssl = some ssl →
      ssl.connection = n → ssl.connected = true → (useMtls = true → Configured home ssl.context) →
      Connects home n useSsl useMtls (true,c)

theorem initAndConnect_cases (home : Option Bytes) (calls : ConnectCalls) (n : ℕ) (useMtls : Bool) (c : SecureClient) :
    (∃ sslCtx, c.initAndConnect home calls n useMtls = (false,{ c with ssl := none, sslCtx })) ∨
    ∃ ctx, (useMtls = true → Configured home ctx) ∧ c.initAndConnect home calls n useMtls =
      (true,{ c with ssl := some { context := ctx, connection := n, connected := true }, sslCtx := some ctx }) := by
  have hconfigured : ∀ ctx,
      (if useMtls then configureContext home calls {} else (true,{ verifyPeer := false })) = (true,ctx) →
      useMtls = true → Configured home ctx := by
    rintro ctx h rfl
    exact configured_of_eq h
  unfold initAndConnect freeSession
  dsimp only
  generalize (if useMtls then configureContext home calls {} else (true,{ verifyPeer := false })) = r at hconfigured ⊢
  obtain ⟨ok,ctx⟩ := r
  dsimp only
  split_ifs with hnew hok hssl hconnect
  · exact .inl ⟨_,rfl⟩
  · exact .inl ⟨_,rfl⟩
  · exact .inl ⟨_,rfl⟩
  · exact .inl ⟨_,rfl⟩
  · have hctx : ok = true := by simpa using hok
    exact .inr ⟨ctx,hconfigured ctx (by rw [hctx]),rfl⟩

theorem connects (home : Option Bytes) (calls : ConnectCalls) (n : ℕ) (useSsl useMtls : Bool) (c : SecureClient) :
    Connects home n useSsl useMtls (c.connect home calls n useSsl useMtls) := by
  unfold connect
  dsimp only
  split_ifs with hsocket hinet hconnect hssl
  · exact .failed rfl rfl
  · exact .failed rfl rfl
  · exact .failed rfl rfl
  · rcases initAndConnect_cases home calls n useMtls { c.disconnect with useSsl, socketFd := some n } with
      ⟨sslCtx,he⟩ | ⟨ctx,hctx,he⟩
    · rw [he]
      exact .failed rfl rfl
    · rw [he]
      exact .secured hssl rfl hssl rfl rfl rfl hctx
  · rw [Bool.not_eq_true] at hssl
    exact .plain hssl rfl hssl rfl

/-- The calls of `connect` that come before SSL succeed. -/
def Reaches (calls : ConnectCalls) : Prop := 0 ≤ calls.socket ∧ 0 < calls.inetPton ∧ 0 ≤ calls.connect

theorem connect_plain (home : Option Bytes) (calls : ConnectCalls) (n : ℕ) (useMtls : Bool) (c : SecureClient) :
    (Reaches calls ∧ c.connect home calls n false useMtls =
      (true,{ c.disconnect with useSsl := false, socketFd := some n })) ∨
    (¬Reaches calls ∧ c.connect home calls n false useMtls = (false,{ c.disconnect with useSsl := false })) := by
  unfold connect
  simp only [Bool.false_eq_true, ↓reduceIte]
  split_ifs with hsocket hinet hconnect
  · exact .inr ⟨fun h => Int.not_le.mpr hsocket h.1,rfl⟩
  · exact .inr ⟨fun h => Int.not_lt.mpr hinet h.2.1,rfl⟩
  · exact .inr ⟨fun h => Int.not_le.mpr hconnect h.2.2,rfl⟩
  · exact .inl ⟨⟨Int.not_lt.mp hsocket,Int.not_le.mp hinet,Int.not_lt.mp hconnect⟩,rfl⟩

theorem mem_send {returns : List ℤ} {message : Bytes} {t : Transfer} (h : t ∈ c.send returns message) :
    c.transport = some (t.connection,t.ssl) := by
  induction returns generalizing message with
  | nil => cases h
  | cons sent returns ih =>
    unfold send at h
    split_ifs at h
    · cases h
    · cases ht : c.transport with
      | none =>
        rw [ht] at h
        cases h
      | some way =>
        obtain ⟨connection,ssl⟩ := way
        rw [ht] at h
        rcases List.mem_cons.mp h with rfl | h
        · rfl
        · rw [← ht]
          exact ih h

theorem mem_receive {bytes : Bytes} {t : Transfer} (h : t ∈ c.receive bytes) : c.transport = some (t.connection,t.ssl) := by
  unfold receive at h
  cases ht : c.transport with
  | none =>
    rw [ht] at h
    cases h
  | some way =>
    obtain ⟨connection,ssl⟩ := way
    rw [ht] at h
    obtain rfl := List.mem_singleton.mp h
    rfl

end SecureClient
end MiniHil
