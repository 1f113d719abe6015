import Mathlib.Logic.Function.Basic
import MiniHil.Network.ServerResources
import MiniHil.Startup.Arguments

/-! # The start of the daemon

`main` of minihild from its arguments to the running server: the certificate step over the file system, the
device controller, and the SSL context and the socket of `TcpServer::start`.
-/
namespace MiniHil

/-- Paths lead to places, several of them to one place where there are links; a place holds a file or
nothing yet. Looking up an inaccessible path throws, and a path that is not writable cannot be opened with "wb". -/
structure FileSystem where
  location : Bytes → ℕ
  files : ℕ → Option Bytes
  directory : Bytes → Bool := fun _ => false
  inaccessible : Bytes → Bool := fun _ => false
  writable : Bytes → Bool := fun _ => true

namespace FileSystem

/-- The content of the file that a path leads to. -/
def read (fs : FileSystem) (path : Bytes) : Option Bytes := fs.files (fs.location path)

/-- `fs::exists`, `none` where it throws. -/
def existsAt (fs : FileSystem) (path : Bytes) : Option Bool :=
  if fs.inaccessible path then none else some ((fs.read path).isSome || fs.directory path)

/-- `!fs::exists(path) || ...`, up to the first path that does not exist. -/
def anyMissing (fs : FileSystem) : List Bytes → Option Bool
  | [] => some false
  | path :: paths => match fs.existsAt path with
    | none => none
    | some false => some true
    | some true => fs.anyMissing paths

end FileSystem

structure Pem where
  contents : Bytes
  written : Bool
  deriving DecidableEq, Repr

/-- The keys and certificates that `generatePki` has made when it begins to write. -/
structure Pki where
  caKey : Pem
  caCert : Pem
  serverKey : Pem
  serverCert : Pem
  clientKey : Pem
  clientCert : Pem
  deriving DecidableEq, Repr

/-- What OpenSSL, the system and the device controller answer at the start. -/
structure Platform where
  pki : Option Pki
  init : Bool
  newContext : Bool
  useCertificateFile : FileSystem → Bytes → Bool
  usePrivateKeyFile : FileSystem → Bytes → Bytes → Bool
  loadVerifyLocations : FileSystem → Bytes → Bool
  socket : Bool
  bind : Bool
  listen : Bool

/-- `fopen` with "wb" empties the file before the PEM text is written. -/
def writePem (fs : FileSystem) (path : Bytes) (pem : Pem) : Bool × FileSystem :=
  if fs.writable path then
    (pem.written,{ fs with files := Function.update fs.files (fs.location path) (some pem.contents) })
  else (false,fs)

theorem writePem_writable (fs : FileSystem) (path : Bytes) (pem : Pem) :
    (writePem fs path pem).2.writable = fs.writable := by
  unfold writePem
  split_ifs <;> rfl

def writePrivateKey := writePem
def writeCert := writePem

/-- The paths that the certificate step asks for, in its order. -/
def Options.paths (o : Options) : List Bytes :=
  [o.caCertPath,o.caKeyPath,o.certPath,o.keyPath,o.clientCertPath,o.clientKeyPath]

/-- The writes go on after one has failed. Without keys and certificates nothing is written. -/
def generatePki (o : Options) (pki : Option Pki) (fs : FileSystem) : Bool × FileSystem :=
  match pki with
  | none => (false,fs)
  | some pki =>
    let (caKey,fs) := writePrivateKey fs o.caKeyPath pki.caKey
    let (caCert,fs) := writeCert fs o.caCertPath pki.caCert
    let (serverKey,fs) := writePrivateKey fs o.keyPath pki.serverKey
    let (serverCert,fs) := writeCert fs o.certPath pki.serverCert
    let (clientKey,fs) := writePrivateKey fs o.clientKeyPath pki.clientKey
    let (clientCert,fs) := writeCert fs o.clientCertPath pki.clientCert
    (caKey && caCert && serverKey && serverCert && clientKey && clientCert,fs)

/-- Whether `main` goes on after the certificate step, `none` where the look-up throws. -/
def certificateStep (o : Options) (pki : Option Pki) (fs : FileSystem) : Option Bool × FileSystem :=
  if o.useSsl then
    match fs.anyMissing o.paths with
    | none => (none,fs)
    | some false => (some true,fs)
    | some true =>
      let (success,fs) := generatePki o pki fs
      (some success,fs)
  else (some true,fs)

/-- `SSL_VERIFY_PEER` and `SSL_VERIFY_FAIL_IF_NO_PEER_CERT` -/
structure VerifyMode where
  peer : Bool := false
  failIfNoPeerCert : Bool := false
  deriving DecidableEq, Repr

structure SslContext where
  certPath : Bytes
  keyPath : Bytes
  verifyLocations : Option Bytes := none
  verifyMode : VerifyMode := {}
  deriving DecidableEq, Repr

structure RunningServer where
  useSsl : Bool
  useMtls : Bool
  sslCtx : Option SslContext
  deriving DecidableEq, Repr

namespace Platform
variable (env : Platform)

/-- The SSL context of `TcpServer::start`. -/
def sslContext (o : Options) (fs : FileSystem) : Option SslContext :=
  if !env.newContext then none
  else if !env.useCertificateFile fs o.certPath then none
  else if !env.usePrivateKeyFile fs o.certPath o.keyPath then none
  else if o.useMtls && !o.caCertPath.isEmpty then
    if !env.loadVerifyLocations fs o.caCertPath then none
    else some {
      certPath := o.certPath, keyPath := o.keyPath, verifyLocations := some o.caCertPath
      verifyMode := { peer := true, failIfNoPeerCert := true } }
  else some { certPath := o.certPath, keyPath := o.keyPath }

/-- `TcpServer::start` of a server that is not running, `none` where it fails. -/
def start (o : Options) (fs : FileSystem) : Option RunningServer := do
  let sslCtx ← if o.useSsl then (env.sslContext o fs).map some else some none
  if env.socket && env.bind && env.listen then some { useSsl := o.useSsl, useMtls := o.useMtls, sslCtx } else none

/-- How far `main` gets. -/
inductive Outcome
  | helped
  | terminated
  | failed
  | running (server : RunningServer)
  deriving DecidableEq, Repr

def main (argv : List Bytes) (fs : FileSystem) : Outcome × FileSystem :=
  match parseArguments {} argv with
  | none => (.helped,fs)
  | some o => match certificateStep o env.pki fs with
    | (none,fs) => (.terminated,fs)
    | (some false,fs) => (.failed,fs)
    | (some true,fs) =>
      if !env.init then (.failed,fs)
      else match env.start o fs with
        | none => (.failed,fs)
        | some server => (.running server,fs)

/-- All goes well, and every file that is written gets the same new text. -/
def working : Platform where
  pki := some ⟨⟨[1],true⟩,⟨[1],true⟩,⟨[1],true⟩,⟨[1],true⟩,⟨[1],true⟩,⟨[1],true⟩⟩
  init := true
  newContext := true
  useCertificateFile _ _ := true
  usePrivateKeyFile _ _ _ := true
  loadVerifyLocations _ _ := true
  socket := true
  bind := true
  listen := true

def returned (ok : Bool) : ℤ := if ok then 1 else -1

theorem returned_nonpos (ok : Bool) : returned ok ≤ 0 ↔ ok = false := by
  cases ok <;> decide

theorem returned_neg (ok : Bool) : returned ok < 0 ↔ ok = false := by
  cases ok <;> decide

/-- What the calls in `start` return on this platform. -/
def startCalls (o : Options) (fs : FileSystem) : StartCalls where
  sslCtxNew := env.newContext
  useCertificateFile := returned (env.useCertificateFile fs o.certPath)
  usePrivateKeyFile := returned (env.usePrivateKeyFile fs o.certPath o.keyPath)
  loadVerifyLocations := returned (env.loadVerifyLocations fs o.caCertPath)
  socket := returned env.socket
  bind := returned env.bind
  listen := returned env.listen

theorem loadContext_startCalls (o : Options) (fs : FileSystem) (s : ServerResources) (hmtls : s.useMtls = o.useMtls)
    (hca : s.caPath = o.caCertPath) : (s.loadContext (env.startCalls o fs)).1 = (env.sslContext o fs).isSome := by
  unfold ServerResources.loadContext sslContext startCalls
  simp only [returned_nonpos, hmtls, hca]
  cases env.newContext <;> cases env.useCertificateFile fs o.certPath <;>
    cases env.usePrivateKeyFile fs o.certPath o.keyPath <;> cases o.useMtls <;> cases o.caCertPath.isEmpty <;>
    cases env.loadVerifyLocations fs o.caCertPath <;> rfl

theorem openServerSocket_startCalls (o : Options) (fs : FileSystem) (s : ServerResources) :
    (s.openServerSocket (env.startCalls o fs)).1 = (env.socket && env.bind && env.listen) := by
  unfold ServerResources.openServerSocket startCalls
  simp only [returned_neg]
  cases env.socket <;> cases env.bind <;> cases env.listen <;> rfl

/-- A new `TcpServer` starts exactly where the start of the daemon has a running server. -/
theorem start_startCalls (o : Options) (fs : FileSystem) :
    (ServerResources.start (env.startCalls o fs)
      { useSsl := o.useSsl, useMtls := o.useMtls, caPath := o.caCertPath }).1 = (env.start o fs).isSome := by
  set s : ServerResources := { useSsl := o.useSsl, useMtls := o.useMtls, caPath := o.caCertPath }
  have hsocket (server : RunningServer) : (env.socket && env.bind && env.listen) =
      (if env.socket && env.bind && env.listen then some server else none).isSome := by
    cases env.socket && env.bind && env.listen <;> rfl
  unfold ServerResources.start start
  rw [if_neg (show ¬s.running = true from Bool.false_ne_true)]
  by_cases hssl : o.useSsl = true
  · rw [if_pos (show s.useSsl = true from hssl), if_pos hssl]
    have hctx := env.loadContext_startCalls o fs s rfl rfl
    generalize s.loadContext (env.startCalls o fs) = loaded at hctx ⊢
    obtain ⟨ok,t⟩ := loaded
    cases hsome : env.sslContext o fs with
    | none =>
      rw [hsome] at hctx
      obtain rfl : ok = false := hctx
      rfl
    | some ctx =>
      rw [hsome] at hctx
      obtain rfl : ok = true := hctx
      exact (env.openServerSocket_startCalls o fs t).trans (hsocket _)
  · rw [if_neg (show ¬s.useSsl = true from hssl), if_neg hssl]
    exact (env.openServerSocket_startCalls o fs s).trans (hsocket _)

end Platform
end MiniHil
