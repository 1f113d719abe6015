import MiniHil.Foundation.OwnedHeap
import MiniHil.Startup.Daemon

/-! # The making of keys and certificates

`generatePki` of minihild and the functions it calls, over a heap of OpenSSL objects and open files. Every call
may fail, those whose answer the code drops without its noticing; a call on an object that is not there is undefined.
-/
namespace MiniHil

abbrev X509Name := List (Bytes × Bytes)

inductive Nid
  | basicConstraints
  | keyUsage
  | extKeyUsage
  deriving DecidableEq, Repr

structure CertInfo where
  version : ℤ := 0
  serialNumber : ℤ := 0
  notBefore : Option ℤ := none
  notAfter : Option ℤ := none
  subject : X509Name := []
  issuer : X509Name := []
  publicKey : Option ℕ := none
  extensions : List (Nid × Bytes) := []
  deriving DecidableEq, Repr

structure X509 extends CertInfo where
  signature : Option (ℕ × CertInfo) := none
  deriving DecidableEq, Repr

inductive SslObject
  | pkeyCtx
  | pkey (key : ℕ)
  | x509 (cert : X509)
  | extension (nid : Nid) (value : Bytes)
  | file (path buffered : Bytes)
  deriving DecidableEq, Repr

/-- What the calls answer, by their number: whether they succeed, and where the answer is dropped whether they do
their work; the key that is made, whether a key is left where its making failed, and what a failed write leaves; and
the PEM texts. -/
structure OpenSsl where
  succeeds : ℕ → Bool
  works : ℕ → Bool
  newKey : ℕ → ℕ
  leavesKey : ℕ → Bool
  torn : ℕ → Bytes
  keyText : ℕ → Bytes
  certText : X509 → Bytes

structure PkiState where
  heap : Heap SslObject := {}
  calls : ℕ := 0
  fs : FileSystem

def FileSystem.overwrite (fs : FileSystem) (path contents : Bytes) : FileSystem :=
  { fs with files := Function.update fs.files (fs.location path) (some contents) }

namespace OpenSsl
variable (ssl : OpenSsl)

def alloc (b : SslObject) : Checked PkiState ℕ := fun s =>
  let (n,heap) := s.heap.alloc b
  some (n,{ s with heap })

def object (n : ℕ) : Checked PkiState SslObject := fun s => (s.heap.get n).map fun b => (b,s)

def assign (n : ℕ) (b : SslObject) : Checked PkiState Unit := fun s => (s.heap.set n b).map fun heap => ((),{ s with heap })

def release (n : ℕ) : Checked PkiState Unit := fun s => (s.heap.free n).map fun heap => ((),{ s with heap })

def undefined {α : Type} : Checked PkiState α := fun _ => none

def certAt (n : ℕ) : Checked PkiState X509 := do
  match ← object n with
  | .x509 cert => pure cert
  | _ => undefined

def keyAt (n : ℕ) : Checked PkiState ℕ := do
  match ← object n with
  | .pkey key => pure key
  | _ => undefined

def fileAt (n : ℕ) : Checked PkiState (Bytes × Bytes) := do
  match ← object n with
  | .file path buffered => pure (path,buffered)
  | _ => undefined

/-- The number of a call, and whether it succeeds. -/
def call : Checked PkiState (ℕ × Bool) := fun s => some ((s.calls,ssl.succeeds s.calls),{ s with calls := s.calls + 1 })

def unchecked : Checked PkiState (ℕ × Bool) := fun s => some ((s.calls,ssl.works s.calls),{ s with calls := s.calls + 1 })

def x509New : Checked PkiState (Option ℕ) := do
  let (_,ok) ← ssl.call
  if ok then some <$> alloc (.x509 {}) else pure none

def x509Free (cert : ℕ) : Checked PkiState Unit := do
  let _ ← certAt cert
  release cert

def evpPkeyFree (pkey : ℕ) : Checked PkiState Unit := do
  let _ ← keyAt pkey
  release pkey

def x509Set (cert : ℕ) (f : CertInfo → CertInfo) : Checked PkiState Unit := do
  let x ← certAt cert
  let (_,works) ← ssl.unchecked
  assign cert (.x509 (if works then { x with toCertInfo := f x.toCertInfo } else x))

def x509SetAll (cert : ℕ) : List (CertInfo → CertInfo) → Checked PkiState Unit
  | [] => pure ()
  | f :: fs => do
    ssl.x509Set cert f
    x509SetAll cert fs

def x509Sign (cert pkey : ℕ) : Checked PkiState Bool := do
  let x ← certAt cert
  let key ← keyAt pkey
  let (_,ok) ← ssl.call
  if ok then assign cert (.x509 { x with signature := some (key,x.toCertInfo) })
  pure ok

/-- `X509V3_set_ctx` and `X509V3_EXT_conf_nid` -/
def x509v3ExtConfNid (cert issuer : ℕ) (nid : Nid) (value : Bytes) : Checked PkiState (Option ℕ) := do
  let _ ← certAt issuer
  let _ ← certAt cert
  let (_,ok) ← ssl.call
  if ok then some <$> alloc (.extension nid value) else pure none

def x509AddExt (cert ex : ℕ) : Checked PkiState Unit := do
  match ← object ex with
  | .extension nid value => ssl.x509Set cert fun x => { x with extensions := x.extensions ++ [(nid,value)] }
  | _ => undefined

def addExtSigned (cert issuer : ℕ) (nid : Nid) (value : Bytes) : Checked PkiState Bool := do
  match ← ssl.x509v3ExtConfNid cert issuer nid value with
  | none => pure false
  | some ex =>
    ssl.x509AddExt cert ex
    release ex
    pure true

def addExt (cert : ℕ) (nid : Nid) (value : Bytes) : Checked PkiState Bool := ssl.addExtSigned cert cert nid value

/-- `EVP_PKEY_keygen` on a context. -/
def evpPkeyKeygen (ctx : ℕ) : Checked PkiState (Bool × Option ℕ) := do
  let _ ← object ctx
  let (n,ok) ← ssl.call
  if ok || ssl.leavesKey n then
    let pkey ← alloc (.pkey (ssl.newKey n))
    pure (ok,some pkey)
  else pure (false,none)

def generateKeyPair : Checked PkiState (Option ℕ) := do
  let (_,ok) ← ssl.call
  if !ok then pure none
  else
    let ctx ← alloc .pkeyCtx
    let (_,init) ← ssl.call
    if !init then
      release ctx
      pure none
    else
      let (_,bits) ← ssl.call
      if !bits then
        release ctx
        pure none
      else
        let (ok,pkey) ← ssl.evpPkeyKeygen ctx
        release ctx
        if !ok then
          match pkey with
          | some pkey => evpPkeyFree pkey
          | none => pure ()
          pure none
        else pure pkey

/-- `fopen` with "wb" -/
def fopen (path : Bytes) : Checked PkiState (Option ℕ) := fun s =>
  if s.fs.writable path then
    (some <$> alloc (.file path [])) { s with fs := s.fs.overwrite path [] }
  else some (none,s)

def pemWrite (f : ℕ) (text : Bytes) : Checked PkiState Bool := do
  let (path,_) ← fileAt f
  let (n,ok) ← ssl.call
  assign f (.file path (if ok then text else ssl.torn n))
  pure ok

def fclose (f : ℕ) : Checked PkiState Unit := do
  let (path,buffered) ← fileAt f
  let (n,works) ← ssl.unchecked
  modify fun s => { s with fs := s.fs.overwrite path (if works then buffered else ssl.torn n) }
  release f

def writePrivateKey (path : Bytes) (pkey : ℕ) : Checked PkiState Bool := do
  match ← fopen path with
  | none => pure false
  | some f =>
    let key ← keyAt pkey
    let ok ← ssl.pemWrite f (ssl.keyText key)
    ssl.fclose f
    pure ok

def writeCert (path : Bytes) (cert : ℕ) : Checked PkiState Bool := do
  match ← fopen path with
  | none => pure false
  | some f =>
    let x ← certAt cert
    let ok ← ssl.pemWrite f (ssl.certText x)
    ssl.fclose f
    pure ok

def name (commonName : String) : X509Name :=
  [(ascii "C",ascii "US"),(ascii "O",ascii "Electux"),(ascii "CN",ascii commonName)]

/-- The calls between `X509_new` and the extensions, but for the issuer: `X509_set_version`, `ASN1_INTEGER_set`, twice
`X509_gmtime_adj`, `X509_set_pubkey` and three times `X509_NAME_add_entry_by_txt`. -/
def fields (serialNumber lifetime : ℤ) (key : ℕ) (commonName : String) : List (CertInfo → CertInfo) :=
  [fun x => { x with version := 2 }, fun x => { x with serialNumber }, fun x => { x with notBefore := some 0 },
    fun x => { x with notAfter := some lifetime }, fun x => { x with publicKey := some key }] ++
  (name commonName).map fun entry x => { x with subject := x.subject ++ [entry] }

/-- The first part of `generatePki`: the key and the certificate of the root. -/
def generateCa : Checked PkiState (Option (ℕ × ℕ)) := do
  match ← ssl.generateKeyPair with
  | none => pure none
  | some caKey =>
    match ← ssl.x509New with
    | none =>
      evpPkeyFree caKey
      pure none
    | some caCert =>
      let key ← keyAt caKey
      ssl.x509SetAll caCert (fields 1 315360000 key "MiniHIL Root CA")
      ssl.x509Set caCert fun x => { x with issuer := x.subject }
      let _ ← ssl.addExt caCert .basicConstraints (ascii "critical,CA:TRUE")
      let _ ← ssl.addExt caCert .keyUsage (ascii "critical,keyCertSign,cRLSign")
      if !(← ssl.x509Sign caCert caKey) then
        x509Free caCert
        evpPkeyFree caKey
        pure none
      else pure (some (caKey,caCert))

/-- The second and the third part of `generatePki`: the server's key and certificate, and the client's. -/
def generateSigned (caKey caCert : ℕ) (serialNumber : ℤ) (commonName keyUsage extKeyUsage : String) :
    Checked PkiState (Option (ℕ × ℕ)) := do
  match ← ssl.generateKeyPair with
  | none => pure none
  | some pkey =>
    match ← ssl.x509New with
    | none =>
      evpPkeyFree pkey
      pure none
    | some cert =>
      let key ← keyAt pkey
      ssl.x509SetAll cert (fields serialNumber 31536000 key commonName)
      let ca ← certAt caCert
      ssl.x509Set cert fun x => { x with issuer := ca.subject }
      let _ ← ssl.addExtSigned cert caCert .basicConstraints (ascii "CA:FALSE")
      let _ ← ssl.addExtSigned cert caCert .keyUsage (ascii keyUsage)
      let _ ← ssl.addExtSigned cert caCert .extKeyUsage (ascii extKeyUsage)
      if !(← ssl.x509Sign cert caKey) then
        x509Free cert
        evpPkeyFree pkey
        pure none
      else pure (some (pkey,cert))

def generatePki (o : Options) : Checked PkiState Bool := do
  match ← ssl.generateCa with
  | none => pure false
  | some (caKey,caCert) =>
    match ← ssl.generateSigned caKey caCert 2 "localhost" "critical,digitalSignature,keyEncipherment" "serverAuth" with
    | none =>
      x509Free caCert
      evpPkeyFree caKey
      pure false
    | some (serverKey,serverCert) =>
      match ← ssl.generateSigned caKey caCert 3 "minihildesk" "critical,digitalSignature" "clientAuth" with
      | none =>
        x509Free serverCert
        evpPkeyFree serverKey
        x509Free caCert
        evpPkeyFree caKey
        pure false
      | some (clientKey,clientCert) =>
        let wroteCaKey ← ssl.writePrivateKey o.caKeyPath caKey
        let wroteCaCert ← ssl.writeCert o.caCertPath caCert
        let wroteServerKey ← ssl.writePrivateKey o.keyPath serverKey
        let wroteServerCert ← ssl.writeCert o.certPath serverCert
        let wroteClientKey ← ssl.writePrivateKey o.clientKeyPath clientKey
        let wroteClientCert ← ssl.writeCert o.clientCertPath clientCert
        x509Free clientCert
        evpPkeyFree clientKey
        x509Free serverCert
        evpPkeyFree serverKey
        x509Free caCert
        evpPkeyFree caKey
        pure (wroteCaKey && wroteCaCert && wroteServerKey && wroteServerCert && wroteClientKey && wroteClientCert)

end OpenSsl
end MiniHil
