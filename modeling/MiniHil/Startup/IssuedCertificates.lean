import MiniHil.Startup.Certificates
import MiniHil.Startup.Restarts

/-! # What the making of keys and certificates leaves

Whatever each call answers, `generatePki` does nothing undefined, frees what it has made once, and leaves the
files as the certificate step of the start has them: keys with the certificates made for them, all signed by
the root, as far as the calls whose answers are dropped did their work.
-/
namespace MiniHil

/-- A certificate that is what it was made to be, but for extensions that could not be made. -/
structure Issued (signer : ℕ) (serialNumber lifetime : ℤ) (subject issuer : X509Name) (key : ℕ)
    (extensions : List (Nid × Bytes)) (cert : X509) : Prop where
  version : cert.version = 2
  serialNumber : cert.serialNumber = serialNumber
  validity : cert.notBefore = some 0 ∧ cert.notAfter = some lifetime
  subject : cert.subject = subject
  issuer : cert.issuer = issuer
  publicKey : cert.publicKey = some key
  extensions : cert.extensions.Sublist extensions
  signature : cert.signature = some (signer,cert.toCertInfo)

/-- What is reported as written is in the file. -/
def Pem.Carries (pem : Pem) (text : Bytes) : Prop := pem.written = true → pem.contents = text

namespace OpenSsl
open Checked

variable {ssl : OpenSsl} {objs pre post : List (ℕ × SslObject)} {fs : FileSystem} {n : ℕ} {b : SslObject} {x y : X509}
  {key : ℕ} {path : Bytes}

/-- The calls whose answers are dropped do their work. -/
def Works (ssl : OpenSsl) : Prop := ∀ n, ssl.works n = true

def caExtensions : List (Nid × Bytes) :=
  [(.basicConstraints,ascii "critical,CA:TRUE"),(.keyUsage,ascii "critical,keyCertSign,cRLSign")]

def leafExtensions (keyUsage extKeyUsage : String) : List (Nid × Bytes) :=
  [(.basicConstraints,ascii "CA:FALSE"),(.keyUsage,ascii keyUsage),(.extKeyUsage,ascii extKeyUsage)]

def IssuedCa (key : ℕ) (cert : X509) : Prop :=
  Issued key 1 315360000 (name "MiniHIL Root CA") (name "MiniHIL Root CA") key caExtensions cert

def IssuedLeaf (caKey : ℕ) (serialNumber : ℤ) (commonName keyUsage extKeyUsage : String) (key : ℕ) (cert : X509) : Prop :=
  Issued caKey serialNumber 31536000 (name commonName) (name "MiniHIL Root CA") key (leafExtensions keyUsage extKeyUsage) cert

def IssuedServer (caKey : ℕ) : ℕ → X509 → Prop :=
  IssuedLeaf caKey 2 "localhost" "critical,digitalSignature,keyEncipherment" "serverAuth"

def IssuedClient (caKey : ℕ) : ℕ → X509 → Prop :=
  IssuedLeaf caKey 3 "minihildesk" "critical,digitalSignature" "clientAuth"

/-- The heap holds exactly these objects, and the files are these. -/
def At (objs : List (ℕ × SslObject)) (fs : FileSystem) (s : PkiState) : Prop := s.heap.Is objs ∧ s.fs = fs

theorem alloc_spec (b : SslObject) : Spec (At objs fs) (alloc b) fun n => At ((n,b) :: objs) fs :=
  fun _ hs => ⟨_,_,rfl,hs.1.alloc b,hs.2⟩

theorem object_spec (hmem : (n,b) ∈ objs) : Spec (At objs fs) (object n) fun b' s => b' = b ∧ At objs fs s := by
  intro s hs
  obtain ⟨pre,post,rfl⟩ := List.append_of_mem hmem
  refine ⟨b,s,?_,rfl,hs⟩
  change (s.heap.get n).map _ = _
  rw [hs.1.get]
  rfl

theorem assign_spec (pre : List (ℕ × SslObject)) (b' : SslObject) :
    Spec (At (pre ++ (n,b) :: post) fs) (assign n b') fun _ => At (pre ++ (n,b') :: post) fs := by
  intro s hs
  obtain ⟨heap,hset,hi⟩ := hs.1.set b'
  refine ⟨(),{ s with heap },?_,hi,hs.2⟩
  change (s.heap.set n b').map _ = _
  rw [hset]
  rfl

theorem release_spec (pre : List (ℕ × SslObject)) :
    Spec (At (pre ++ (n,b) :: post) fs) (release n) fun _ => At (pre ++ post) fs := by
  intro s hs
  obtain ⟨heap,hfree,hi⟩ := hs.1.free
  refine ⟨(),{ s with heap },?_,hi,hs.2⟩
  change (s.heap.free n).map _ = _
  rw [hfree]
  rfl

theorem call_spec : Spec (At objs fs) ssl.call fun _ => At objs fs := fun _ hs => ⟨_,_,rfl,hs⟩

theorem certAt_spec (hmem : (n,.x509 x) ∈ objs) : Spec (At objs fs) (certAt n) fun x' s => x' = x ∧ At objs fs s := by
  refine (object_spec hmem).bind fun b => Spec.assume ?_
  rintro rfl
  exact Spec.pure fun _ hs => ⟨rfl,hs⟩

theorem keyAt_spec (hmem : (n,.pkey key) ∈ objs) : Spec (At objs fs) (keyAt n) fun key' s => key' = key ∧ At objs fs s := by
  refine (object_spec hmem).bind fun b => Spec.assume ?_
  rintro rfl
  exact Spec.pure fun _ hs => ⟨rfl,hs⟩

theorem fileAt_spec {buffered : Bytes} (hmem : (n,.file path buffered) ∈ objs) :
    Spec (At objs fs) (fileAt n) fun r s => r = (path,buffered) ∧ At objs fs s := by
  refine (object_spec hmem).bind fun b => Spec.assume ?_
  rintro rfl
  exact Spec.pure fun _ hs => ⟨rfl,hs⟩

theorem unchecked_spec : Spec (At objs fs) ssl.unchecked fun r s => (ssl.Works → r.2 = true) ∧ At objs fs s :=
  fun s hs => ⟨_,_,rfl,fun h => h s.calls,hs⟩

theorem x509Free_spec : Spec (At ((n,.x509 x) :: objs) fs) (x509Free n) fun _ => At objs fs :=
  (certAt_spec List.mem_cons_self).bind fun _ => Spec.assume fun _ => release_spec []

theorem evpPkeyFree_spec : Spec (At ((n,.pkey key) :: objs) fs) (evpPkeyFree n) fun _ => At objs fs :=
  (keyAt_spec List.mem_cons_self).bind fun _ => Spec.assume fun _ => release_spec []

theorem x509New_spec : Spec (At objs fs) ssl.x509New fun r s => match r with
    | none => At objs fs s
    | some n => At ((n,.x509 {}) :: objs) fs s := by
  refine call_spec.bind fun r => ?_
  obtain ⟨_,ok⟩ := r
  cases ok with
  | false => exact Spec.pure fun _ hs => hs
  | true => exact (alloc_spec _).map

theorem x509Set_spec (pre : List (ℕ × SslObject)) (f : CertInfo → CertInfo) :
    Spec (At (pre ++ (n,.x509 x) :: post) fs) (ssl.x509Set n f) fun _ s => ∃ x',
      (ssl.Works → x' = { x with toCertInfo := f x.toCertInfo }) ∧ At (pre ++ (n,.x509 x') :: post) fs s := by
  refine (certAt_spec (List.mem_append_right _ List.mem_cons_self)).bind fun x' => Spec.assume ?_
  rintro rfl
  refine unchecked_spec.bind fun r => Spec.assume fun hworks => ?_
  intro s hs
  obtain ⟨_,t,hrun,ht⟩ := assign_spec pre _ s hs
  exact ⟨(),t,hrun,_,fun h => if_pos (hworks h),ht⟩

theorem x509SetAll_spec (pre : List (ℕ × SslObject)) (sets : List (CertInfo → CertInfo)) :
    Spec (At (pre ++ (n,.x509 x) :: post) fs) (ssl.x509SetAll n sets) fun _ s => ∃ x',
      (ssl.Works → x' = { x with toCertInfo := sets.foldl (fun info f => f info) x.toCertInfo }) ∧
        At (pre ++ (n,.x509 x') :: post) fs s := by
  induction sets generalizing x with
  | nil => exact Spec.pure fun _ hs => ⟨x,fun _ => rfl,hs⟩
  | cons f sets ih =>
    refine (x509Set_spec pre f).bind fun _ => Spec.choose fun x' => Spec.assume fun hx' => ?_
    intro s hs
    obtain ⟨_,t,hrun,x'',hx'',ht⟩ := ih s hs
    refine ⟨(),t,hrun,x'',?_,ht⟩
    intro h
    rw [hx'' h, hx' h]
    rfl

theorem x509Sign_spec {pkey : ℕ} (hmem : (pkey,.pkey key) ∈ objs) :
    Spec (At ((n,.x509 x) :: objs) fs) (ssl.x509Sign n pkey) fun ok s => if ok then
      At ((n,.x509 { x with signature := some (key,x.toCertInfo) }) :: objs) fs s
    else At ((n,.x509 x) :: objs) fs s := by
  refine (certAt_spec List.mem_cons_self).bind fun x' => Spec.assume ?_
  rintro rfl
  refine (keyAt_spec (List.mem_cons_of_mem _ hmem)).bind fun key' => Spec.assume ?_
  rintro rfl
  refine call_spec.bind fun r => ?_
  obtain ⟨_,ok⟩ := r
  cases ok with
  | false => exact Spec.pure fun _ hs => hs
  | true => exact (assign_spec [] _).bind fun _ => Spec.pure fun _ hs => hs

def extended (ok : Bool) (nid : Nid) (value : Bytes) (x : X509) : X509 :=
  { x with extensions := x.extensions ++ if ok then [(nid,value)] else [] }

theorem addExtSigned_spec {issuer : ℕ} {nid : Nid} {value : Bytes} (hmem : (issuer,.x509 y) ∈ (n,.x509 x) :: objs) :
    Spec (At ((n,.x509 x) :: objs) fs) (ssl.addExtSigned n issuer nid value) fun ok s => ∃ x',
      (ssl.Works → x' = extended ok nid value x) ∧ At ((n,.x509 x') :: objs) fs s := by
  have hconf : Spec (At ((n,.x509 x) :: objs) fs) (ssl.x509v3ExtConfNid n issuer nid value) fun r s => match r with
      | none => At ((n,.x509 x) :: objs) fs s
      | some ex => At ((ex,.extension nid value) :: (n,.x509 x) :: objs) fs s := by
    refine (certAt_spec hmem).bind fun _ => Spec.assume fun _ => ?_
    refine (certAt_spec List.mem_cons_self).bind fun _ => Spec.assume fun _ => ?_
    refine call_spec.bind fun r => ?_
    obtain ⟨_,ok⟩ := r
    cases ok with
    | false => exact Spec.pure fun _ hs => hs
    | true => exact (alloc_spec _).map
  refine hconf.bind fun r => ?_
  cases r with
  | none =>
    refine Spec.pure fun _ hs => ⟨x,fun _ => ?_,hs⟩
    rw [extended, if_neg Bool.false_ne_true, List.append_nil]
  | some ex =>
    have hadd : Spec (At ((ex,.extension nid value) :: (n,.x509 x) :: objs) fs) (ssl.x509AddExt n ex) fun _ s => ∃ x',
        (ssl.Works → x' = extended true nid value x) ∧ At ((ex,.extension nid value) :: (n,.x509 x') :: objs) fs s := by
      refine (object_spec List.mem_cons_self).bind fun b => Spec.assume ?_
      rintro rfl
      exact x509Set_spec [(ex,.extension nid value)] _
    refine hadd.bind fun _ => Spec.choose fun x' => Spec.assume fun hx' => ?_
    exact (release_spec []).bind fun _ => Spec.pure fun _ hs => ⟨x',hx',hs⟩

theorem generateKeyPair_spec : Spec (At objs fs) ssl.generateKeyPair fun r s => match r with
    | none => At objs fs s
    | some n => ∃ key, At ((n,.pkey key) :: objs) fs s := by
  refine call_spec.bind fun r => ?_
  obtain ⟨_,ok⟩ := r
  cases ok with
  | false => exact Spec.pure fun _ hs => hs
  | true =>
    refine (alloc_spec .pkeyCtx).bind fun ctx => ?_
    refine call_spec.bind fun r => ?_
    obtain ⟨_,init⟩ := r
    cases init with
    | false => exact (release_spec []).bind fun _ => Spec.pure fun _ hs => hs
    | true =>
      refine call_spec.bind fun r => ?_
      obtain ⟨_,bits⟩ := r
      cases bits with
      | false => exact (release_spec []).bind fun _ => Spec.pure fun _ hs => hs
      | true =>
        have hkeygen : Spec (At ((ctx,.pkeyCtx) :: objs) fs) (ssl.evpPkeyKeygen ctx) fun r s => match r.2 with
            | none => r.1 = false ∧ At ((ctx,.pkeyCtx) :: objs) fs s
            | some n => ∃ key, At ((n,.pkey key) :: (ctx,.pkeyCtx) :: objs) fs s := by
          refine (object_spec List.mem_cons_self).bind fun _ => Spec.assume fun _ => ?_
          refine call_spec.bind fun r => ?_
          obtain ⟨k,ok⟩ := r
          dsimp only
          split
          · exact (alloc_spec _).bind fun n => Spec.pure fun _ hs => ⟨_,hs⟩
          · exact Spec.pure fun _ hs => ⟨rfl,hs⟩
        refine hkeygen.bind fun r => ?_
        obtain ⟨ok,pkey⟩ := r
        cases pkey with
        | none =>
          refine Spec.assume ?_
          rintro rfl
          exact (release_spec []).bind fun _ => Spec.pure fun _ hs => hs
        | some n =>
          refine Spec.choose fun key => ?_
          refine (release_spec [(n,.pkey key)]).bind fun _ => ?_
          cases ok with
          | false => exact evpPkeyFree_spec.bind fun _ => Spec.pure fun _ hs => hs
          | true => exact Spec.pure fun _ hs => ⟨key,hs⟩

theorem foldl_fields (serialNumber lifetime : ℤ) (key : ℕ) (commonName : String) :
    (fields serialNumber lifetime key commonName).foldl (fun info f => f info) {} =
      { version := 2, serialNumber, notBefore := some 0, notAfter := some lifetime, publicKey := some key
        subject := name commonName } := rfl

theorem generateCa_spec : Spec (At objs fs) ssl.generateCa fun r s => match r with
    | none => At objs fs s
    | some (caKey,caCert) => ∃ key cert, (ssl.Works → IssuedCa key cert) ∧
      At ((caCert,.x509 cert) :: (caKey,.pkey key) :: objs) fs s := by
  refine generateKeyPair_spec.bind fun r => ?_
  cases r with
  | none => exact Spec.pure fun _ hs => hs
  | some caKey =>
    refine Spec.choose fun key => ?_
    refine x509New_spec.bind fun r => ?_
    cases r with
    | none => exact evpPkeyFree_spec.bind fun _ => Spec.pure fun _ hs => hs
    | some caCert =>
      have hkey : ∀ x, (caKey,SslObject.pkey key) ∈ (caCert,.x509 x) :: (caKey,.pkey key) :: objs :=
        fun x => List.mem_cons_of_mem _ List.mem_cons_self
      refine (keyAt_spec (hkey _)).bind fun key' => Spec.assume ?_
      rintro rfl
      refine (x509SetAll_spec [] _).bind fun _ => Spec.choose fun x₁ => Spec.assume fun h₁ => ?_
      refine (x509Set_spec [] _).bind fun _ => Spec.choose fun x₂ => Spec.assume fun h₂ => ?_
      refine (addExtSigned_spec List.mem_cons_self).bind fun ok₁ => Spec.choose fun x₃ => Spec.assume fun h₃ => ?_
      refine (addExtSigned_spec List.mem_cons_self).bind fun ok₂ => Spec.choose fun x₄ => Spec.assume fun h₄ => ?_
      refine (x509Sign_spec List.mem_cons_self).bind fun ok => ?_
      cases ok with
      | false => exact x509Free_spec.bind fun _ => evpPkeyFree_spec.bind fun _ => Spec.pure fun _ hs => hs
      | true =>
        refine Spec.pure fun _ hs => ⟨key',_,fun hworks => ?_,hs⟩
        rw [h₄ hworks, h₃ hworks, h₂ hworks, h₁ hworks, foldl_fields]
        refine ⟨rfl,rfl,⟨rfl,rfl⟩,rfl,rfl,rfl,?_,rfl⟩
        cases ok₁ <;> cases ok₂ <;> simp [extended, caExtensions]

theorem generateSigned_spec {caKey caCert key : ℕ} {ca : X509} (hkey : (caKey,.pkey key) ∈ objs)
    (hcert : (caCert,.x509 ca) ∈ objs) (hca : ssl.Works → IssuedCa key ca) (serialNumber : ℤ)
    (commonName keyUsage extKeyUsage : String) :
    Spec (At objs fs) (ssl.generateSigned caKey caCert serialNumber commonName keyUsage extKeyUsage) fun r s => match r with
      | none => At objs fs s
      | some (pkey,cert) => ∃ k x, (ssl.Works → IssuedLeaf key serialNumber commonName keyUsage extKeyUsage k x) ∧
        At ((cert,.x509 x) :: (pkey,.pkey k) :: objs) fs s := by
  refine generateKeyPair_spec.bind fun r => ?_
  cases r with
  | none => exact Spec.pure fun _ hs => hs
  | some pkey =>
    refine Spec.choose fun k => ?_
    refine x509New_spec.bind fun r => ?_
    cases r with
    | none => exact evpPkeyFree_spec.bind fun _ => Spec.pure fun _ hs => hs
    | some cert =>
      have hissuer : ∀ x, (caCert,SslObject.x509 ca) ∈ (cert,.x509 x) :: (pkey,.pkey k) :: objs :=
        fun x => List.mem_cons_of_mem _ (List.mem_cons_of_mem _ hcert)
      refine (keyAt_spec (List.mem_cons_of_mem _ List.mem_cons_self)).bind fun k' => Spec.assume ?_
      rintro rfl
      refine (x509SetAll_spec [] _).bind fun _ => Spec.choose fun x₁ => Spec.assume fun h₁ => ?_
      refine (certAt_spec (hissuer _)).bind fun ca' => Spec.assume ?_
      rintro rfl
      refine (x509Set_spec [] _).bind fun _ => Spec.choose fun x₂ => Spec.assume fun h₂ => ?_
      refine (addExtSigned_spec (hissuer _)).bind fun ok₁ => Spec.choose fun x₃ => Spec.assume fun h₃ => ?_
      refine (addExtSigned_spec (hissuer _)).bind fun ok₂ => Spec.choose fun x₄ => Spec.assume fun h₄ => ?_
      refine (addExtSigned_spec (hissuer _)).bind fun ok₃ => Spec.choose fun x₅ => Spec.assume fun h₅ => ?_
      refine (x509Sign_spec (List.mem_cons_of_mem _ hkey)).bind fun ok => ?_
      cases ok with
      | false => exact x509Free_spec.bind fun _ => evpPkeyFree_spec.bind fun _ => Spec.pure fun _ hs => hs
      | true =>
        refine Spec.pure fun _ hs => ⟨k',_,fun hworks => ?_,hs⟩
        rw [h₅ hworks, h₄ hworks, h₃ hworks, h₂ hworks, h₁ hworks, foldl_fields]
        refine ⟨rfl,rfl,⟨rfl,rfl⟩,rfl,(hca hworks).subject,rfl,?_,rfl⟩
        cases ok₁ <;> cases ok₂ <;> cases ok₃ <;> simp [extended, leafExtensions]

theorem fopen_spec : Spec (At objs fs) (fopen path) fun r s => match r with
    | none => fs.writable path = false ∧ At objs fs s
    | some f => fs.writable path = true ∧ At ((f,.file path []) :: objs) (fs.overwrite path []) s := by
  rintro s ⟨hi,rfl⟩
  by_cases hw : s.fs.writable path = true
  · exact ⟨some (s.heap.alloc (.file path [])).1,_,if_pos hw,hw,hi.alloc _,rfl⟩
  · exact ⟨none,s,if_neg hw,Bool.eq_false_iff.mpr hw,hi,rfl⟩

theorem pemWrite_spec (text : Bytes) : Spec (At ((n,.file path []) :: objs) fs) (ssl.pemWrite n text) fun ok s =>
    ∃ buffered, (ok = true → buffered = text) ∧ At ((n,.file path buffered) :: objs) fs s := by
  refine (fileAt_spec List.mem_cons_self).bind fun r => Spec.assume ?_
  rintro rfl
  refine call_spec.bind fun r => ?_
  obtain ⟨k,ok⟩ := r
  refine (assign_spec [] _).bind fun _ => Spec.pure fun _ hs => ⟨_,fun hok => if_pos hok,hs⟩

theorem fclose_spec {buffered : Bytes} : Spec (At ((n,.file path buffered) :: objs) fs) (ssl.fclose n) fun _ s =>
    ∃ contents, (ssl.Works → contents = buffered) ∧ At objs (fs.overwrite path contents) s := by
  refine (fileAt_spec List.mem_cons_self).bind fun r => Spec.assume ?_
  rintro rfl
  refine unchecked_spec.bind fun r => Spec.assume fun hworks => ?_
  obtain ⟨k,works⟩ := r
  rintro s ⟨hi,rfl⟩
  set contents : Bytes := if works then buffered else ssl.torn k
  have hrelease : Spec (At ((n,.file path buffered) :: objs) (s.fs.overwrite path contents)) (release n) fun _ =>
    At objs (s.fs.overwrite path contents) := release_spec []
  obtain ⟨_,t,hrun,ht⟩ := hrelease { s with fs := s.fs.overwrite path contents } ⟨hi,rfl⟩
  exact ⟨(),t,hrun,contents,fun h => if_pos (hworks h),ht⟩

/-- A text that is written, or not, to a path, as `writePem` has it. -/
def Writes (ssl : OpenSsl) (text : Bytes) (objs : List (ℕ × SslObject)) (fs : FileSystem) (path : Bytes) (ok : Bool) (s : PkiState) : Prop :=
  ∃ pem : Pem, (ssl.Works → pem.Carries text) ∧ ok = (writePem fs path pem).1 ∧ At objs (writePem fs path pem).2 s

theorem not_opened (text : Bytes) (hw : fs.writable path = false) {s : PkiState} (hs : At objs fs s) :
    Writes ssl text objs fs path false s := by
  refine ⟨⟨text,true⟩,fun _ _ => rfl,?_,?_⟩
  · rw [writePem, if_neg (by simp [hw])]
  · rw [writePem, if_neg (by simp [hw])]
    exact hs

theorem opened {text contents : Bytes} {ok : Bool} (hok : ssl.Works → ok = true → contents = text) (hw : fs.writable path = true)
    {s : PkiState} (hs : At objs ((fs.overwrite path []).overwrite path contents) s) : Writes ssl text objs fs path ok s := by
  have hlast : (fs.overwrite path []).overwrite path contents = fs.overwrite path contents := by
    simp only [FileSystem.overwrite, Function.update_idem]
  rw [hlast] at hs
  refine ⟨⟨contents,ok⟩,hok,?_,?_⟩
  · rw [writePem, if_pos hw]
  · rw [writePem, if_pos hw]
    exact hs

theorem writePrivateKey_spec (hmem : (n,.pkey key) ∈ objs) :
    Spec (At objs fs) (ssl.writePrivateKey path n) (ssl.Writes (ssl.keyText key) objs fs path) := by
  refine fopen_spec.bind fun r => ?_
  cases r with
  | none =>
    refine Spec.assume fun hw => ?_
    exact Spec.pure fun _ hs => not_opened _ hw hs
  | some f =>
    refine Spec.assume fun hw => ?_
    refine (keyAt_spec (List.mem_cons_of_mem _ hmem)).bind fun key' => Spec.assume ?_
    rintro rfl
    refine (pemWrite_spec _).bind fun ok => Spec.choose fun buffered => Spec.assume fun hok => ?_
    refine fclose_spec.bind fun _ => Spec.choose fun contents => Spec.assume fun hworks => ?_
    exact Spec.pure fun _ hs => opened (fun h hwritten => (hworks h).trans (hok hwritten)) hw hs

theorem writeCert_spec (hmem : (n,.x509 x) ∈ objs) :
    Spec (At objs fs) (ssl.writeCert path n) (ssl.Writes (ssl.certText x) objs fs path) := by
  refine fopen_spec.bind fun r => ?_
  cases r with
  | none =>
    refine Spec.assume fun hw => ?_
    exact Spec.pure fun _ hs => not_opened _ hw hs
  | some f =>
    refine Spec.assume fun hw => ?_
    refine (certAt_spec (List.mem_cons_of_mem _ hmem)).bind fun x' => Spec.assume ?_
    rintro rfl
    refine (pemWrite_spec _).bind fun ok => Spec.choose fun buffered => Spec.assume fun hok => ?_
    refine fclose_spec.bind fun _ => Spec.choose fun contents => Spec.assume fun hworks => ?_
    exact Spec.pure fun _ hs => opened (fun h hwritten => (hworks h).trans (hok hwritten)) hw hs

def Chain (ssl : OpenSsl) (pki : Pki) : Prop :=
  ∃ caKey serverKey clientKey caCert serverCert clientCert,
    IssuedCa caKey caCert ∧ IssuedServer caKey serverKey serverCert ∧ IssuedClient caKey clientKey clientCert ∧
    pki.caKey.Carries (ssl.keyText caKey) ∧ pki.caCert.Carries (ssl.certText caCert) ∧
    pki.serverKey.Carries (ssl.keyText serverKey) ∧ pki.serverCert.Carries (ssl.certText serverCert) ∧
    pki.clientKey.Carries (ssl.keyText clientKey) ∧ pki.clientCert.Carries (ssl.certText clientCert)

/-- The end of `generatePki`, where everything has been made. -/
def Ends (ssl : OpenSsl) (o : Options) (objs : List (ℕ × SslObject)) (fs : FileSystem) (ok : Bool) (s : PkiState) : Prop :=
  s.heap.Is objs ∧ ∃ pki, (ok,s.fs) = MiniHil.generatePki o pki fs ∧ (ssl.Works → ∀ made, pki = some made → ssl.Chain made)

theorem ends_early (ssl : OpenSsl) (o : Options) {s : PkiState} (hs : At objs fs s) : ssl.Ends o objs fs false s :=
  ⟨hs.1,none,by rw [hs.2]; rfl,fun _ _ h => by cases h⟩

theorem generatePki_spec (ssl : OpenSsl) (o : Options) : Spec (At objs fs) (ssl.generatePki o) (ssl.Ends o objs fs) := by
  refine generateCa_spec.bind fun r => ?_
  cases r with
  | none => exact Spec.pure fun _ hs => ends_early ssl o hs
  | some ca =>
    obtain ⟨caKey,caCert⟩ := ca
    refine Spec.choose fun k₁ => Spec.choose fun x₁ => Spec.assume fun hca => ?_
    refine (generateSigned_spec (List.mem_cons_of_mem _ List.mem_cons_self) List.mem_cons_self hca 2 _ _ _).bind
      fun r => ?_
    cases r with
    | none => exact x509Free_spec.bind fun _ => evpPkeyFree_spec.bind fun _ => Spec.pure fun _ hs => ends_early ssl o hs
    | some server =>
      obtain ⟨serverKey,serverCert⟩ := server
      refine Spec.choose fun k₂ => Spec.choose fun x₂ => Spec.assume fun hserver => ?_
      refine (@generateSigned_spec ssl _ fs caKey caCert k₁ x₁ (by simp) (by simp) hca 3 _ _ _).bind fun r => ?_
      cases r with
      | none =>
        refine x509Free_spec.bind fun _ => evpPkeyFree_spec.bind fun _ => ?_
        exact x509Free_spec.bind fun _ => evpPkeyFree_spec.bind fun _ => Spec.pure fun _ hs => ends_early ssl o hs
      | some client =>
        obtain ⟨clientKey,clientCert⟩ := client
        refine Spec.choose fun k₃ => Spec.choose fun x₃ => Spec.assume fun hclient => ?_
        -- the six writes, whatever becomes of those before
        refine (@writePrivateKey_spec ssl _ _ caKey k₁ _ (by simp)).bind fun ok₁ => Spec.choose fun p₁ => ?_
        refine Spec.assume fun h₁ => Spec.assume fun e₁ => ?_
        refine (@writeCert_spec ssl _ _ caCert x₁ _ (by simp)).bind fun ok₂ => Spec.choose fun p₂ => ?_
        refine Spec.assume fun h₂ => Spec.assume fun e₂ => ?_
        refine (@writePrivateKey_spec ssl _ _ serverKey k₂ _ (by simp)).bind fun ok₃ => Spec.choose fun p₃ => ?_
        refine Spec.assume fun h₃ => Spec.assume fun e₃ => ?_
        refine (@writeCert_spec ssl _ _ serverCert x₂ _ (by simp)).bind fun ok₄ => Spec.choose fun p₄ => ?_
        refine Spec.assume fun h₄ => Spec.assume fun e₄ => ?_
        refine (@writePrivateKey_spec ssl _ _ clientKey k₃ _ (by simp)).bind fun ok₅ => Spec.choose fun p₅ => ?_
        refine Spec.assume fun h₅ => Spec.assume fun e₅ => ?_
        refine (@writeCert_spec ssl _ _ clientCert x₃ _ (by simp)).bind fun ok₆ => Spec.choose fun p₆ => ?_
        refine Spec.assume fun h₆ => Spec.assume fun e₆ => ?_
        refine x509Free_spec.bind fun _ => evpPkeyFree_spec.bind fun _ => ?_
        refine x509Free_spec.bind fun _ => evpPkeyFree_spec.bind fun _ => ?_
        refine x509Free_spec.bind fun _ => evpPkeyFree_spec.bind fun _ => ?_
        refine Spec.pure fun s hs => ⟨hs.1,some ⟨p₁,p₂,p₃,p₄,p₅,p₆⟩,?_,?_⟩
        · rw [hs.2, e₁, e₂, e₃, e₄, e₅, e₆]
          rfl
        · rintro h _ ⟨⟩
          exact ⟨k₁,k₂,k₃,x₁,x₂,x₃,hca h,hserver h,hclient h,h₁ h,h₂ h,h₃ h,h₄ h,h₅ h,h₆ h⟩

/-- Whatever the calls of OpenSSL and the file system answer: `generatePki` uses and frees nothing that is not there,
in the end every key, certificate, extension, context and file that it opened is freed, and it returns and writes what
the certificate step of the start takes it to. -/
theorem generatePki_releases (ssl : OpenSsl) (o : Options) (calls : ℕ) (fs : FileSystem) :
    ∃ ok t, (ssl.generatePki o).run { calls, fs } = some (ok,t) ∧ t.heap.objects = [] ∧
      ∃ pki, (ok,t.fs) = MiniHil.generatePki o pki fs := by
  have hempty : At [] fs { calls, fs } := ⟨⟨rfl,List.nodup_nil,fun _ hmem => nomatch hmem⟩,rfl⟩
  obtain ⟨ok,t,hrun,hheap,pki,hfiles,_⟩ := generatePki_spec ssl o _ hempty
  exact ⟨ok,t,hrun,hheap.objects,pki,hfiles⟩

/-- If `generatePki` succeeds on six distinct places, and the calls whose answers it drops did their work, they hold three keys and the certificates made for them: the
root's, that its own key has signed, and the server's and the client's, that name the root as their issuer and that
its key has signed. -/
theorem generatePki_chain (ssl : OpenSsl) (hworks : ssl.Works) (o : Options) (calls : ℕ) (fs : FileSystem) (t : PkiState)
    (hrun : (ssl.generatePki o).run { calls, fs } = some (true,t)) (hd : (o.paths.map fs.location).Nodup) :
    ∃ caKey serverKey clientKey caCert serverCert clientCert,
      IssuedCa caKey caCert ∧ IssuedServer caKey serverKey serverCert ∧ IssuedClient caKey clientKey clientCert ∧
      t.fs.read o.caKeyPath = some (ssl.keyText caKey) ∧ t.fs.read o.caCertPath = some (ssl.certText caCert) ∧
      t.fs.read o.keyPath = some (ssl.keyText serverKey) ∧ t.fs.read o.certPath = some (ssl.certText serverCert) ∧
      t.fs.read o.clientKeyPath = some (ssl.keyText clientKey) ∧
      t.fs.read o.clientCertPath = some (ssl.certText clientCert) := by
  have hempty : At [] fs { calls, fs } := ⟨⟨rfl,List.nodup_nil,fun _ hmem => nomatch hmem⟩,rfl⟩
  obtain ⟨ok,t',hrun',_,pki,hfiles,hchain⟩ := generatePki_spec ssl o _ hempty
  obtain ⟨rfl,rfl⟩ := Prod.mk.inj (Option.some.inj (hrun.symm.trans hrun'))
  have hok : true = (MiniHil.generatePki o pki fs).1 := congrArg Prod.fst hfiles
  have hfs : t.fs = (MiniHil.generatePki o pki fs).2 := congrArg Prod.snd hfiles
  cases pki with
  | none => cases hok
  | some made =>
    have hread : ∀ {path pem}, (path,pem) ∈ o.writes made → ∀ {text}, pem.Carries text → t.fs.read path = some text := by
      intro path pem hmem text hcarries
      obtain ⟨hwritten,hread⟩ := read_generated hd hok.symm hmem
      rw [← hcarries hwritten, ← hread, ← hfs]
    obtain ⟨k₁,k₂,k₃,x₁,x₂,x₃,hca,hserver,hclient,h₁,h₂,h₃,h₄,h₅,h₆⟩ := hchain hworks made rfl
    refine ⟨k₁,k₂,k₃,x₁,x₂,x₃,hca,hserver,hclient,hread ?_ h₁,hread ?_ h₂,hread ?_ h₃,hread ?_ h₄,hread ?_ h₅,
      hread ?_ h₆⟩ <;> simp [Options.writes]

/-- Every call succeeds; the n-th key is `n`. -/
def working : OpenSsl where
  succeeds _ := true
  works _ := true
  newKey n := n
  leavesKey _ := false
  torn _ := []
  keyText key := [UInt8.ofNat key]
  certText cert := ascii "cert" ++ [UInt8.ofNat cert.serialNumber.toNat]

/-- The first start with the default paths. -/
theorem generatePki_chain_default : ∃ t caKey serverKey serverCert,
    (working.generatePki {}).run { fs := { location := fun path => Options.paths {} |>.idxOf path, files := fun _ => none } } =
      some (true,t) ∧ IssuedServer caKey serverKey serverCert ∧
      t.fs.read (ascii "server.key") = some (working.keyText serverKey) ∧
      t.fs.read (ascii "server.crt") = some (working.certText serverCert) := by
  have hok : ((working.generatePki {}).run
      { fs := { location := fun path => Options.paths {} |>.idxOf path, files := fun _ => none } }).map Prod.fst = some true := by
    decide +kernel
  obtain ⟨⟨_,t⟩,hrun,rfl⟩ := Option.map_eq_some_iff.mp hok
  obtain ⟨caKey,serverKey,_,_,serverCert,_,_,hserver,_,_,_,hkey,hcert,_⟩ :=
    generatePki_chain working (fun _ => rfl) {} 0 _ t hrun (by decide)
  exact ⟨t,caKey,serverKey,serverCert,hrun,hserver,hkey,hcert⟩

end OpenSsl
end MiniHil
