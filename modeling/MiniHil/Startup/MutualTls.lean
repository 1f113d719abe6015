import MiniHil.Startup.Daemon

/-! # Mutual TLS

The SSL context asks for a client certificate only where the CA path is not empty. An empty one does not
get past the certificate step, where it is missing and cannot be written.
-/
namespace MiniHil

variable {o : Options} {fs after : FileSystem} {env : Platform} {argv : List Bytes} {server : RunningServer}

theorem writePem_fails {path : Bytes} (hw : fs.writable path = false) (pem : Pem) : (writePem fs path pem).1 = false := by
  rw [writePem, if_neg (by rw [hw]; exact Bool.false_ne_true)]

/-- Without a place for the CA certificate the keys and certificates are not all written. -/
theorem generatePki_fails (hw : fs.writable o.caCertPath = false) (pki : Option Pki) :
    (generatePki o pki fs).1 = false := by
  cases pki with
  | none => rfl
  | some made =>
    have hcert : (writeCert (writePrivateKey fs o.caKeyPath made.caKey).2 o.caCertPath made.caCert).1 = false := by
      apply writePem_fails
      rw [writePrivateKey, writePem_writable, hw]
    simp only [generatePki, hcert, Bool.and_false, Bool.false_and]

/-- The certificate step does not pass a CA path that is missing and cannot be written. -/
theorem certificateStep_fails (hssl : o.useSsl = true) (hmissing : fs.existsAt o.caCertPath = some false)
    (hw : fs.writable o.caCertPath = false) (pki : Option Pki) : (certificateStep o pki fs).1 = some false := by
  have hany : fs.anyMissing o.paths = some true := by
    rw [Options.paths, FileSystem.anyMissing, hmissing]
  rw [certificateStep, if_pos hssl, hany]
  exact congrArg some (generatePki_fails hw pki)

namespace Platform

theorem main_running (h : env.main argv fs = (.running server,after)) :
    ∃ o, parseArguments {} argv = some o ∧ certificateStep o env.pki fs = (some true,after) ∧
      env.start o after = some server := by
  unfold main at h
  cases ho : parseArguments {} argv with
  | none =>
    rw [ho] at h
    cases h
  | some o =>
    rw [ho] at h
    dsimp only at h
    rcases hstep : certificateStep o env.pki fs with ⟨_ | _ | _,between⟩
    · rw [hstep] at h
      cases h
    · rw [hstep] at h
      cases h
    · rw [hstep] at h
      dsimp only at h
      split_ifs at h with hinit
      · cases h
      · cases hstart : env.start o between with
        | none =>
          rw [hstart] at h
          cases h
        | some server' =>
          rw [hstart] at h
          cases h
          exact ⟨o,rfl,hstep,hstart⟩

theorem start_ssl (h : env.start o fs = some server) (hssl : o.useSsl = true) :
    server.useSsl = true ∧ server.useMtls = o.useMtls ∧ ∃ ctx, env.sslContext o fs = some ctx ∧ server.sslCtx = some ctx := by
  rw [start, if_pos hssl] at h
  cases hctx : env.sslContext o fs with
  | none =>
    rw [hctx] at h
    cases h
  | some ctx =>
    rw [hctx] at h
    change (if (env.socket && env.bind && env.listen) = true then _ else none) = some server at h
    split_ifs at h
    cases h
    exact ⟨hssl,rfl,ctx,rfl,rfl⟩

theorem sslContext_verifies {ctx : SslContext} (h : env.sslContext o fs = some ctx) (hm : o.useMtls = true)
    (hca : o.caCertPath ≠ []) : ctx.verifyMode = { peer := true, failIfNoPeerCert := true } ∧
      ctx.verifyLocations = some o.caCertPath := by
  have hverify : (o.useMtls && !o.caCertPath.isEmpty) = true := by simp [hm, hca]
  unfold sslContext at h
  rw [if_pos hverify] at h
  split_ifs at h
  cases h
  exact ⟨rfl,rfl⟩

/-- However the arguments are put together: with `--mtls` among the options, a server that runs requires
a client certificate and verifies it against the CA file that the last `--ca` names. The empty path
leads nowhere and cannot be opened for writing. -/
theorem mtls_enforced (env : Platform) (argv : List Bytes) (fs after : FileSystem) (server : RunningServer)
    (hempty : fs.existsAt [] = some false) (hwrite : fs.writable [] = false)
    (hm : (ascii "--mtls",none) ∈ options argv) (hrun : env.main argv fs = (.running server,after)) :
    server.useSsl = true ∧ server.useMtls = true ∧ ∃ ctx, server.sslCtx = some ctx ∧
      ctx.verifyMode = { peer := true, failIfNoPeerCert := true } ∧ ctx.verifyLocations = some (lastCa argv) := by
  obtain ⟨o,ho,hstep,hstart⟩ := main_running hrun
  obtain ⟨hssl,hmtls⟩ := parseArguments_mtls ho hm
  obtain ⟨hserverSsl,hserverMtls,ctx,hctx,hserver⟩ := start_ssl hstart hssl
  have hca : o.caCertPath ≠ [] := by
    intro hnil
    rw [← hnil] at hempty hwrite
    have hfails := certificateStep_fails hssl hempty hwrite env.pki
    rw [hstep] at hfails
    cases hfails
  obtain ⟨hmode,hlocations⟩ := sslContext_verifies hctx hmtls hca
  rw [parseArguments_caCertPath ho] at hlocations
  exact ⟨hserverSsl,hserverMtls.trans hmtls,ctx,hserver,hmode,hlocations⟩

/-- `--mtls` between two CA files, with none of the six files there at the start. -/
theorem mtls_enforced_second_ca : ∃ server after,
    working.main [ascii "--ca",ascii "a.crt",ascii "--mtls",ascii "--ca",ascii "b.crt"]
      { location := List.length, files := fun _ => none, writable := fun path => path ≠ [] } = (.running server,after) ∧
    ∃ ctx, server.sslCtx = some ctx ∧ ctx.verifyMode = { peer := true, failIfNoPeerCert := true } ∧
      ctx.verifyLocations = some (ascii "b.crt") := by
  refine ⟨_,_,rfl,?_⟩
  obtain ⟨_,_,ctx,hctx,hmode,hlocations⟩ := mtls_enforced working
    [ascii "--ca",ascii "a.crt",ascii "--mtls",ascii "--ca",ascii "b.crt"]
    { location := List.length, files := fun _ => none, writable := fun path => path ≠ [] } _ _ rfl rfl (by decide) rfl
  exact ⟨ctx,hctx,hmode,hlocations⟩

end Platform
end MiniHil
