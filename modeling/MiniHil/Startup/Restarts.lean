import MiniHil.Startup.Credentials

/-! # Starts one after the other

Once `generatePki` has succeeded, all six files are there, so that no later start makes them again.
-/
namespace MiniHil

variable {o : Options} {fs : FileSystem}

theorem writePem_fst (fs : FileSystem) (path : Bytes) (pem : Pem) :
    (writePem fs path pem).1 = (fs.writable path && pem.written) := by
  unfold writePem
  cases fs.writable path <;> rfl

theorem generatePki_fst (o : Options) (made : Pki) (fs : FileSystem) :
    (generatePki o (some made) fs).1 = (o.writes made).all fun w => fs.writable w.1 && w.2.written := by
  let fs₁ := (writePem fs o.caKeyPath made.caKey).2
  let fs₂ := (writePem fs₁ o.caCertPath made.caCert).2
  let fs₃ := (writePem fs₂ o.keyPath made.serverKey).2
  let fs₄ := (writePem fs₃ o.certPath made.serverCert).2
  let fs₅ := (writePem fs₄ o.clientKeyPath made.clientKey).2
  have hsteps : (generatePki o (some made) fs).1 = ((writePem fs o.caKeyPath made.caKey).1 &&
      (writePem fs₁ o.caCertPath made.caCert).1 && (writePem fs₂ o.keyPath made.serverKey).1 &&
      (writePem fs₃ o.certPath made.serverCert).1 && (writePem fs₄ o.clientKeyPath made.clientKey).1 &&
      (writePem fs₅ o.clientCertPath made.clientCert).1) := rfl
  rw [hsteps]
  simp only [writePem_fst, writePem_writable, Options.writes, List.all_cons, List.all_nil, Bool.and_true, Bool.and_assoc,
    fs₁, fs₂, fs₃, fs₄, fs₅]

theorem nodup_writes (made : Pki) (hd : (o.paths.map fs.location).Nodup) :
    ((o.writes made).map fun w => fs.location w.1).Nodup := by
  refine (List.Perm.nodup_iff ?_).mp hd
  exact .trans (.swap _ _ _) (.cons _ (.cons _ (.trans (.swap _ _ _) (.cons _ (.cons _ (.swap _ _ _))))))

theorem read_generated {made : Pki} (hd : (o.paths.map fs.location).Nodup)
    (hok : (generatePki o (some made) fs).1 = true) {path : Bytes} {pem : Pem} (hmem : (path,pem) ∈ o.writes made) :
    pem.written = true ∧ (generatePki o (some made) fs).2.read path = some pem.contents := by
  rw [generatePki_fst, List.all_eq_true] at hok
  have hall : (o.writes made).filter (fun w => fs.writable w.1) = o.writes made :=
    List.filter_eq_self.mpr fun w hw => (Bool.and_eq_true_iff.mp (hok w hw)).1
  have hkeys : ((fs.opened (o.writes made)).map Prod.fst).Nodup := by
    rw [FileSystem.opened, hall, List.map_map]
    exact nodup_writes made hd
  have hopened : (fs.location path,some pem.contents) ∈ fs.opened (o.writes made) := by
    rw [FileSystem.opened, hall]
    exact List.mem_map_of_mem hmem
  refine ⟨(Bool.and_eq_true_iff.mp (hok _ hmem)).2,?_⟩
  rw [generatePki_put]
  change Overwrite.writeAll fs.files (fs.opened (o.writes made)) (fs.location path) = _
  rw [Overwrite.writeAll_apply, Overwrite.lastWritten_of_nodup hkeys hopened]
  rfl

theorem exists_generated {made : Pki} (hok : (generatePki o (some made) fs).1 = true)
    (hopen : ∀ path, fs.writable path = true → fs.inaccessible path = false) {path : Bytes} {pem : Pem}
    (hmem : (path,pem) ∈ o.writes made) : (generatePki o (some made) fs).2.existsAt path = some true := by
  rw [generatePki_fst, List.all_eq_true] at hok
  have hw : fs.writable path = true := (Bool.and_eq_true_iff.mp (hok _ hmem)).1
  have hopened : (fs.location path,some pem.contents) ∈ fs.opened (o.writes made) :=
    List.mem_map_of_mem (List.mem_filter.mpr ⟨hmem,hw⟩)
  obtain ⟨v,hv⟩ := Option.ne_none_iff_exists'.mp (Overwrite.lastWritten_ne_none hopened)
  obtain ⟨w,_,heq⟩ := List.mem_map.mp (Overwrite.lastWritten_mem hv)
  have hread : (fs.put (o.writes made)).read path = some w.2.contents := by
    change Overwrite.writeAll fs.files (fs.opened (o.writes made)) (fs.location path) = _
    rw [Overwrite.writeAll_apply, hv]
    exact (congrArg Prod.snd heq).symm
  rw [generatePki_put, FileSystem.existsAt, hread]
  exact if_neg (by simp [FileSystem.put, hopen path hw])

theorem anyMissing_eq_false {paths : List Bytes} (h : ∀ path ∈ paths, fs.existsAt path = some true) :
    fs.anyMissing paths = some false := by
  induction paths with
  | nil => rfl
  | cons path paths ih =>
    rw [FileSystem.anyMissing, h path List.mem_cons_self]
    exact ih fun path hmem => h path (List.mem_cons_of_mem _ hmem)

theorem certificateStep_again {pki : Option Pki} (hopen : ∀ path, fs.writable path = true → fs.inaccessible path = false)
    (hdone : (certificateStep o pki fs).1 = some true) (later : Option Pki) :
    (certificateStep o later (certificateStep o pki fs).2).2 = (certificateStep o pki fs).2 := by
  have hsettled : ∀ fs' : FileSystem, fs'.anyMissing o.paths = some false → (certificateStep o later fs').2 = fs' := by
    intro fs' hall
    unfold certificateStep
    rw [hall]
    split <;> rfl
  cases hssl : o.useSsl with
  | false =>
    have hoff : ∀ pki fs, certificateStep o pki fs = (some true,fs) := by
      intro pki fs
      rw [certificateStep, if_neg (by simp [hssl])]
    rw [hoff, hoff]
  | true =>
    apply hsettled
    rw [certificateStep, if_pos hssl] at hdone ⊢
    cases hmissing : fs.anyMissing o.paths with
    | none =>
      rw [hmissing] at hdone
      cases hdone
    | some missing =>
      rw [hmissing] at hdone
      cases missing with
      | false => exact hmissing
      | true =>
        cases pki with
        | none => cases hdone
        | some made =>
          change (generatePki o (some made) fs).2.anyMissing o.paths = some false
          apply anyMissing_eq_false
          have hok : (generatePki o (some made) fs).1 = true := Option.some.inj hdone
          have hall : ∀ w ∈ o.writes made, (generatePki o (some made) fs).2.existsAt w.1 = some true :=
            fun w hmem => exists_generated hok hopen hmem
          simp only [Options.writes, Options.paths, List.forall_mem_cons, List.not_mem_nil, false_implies, implies_true,
            and_true] at hall ⊢
          obtain ⟨h₁,h₂,h₃,h₄,h₅,h₆⟩ := hall
          exact ⟨h₂,h₁,h₄,h₃,h₆,h₅⟩

/-- Starts of the daemon one after the other with the same arguments, each under its own answers of OpenSSL, of the
system and of the device. Where a path that can be written can also be looked up, the first start that gets past its
certificate step is the last one that writes a file. -/
theorem restarts_keep (argv : List Bytes) (o : Options) (ho : parseArguments {} argv = some o) (fs : FileSystem)
    (hopen : ∀ path, fs.writable path = true → fs.inaccessible path = false) (env : Platform)
    (hdone : (certificateStep o env.pki fs).1 = some true) (envs : List Platform) :
    envs.foldl (fun fs env => (env.main argv fs).2) (env.main argv fs).2 = (env.main argv fs).2 := by
  rw [main_files ho]
  induction envs with
  | nil => rfl
  | cons later envs ih => rw [List.foldl_cons, main_files ho, certificateStep_again hopen hdone, ih]

/-- The first start makes all six files, and another one follows. -/
theorem restarts_keep_default :
    let fs : FileSystem := { location := fun path => (Options.paths {}).idxOf path, files := fun _ => none }
    let once := (Platform.working.main [ascii "--ssl"] fs).2
    once.read (ascii "server.key") = some [1] ∧ [Platform.working].foldl
      (fun fs env => (env.main [ascii "--ssl"] fs).2) once = once := by
  refine ⟨by decide,?_⟩
  exact restarts_keep [ascii "--ssl"] { useSsl := true } (by decide) _ (fun _ _ => rfl) .working (by decide) [.working]

end MiniHil
