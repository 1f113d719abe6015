import MiniHil.Foundation.Overwrite
import MiniHil.Startup.Daemon

/-! # Credentials that are there before the start

One missing file of the six has all six written anew.
-/
namespace MiniHil
open Overwrite

namespace FileSystem

def opened (fs : FileSystem) (writes : List (Bytes × Pem)) : List (ℕ × Option Bytes) :=
  (writes.filter fun w => fs.writable w.1).map fun w => (fs.location w.1,some w.2.contents)

def put (fs : FileSystem) (writes : List (Bytes × Pem)) : FileSystem :=
  { fs with files := writeAll fs.files (fs.opened writes) }

theorem opened_append (fs : FileSystem) (writes more : List (Bytes × Pem)) :
    fs.opened (writes ++ more) = fs.opened writes ++ fs.opened more := by
  rw [opened, List.filter_append, List.map_append]
  rfl

theorem put_put (fs : FileSystem) (writes more : List (Bytes × Pem)) : (fs.put writes).put more = fs.put (writes ++ more) := by
  have hfiles : writeAll (writeAll fs.files (fs.opened writes)) (fs.opened more) =
      writeAll fs.files (fs.opened (writes ++ more)) := by
    rw [opened_append, writeAll_append]
  exact congrArg (fun files => { fs with files }) hfiles

theorem read_put_eq_iff (fs : FileSystem) (writes : List (Bytes × Pem)) (path : Bytes) :
    (fs.put writes).read path = fs.read path ↔
      ∀ contents, lastWritten (fs.opened writes) (fs.location path) = some contents → contents = fs.read path :=
  writeAll_apply_eq_iff

end FileSystem

/-- The writes of `generatePki`, in its order. -/
def Options.writes (o : Options) (pki : Pki) : List (Bytes × Pem) :=
  [(o.caKeyPath,pki.caKey),(o.caCertPath,pki.caCert),(o.keyPath,pki.serverKey),(o.certPath,pki.serverCert),
    (o.clientKeyPath,pki.clientKey),(o.clientCertPath,pki.clientCert)]

/-- Each of the six paths that led to a file leads to the same content. -/
def Kept (o : Options) (before after : FileSystem) : Prop :=
  ∀ path ∈ o.paths, before.read path ≠ none → after.read path = before.read path

/-- If something is missing and keys are made, whatever is written last to the place of an existing one of
the six is what it held. -/
def Spared (o : Options) (pki : Option Pki) (fs : FileSystem) : Prop :=
  ∀ made, pki = some made → fs.anyMissing o.paths = some true → ∀ path ∈ o.paths, fs.read path ≠ none →
    ∀ contents, lastWritten (fs.opened (o.writes made)) (fs.location path) = some contents → contents = fs.read path

variable {o : Options} {fs : FileSystem} {env : Platform} {argv : List Bytes}

theorem writePem_put (fs : FileSystem) (path : Bytes) (pem : Pem) : (writePem fs path pem).2 = fs.put [(path,pem)] := by
  unfold writePem
  split_ifs with hw
  · have hopened : fs.opened [(path,pem)] = [(fs.location path,some pem.contents)] := by simp [FileSystem.opened, hw]
    rw [FileSystem.put, hopened]
    rfl
  · have hopened : fs.opened [(path,pem)] = [] := by simp [FileSystem.opened, hw]
    rw [FileSystem.put, hopened]
    rfl

theorem generatePki_put (o : Options) (made : Pki) (fs : FileSystem) :
    (generatePki o (some made) fs).2 = fs.put (o.writes made) := by
  change (writePem (writePem (writePem (writePem (writePem (writePem fs _ _).2 _ _).2 _ _).2 _ _).2 _ _).2 _ _).2 = _
  simp only [writePem_put, FileSystem.put_put]
  rfl

theorem main_files (ho : parseArguments {} argv = some o) :
    (env.main argv fs).2 = (certificateStep o env.pki fs).2 := by
  unfold Platform.main
  rw [ho]
  dsimp only
  rcases certificateStep o env.pki fs with ⟨_ | _ | _,after⟩
  · rfl
  · rfl
  · dsimp only
    split_ifs
    · rfl
    · split <;> rfl

theorem certificateStep_files (hssl : o.useSsl = true) (pki : Option Pki) :
    (certificateStep o pki fs).2 = match pki with
      | some made => if fs.anyMissing o.paths = some true then fs.put (o.writes made) else fs
      | none => fs := by
  rw [certificateStep, if_pos hssl]
  cases pki with
  | none => rcases fs.anyMissing o.paths with _ | _ | _ <;> rfl
  | some made =>
    rcases fs.anyMissing o.paths with _ | _ | _
    · rfl
    · rfl
    · exact generatePki_put o made fs

/-- The six paths keep what they led to exactly if those that led to a file are spared. -/
theorem credentials_kept_iff (env : Platform) (argv : List Bytes) (fs : FileSystem) (o : Options)
    (ho : parseArguments {} argv = some o) (hssl : o.useSsl = true) :
    Kept o fs (env.main argv fs).2 ↔ Spared o env.pki fs := by
  rw [main_files ho, certificateStep_files hssl]
  cases env.pki with
  | none => exact ⟨fun _ => nofun,fun _ _ _ _ => rfl⟩
  | some made =>
    dsimp only
    split_ifs with hmissing
    · constructor
      · rintro h _ ⟨⟩ _ path hp hread
        exact (fs.read_put_eq_iff _ path).mp (h path hp hread)
      · intro h path hp hread
        exact (fs.read_put_eq_iff _ path).mpr (h made rfl hmissing path hp hread)
    · exact ⟨fun _ _ _ h => absurd h hmissing,fun _ _ _ _ => rfl⟩

theorem spared_iff_of_fresh {made : Pki} (hfresh : ∀ w ∈ o.writes made, ∀ path ∈ o.paths, fs.read path ≠ some w.2.contents) :
    Spared o (some made) fs ↔ (fs.anyMissing o.paths = some true → ∀ path ∈ o.paths, fs.read path ≠ none →
      ∀ w ∈ o.writes made, fs.location w.1 = fs.location path → fs.writable w.1 = false) := by
  constructor
  · intro h hmissing path hp hread w hw hlocation
    by_contra hwritable
    have hopened : (fs.location path,some w.2.contents) ∈ fs.opened (o.writes made) :=
      List.mem_map.mpr ⟨w,List.mem_filter.mpr ⟨hw,by simpa using hwritable⟩,by rw [hlocation]⟩
    obtain ⟨contents,hlast⟩ := Option.ne_none_iff_exists'.mp (lastWritten_ne_none hopened)
    obtain ⟨w',hw',heq⟩ := List.mem_map.mp (lastWritten_mem hlast)
    obtain ⟨_,rfl⟩ := Prod.mk.inj heq
    exact hfresh w' (List.mem_of_mem_filter hw') path hp (h made rfl hmissing path hp hread _ hlast).symm
  · rintro h _ ⟨⟩ hmissing path hp hread contents hlast
    obtain ⟨w,hw,heq⟩ := List.mem_map.mp (lastWritten_mem hlast)
    obtain ⟨hmem,hwritable⟩ := List.mem_filter.mp hw
    rw [h hmissing path hp hread w hmem (Prod.mk.inj heq).1] at hwritable
    cases hwritable

def userPaths : List Bytes :=
  [ascii "/etc/my.crt",ascii "/etc/my.key",ascii "ca.crt",ascii "ca.key",ascii "client.crt",ascii "client.key"]

def userArguments : List Bytes := [ascii "--ssl",ascii "--cert",ascii "/etc/my.crt",ascii "--key",ascii "/etc/my.key"]

/-- All six are there. -/
theorem credentials_kept_iff_complete : ∃ o, parseArguments {} userArguments = some o ∧
    Kept o { location := userPaths.idxOf, files := fun _ => some [0] }
      (Platform.working.main userArguments { location := userPaths.idxOf, files := fun _ => some [0] }).2 := by
  refine ⟨_,rfl,(credentials_kept_iff .working userArguments _ _ rfl rfl).mpr ?_⟩
  intro _ _ hmissing
  exact absurd hmissing (by decide)

/-- The user's own certificate and key are there and nothing else is. -/
theorem credentials_kept_fails : ¬∀ (env : Platform) (argv : List Bytes) (fs : FileSystem) (o : Options),
    parseArguments {} argv = some o → o.useSsl = true → Kept o fs (env.main argv fs).2 := by
  intro h
  have hkept := h .working userArguments
    { location := userPaths.idxOf, files := fun n => if n < 2 then some [0] else none } _ rfl rfl (ascii "/etc/my.key")
    (by decide) (by decide)
  revert hkept
  decide

end MiniHil
