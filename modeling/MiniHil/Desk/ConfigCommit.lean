import MiniHil.Desk.ConfigSave

/-! # What a save reports and what it leaves

The file is emptied when it is opened, before there is a text to write, and what became of the write is
not asked: the flag of `save` and the contents of the file agree only under a condition.
-/
namespace MiniHil.ConfigManager

variable {lib : ConfigLib} {sys : DeskSystem} {files : DeskFiles} {m : ConfigManager}

theorem toJson_validStrings_iff : m.toJson.validStrings = true ↔ Utf8.valid m.ip = true := by
  constructor
  · intro h
    have hip := @Json.validStrings_member (ascii "ip") m.toJson h
    exact hip
  · exact toJson_validStrings

/-- A save that fails keeps what the file held, and one that succeeds leaves the whole text there. -/
def CommitOrKeep (lib : ConfigLib) (sys : DeskSystem) (files : DeskFiles) (m : ConfigManager) : Prop :=
  ((save lib sys files m).1 = false → (save lib sys files m).2 (getConfigPath sys.home) = files (getConfigPath sys.home)) ∧
  ((save lib sys files m).1 = true → ∃ text, lib.dumpIndented 4 m.toJson = .ok text ∧
    (save lib sys files m).2 (getConfigPath sys.home) = some text)

theorem valid_of_dump (hlib : lib.Lawful) {text : Bytes} (h : lib.dumpIndented 4 m.toJson = .ok text) :
    Utf8.valid m.ip = true := by
  by_contra hip
  rw [← toJson_validStrings_iff, Bool.not_eq_true] at hip
  have hdump : ∃ what, lib.dumpIndented 4 m.toJson = .error (.typeError what) := hlib.dump_invalid hip
  obtain ⟨what,hwhat⟩ := hdump
  rw [h] at hwhat
  cases hwhat

theorem invalid_of_dump (hlib : lib.Lawful) {e : Exn} (h : lib.dumpIndented 4 m.toJson = .error e) :
    Utf8.valid m.ip = false := by
  rw [← Bool.not_eq_true]
  intro hip
  have hdump : ∃ text, lib.dumpIndented 4 m.toJson = .ok text := hlib.dump_valid (toJson_validStrings hip)
  obtain ⟨text,htext⟩ := hdump
  rw [h] at htext
  cases htext

theorem commitOrKeep_unopened (h : ¬Opens sys) : CommitOrKeep lib sys files m := by
  unfold CommitOrKeep
  rw [save_unopened lib files m h]
  exact ⟨fun _ => rfl,nofun⟩

theorem commitOrKeep_error_iff (h : Opens sys) {e : Exn} (herror : lib.dumpIndented 4 m.toJson = .error e) :
    CommitOrKeep lib sys files m ↔ files (getConfigPath sys.home) = some [] := by
  unfold CommitOrKeep
  rw [save_error files h herror]
  dsimp only
  rw [Function.update_self]
  constructor
  · intro hboth
    exact (hboth.1 rfl).symm
  · intro hempty
    exact ⟨fun _ => hempty.symm,nofun⟩

theorem commitOrKeep_ok_iff (h : Opens sys) {text : Bytes} (hok : lib.dumpIndented 4 m.toJson = .ok text) :
    CommitOrKeep lib sys files m ↔ sys.stored text = text := by
  unfold CommitOrKeep
  rw [save_ok files h hok]
  dsimp only
  rw [Function.update_self]
  constructor
  · intro hboth
    obtain ⟨text',htext',hstored⟩ := hboth.2 rfl
    rw [hok] at htext'
    obtain rfl := Except.ok.inj htext'
    exact Option.some.inj hstored
  · intro hstored
    exact ⟨nofun,fun _ => ⟨text,hok,congrArg some hstored⟩⟩

/-- A save is one or the other exactly if the file is never opened, if all of the text of a valid address
is taken, or if the address is not valid and there was nothing in the file to lose. -/
theorem commitOrKeep_iff (lib : ConfigLib) (hlib : lib.Lawful) (sys : DeskSystem) (files : DeskFiles) (m : ConfigManager) :
    CommitOrKeep lib sys files m ↔
      ¬Opens sys ∨
      (Utf8.valid m.ip = true ∧ ∀ text, lib.dumpIndented 4 m.toJson = .ok text → sys.stored text = text) ∨
      (Utf8.valid m.ip = false ∧ files (getConfigPath sys.home) = some []) := by
  by_cases hopens : Opens sys
  · cases hdump : lib.dumpIndented 4 m.toJson with
    | error e =>
      have hip := invalid_of_dump hlib hdump
      simp [commitOrKeep_error_iff hopens hdump, hopens, hip]
    | ok text =>
      have hip := valid_of_dump hlib hdump
      simp [commitOrKeep_ok_iff hopens hdump, hopens, hip]
  · exact iff_of_true (commitOrKeep_unopened hopens) (.inl hopens)

/-- The default settings over an older file, in a home directory. -/
theorem commitOrKeep_iff_home :
    CommitOrKeep .indented (roomy (some (ascii "/root"))) (fun _ => some (ascii "null")) {} := by
  apply (commitOrKeep_iff .indented ConfigLib.indented_lawful _ _ _).mpr
  exact .inr (.inl ⟨by decide,fun _ _ => rfl⟩)

/-- An address that is not valid costs the file what it held, and a disk that takes nothing goes unnoticed. -/
theorem commitOrKeep_fails :
    ¬CommitOrKeep .indented (roomy (some (ascii "/root"))) (fun _ => some (ascii "null")) { ip := [0xFF] } ∧
    ¬CommitOrKeep .indented { roomy (some (ascii "/root")) with stored := fun _ => [] } (fun _ => some (ascii "null")) {} := by
  have hopens : Opens (roomy (some (ascii "/root"))) := by
    constructor
    · exact decide_eq_true (parentPath_getConfigPath_ne_nil (ascii "/root"))
    · rfl
  constructor
  · intro h
    have hdump : ∃ what, ConfigLib.indented.dumpIndented 4 (toJson { ip := [0xFF] }) = .error (.typeError what) :=
      ConfigLib.indented_lawful.dump_invalid rfl
    obtain ⟨what,hwhat⟩ := hdump
    rw [commitOrKeep_error_iff hopens hwhat] at h
    cases Option.some.inj h
  · intro h
    have hdump : ∃ text, ConfigLib.indented.dumpIndented 4 (toJson {}) = .ok text :=
      ConfigLib.indented_lawful.dump_valid (toJson_validStrings (by decide))
    obtain ⟨text,htext⟩ := hdump
    have hfull : Opens { roomy (some (ascii "/root")) with stored := fun _ => [] } := hopens
    rw [commitOrKeep_ok_iff hfull htext] at h
    -- no text is empty, since a reader finds nothing in an empty one
    have hread := ConfigLib.indented_lawful.read_dump (toJson_exact _) htext
    rw [← h] at hread
    cases hread

end MiniHil.ConfigManager
