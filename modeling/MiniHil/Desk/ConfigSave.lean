import Mathlib.Data.List.TakeWhile
import MiniHil.Desk.ConfigLoad

/-! # Settings that survive a restart

What `save` writes is what the next constructor reads, as long as the directory of the file can be
created. Without `HOME` the file has no directory, and nothing is ever written.
-/
namespace MiniHil
open Throwing

theorem appendPath_of_getLast {p q : Bytes} (hp : p ≠ []) (hlast : p.getLast? ≠ some 0x2F) :
    appendPath p q = p ++ 0x2F :: q := if_neg (not_or.mpr ⟨hp,hlast⟩)

theorem exists_appendPath (p q : Bytes) : ∃ front, appendPath p q = front ++ q := by
  unfold appendPath
  split_ifs
  · exact ⟨p,rfl⟩
  · exact ⟨p ++ [0x2F],by simp⟩

theorem parentPath_of_name {name : Bytes} (hname : ∀ b ∈ name, b ≠ 0x2F) : parentPath name = [] := by
  have hdrop : (name.reverse.dropWhile fun b => b ≠ 0x2F) = [] := by
    rw [List.dropWhile_eq_nil_iff]
    intro b hb
    exact decide_eq_true (hname b (List.mem_reverse.mp hb))
  simp only [parentPath, hdrop, List.dropWhile_nil, List.reverse_nil, ne_eq, not_true_eq_false, and_false, ↓reduceIte]

theorem parentPath_append {p name : Bytes} (hp : p ≠ []) (hlast : p.getLast? ≠ some 0x2F)
    (hname : ∀ b ∈ name, b ≠ 0x2F) :
    parentPath (p ++ 0x2F :: name) = p := by
  have hdrop : ((p ++ 0x2F :: name).reverse.dropWhile fun b => b ≠ 0x2F) = 0x2F :: p.reverse := by
    rw [List.reverse_append, List.reverse_cons, List.append_assoc, List.dropWhile_append_of_pos]
    · rfl
    · intro b hb
      exact decide_eq_true (hname b (List.mem_reverse.mp hb))
  have hslash : ((0x2F :: p.reverse : Bytes).dropWhile fun b => b = 0x2F) = p.reverse := by
    rw [List.dropWhile_cons_of_pos rfl]
    cases hr : p.reverse with
    | nil => rfl
    | cons b bs =>
      have hb : b ≠ 0x2F := by
        rintro rfl
        rw [← List.head?_reverse, hr] at hlast
        exact hlast rfl
      exact List.dropWhile_cons_of_neg (by simpa using hb)
  simp only [parentPath, hdrop, hslash, List.reverse_reverse, hp, false_and, ↓reduceIte]

namespace ConfigManager

theorem parentPath_getConfigPath_none : parentPath (getConfigPath none) = [] :=
  parentPath_of_name (by decide)

theorem parentPath_getConfigPath_ne_nil (home : Bytes) : parentPath (getConfigPath (some home)) ≠ [] := by
  obtain ⟨front,hfront⟩ := exists_appendPath home (ascii ".minihil")
  have hne : appendPath home (ascii ".minihil") ≠ [] := by
    rw [hfront]
    exact List.append_ne_nil_of_right_ne_nil _ (by decide)
  have hlast : (appendPath home (ascii ".minihil")).getLast? ≠ some 0x2F := by
    rw [hfront, List.getLast?_append_of_ne_nil _ (by decide)]
    decide
  rw [getConfigPath, appendPath_of_getLast hne hlast, parentPath_append hne hlast (by decide)]
  exact hne

variable {lib : ConfigLib} {sys : DeskSystem} {files : DeskFiles} {m : ConfigManager}

theorem toJson_validStrings (h : Utf8.valid m.ip = true) : m.toJson.validStrings = true := by
  apply Json.validStrings_ofMembers
  intro p hp
  simp only [List.mem_cons, List.not_mem_nil, or_false] at hp
  rcases hp with rfl | rfl | rfl | rfl
  · exact ⟨rfl,h⟩
  all_goals exact ⟨rfl,rfl⟩

theorem toJson_exact (m : ConfigManager) : m.toJson.exact = true := by
  apply Json.exact_ofMembers
  intro p hp
  simp only [List.mem_cons, List.not_mem_nil, or_false] at hp
  rcases hp with rfl | rfl | rfl | rfl
  · rfl
  · have hlow := Int32.le_toInt m.port
    have hhigh := Int32.toInt_lt m.port
    simp only [Json.exact, Bool.and_eq_true, decide_eq_true_eq]
    omega
  all_goals rfl

theorem exec_loadMembers_toJson {contents : Bytes} (h : lib.readStream contents = .ok m.toJson) (m' : ConfigManager) :
    exec (loadMembers lib contents) m' = (.ok (),m) := by
  have hip : valueOr (ascii "ip") JsonLib.getString m.toJson m'.ip = .ok m.ip := rfl
  have hport : valueOr (ascii "port") lib.getInt m.toJson m'.port.toInt = .ok m.port.toInt :=
    @getInt_int32 lib.toJsonLib _ ⟨Int32.le_toInt m.port,Int32.toInt_lt m.port⟩
  have hssl : valueOr (ascii "ssl") JsonLib.getBool m.toJson m'.useSsl = .ok m.useSsl := rfl
  have hmtls : valueOr (ascii "mtls") JsonLib.getBool m.toJson m'.useMtls = .ok m.useMtls := rfl
  rw [exec_loadMembers h, hip, hport, hssl, hmtls]
  dsimp only
  rw [Int32.ofInt_toInt]

/-- The directory of the file can be created and the file can be opened. -/
def Opens (sys : DeskSystem) : Prop :=
  sys.createDirectories (parentPath (getConfigPath sys.home)) = true ∧ sys.writable (getConfigPath sys.home) = true

theorem save_unopened (lib : ConfigLib) (files : DeskFiles) (m : ConfigManager) (h : ¬Opens sys) :
    save lib sys files m = (false,files) := by
  unfold save
  dsimp only
  split_ifs with hcreate hwritable
  · rfl
  · rfl
  · have hopens : Opens sys := ⟨by simpa using hcreate,by simpa using hwritable⟩
    exact absurd hopens h

theorem save_error (files : DeskFiles) (h : Opens sys) {e : Exn} (herror : lib.dumpIndented 4 m.toJson = .error e) :
    save lib sys files m = (false,Function.update files (getConfigPath sys.home) (some [])) := by
  simp only [save, h.1, h.2, herror, Bool.not_true, Bool.false_eq_true, ↓reduceIte]

theorem save_ok (files : DeskFiles) (h : Opens sys) {text : Bytes} (hok : lib.dumpIndented 4 m.toJson = .ok text) :
    save lib sys files m = (true,Function.update files (getConfigPath sys.home) (some (sys.stored text))) := by
  simp only [save, h.1, h.2, hok, Bool.not_true, Bool.false_eq_true, ↓reduceIte, Function.update_idem]

/-- A place for the file: its directory can be created if it has one, and the file can be looked up,
written and read. An empty path cannot be created. -/
structure Writable (sys : DeskSystem) : Prop where
  create : parentPath (getConfigPath sys.home) ≠ [] → sys.createDirectories (parentPath (getConfigPath sys.home)) = true
  create_nil : sys.createDirectories [] = false
  accessible : sys.inaccessible (getConfigPath sys.home) = false
  writable : sys.writable (getConfigPath sys.home) = true
  readable : sys.readable (getConfigPath sys.home) = true
  stored : ∀ text, sys.stored text = text

theorem construct_of_found (h : Found lib sys files m.toJson) : construct lib sys files = some (m,files) := by
  unfold construct
  rw [h.exists_]
  dsimp only
  rw [load_found h, exec_loadMembers_toJson h.read]

theorem construct_of_save (hlib : lib.Lawful) (files : DeskFiles) (hsys : Writable sys) (hip : Utf8.valid m.ip = true)
    (home : Bytes) (hhome : sys.home = some home) :
    (save lib sys files m).1 = true ∧ construct lib sys (save lib sys files m).2 = some (m,(save lib sys files m).2) := by
  have hopens : Opens sys := by
    refine ⟨?_,hsys.writable⟩
    apply hsys.create
    rw [hhome]
    exact parentPath_getConfigPath_ne_nil home
  have hdump : ∃ text, lib.dumpIndented 4 m.toJson = .ok text := hlib.dump_valid (toJson_validStrings hip)
  obtain ⟨text,htext⟩ := hdump
  rw [save_ok files hopens htext, hsys.stored]
  refine ⟨rfl,construct_of_found ⟨?_,hsys.readable,?_⟩⟩
  · simp [DeskSystem.existsAt, hsys.accessible]
  · dsimp only
    rw [Function.update_self, Option.getD_some]
    exact hlib.read_dump (toJson_exact m) htext

/-- In every environment that lets the file be written, and whatever was there before: settings with a
valid address are saved and are those of the next start exactly when `HOME` is set. -/
theorem save_survives_iff (lib : ConfigLib) (hlib : lib.Lawful) (sys : DeskSystem) (hsys : Writable sys) (files : DeskFiles)
    (m : ConfigManager) (hip : Utf8.valid m.ip = true) :
    ((save lib sys files m).1 = true ∧ ∃ files', construct lib sys (save lib sys files m).2 = some (m,files')) ↔
      sys.home ≠ none := by
  constructor
  · rintro ⟨hsaved,_⟩ hhome
    have hno : ¬Opens sys := by
      rintro ⟨hcreate,_⟩
      rw [hhome, parentPath_getConfigPath_none, hsys.create_nil] at hcreate
      cases hcreate
    rw [save_unopened lib files m hno] at hsaved
    cases hsaved
  · intro hhome
    obtain ⟨home,hhome⟩ := Option.ne_none_iff_exists'.mp hhome
    obtain ⟨hsaved,hnext⟩ := construct_of_save hlib files hsys hip home hhome
    exact ⟨hsaved,_,hnext⟩

/-- An environment in which everything can be created and written. -/
def roomy (home : Option Bytes) : DeskSystem where
  home
  createDirectories path := path ≠ []

theorem roomy_writable (home : Option Bytes) : Writable (roomy home) where
  create h := decide_eq_true h
  create_nil := rfl
  accessible := rfl
  writable := rfl
  readable := rfl
  stored _ := rfl

/-- Settings with an address of the local network, in a home directory. -/
theorem save_survives_iff_home :
    let m : ConfigManager := { ip := ascii "10.0.0.7", port := 9001, useSsl := true }
    (save .indented (roomy (some (ascii "/root"))) (fun _ => none) m).1 = true ∧
      ∃ files', construct .indented (roomy (some (ascii "/root")))
        (save .indented (roomy (some (ascii "/root"))) (fun _ => none) m).2 = some (m,files') := by
  intro m
  exact (save_survives_iff .indented ConfigLib.indented_lawful _ (roomy_writable _) _ m (by decide)).mpr (by simp [roomy])

/-- Without `HOME` nothing is saved, though the working directory could be written. -/
theorem save_survives_fails :
    ¬∀ lib : ConfigLib, lib.Lawful → ∀ sys, Writable sys → ∀ files (m : ConfigManager), Utf8.valid m.ip = true →
      (save lib sys files m).1 = true ∧ ∃ files', construct lib sys (save lib sys files m).2 = some (m,files') := by
  intro h
  have hsaved := h .indented ConfigLib.indented_lawful (roomy none) (roomy_writable none) (fun _ => none) {} (by decide)
  exact (save_survives_iff .indented ConfigLib.indented_lawful _ (roomy_writable none) _ _ (by decide)).mp hsaved rfl

end ConfigManager
end MiniHil
