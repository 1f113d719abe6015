import Mathlib.Logic.Function.Basic
import MiniHil.Foundation.IndentedJson
import MiniHil.Foundation.Throwing
import MiniHil.Protocol.CommandParams

/-! # The settings of the desk

`ConfigManager`: where its file is, how it is read and how it is written. What the standard library
answers is the parameter `DeskSystem`; the contents of the files are the state.
-/
namespace MiniHil
open Throwing

/-- The JSON library with its stream operator, which stops behind the first value, and `dump(indent)`. -/
structure ConfigLib extends JsonLib where
  readStream : Bytes → Except Exn Json
  dumpIndented : ℕ → Json → Except Exn Bytes

namespace ConfigLib

/-- What the code relies on. -/
structure Lawful (lib : ConfigLib) : Prop where
  dump_valid : ∀ {indent j}, j.validStrings = true → ∃ text, lib.dumpIndented indent j = .ok text
  dump_invalid : ∀ {indent j}, j.validStrings = false → ∃ what, lib.dumpIndented indent j = .error (.typeError what)
  read_dump : ∀ {indent j text}, j.exact = true → lib.dumpIndented indent j = .ok text → lib.readStream text = .ok j

/-- A lawful library. -/
def indented : ConfigLib where
  toJsonLib := .compact
  readStream text := match JsonText.readValue (text.length + 1) text with
    | some (j,_) => if j.validStrings then .ok j
      else .error (.parseError (ascii "[json.exception.parse_error.101] parse error: invalid string"))
    | none => .error (.parseError (ascii "[json.exception.parse_error.101] parse error: syntax error while parsing value"))
  dumpIndented indent j :=
    if j.validStrings then .ok (JsonText.renderIndented indent 0 j)
    else .error (.typeError (ascii "[json.exception.type_error.316] invalid UTF-8 byte"))

theorem indented_readStream {j : Json} (hj : j.exact = true) (hv : j.validStrings = true) (indent : ℕ) :
    indented.readStream (JsonText.renderIndented indent 0 j) = .ok j := by
  have h := @JsonText.readValue_renderIndented indent j 0 ((JsonText.renderIndented indent 0 j).length + 1) [] hj
    (by omega) (by simp [JsonText.EndsNumber])
  rw [List.append_nil] at h
  simp only [indented, h, hv, ↓reduceIte]

theorem indented_lawful : indented.Lawful where
  dump_valid hv := ⟨_,if_pos hv⟩
  dump_invalid hv := ⟨_,if_neg (by simp [hv])⟩
  read_dump := by
    intro indent j text hj h
    simp only [indented] at h
    split_ifs at h with hv
    obtain rfl := Except.ok.inj h
    exact indented_readStream hj hv indent

end ConfigLib

/-- The environment of the desk: the value of `HOME`, which directories can be created, which paths can
be looked up, read and written, and what a write leaves of a text. -/
structure DeskSystem where
  home : Option Bytes
  createDirectories : Bytes → Bool
  directory : Bytes → Bool := fun _ => false
  inaccessible : Bytes → Bool := fun _ => false
  readable : Bytes → Bool := fun _ => true
  writable : Bytes → Bool := fun _ => true
  stored : Bytes → Bytes := id

abbrev DeskFiles := Bytes → Option Bytes

/-- `std::filesystem::exists`, `none` where it throws. -/
def DeskSystem.existsAt (sys : DeskSystem) (files : DeskFiles) (path : Bytes) : Option Bool :=
  if sys.inaccessible path then none else some ((files path).isSome || sys.directory path)

/-- `operator/=` for a relative path. -/
def appendPath (p q : Bytes) : Bytes :=
  if p = [] ∨ p.getLast? = some 0x2F then p ++ q else p ++ 0x2F :: q

/-- `parent_path` -/
def parentPath (p : Bytes) : Bytes :=
  let directory := p.reverse.dropWhile fun b => b ≠ 0x2F
  let parent := (directory.dropWhile fun b => b = 0x2F).reverse
  if parent = [] ∧ directory ≠ [] then [0x2F] else parent

structure ConfigManager where
  ip : Bytes := ascii "127.0.0.1"
  port : Int32 := 9000
  useSsl : Bool := false
  useMtls : Bool := false
  deriving DecidableEq

namespace ConfigManager

def getConfigPath (home : Option Bytes) : Bytes :=
  match home with
  | none => ascii "config"
  | some home => appendPath (appendPath home (ascii ".minihil")) (ascii "config")

/-- One of the conversions of `load`: a member that is there is assigned, or its conversion throws. -/
def loadMember {α : Type} (key : Bytes) (get : Json → Except Exn α) (set : α → ConfigManager → ConfigManager) (j : Json) :
    Throwing Exn ConfigManager Unit :=
  if j.contains key then do
    let value ← liftM (get (j.member key))
    modify (set value)
  else pure ()

def loadIp : Json → Throwing Exn ConfigManager Unit :=
  loadMember (ascii "ip") JsonLib.getString fun ip m => { m with ip }

def loadPort (lib : ConfigLib) : Json → Throwing Exn ConfigManager Unit :=
  loadMember (ascii "port") lib.getInt fun port m => { m with port := Int32.ofInt port }

def loadSsl : Json → Throwing Exn ConfigManager Unit :=
  loadMember (ascii "ssl") JsonLib.getBool fun useSsl m => { m with useSsl }

def loadMtls : Json → Throwing Exn ConfigManager Unit :=
  loadMember (ascii "mtls") JsonLib.getBool fun useMtls m => { m with useMtls }

/-- The body of the `try` behind the stream. -/
def loadMembers (lib : ConfigLib) (contents : Bytes) : Throwing Exn ConfigManager Unit := do
  let j ← liftM (lib.readStream contents)
  loadIp j
  loadPort lib j
  loadSsl j
  loadMtls j

/-- `none` where an exception leaves `load`. A directory opens and has nothing to read. -/
def load (lib : ConfigLib) (sys : DeskSystem) (files : DeskFiles) (m : ConfigManager) : Option Bool × ConfigManager :=
  let path := getConfigPath sys.home
  match sys.existsAt files path with
  | none => (none,m)
  | some false => (some false,m)
  | some true =>
    if sys.readable path then
      match exec (loadMembers lib ((files path).getD [])) m with
      | (.ok _,m) => (some true,m)
      | (.error _,m) => (some false,m)
    else (some false,m)

/-- The object that `save` builds. -/
def toJson (m : ConfigManager) : Json :=
  .ofMembers [(ascii "ip",.string m.ip),(ascii "port",.integer m.port.toInt),(ascii "ssl",.boolean m.useSsl),
    (ascii "mtls",.boolean m.useMtls)]

/-- Opening the file empties it. What the stream reports about the write is not looked at. -/
def save (lib : ConfigLib) (sys : DeskSystem) (files : DeskFiles) (m : ConfigManager) : Bool × DeskFiles :=
  let path := getConfigPath sys.home
  if !sys.createDirectories (parentPath path) then (false,files)
  else if !sys.writable path then (false,files)
  else
    let files := Function.update files path (some [])
    match lib.dumpIndented 4 m.toJson with
    | .error _ => (false,files)
    | .ok text => (true,Function.update files path (some (sys.stored text)))

/-- `none` where the constructor throws. -/
def construct (lib : ConfigLib) (sys : DeskSystem) (files : DeskFiles) : Option (ConfigManager × DeskFiles) :=
  match sys.existsAt files (getConfigPath sys.home) with
  | none => none
  | some false => some ({},(save lib sys files {}).2)
  | some true => match load lib sys files {} with
    | (none,_) => none
    | (some _,m) => some (m,files)

theorem exec_loadMember {α : Type} (key : Bytes) (get : Json → Except Exn α) (set : α → ConfigManager → ConfigManager)
    (j : Json) (m : ConfigManager) : exec (loadMember key get set j) m =
      if j.contains key then
        match get (j.member key) with
        | .ok value => (.ok (),set value m)
        | .error e => (.error e,m)
      else (.ok (),m) := by
  unfold loadMember
  split_ifs
  · rw [exec_bind, exec_lift]
    cases get (j.member key) <;> rfl
  · rfl

end ConfigManager
end MiniHil
