import MiniHil.Foundation.JsonText

/-! # nlohmann::json

The JSON library is a parameter: how it parses and dumps, and what the conversions that the
language leaves undefined give. What the code relies on is `Lawful`; the type conversions and
the texts of their exceptions are those of the library's documentation.
-/
namespace MiniHil

/-- The exceptions the code can meet, all of them `std::exception`. -/
inductive Exn
  | parseError (what : Bytes)
  | outOfRange (what : Bytes)
  | typeError (what : Bytes)
  | stdOutOfRange (what : Bytes)

def Exn.what : Exn → Bytes
  | .parseError what | .outOfRange what | .typeError what | .stdOutOfRange what => what

namespace Json

def typeName : Json → String
  | .null => "null"
  | .boolean _ => "boolean"
  | .integer _ | .float _ => "number"
  | .string _ => "string"
  | .array _ => "array"
  | .object _ => "object"

/-- `type_error.302` -/
def typeError (expected : String) (j : Json) : Exn :=
  .typeError (ascii ("[json.exception.type_error.302] type must be " ++ expected ++ ", but is " ++ j.typeName))

end Json

structure JsonLib where
  parse : Bytes → Except Exn Json
  dump : Json → Except Exn Bytes
  /-- What a cast to `int` gives for a number outside its range. -/
  undefinedInt : Double → Int32
  undefinedUint32 : Double → UInt32

namespace JsonLib
variable (lib : JsonLib)

/-- `get<int>` -/
def getInt : Json → Except Exn ℤ
  | .integer n => .ok (n.bmod (2 ^ 32))
  | .float d => .ok (if -2 ^ 31 ≤ d.trunc ∧ d.trunc < 2 ^ 31 then d.trunc else (lib.undefinedInt d).toInt)
  | .boolean b => .ok (if b then 1 else 0)
  | j => .error (j.typeError "number")

theorem getInt_range {lib : JsonLib} {j : Json} {n : ℤ} (h : lib.getInt j = .ok n) : -2 ^ 31 ≤ n ∧ n < 2 ^ 31 := by
  cases j with
  | integer m =>
    obtain rfl := Except.ok.inj h
    have hlow := @Int.le_bmod m (2 ^ 32) (by decide)
    have hhigh := @Int.bmod_lt m (2 ^ 32) (by decide)
    omega
  | float d =>
    obtain rfl := Except.ok.inj h
    have hlow := (lib.undefinedInt d).le_toInt
    have hhigh := (lib.undefinedInt d).toInt_lt
    split_ifs <;> omega
  | boolean b =>
    obtain rfl := Except.ok.inj h
    cases b <;> decide
  | null | string | array | object => cases h

/-- `get<uint32_t>` -/
def getUint32 : Json → Except Exn UInt32
  | .integer n => .ok (UInt32.ofInt n)
  | .float d => .ok (if 0 ≤ d.trunc ∧ d.trunc < 2 ^ 32 then UInt32.ofInt d.trunc else lib.undefinedUint32 d)
  | .boolean b => .ok (if b then 1 else 0)
  | j => .error (j.typeError "number")

/-- `get<bool>` -/
def getBool : Json → Except Exn Bool
  | .boolean b => .ok b
  | j => .error (j.typeError "boolean")

/-- The conversion to `std::string`. -/
def getString : Json → Except Exn Bytes
  | .string s => .ok s
  | j => .error (j.typeError "string")

/-- What the code relies on. -/
structure Lawful (lib : JsonLib) : Prop where
  parse_valid : ∀ {text j}, lib.parse text = .ok j → j.validStrings = true
  parse_fails : ∀ {text e}, lib.parse text = .error e → (∃ what, e = .parseError what) ∨ ∃ what, e = .outOfRange what
  dump_valid : ∀ {j}, j.validStrings = true → ∃ text, lib.dump j = .ok text
  dump_invalid : ∀ {j}, j.validStrings = false → ∃ what, lib.dump j = .error (.typeError what)
  dump_ne_nil : ∀ {j text}, lib.dump j = .ok text → text ≠ []
  dump_printable : ∀ {j text}, lib.dump j = .ok text → ∀ b ∈ text, 0x20 ≤ b
  parse_dump : ∀ {j text}, j.exact = true → lib.dump j = .ok text → lib.parse text = .ok j

/-- Parsing and dumping compact text. -/
def compact : JsonLib where
  parse text := match JsonText.read text with
    | some j => .ok j
    | none => .error (.parseError (
        ascii "[json.exception.parse_error.101] parse error: syntax error while parsing value; last read: '" ++ text ++ ascii "'"))
  dump j :=
    if j.validStrings then .ok (JsonText.render j)
    else .error (.typeError (ascii "[json.exception.type_error.316] invalid UTF-8 byte"))
  undefinedInt _ := Int32.minValue
  undefinedUint32 _ := 0

theorem compact_dump {j : Json} {text : Bytes} :
    compact.dump j = .ok text ↔ j.validStrings = true ∧ JsonText.render j = text := by
  simp only [compact]
  split_ifs with hv <;> simp [hv]

theorem compact_parse_render {j : Json} (hj : j.exact = true) (hv : j.validStrings = true) :
    compact.parse (JsonText.render j) = .ok j := by
  simp only [compact, JsonText.read_render hj hv]

theorem compact_lawful : compact.Lawful where
  parse_valid := by
    intro text j h
    simp only [compact] at h
    split at h
    next j' hr =>
      obtain rfl := Except.ok.inj h
      exact JsonText.validStrings_of_read hr
    next => cases h
  parse_fails := by
    intro text e h
    simp only [compact] at h
    split at h
    · cases h
    · exact .inl ⟨_,(Except.error.inj h).symm⟩
  dump_valid := fun hv => ⟨_,compact_dump.mpr ⟨hv,rfl⟩⟩
  dump_invalid := by
    intro j hv
    exact ⟨_,if_neg (by simp [hv])⟩
  dump_ne_nil := by
    intro j text h
    obtain ⟨_,rfl⟩ := compact_dump.mp h
    exact List.ne_nil_of_length_pos (JsonText.render_length_pos j)
  dump_printable := by
    intro j text h
    obtain ⟨_,rfl⟩ := compact_dump.mp h
    exact JsonText.render_printable j
  parse_dump := by
    intro j text hj h
    obtain ⟨hv,rfl⟩ := compact_dump.mp h
    exact compact_parse_render hj hv

end JsonLib
end MiniHil
