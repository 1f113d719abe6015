import Mathlib.Algebra.Group.Int.Defs
import Mathlib.Algebra.Group.Nat.Defs
import Mathlib.Data.Int.Basic
import Mathlib.Data.List.Basic

/-! # JSON values over byte strings

The data model of a JSON library whose strings are byte strings: UTF-8 validity, values,
member access, and the two conditions under which a value has a text. Objects are lists sorted
by key without repetition, as a sorted map gives them.
-/
namespace MiniHil

abbrev Bytes := List UInt8

/-- Whether all elements of a list have a property is decided element by element, also where the
type of the elements is finite. -/
instance decidableForallMem {α : Type*} {p : α → Prop} [DecidablePred p] (xs : List α) : Decidable (∀ x ∈ xs, p x) :=
  List.decidableBAll p xs

/-- The bytes of a string of ASCII characters. -/
def ascii (s : String) : Bytes := s.toList.map fun c => UInt8.ofNat c.toNat

namespace Utf8

/-- What the decoder expects next: nothing, or some continuation bytes, the first of them
restricted after the leading bytes E0, ED, F0 and F4. -/
inductive State
  | start
  | one
  | two
  | three
  | afterE0
  | afterED
  | afterF0
  | afterF4
  | reject
  deriving DecidableEq, Repr

def leading (b : UInt8) : State :=
  if b < 0x80 then .start
  else if b < 0xC2 then .reject
  else if b < 0xE0 then .one
  else if b = 0xE0 then .afterE0
  else if b = 0xED then .afterED
  else if b < 0xF0 then .two
  else if b = 0xF0 then .afterF0
  else if b < 0xF4 then .three
  else if b = 0xF4 then .afterF4
  else .reject

def step (s : State) (b : UInt8) : State :=
  let continues (low high : UInt8) (next : State) : State := if low ≤ b ∧ b ≤ high then next else .reject
  match s with
  | .start => leading b
  | .one => continues 0x80 0xBF .start
  | .two => continues 0x80 0xBF .one
  | .three => continues 0x80 0xBF .two
  | .afterE0 => continues 0xA0 0xBF .one
  | .afterED => continues 0x80 0x9F .one
  | .afterF0 => continues 0x90 0xBF .two
  | .afterF4 => continues 0x80 0x8F .two
  | .reject => .reject

/-- The bytes are valid UTF-8. -/
def valid (bs : Bytes) : Bool := bs.foldl step .start = .start

variable {a b : Bytes}

theorem foldl_step_ascii (ha : ∀ x ∈ a, x < 0x80) : a.foldl step .start = .start := by
  induction a with
  | nil => rfl
  | cons x a ih =>
    have hx : step .start x = .start := if_pos (ha x List.mem_cons_self)
    rw [List.foldl_cons, hx]
    exact ih fun y hy => ha y (List.mem_cons_of_mem _ hy)

theorem valid_ascii (ha : ∀ x ∈ a, x < 0x80) : valid a = true := by
  simp [valid, foldl_step_ascii ha]

theorem valid_ascii_append (ha : ∀ x ∈ a, x < 0x80) : valid (a ++ b) = valid b := by
  rw [valid, List.foldl_append, foldl_step_ascii ha]
  rfl

end Utf8

structure Double where
  mantissa : ℤ
  exponent : ℤ
  deriving DecidableEq, Repr

def Double.trunc (d : Double) : ℤ :=
  if 0 ≤ d.exponent then d.mantissa * 2 ^ d.exponent.toNat else d.mantissa.tdiv (2 ^ (-d.exponent).toNat)

inductive Json
  | null
  | boolean (value : Bool)
  | integer (value : ℤ)
  | float (value : Double)
  | string (value : Bytes)
  | array (elements : List Json)
  | object (members : List (Bytes × Json))

namespace Json

def isNull : Json → Bool
  | .null => true
  | _ => false

def isObject : Json → Bool
  | .object _ => true
  | _ => false

def isBoolean : Json → Bool
  | .boolean _ => true
  | _ => false

def equalsString (s : Bytes) : Json → Bool
  | .string t => t == s
  | _ => false

def contains (key : Bytes) : Json → Bool
  | .object members => (members.lookup key).isSome
  | _ => false

/-- The member of an object that contains the key. -/
def member (key : Bytes) : Json → Json
  | .object members => (members.lookup key).getD .null
  | _ => .null

def insertMember (key : Bytes) (value : Json) : List (Bytes × Json) → List (Bytes × Json)
  | [] => [(key,value)]
  | (k,v) :: members =>
    if key = k then (key,value) :: members
    else if key < k then (key,value) :: (k,v) :: members
    else (k,v) :: insertMember key value members

def ofMembers (members : List (Bytes × Json)) : Json :=
  .object (members.foldl (fun ms p => insertMember p.1 p.2 ms) [])

mutual

/-- All strings and keys in the value are valid UTF-8. -/
def validStrings : Json → Bool
  | .string s => Utf8.valid s
  | .array elements => validElements elements
  | .object members => validMembers members
  | _ => true

def validElements : List Json → Bool
  | [] => true
  | x :: xs => validStrings x && validElements xs

def validMembers : List (Bytes × Json) → Bool
  | [] => true
  | (k,v) :: members => Utf8.valid k && validStrings v && validMembers members

end

def sortedKeys : List (Bytes × Json) → Bool
  | [] => true
  | (k,_) :: members => members.all (fun p => k < p.1) && sortedKeys members

mutual

/-- The value is the one a reader gets back from its text: keys sorted, integers of 64 bits, and
no floating-point numbers. -/
def exact : Json → Bool
  | .integer n => -2 ^ 63 ≤ n && n < 2 ^ 64
  | .float _ => false
  | .array elements => exactElements elements
  | .object members => sortedKeys members && exactMembers members
  | _ => true

def exactElements : List Json → Bool
  | [] => true
  | x :: xs => exact x && exactElements xs

def exactMembers : List (Bytes × Json) → Bool
  | [] => true
  | (_,v) :: members => exact v && exactMembers members

end

variable {key : Bytes} {value : Json} {members : List (Bytes × Json)}

theorem validElements_iff {elements : List Json} :
    validElements elements = true ↔ ∀ x ∈ elements, x.validStrings = true := by
  induction elements with
  | nil => simp [validElements]
  | cons x xs ih => simp [validElements, ih]

theorem validMembers_iff :
    validMembers members = true ↔ ∀ p ∈ members, Utf8.valid p.1 = true ∧ p.2.validStrings = true := by
  induction members with
  | nil => simp [validMembers]
  | cons p ps ih => simp [validMembers, ih, and_assoc]

theorem mem_of_mem_insertMember {p : Bytes × Json} (h : p ∈ insertMember key value members) :
    p = (key,value) ∨ p ∈ members := by
  induction members with
  | nil => simpa [insertMember] using h
  | cons q qs ih =>
    unfold insertMember at h
    split_ifs at h
    · rcases List.mem_cons.mp h with h | h
      · exact .inl h
      · exact .inr (List.mem_cons_of_mem _ h)
    · rcases List.mem_cons.mp h with h | h
      · exact .inl h
      · exact .inr h
    · rcases List.mem_cons.mp h with h | h
      · exact .inr (h ▸ List.mem_cons_self)
      · rcases ih h with h | h
        · exact .inl h
        · exact .inr (List.mem_cons_of_mem _ h)

theorem validStrings_ofMembers (h : ∀ p ∈ members, Utf8.valid p.1 = true ∧ p.2.validStrings = true) :
    (ofMembers members).validStrings = true := by
  have hfold : ∀ ms acc : List (Bytes × Json),
      (∀ p ∈ ms, Utf8.valid p.1 = true ∧ p.2.validStrings = true) →
      (∀ p ∈ acc, Utf8.valid p.1 = true ∧ p.2.validStrings = true) →
      ∀ p ∈ ms.foldl (fun ms p => insertMember p.1 p.2 ms) acc, Utf8.valid p.1 = true ∧ p.2.validStrings = true := by
    intro ms
    induction ms with
    | nil => exact fun _ _ hacc => hacc
    | cons q qs ih =>
      intro acc hms hacc
      refine ih _ (fun p hp => hms p (List.mem_cons_of_mem _ hp)) fun p hp => ?_
      rcases mem_of_mem_insertMember hp with rfl | hp
      · exact hms q List.mem_cons_self
      · exact hacc p hp
  exact validMembers_iff.mpr (hfold members [] h (by simp))

theorem sortedKeys_insertMember (h : sortedKeys members = true) :
    sortedKeys (insertMember key value members) = true := by
  induction members with
  | nil => rfl
  | cons q qs ih =>
    rcases q with ⟨k,v⟩
    simp only [sortedKeys, Bool.and_eq_true, List.all_eq_true, decide_eq_true_eq] at h
    unfold insertMember
    split_ifs with heq hlt
    · subst heq
      simpa [sortedKeys] using h
    · simp only [sortedKeys, Bool.and_eq_true, List.all_eq_true, decide_eq_true_eq, List.forall_mem_cons]
      exact ⟨⟨hlt,fun p hp => List.lt_trans hlt (h.1 p hp)⟩,h⟩
    · simp only [sortedKeys, Bool.and_eq_true, List.all_eq_true, decide_eq_true_eq]
      refine ⟨fun p hp => ?_,ih h.2⟩
      rcases mem_of_mem_insertMember hp with rfl | hp
      · by_contra hge
        exact heq (List.le_antisymm (List.not_lt.mp hge) (List.not_lt.mp hlt))
      · exact h.1 p hp

theorem exactMembers_iff : exactMembers members = true ↔ ∀ p ∈ members, p.2.exact = true := by
  induction members with
  | nil => simp [exactMembers]
  | cons p ps ih => simp [exactMembers, ih]

theorem exact_ofMembers (h : ∀ p ∈ members, p.2.exact = true) : (ofMembers members).exact = true := by
  have hfold : ∀ ms acc : List (Bytes × Json), (∀ p ∈ ms, p.2.exact = true) →
      sortedKeys acc = true → (∀ p ∈ acc, p.2.exact = true) →
      sortedKeys (ms.foldl (fun ms p => insertMember p.1 p.2 ms) acc) = true ∧
        ∀ p ∈ ms.foldl (fun ms p => insertMember p.1 p.2 ms) acc, p.2.exact = true := by
    intro ms
    induction ms with
    | nil => exact fun _ _ hs hacc => ⟨hs,hacc⟩
    | cons q qs ih =>
      intro acc hms hs hacc
      refine ih _ (fun p hp => hms p (List.mem_cons_of_mem _ hp)) (sortedKeys_insertMember hs) fun p hp => ?_
      rcases mem_of_mem_insertMember hp with rfl | hp
      · exact hms q List.mem_cons_self
      · exact hacc p hp
  obtain ⟨hs,hall⟩ := hfold members [] h rfl (by simp)
  rw [ofMembers, exact, hs, Bool.true_and]
  exact exactMembers_iff.mpr hall

theorem lookup_insertMember (k : Bytes) :
    (insertMember key value members).lookup k = if k = key then some value else members.lookup k := by
  induction members with
  | nil =>
    by_cases hk : k = key <;> simp [insertMember, List.lookup_cons, hk, beq_eq_false_iff_ne.mpr]
  | cons q qs ih =>
    rcases q with ⟨k',v'⟩
    unfold insertMember
    by_cases hk : k = key
    · subst hk
      rw [if_pos rfl] at ih
      by_cases hk' : k = k'
      · simp [hk']
      · by_cases hlt : k < k' <;> simp [hk', hlt, List.lookup_cons, ih, beq_eq_false_iff_ne.mpr hk']
    · rw [if_neg hk] at ih
      by_cases hk' : key = k'
      · subst hk'
        simp [hk, List.lookup_cons, beq_eq_false_iff_ne.mpr hk]
      · by_cases hlt : key < k'
        · simp [hk, hk', hlt, List.lookup_cons, beq_eq_false_iff_ne.mpr hk]
        · simp [hk, hk', hlt, List.lookup_cons, ih]

theorem contains_ofMembers_iff : (ofMembers members).contains key = true ↔ key ∈ members.map Prod.fst := by
  have hfold : ∀ ms acc : List (Bytes × Json),
      ((ms.foldl (fun ms p => insertMember p.1 p.2 ms) acc).lookup key).isSome = true ↔
        key ∈ ms.map Prod.fst ∨ (acc.lookup key).isSome = true := by
    intro ms
    induction ms with
    | nil => simp
    | cons q qs ih =>
      intro acc
      rw [List.foldl_cons, ih, lookup_insertMember]
      by_cases hk : key = q.1 <;> simp [hk]
  rw [ofMembers, contains, hfold members []]
  simp

theorem lookup_mem {α β : Type*} [BEq α] [LawfulBEq α] {k : α} {v : β} {table : List (α × β)}
    (h : table.lookup k = some v) : (k,v) ∈ table := by
  obtain ⟨before,after,rfl,_⟩ := List.lookup_eq_some_iff.mp h
  exact List.mem_append_right _ List.mem_cons_self

theorem validStrings_member {j : Json} (h : j.validStrings = true) : (j.member key).validStrings = true := by
  cases j with
  | object members =>
    rw [member]
    cases hl : members.lookup key with
    | none => rfl
    | some value => exact (validMembers_iff.mp h _ (lookup_mem hl)).2
  | _ => rfl

end Json
end MiniHil
