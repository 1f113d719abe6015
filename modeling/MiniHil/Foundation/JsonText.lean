import MiniHil.Foundation.Json

/-! # Compact JSON text

A writer without indentation and a reader for the fragment without floating-point numbers and
without escapes above U+007F, and the round trip between them.
-/
namespace MiniHil.JsonText

def hexDigit (n : UInt8) : UInt8 := if n < 10 then 0x30 + n else 0x57 + n

def escapeLetter (b : UInt8) : Option UInt8 :=
  [((0x22 : UInt8),(0x22 : UInt8)),(0x5C,0x5C),(0x08,0x62),(0x09,0x74),(0x0A,0x6E),(0x0C,0x66),(0x0D,0x72)].lookup b

def escape (b : UInt8) : Bytes :=
  match escapeLetter b with
  | some letter => [0x5C,letter]
  | none => if b < 0x20 then [0x5C,0x75,0x30,0x30,hexDigit (b / 16),hexDigit (b % 16)] else [b]

def writeString (s : Bytes) : Bytes := s.flatMap escape ++ [0x22]

mutual

def render : Json → Bytes
  | .null => ascii "null"
  | .boolean true => ascii "true"
  | .boolean false => ascii "false"
  | .integer n => ascii (toString n)
  | .float d => ascii (toString d.trunc) ++ ascii ".0"
  | .string s => 0x22 :: writeString s
  | .array [] => ascii "[]"
  | .array (x :: xs) => 0x5B :: (render x ++ renderElements xs)
  | .object [] => ascii "\x7b\x7d"
  | .object ((k,v) :: members) => 0x7B :: 0x22 :: (writeString k ++ 0x3A :: (render v ++ renderMembers members))

def renderElements : List Json → Bytes
  | [] => [0x5D]
  | x :: xs => 0x2C :: (render x ++ renderElements xs)

def renderMembers : List (Bytes × Json) → Bytes
  | [] => [0x7D]
  | (k,v) :: members => 0x2C :: 0x22 :: (writeString k ++ 0x3A :: (render v ++ renderMembers members))

end

def isSpace (b : UInt8) : Bool := b = 0x20 || b = 0x09 || b = 0x0A || b = 0x0D

def skipSpace (input : Bytes) : Bytes := input.dropWhile isSpace

def isDigit (b : UInt8) : Bool := 0x30 ≤ b && b ≤ 0x39

def hexValue (b : UInt8) : Option UInt8 :=
  if isDigit b then some (b - 0x30) else if 0x61 ≤ b ∧ b ≤ 0x66 then some (b - 0x57) else none

def unescapeLetter (letter : UInt8) : Option UInt8 :=
  [((0x22 : UInt8),(0x22 : UInt8)),(0x5C,0x5C),(0x2F,0x2F),(0x62,0x08),(0x74,0x09),(0x6E,0x0A),(0x66,0x0C),(0x72,0x0D)].lookup letter

def readString : Bytes → Option (Bytes × Bytes)
  | [] => none
  | b :: rest =>
    if b = 0x22 then some ([],rest)
    else if b = 0x5C then
      match rest with
      | [] => none
      | letter :: rest =>
        match unescapeLetter letter with
        | some c => (readString rest).map fun p => (c :: p.1,p.2)
        | none =>
          match rest with
          | z₁ :: z₂ :: high :: low :: rest =>
            if letter = 0x75 ∧ z₁ = 0x30 ∧ z₂ = 0x30 then
              match hexValue high, hexValue low with
              | some h, some l =>
                if h < 8 then (readString rest).map fun p => ((16 * h + l) :: p.1,p.2) else none
              | _, _ => none
            else none
          | _ => none
    else if b < 0x20 then none
    else (readString rest).map fun p => (b :: p.1,p.2)

def digitsValue (digits : Bytes) : ℕ := Nat.ofDigitChars 10 (digits.map fun b => Char.ofNat b.toNat) 0

def readNumber (input : Bytes) : Option (Json × Bytes) :=
  let (negative,input) := match input with
    | 0x2D :: rest => (true,rest)
    | _ => (false,input)
  let digits := input.takeWhile isDigit
  let value : ℤ := if negative then -(digitsValue digits : ℤ) else digitsValue digits
  if digits = [] ∨ value < -2 ^ 63 ∨ 2 ^ 64 ≤ value then none else some (.integer value,input.dropWhile isDigit)

def readKeyword (word : Bytes) (value : Json) (input : Bytes) : Option (Json × Bytes) :=
  if word.isPrefixOf input then some (value,input.drop word.length) else none

mutual

def readValue : ℕ → Bytes → Option (Json × Bytes)
  | 0, _ => none
  | fuel + 1, input =>
    match skipSpace input with
    | [] => none
    | b :: rest =>
      if b = 0x22 then (readString rest).map fun p => (.string p.1,p.2)
      else if b = 0x5B then
        match skipSpace rest with
        | 0x5D :: rest => some (.array [],rest)
        | _ => (readElements fuel rest).map fun p => (.array p.1,p.2)
      else if b = 0x7B then
        match skipSpace rest with
        | 0x7D :: rest => some (.object [],rest)
        | _ => (readMembers fuel rest).map fun p => (Json.ofMembers p.1,p.2)
      else if b = 0x6E then readKeyword (ascii "null") .null (b :: rest)
      else if b = 0x74 then readKeyword (ascii "true") (.boolean true) (b :: rest)
      else if b = 0x66 then readKeyword (ascii "false") (.boolean false) (b :: rest)
      else readNumber (b :: rest)

def readElements : ℕ → Bytes → Option (List Json × Bytes)
  | 0, _ => none
  | fuel + 1, input =>
    match readValue fuel input with
    | none => none
    | some (x,rest) =>
      match skipSpace rest with
      | 0x2C :: rest => (readElements fuel rest).map fun p => (x :: p.1,p.2)
      | 0x5D :: rest => some ([x],rest)
      | _ => none

def readMembers : ℕ → Bytes → Option (List (Bytes × Json) × Bytes)
  | 0, _ => none
  | fuel + 1, input =>
    match skipSpace input with
    | 0x22 :: rest =>
      match readString rest with
      | none => none
      | some (k,rest) =>
        match skipSpace rest with
        | 0x3A :: rest =>
          match readValue fuel rest with
          | none => none
          | some (v,rest) =>
            match skipSpace rest with
            | 0x2C :: rest => (readMembers fuel rest).map fun p => ((k,v) :: p.1,p.2)
            | 0x7D :: rest => some ([(k,v)],rest)
            | _ => none
        | _ => none
    | _ => none

end

/-- The value of a text that holds one value and nothing else. -/
def read (text : Bytes) : Option Json :=
  match readValue (text.length + 1) text with
  | some (j,rest) => if skipSpace rest = [] ∧ j.validStrings = true then some j else none
  | none => none

theorem forall_byte {P : UInt8 → Prop} (h : ∀ n : Fin 256, P (UInt8.ofNat n)) (b : UInt8) : P b := by
  have hb := h ⟨b.toNat,b.toNat_lt⟩
  rwa [UInt8.ofNat_toNat] at hb

set_option maxRecDepth 2000 in
theorem hexValue_hexDigit : ∀ b : UInt8, b < 16 → hexValue (hexDigit b) = some b := by
  apply forall_byte
  decide

theorem escapeLetter_spec {b letter : UInt8} (h : escapeLetter b = some letter) :
    unescapeLetter letter = some b ∧ 0x20 ≤ letter := by
  have hall : ∀ p ∈ [((0x22 : UInt8),(0x22 : UInt8)),(0x5C,0x5C),(0x08,0x62),(0x09,0x74),(0x0A,0x6E),(0x0C,0x66),(0x0D,0x72)],
      unescapeLetter p.2 = some p.1 ∧ 0x20 ≤ p.2 := by decide
  exact hall (b,letter) (Json.lookup_mem h)

set_option maxRecDepth 2000 in
theorem control_hex : ∀ b : UInt8, b < 0x20 → b / 16 < 8 ∧ b % 16 < 16 ∧ 16 * (b / 16) + b % 16 = b := by
  apply forall_byte
  decide

theorem escapeLetter_none {b : UInt8} (h : escapeLetter b = none) : b ≠ 0x22 ∧ b ≠ 0x5C := by
  constructor
  · rintro rfl
    simp [escapeLetter] at h
  · rintro rfl
    simp [escapeLetter] at h

theorem readString_escape (b : UInt8) (rest : Bytes) :
    readString (escape b ++ rest) = (readString rest).map fun p => (b :: p.1,p.2) := by
  unfold escape
  cases hl : escapeLetter b with
  | some letter =>
    have hu := (escapeLetter_spec hl).1
    conv_lhs => rw [readString.eq_def]
    simp [hu]
  | none =>
    obtain ⟨hquote,hslash⟩ := escapeLetter_none hl
    by_cases hc : b < 0x20
    · obtain ⟨hhigh,hlow,hval⟩ := control_hex b hc
      have hh := hexValue_hexDigit (b / 16) (UInt8.lt_trans hhigh (by decide))
      have hlo := hexValue_hexDigit (b % 16) hlow
      have hu : unescapeLetter 0x75 = none := by decide
      conv_lhs => rw [readString.eq_def]
      simp [hc, hu, hh, hlo, hhigh, hval]
    · conv_lhs => rw [readString.eq_def]
      simp [hc, hquote, hslash]

theorem readString_writeString (s rest : Bytes) : readString (writeString s ++ rest) = some (s,rest) := by
  induction s with
  | nil =>
    conv_lhs => rw [readString.eq_def]
    simp [writeString]
  | cons b s ih =>
    have hw : writeString (b :: s) ++ rest = escape b ++ (writeString s ++ rest) := by simp [writeString]
    rw [hw, readString_escape, ih]
    rfl

def EndsNumber (rest : Bytes) : Prop := ∀ b ∈ rest.head?, isDigit b = false

theorem decimal_digits (n : ℕ) :
    (∀ b ∈ ascii (toString n), isDigit b = true) ∧ digitsValue (ascii (toString n)) = n ∧ ascii (toString n) ≠ [] := by
  have hdigit : ∀ c ∈ Nat.toDigits 10 n, 0x30 ≤ c.toNat ∧ c.toNat ≤ 0x39 := by
    intro c hc
    exact Char.isDigit_iff_toNat.mp (Nat.isDigit_of_mem_toDigits (by decide) (by decide) hc)
  have hlist : (toString n).toList = Nat.toDigits 10 n := Nat.toList_repr
  refine ⟨?_,?_,?_⟩
  · intro b hb
    rw [ascii, hlist, List.mem_map] at hb
    obtain ⟨c,hc,rfl⟩ := hb
    obtain ⟨hlow,hhigh⟩ := hdigit c hc
    simp only [isDigit, Bool.and_eq_true, decide_eq_true_eq, UInt8.le_iff_toNat_le, UInt8.toNat_ofNat']
    constructor
    · change 48 ≤ c.toNat % 256
      omega
    · change c.toNat % 256 ≤ 57
      omega
  · have hback : ((Nat.toDigits 10 n).map fun c => UInt8.ofNat c.toNat).map (fun b => Char.ofNat b.toNat) =
        Nat.toDigits 10 n := by
      rw [List.map_map]
      conv_rhs => rw [← List.map_id (Nat.toDigits 10 n)]
      apply List.map_congr_left
      intro c hc
      obtain ⟨hlow,hhigh⟩ := hdigit c hc
      have hmod : c.toNat % 2 ^ 8 = c.toNat := by omega
      simp only [Function.comp_apply, UInt8.toNat_ofNat', hmod, id_eq]
      exact Char.ofNat_toNat c
    rw [digitsValue, ascii, hlist, hback, Nat.ofDigitChars_ten_toDigits]
  · rw [ascii, hlist]
    simp [Nat.toDigits_ne_nil]

theorem takeWhile_digits {digits rest : Bytes} (hd : ∀ b ∈ digits, isDigit b = true) (hrest : EndsNumber rest) :
    (digits ++ rest).takeWhile isDigit = digits ∧ (digits ++ rest).dropWhile isDigit = rest := by
  rw [List.takeWhile_append_of_pos hd, List.dropWhile_append_of_pos hd]
  cases rest with
  | nil => simp
  | cons b rest =>
    have hb := hrest b rfl
    simp [hb]

theorem ascii_negSucc (m : ℕ) : ascii (toString (Int.negSucc m)) = 0x2D :: ascii (toString (m + 1)) := by
  have hs : toString (Int.negSucc m) = "-" ++ toString (m + 1) := rfl
  rw [hs, ascii, String.toList_append]
  rfl

theorem readNumber_render {n : ℤ} (hn : -2 ^ 63 ≤ n ∧ n < 2 ^ 64) {rest : Bytes} (hrest : EndsNumber rest) :
    readNumber (ascii (toString n) ++ rest) = some (.integer n,rest) := by
  cases n with
  | ofNat m =>
    obtain ⟨hd,hv,hne⟩ := decimal_digits m
    obtain ⟨htake,hdrop⟩ := takeWhile_digits hd hrest
    change readNumber (ascii (toString m) ++ rest) = _
    have hhead : ∀ tail, ascii (toString m) ++ rest ≠ 0x2D :: tail := by
      intro tail h
      cases hm : ascii (toString m) with
      | nil => exact hne hm
      | cons b bs =>
        rw [hm, List.cons_append, List.cons.injEq] at h
        have hb := hd b (hm ▸ List.mem_cons_self)
        rw [h.1] at hb
        exact absurd hb (by decide)
    unfold readNumber
    split
    next negative input heq =>
      split at heq
      next tail h => exact absurd h (hhead tail)
      next =>
        obtain ⟨rfl,rfl⟩ := Prod.mk.inj heq
        simp only [htake, hdrop, hv, hne, Bool.false_eq_true, ↓reduceIte, false_or]
        rw [if_neg (by simp only [Int.ofNat_eq_natCast] at hn; omega)]
        rfl
  | negSucc m =>
    obtain ⟨hd,hv,hne⟩ := decimal_digits (m + 1)
    obtain ⟨htake,hdrop⟩ := takeWhile_digits hd hrest
    rw [ascii_negSucc]
    simp only [readNumber, List.cons_append, htake, hdrop, hv, hne, ↓reduceIte, false_or]
    rw [if_neg (by omega)]
    rfl

theorem skipSpace_cons {b : UInt8} {rest : Bytes} (hb : isSpace b = false) : skipSpace (b :: rest) = b :: rest := by
  simp [skipSpace, hb]

theorem render_integer_head (n : ℤ) : ∃ b bs, ascii (toString n) = b :: bs ∧ isSpace b = false ∧
    b ≠ 0x22 ∧ b ≠ 0x5B ∧ b ≠ 0x7B ∧ b ≠ 0x6E ∧ b ≠ 0x74 ∧ b ≠ 0x66 ∧ b ≠ 0x5D := by
  cases n with
  | ofNat m =>
    obtain ⟨hd,_,hne⟩ := decimal_digits m
    obtain ⟨b,bs,hb⟩ := List.exists_cons_of_ne_nil hne
    have hdigit : ∀ b : UInt8, isDigit b = true → isSpace b = false ∧
        b ≠ 0x22 ∧ b ≠ 0x5B ∧ b ≠ 0x7B ∧ b ≠ 0x6E ∧ b ≠ 0x74 ∧ b ≠ 0x66 ∧ b ≠ 0x5D := by
      intro b h
      simp only [isDigit, Bool.and_eq_true, decide_eq_true_eq] at h
      simp only [isSpace, Bool.or_eq_false_iff, decide_eq_false_iff_not]
      refine ⟨⟨⟨⟨?_,?_⟩,?_⟩,?_⟩,?_,?_,?_,?_,?_,?_,?_⟩ <;> rintro rfl <;> revert h <;> decide
    exact ⟨b,bs,hb,hdigit b (hd b (hb ▸ List.mem_cons_self))⟩
  | negSucc m =>
    exact ⟨_,_,ascii_negSucc m,by decide⟩

theorem render_head (j : Json) : ∃ b bs, render j = b :: bs ∧ isSpace b = false ∧ b ≠ 0x5D := by
  cases j with
  | null => exact ⟨_,_,rfl,by decide⟩
  | boolean b => cases b <;> exact ⟨_,_,rfl,by decide⟩
  | integer n =>
    obtain ⟨b,bs,hb,hs,_,_,_,_,_,_,hne⟩ := render_integer_head n
    exact ⟨b,bs,hb,hs,hne⟩
  | float d =>
    obtain ⟨b,bs,hb,hs,_,_,_,_,_,_,hne⟩ := render_integer_head d.trunc
    exact ⟨b,bs ++ ascii ".0",by rw [render, hb]; rfl,hs,hne⟩
  | string s => exact ⟨_,_,rfl,by decide⟩
  | array xs =>
    cases xs with
    | nil => exact ⟨_,_,rfl,by decide⟩
    | cons x xs => exact ⟨_,_,rfl,by decide⟩
  | object ms =>
    cases ms with
    | nil => exact ⟨_,_,rfl,by decide⟩
    | cons m ms =>
      rcases m with ⟨k,v⟩
      exact ⟨_,_,rfl,by decide⟩

theorem render_length_pos (j : Json) : 0 < (render j).length := by
  obtain ⟨b,bs,hb,_⟩ := render_head j
  simp [hb]

theorem endsNumber_cons {b : UInt8} {rest : Bytes} (hb : isDigit b = false) : EndsNumber (b :: rest) := by
  intro x hx
  obtain rfl := Option.some.inj hx
  exact hb

theorem endsNumber_renderElements (xs : List Json) (rest : Bytes) : EndsNumber (renderElements xs ++ rest) := by
  cases xs <;> exact endsNumber_cons (by decide)

theorem endsNumber_renderMembers (ms : List (Bytes × Json)) (rest : Bytes) : EndsNumber (renderMembers ms ++ rest) := by
  rcases ms with _ | ⟨⟨k,v⟩,ms⟩ <;> exact endsNumber_cons (by decide)

theorem insertMember_last {key : Bytes} {value : Json} {acc : List (Bytes × Json)} (h : ∀ p ∈ acc, p.1 < key) :
    Json.insertMember key value acc = acc ++ [(key,value)] := by
  induction acc with
  | nil => rfl
  | cons q qs ih =>
    rcases q with ⟨k,v⟩
    have hk : k < key := h (k,v) List.mem_cons_self
    have hne : key ≠ k := fun he => List.lt_irrefl k (he ▸ hk)
    have hlt : ¬key < k := fun hlt => List.lt_irrefl k (List.lt_trans hk hlt)
    rw [Json.insertMember, if_neg hne, if_neg hlt, ih fun p hp => h p (List.mem_cons_of_mem _ hp)]
    rfl

theorem ofMembers_of_sorted {ms : List (Bytes × Json)} (h : Json.sortedKeys ms = true) :
    Json.ofMembers ms = .object ms := by
  have hfold : ∀ ms acc : List (Bytes × Json), Json.sortedKeys ms = true →
      (∀ p ∈ acc, ∀ q ∈ ms, p.1 < q.1) →
      ms.foldl (fun ms p => Json.insertMember p.1 p.2 ms) acc = acc ++ ms := by
    intro ms
    induction ms with
    | nil => simp
    | cons q qs ih =>
      intro acc hsorted hacc
      rcases q with ⟨k,v⟩
      simp only [Json.sortedKeys, Bool.and_eq_true, List.all_eq_true, decide_eq_true_eq] at hsorted
      rw [List.foldl_cons, insertMember_last fun p hp => hacc p hp (k,v) List.mem_cons_self, ih _ hsorted.2]
      · simp
      · intro p hp r hr
        rcases List.mem_append.mp hp with hp | hp
        · exact hacc p hp r (List.mem_cons_of_mem _ hr)
        · rw [List.mem_singleton] at hp
          subst hp
          exact hsorted.1 r hr
  rw [Json.ofMembers, hfold ms [] h (by simp)]
  rfl

mutual

theorem readValue_render : ∀ (j : Json) (fuel : ℕ) (rest : Bytes), j.exact = true → (render j).length ≤ fuel →
    EndsNumber rest → readValue fuel (render j ++ rest) = some (j,rest)
  | j, 0, rest, _, hf, _ => absurd (render_length_pos j) (by omega)
  | .null, fuel + 1, rest, _, _, _ => by simp [render, ascii, readValue, skipSpace, isSpace, readKeyword]
  | .boolean true, fuel + 1, rest, _, _, _ => by simp [render, ascii, readValue, skipSpace, isSpace, readKeyword]
  | .boolean false, fuel + 1, rest, _, _, _ => by simp [render, ascii, readValue, skipSpace, isSpace, readKeyword]
  | .integer n, fuel + 1, rest, hj, _, hrest => by
    simp only [Json.exact, Bool.and_eq_true, decide_eq_true_eq] at hj
    obtain ⟨b,bs,hb,hs,h₁,h₂,h₃,h₄,h₅,h₆,_⟩ := render_integer_head n
    have hread := readNumber_render hj hrest
    rw [hb] at hread
    rw [render, hb, readValue, List.cons_append, skipSpace_cons hs]
    simp only [h₁, h₂, h₃, h₄, h₅, h₆, ↓reduceIte]
    exact hread
  | .float d, fuel + 1, rest, hj, _, _ => by simp [Json.exact] at hj
  | .string s, fuel + 1, rest, _, _, _ => by
    rw [render, readValue, List.cons_append, skipSpace_cons (by decide)]
    simp [readString_writeString]
  | .array [], fuel + 1, rest, _, _, _ => by simp [render, ascii, readValue, skipSpace, isSpace]
  | .array (x :: xs), fuel + 1, rest, hj, hf, _ => by
    obtain ⟨b,bs,hb,hs,hne⟩ := render_head x
    have hread := readElements_render x xs fuel rest hj (by
      simp only [render, List.length_cons] at hf
      omega)
    rw [List.append_assoc, hb, List.cons_append] at hread
    rw [render, readValue, List.cons_append, skipSpace_cons (by decide), List.append_assoc, hb, List.cons_append]
    dsimp only
    rw [skipSpace_cons hs, hread]
    simp [hne]
  | .object [], fuel + 1, rest, _, _, _ => by simp [render, ascii, readValue, skipSpace, isSpace]
  | .object ((k,v) :: ms), fuel + 1, rest, hj, hf, _ => by
    simp only [Json.exact, Bool.and_eq_true] at hj
    have hread := readMembers_render k v ms fuel rest hj.2 (by
      simp only [render, List.length_cons] at hf ⊢
      omega)
    rw [render, readValue, List.cons_append, skipSpace_cons (by decide), List.cons_append]
    simp only [List.cons_append, List.append_assoc] at hread
    simp [skipSpace_cons (by decide : isSpace 0x22 = false), hread, ofMembers_of_sorted hj.1]

theorem readElements_render : ∀ (x : Json) (xs : List Json) (fuel : ℕ) (rest : Bytes),
    Json.exactElements (x :: xs) = true → (render x ++ renderElements xs).length ≤ fuel →
    readElements fuel ((render x ++ renderElements xs) ++ rest) = some (x :: xs,rest)
  | x, xs, 0, rest, _, hf => by
    have := render_length_pos x
    simp only [List.length_append] at hf
    omega
  | x, xs, fuel + 1, rest, hj, hf => by
    simp only [Json.exactElements, Bool.and_eq_true] at hj
    rw [List.length_append] at hf
    have hpos : 0 < (renderElements xs).length := by cases xs <;> simp [renderElements]
    have hx := readValue_render x fuel (renderElements xs ++ rest) hj.1 (by omega) (endsNumber_renderElements xs rest)
    rw [readElements, List.append_assoc, hx]
    dsimp only
    cases xs with
    | nil =>
      rw [renderElements, List.cons_append, skipSpace_cons (by decide)]
      rfl
    | cons y ys =>
      have hread := readElements_render y ys fuel rest hj.2 (by
        simp only [renderElements, List.length_cons] at hf
        omega)
      rw [renderElements, List.cons_append, skipSpace_cons (by decide)]
      simp only [hread]
      rfl

theorem readMembers_render : ∀ (k : Bytes) (v : Json) (ms : List (Bytes × Json)) (fuel : ℕ) (rest : Bytes),
    Json.exactMembers ((k,v) :: ms) = true →
    (0x22 :: (writeString k ++ 0x3A :: (render v ++ renderMembers ms))).length ≤ fuel →
    readMembers fuel ((0x22 :: (writeString k ++ 0x3A :: (render v ++ renderMembers ms))) ++ rest) =
      some ((k,v) :: ms,rest)
  | k, v, ms, 0, rest, _, hf => by simp at hf
  | k, v, ms, fuel + 1, rest, hj, hf => by
    simp only [Json.exactMembers, Bool.and_eq_true] at hj
    simp only [List.length_cons, List.length_append] at hf
    have hpos : 0 < (renderMembers ms).length := by
      rcases ms with _ | ⟨⟨k,v⟩,ms⟩ <;> simp [renderMembers]
    have hv := readValue_render v fuel (renderMembers ms ++ rest) hj.1 (by omega) (endsNumber_renderMembers ms rest)
    rw [readMembers, List.cons_append, skipSpace_cons (by decide)]
    simp only [List.append_assoc, List.cons_append, readString_writeString,
      skipSpace_cons (by decide : isSpace 0x3A = false), hv]
    rcases ms with _ | ⟨⟨k',v'⟩,ms⟩
    · rw [renderMembers, List.cons_append, skipSpace_cons (by decide)]
      rfl
    · have hread := readMembers_render k' v' ms fuel rest hj.2 (by
        simp only [renderMembers, List.length_cons, List.length_append] at hf ⊢
        omega)
      rw [renderMembers, List.cons_append, skipSpace_cons (by decide)]
      simp only [hread]
      rfl

end

theorem read_render {j : Json} (hj : j.exact = true) (hv : j.validStrings = true) : read (render j) = some j := by
  have h := readValue_render j ((render j).length + 1) [] hj (by omega) (by simp [EndsNumber])
  rw [List.append_nil] at h
  rw [read, h]
  simp [skipSpace, hv]

theorem validStrings_of_read {text : Bytes} {j : Json} (h : read text = some j) : j.validStrings = true := by
  unfold read at h
  split at h
  · split_ifs at h with hj
    exact Option.some.inj h ▸ hj.2
  · cases h

set_option maxRecDepth 2000 in
theorem hexDigit_printable : ∀ b : UInt8, b < 16 → 0x20 ≤ hexDigit b := by
  apply forall_byte
  decide

theorem escape_printable (b : UInt8) : ∀ x ∈ escape b, 0x20 ≤ x := by
  intro x hx
  unfold escape at hx
  cases hl : escapeLetter b with
  | some letter =>
    simp only [hl, List.mem_cons, List.not_mem_nil, or_false] at hx
    rcases hx with rfl | rfl
    · decide
    · exact (escapeLetter_spec hl).2
  | none =>
    simp only [hl] at hx
    split_ifs at hx with hc
    · obtain ⟨hhigh,hlow,_⟩ := control_hex b hc
      simp only [List.mem_cons, List.not_mem_nil, or_false] at hx
      rcases hx with rfl | rfl | rfl | rfl | rfl | rfl
      any_goals decide
      · exact hexDigit_printable _ (UInt8.lt_trans hhigh (by decide))
      · exact hexDigit_printable _ hlow
    · rw [List.mem_singleton] at hx
      subst hx
      exact UInt8.not_lt.mp hc

theorem writeString_printable (s : Bytes) : ∀ x ∈ writeString s, 0x20 ≤ x := by
  intro x hx
  rw [writeString, List.mem_append, List.mem_flatMap, List.mem_singleton] at hx
  rcases hx with ⟨b,_,hb⟩ | rfl
  · exact escape_printable b x hb
  · decide

theorem digit_range {b : UInt8} (h : isDigit b = true) : 0x20 ≤ b ∧ b < 0x80 := by
  simp only [isDigit, Bool.and_eq_true, decide_eq_true_eq] at h
  exact ⟨UInt8.le_trans (by decide) h.1,UInt8.lt_of_le_of_lt h.2 (by decide)⟩

theorem nat_ascii (n : ℕ) : ∀ x ∈ ascii (toString n), 0x20 ≤ x ∧ x < 0x80 :=
  fun x hx => digit_range ((decimal_digits n).1 x hx)

theorem int_ascii (n : ℤ) : ∀ x ∈ ascii (toString n), 0x20 ≤ x ∧ x < 0x80 := by
  cases n with
  | ofNat m => exact nat_ascii m
  | negSucc m =>
    intro x hx
    rw [ascii_negSucc] at hx
    rcases List.mem_cons.mp hx with rfl | hx
    · decide
    · exact nat_ascii (m + 1) x hx

mutual

theorem render_printable : ∀ (j : Json), ∀ x ∈ render j, 0x20 ≤ x
  | .null => by decide
  | .boolean true => by decide
  | .boolean false => by decide
  | .integer n => fun x hx => (int_ascii n x hx).1
  | .float d => by
    intro x hx
    rw [render, List.mem_append] at hx
    rcases hx with hx | hx
    · exact (int_ascii _ x hx).1
    · revert x
      decide
  | .string s => by
    intro x hx
    rw [render, List.mem_cons] at hx
    rcases hx with rfl | hx
    · decide
    · exact writeString_printable s x hx
  | .array [] => by decide
  | .array (y :: ys) => by
    intro x hx
    rw [render, List.mem_cons, List.mem_append] at hx
    rcases hx with rfl | hx | hx
    · decide
    · exact render_printable y x hx
    · exact renderElements_printable ys x hx
  | .object [] => by decide
  | .object ((k,v) :: ms) => by
    intro x hx
    rw [render, List.mem_cons, List.mem_cons, List.mem_append, List.mem_cons, List.mem_append] at hx
    rcases hx with rfl | rfl | hx | rfl | hx | hx
    · decide
    · decide
    · exact writeString_printable k x hx
    · decide
    · exact render_printable v x hx
    · exact renderMembers_printable ms x hx

theorem renderElements_printable : ∀ (ys : List Json), ∀ x ∈ renderElements ys, 0x20 ≤ x
  | [] => by decide
  | y :: ys => by
    intro x hx
    rw [renderElements, List.mem_cons, List.mem_append] at hx
    rcases hx with rfl | hx | hx
    · decide
    · exact render_printable y x hx
    · exact renderElements_printable ys x hx

theorem renderMembers_printable : ∀ (ms : List (Bytes × Json)), ∀ x ∈ renderMembers ms, 0x20 ≤ x
  | [] => by decide
  | (k,v) :: ms => by
    intro x hx
    rw [renderMembers, List.mem_cons, List.mem_cons, List.mem_append, List.mem_cons, List.mem_append] at hx
    rcases hx with rfl | rfl | hx | rfl | hx | hx
    · decide
    · decide
    · exact writeString_printable k x hx
    · decide
    · exact render_printable v x hx
    · exact renderMembers_printable ms x hx

end

end MiniHil.JsonText
