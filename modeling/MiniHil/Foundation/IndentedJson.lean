import MiniHil.Foundation.JsonText

/-! # Indented JSON text

A writer that puts every element and member on a line of its own, and the round trip through the
reader of compact text.
-/
namespace MiniHil.JsonText

def newLine (depth : ℕ) : Bytes := 0x0A :: List.replicate depth 0x20

variable {indent : ℕ}

mutual

def renderIndented (indent : ℕ) : ℕ → Json → Bytes
  | _, .null => ascii "null"
  | _, .boolean true => ascii "true"
  | _, .boolean false => ascii "false"
  | _, .integer n => ascii (toString n)
  | _, .float d => ascii (toString d.trunc) ++ ascii ".0"
  | _, .string s => 0x22 :: writeString s
  | _, .array [] => ascii "[]"
  | depth, .array (x :: xs) =>
    0x5B :: (newLine (depth + indent) ++ (renderIndented indent (depth + indent) x ++ indentedElements indent depth xs))
  | _, .object [] => ascii "\x7b\x7d"
  | depth, .object ((k,v) :: members) =>
    0x7B :: (newLine (depth + indent) ++ 0x22 :: (writeString k ++ 0x3A :: 0x20 ::
      (renderIndented indent (depth + indent) v ++ indentedMembers indent depth members)))

def indentedElements (indent : ℕ) : ℕ → List Json → Bytes
  | depth, [] => newLine depth ++ [0x5D]
  | depth, x :: xs =>
    0x2C :: (newLine (depth + indent) ++ (renderIndented indent (depth + indent) x ++ indentedElements indent depth xs))

def indentedMembers (indent : ℕ) : ℕ → List (Bytes × Json) → Bytes
  | depth, [] => newLine depth ++ [0x7D]
  | depth, (k,v) :: members =>
    0x2C :: (newLine (depth + indent) ++ 0x22 :: (writeString k ++ 0x3A :: 0x20 ::
      (renderIndented indent (depth + indent) v ++ indentedMembers indent depth members)))

end

theorem skipSpace_space {b : UInt8} {rest : Bytes} (hb : isSpace b = true) : skipSpace (b :: rest) = skipSpace rest :=
  List.dropWhile_cons_of_pos hb

theorem skipSpace_newLine (depth : ℕ) (rest : Bytes) : skipSpace (newLine depth ++ rest) = skipSpace rest := by
  rw [newLine, List.cons_append, skipSpace_space (by decide)]
  induction depth with
  | zero => rfl
  | succ depth ih => rw [List.replicate_succ, List.cons_append, skipSpace_space (by decide), ih]

theorem readValue_skipSpace {fuel : ℕ} {input input' : Bytes} (h : skipSpace input = skipSpace input') :
    readValue fuel input = readValue fuel input' := by
  cases fuel with
  | zero => rfl
  | succ fuel => rw [readValue, readValue, h]

theorem readElements_skipSpace {fuel : ℕ} {input input' : Bytes} (h : skipSpace input = skipSpace input') :
    readElements fuel input = readElements fuel input' := by
  cases fuel with
  | zero => rfl
  | succ fuel => rw [readElements, readElements, readValue_skipSpace h]

theorem readMembers_skipSpace {fuel : ℕ} {input input' : Bytes} (h : skipSpace input = skipSpace input') :
    readMembers fuel input = readMembers fuel input' := by
  cases fuel with
  | zero => rfl
  | succ fuel => rw [readMembers, readMembers, h]

theorem endsNumber_newLine (depth : ℕ) (rest : Bytes) : EndsNumber (newLine depth ++ rest) := endsNumber_cons (by decide)

theorem endsNumber_indentedElements (depth : ℕ) (xs : List Json) (rest : Bytes) :
    EndsNumber (indentedElements indent depth xs ++ rest) := by
  cases xs with
  | nil =>
    rw [indentedElements, List.append_assoc]
    exact endsNumber_newLine _ _
  | cons => exact endsNumber_cons (by decide)

theorem endsNumber_indentedMembers (depth : ℕ) (ms : List (Bytes × Json)) (rest : Bytes) :
    EndsNumber (indentedMembers indent depth ms ++ rest) := by
  rcases ms with _ | ⟨⟨k,v⟩,ms⟩
  · rw [indentedMembers, List.append_assoc]
    exact endsNumber_newLine _ _
  · exact endsNumber_cons (by decide)

theorem renderIndented_head (indent depth : ℕ) (j : Json) :
    ∃ b bs, renderIndented indent depth j = b :: bs ∧ isSpace b = false ∧ b ≠ 0x5D := by
  match j with
  | .null | .boolean true | .boolean false | .array [] | .object [] => exact ⟨_,_,rfl,by decide,by decide⟩
  | .integer n =>
    obtain ⟨b,bs,hb,hs,_⟩ := render_head (.integer n)
    rw [render] at hb
    rw [renderIndented]
    exact ⟨b,bs,hb,hs,‹_›⟩
  | .float d =>
    obtain ⟨b,bs,hb,hs,_⟩ := render_head (.float d)
    rw [render] at hb
    rw [renderIndented]
    exact ⟨b,bs,hb,hs,‹_›⟩
  | .string s =>
    rw [renderIndented]
    exact ⟨_,_,rfl,by decide,by decide⟩
  | .array (x :: xs) =>
    rw [renderIndented]
    exact ⟨_,_,rfl,by decide,by decide⟩
  | .object ((k,v) :: members) =>
    rw [renderIndented]
    exact ⟨_,_,rfl,by decide,by decide⟩

theorem renderIndented_length_pos (indent depth : ℕ) (j : Json) : 0 < (renderIndented indent depth j).length := by
  obtain ⟨b,bs,hb,_⟩ := renderIndented_head indent depth j
  rw [hb]
  exact Nat.succ_pos _

mutual

theorem readValue_renderIndented : ∀ (j : Json) (depth fuel : ℕ) (rest : Bytes), j.exact = true →
    (renderIndented indent depth j).length ≤ fuel → EndsNumber rest →
    readValue fuel (renderIndented indent depth j ++ rest) = some (j,rest)
  | j, depth, 0, rest, _, hf, _ => absurd (renderIndented_length_pos indent depth j) (by omega)
  | .null, depth, fuel + 1, rest, _, _, _ => by simp [renderIndented, ascii, readValue, skipSpace, isSpace, readKeyword]
  | .boolean true, depth, fuel + 1, rest, _, _, _ => by
    simp [renderIndented, ascii, readValue, skipSpace, isSpace, readKeyword]
  | .boolean false, depth, fuel + 1, rest, _, _, _ => by
    simp [renderIndented, ascii, readValue, skipSpace, isSpace, readKeyword]
  | .integer n, depth, fuel + 1, rest, hj, hf, hrest => by
    have hread := readValue_render (.integer n) (fuel + 1) rest hj (by
      rw [renderIndented] at hf
      rwa [render]) hrest
    rw [render] at hread
    rw [renderIndented]
    exact hread
  | .float d, depth, fuel + 1, rest, hj, _, _ => by simp [Json.exact] at hj
  | .string s, depth, fuel + 1, rest, _, _, _ => by
    rw [renderIndented, readValue, List.cons_append, skipSpace_cons (by decide)]
    simp [readString_writeString]
  | .array [], depth, fuel + 1, rest, _, _, _ => by simp [renderIndented, ascii, readValue, skipSpace, isSpace]
  | .array (x :: xs), depth, fuel + 1, rest, hj, hf, _ => by
    obtain ⟨b,bs,hb,hs,hne⟩ := renderIndented_head indent (depth + indent) x
    have hread := readElements_renderIndented x xs depth fuel rest hj (by
      simp only [renderIndented, List.length_cons, List.length_append] at hf ⊢
      omega)
    have hskip : skipSpace (newLine (depth + indent) ++ (renderIndented indent (depth + indent) x ++
        indentedElements indent depth xs ++ rest)) = b :: (bs ++ indentedElements indent depth xs ++ rest) := by
      rw [skipSpace_newLine, hb, List.cons_append, List.cons_append, skipSpace_cons hs]
    rw [renderIndented, readValue, List.cons_append, skipSpace_cons (by decide), List.append_assoc]
    dsimp only
    rw [hskip, readElements_skipSpace (skipSpace_newLine _ _), hread]
    simp [hne]
  | .object [], depth, fuel + 1, rest, _, _, _ => by simp [renderIndented, ascii, readValue, skipSpace, isSpace]
  | .object ((k,v) :: ms), depth, fuel + 1, rest, hj, hf, _ => by
    simp only [Json.exact, Bool.and_eq_true] at hj
    have hread := readMembers_renderIndented k v ms depth fuel rest hj.2 (by
      simp only [renderIndented, List.length_cons, List.length_append] at hf ⊢
      omega)
    rw [renderIndented, readValue, List.cons_append, skipSpace_cons (by decide), List.append_assoc]
    dsimp only
    rw [skipSpace_newLine, readMembers_skipSpace (skipSpace_newLine _ _), hread]
    simp [skipSpace_cons (by decide : isSpace 0x22 = false), ofMembers_of_sorted hj.1]

theorem readElements_renderIndented : ∀ (x : Json) (xs : List Json) (depth fuel : ℕ) (rest : Bytes),
    Json.exactElements (x :: xs) = true →
    (renderIndented indent (depth + indent) x ++ indentedElements indent depth xs).length ≤ fuel →
    readElements fuel (renderIndented indent (depth + indent) x ++ indentedElements indent depth xs ++ rest) =
      some (x :: xs,rest)
  | x, xs, depth, 0, rest, _, hf => by
    have := renderIndented_length_pos indent (depth + indent) x
    simp only [List.length_append] at hf
    omega
  | x, xs, depth, fuel + 1, rest, hj, hf => by
    simp only [Json.exactElements, Bool.and_eq_true] at hj
    rw [List.length_append] at hf
    have hpos : 0 < (indentedElements indent depth xs).length := by cases xs <;> simp [indentedElements]
    have hx := readValue_renderIndented x (depth + indent) fuel (indentedElements indent depth xs ++ rest) hj.1 (by omega)
      (endsNumber_indentedElements depth xs rest)
    rw [readElements, List.append_assoc, hx]
    dsimp only
    cases xs with
    | nil =>
      rw [indentedElements, List.append_assoc, skipSpace_newLine, List.cons_append, skipSpace_cons (by decide)]
      rfl
    | cons y ys =>
      have hread := readElements_renderIndented y ys depth fuel rest hj.2 (by
        simp only [indentedElements, List.length_cons, List.length_append] at hf ⊢
        omega)
      rw [indentedElements, List.cons_append, skipSpace_cons (by decide), List.append_assoc]
      simp only [readElements_skipSpace (skipSpace_newLine _ _), hread]
      rfl

theorem readMembers_renderIndented : ∀ (k : Bytes) (v : Json) (ms : List (Bytes × Json)) (depth fuel : ℕ) (rest : Bytes),
    Json.exactMembers ((k,v) :: ms) = true →
    (0x22 :: (writeString k ++ 0x3A :: 0x20 :: (renderIndented indent (depth + indent) v ++
      indentedMembers indent depth ms))).length ≤ fuel →
    readMembers fuel (0x22 :: (writeString k ++ 0x3A :: 0x20 :: (renderIndented indent (depth + indent) v ++
      indentedMembers indent depth ms)) ++ rest) = some ((k,v) :: ms,rest)
  | k, v, ms, depth, 0, rest, _, hf => by simp at hf
  | k, v, ms, depth, fuel + 1, rest, hj, hf => by
    simp only [Json.exactMembers, Bool.and_eq_true] at hj
    simp only [List.length_cons, List.length_append] at hf
    have hpos : 0 < (indentedMembers indent depth ms).length := by
      rcases ms with _ | ⟨⟨k,v⟩,ms⟩ <;> simp [indentedMembers]
    have hv := readValue_renderIndented v (depth + indent) fuel (indentedMembers indent depth ms ++ rest) hj.1 (by omega)
      (endsNumber_indentedMembers depth ms rest)
    have hspace : skipSpace (0x20 :: (renderIndented indent (depth + indent) v ++ (indentedMembers indent depth ms ++ rest))) = _ :=
      skipSpace_space (by decide)
    rw [readMembers, List.cons_append, skipSpace_cons (by decide)]
    simp only [List.append_assoc, List.cons_append, readString_writeString,
      skipSpace_cons (by decide : isSpace 0x3A = false), readValue_skipSpace hspace, hv]
    rcases ms with _ | ⟨⟨k',v'⟩,ms⟩
    · rw [indentedMembers, List.append_assoc, skipSpace_newLine, List.cons_append, skipSpace_cons (by decide)]
      rfl
    · have hread := readMembers_renderIndented k' v' ms depth fuel rest hj.2 (by
        simp only [indentedMembers, List.length_cons, List.length_append] at hf ⊢
        omega)
      rw [indentedMembers, List.cons_append, skipSpace_cons (by decide), List.append_assoc]
      simp only [readMembers_skipSpace (skipSpace_newLine _ _), hread]
      rfl

end

end MiniHil.JsonText
