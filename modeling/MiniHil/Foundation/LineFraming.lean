import Mathlib.Data.List.Basic

/-! # Lines over a byte stream

Texts are written with a terminator behind each, cut anywhere by the transport, collected in a
buffer by the receiver and taken out of it one line at a time. The bytes in the buffer and in
flight together always spell the lines that have not been taken yet.
-/
namespace MiniHil.Framing

variable {α : Type*} {nl : α} {line rest buffer : List α} {lines pending : List (List α)}

def frame (nl : α) (lines : List (List α)) : List α := lines.flatMap (· ++ [nl])

theorem frame_cons : frame nl (line :: lines) = line ++ nl :: frame nl lines := by
  simp [frame]

theorem frame_concat : frame nl (lines ++ [line]) = frame nl lines ++ (line ++ [nl]) := by
  simp [frame]

theorem nl_mem_frame_iff : nl ∈ frame nl lines ↔ lines ≠ [] := by
  cases lines with
  | nil => simp [frame]
  | cons line lines => simp [frame_cons]

def takeLine [DecidableEq α] (nl : α) : List α → Option (List α × List α)
  | [] => none
  | x :: rest => if x = nl then some ([],rest) else (takeLine nl rest).map fun p => (x :: p.1,p.2)

section
variable [DecidableEq α]

theorem takeLine_line (h : nl ∉ line) : takeLine nl (line ++ nl :: rest) = some (line,rest) := by
  induction line with
  | nil => simp [takeLine]
  | cons x line ih =>
    rw [List.mem_cons, not_or] at h
    rw [List.cons_append, takeLine, if_neg (Ne.symm h.1), ih h.2]
    rfl

theorem takeLine_eq_none_iff : takeLine nl buffer = none ↔ nl ∉ buffer := by
  constructor
  · intro h hmem
    obtain ⟨line,rest,rfl,hline⟩ := List.eq_append_cons_of_mem hmem
    rw [takeLine_line hline] at h
    cases h
  · intro h
    induction buffer with
    | nil => rfl
    | cons x buffer ih =>
      rw [List.mem_cons, not_or] at h
      rw [takeLine, if_neg (Ne.symm h.1), ih h.2]
      rfl

theorem takeLine_split (h : takeLine nl buffer = some (line,rest)) : buffer = line ++ nl :: rest ∧ nl ∉ line := by
  have hmem : nl ∈ buffer := by
    by_contra hno
    rw [takeLine_eq_none_iff.mpr hno] at h
    cases h
  obtain ⟨first,after,rfl,hfirst⟩ := List.eq_append_cons_of_mem hmem
  rw [takeLine_line hfirst] at h
  obtain ⟨rfl,rfl⟩ := Prod.mk.inj (Option.some.inj h)
  exact ⟨rfl,hfirst⟩

/-- In a stream of whole lines the first line of the buffer is the oldest one, however the stream
was cut. -/
theorem takeLine_of_stream {inFlight : List α} (hstream : buffer ++ inFlight = frame nl pending)
    (hwhole : ∀ l ∈ pending, nl ∉ l) (ht : takeLine nl buffer = some (line,rest)) :
    ∃ pending', pending = line :: pending' ∧ rest ++ inFlight = frame nl pending' := by
  have hmem : nl ∈ buffer := by
    by_contra hno
    rw [takeLine_eq_none_iff.mpr hno] at ht
    cases ht
  obtain ⟨first,after,rfl,hfirst⟩ := List.eq_append_cons_of_mem hmem
  rw [takeLine_line hfirst] at ht
  obtain ⟨rfl,rfl⟩ := Prod.mk.inj (Option.some.inj ht)
  cases pending with
  | nil => simp [frame] at hstream
  | cons l pending =>
    have hl : nl ∉ l := hwhole l List.mem_cons_self
    have htake : takeLine nl (first ++ nl :: (after ++ inFlight)) = takeLine nl (l ++ nl :: frame nl pending) := by
      rw [← frame_cons, ← hstream, List.append_assoc]
      rfl
    rw [takeLine_line hfirst, takeLine_line hl] at htake
    obtain ⟨rfl,hrest⟩ := Prod.mk.inj (Option.some.inj htake)
    exact ⟨pending,rfl,hrest⟩

end

/-- A stream spells these whole lines and then something that is not a whole line yet. -/
structure Spells (nl : α) (stream : List α) (lines : List (List α)) (rest : List α) : Prop where
  stream_eq : stream = frame nl lines ++ rest
  whole : ∀ line ∈ lines, nl ∉ line
  unfinished : nl ∉ rest

section
variable {stream more rest' : List α} {lines' : List (List α)}

theorem frame_append (lines lines' : List (List α)) : frame nl (lines ++ lines') = frame nl lines ++ frame nl lines' := by
  simp [frame]

theorem spells_of_notMem (h : nl ∉ stream) : Spells nl stream [] stream := ⟨rfl,by simp,h⟩

theorem Spells.cons (h : Spells nl stream lines rest) (hline : nl ∉ line) :
    Spells nl (line ++ nl :: stream) (line :: lines) rest := by
  refine ⟨?_,?_,h.unfinished⟩
  · rw [frame_cons, h.stream_eq]
    simp
  · intro l hl
    rcases List.mem_cons.mp hl with rfl | hl
    · exact hline
    · exact h.whole l hl

theorem exists_spells (nl : α) (stream : List α) : ∃ lines rest, Spells nl stream lines rest := by
  by_cases h : nl ∈ stream
  · obtain ⟨line,after,heq,hline⟩ := List.eq_append_cons_of_mem h
    have hlt : after.length < stream.length := by
      rw [heq, List.length_append, List.length_cons]
      omega
    obtain ⟨lines,rest,hafter⟩ := exists_spells nl after
    exact ⟨line :: lines,rest,heq ▸ hafter.cons hline⟩
  · exact ⟨[],stream,spells_of_notMem h⟩
termination_by stream.length

theorem Spells.append (h : Spells nl stream lines rest) (hmore : Spells nl (rest ++ more) lines' rest') :
    Spells nl (stream ++ more) (lines ++ lines') rest' := by
  refine ⟨?_,?_,hmore.unfinished⟩
  · rw [h.stream_eq, List.append_assoc, hmore.stream_eq, frame_append, List.append_assoc]
  · intro line hl
    rcases List.mem_append.mp hl with hl | hl
    · exact h.whole line hl
    · exact hmore.whole line hl

variable [DecidableEq α]

theorem Spells.takeLine_nil (h : Spells nl stream [] rest) : takeLine nl stream = none ∧ stream = rest := by
  have heq : stream = rest := h.stream_eq
  exact ⟨takeLine_eq_none_iff.mpr (heq ▸ h.unfinished),heq⟩

theorem Spells.takeLine_cons (h : Spells nl stream (line :: lines) rest) :
    ∃ after, takeLine nl stream = some (line,after) ∧ Spells nl after lines rest := by
  refine ⟨frame nl lines ++ rest,?_,rfl,fun l hl => h.whole l (List.mem_cons_of_mem _ hl),h.unfinished⟩
  rw [h.stream_eq, frame_cons, List.append_assoc]
  exact takeLine_line (h.whole line List.mem_cons_self)

theorem Spells.unique (h : Spells nl stream lines rest) (h' : Spells nl stream lines' rest') :
    lines = lines' ∧ rest = rest' := by
  induction lines generalizing stream lines' with
  | nil =>
    obtain ⟨hnone,rfl⟩ := h.takeLine_nil
    cases lines' with
    | nil => exact ⟨rfl,h'.takeLine_nil.2⟩
    | cons line' lines' =>
      obtain ⟨_,hsome,_⟩ := h'.takeLine_cons
      rw [hnone] at hsome
      cases hsome
  | cons line lines ih =>
    obtain ⟨after,hsome,hafter⟩ := h.takeLine_cons
    cases lines' with
    | nil =>
      rw [h'.takeLine_nil.1] at hsome
      cases hsome
    | cons line' lines' =>
      obtain ⟨after',hsome',hafter'⟩ := h'.takeLine_cons
      rw [hsome] at hsome'
      obtain ⟨rfl,rfl⟩ := Prod.mk.inj (Option.some.inj hsome')
      obtain ⟨rfl,hrest⟩ := ih hafter hafter'
      exact ⟨rfl,hrest⟩

/-- The lines of a stream that was cut in two: those of the first part, and those that its remainder
spells with the second. -/
theorem Spells.cut (h : Spells nl (stream ++ more) lines rest) : ∃ lines₁ rest₁ lines₂,
    Spells nl stream lines₁ rest₁ ∧ Spells nl (rest₁ ++ more) lines₂ rest ∧ lines = lines₁ ++ lines₂ := by
  obtain ⟨lines₁,rest₁,h₁⟩ := exists_spells nl stream
  obtain ⟨lines₂,rest₂,h₂⟩ := exists_spells nl (rest₁ ++ more)
  obtain ⟨heq,hrest⟩ := h.unique (h₁.append h₂)
  exact ⟨lines₁,rest₁,lines₂,h₁,hrest ▸ h₂,heq⟩

end

/-- What one call of a receiving function puts into a buffer: at least one element, at most `limit`. -/
structure Chunk (α : Type*) (limit : ℕ) where
  bytes : List α
  ne_nil : bytes ≠ []
  length_le : bytes.length ≤ limit

/-- The stream that was cut into these chunks. -/
def Chunk.stream {limit : ℕ} (chunks : List (Chunk α limit)) : List α := chunks.flatMap Chunk.bytes

theorem Chunk.stream_cons {limit : ℕ} (chunk : Chunk α limit) (chunks : List (Chunk α limit)) :
    Chunk.stream (chunk :: chunks) = chunk.bytes ++ Chunk.stream chunks := rfl

structure Pipe (α : Type*) where
  buffer : List α := []
  inFlight : List α := []

namespace Pipe
variable {pipe : Pipe α}

def write (bytes : List α) (pipe : Pipe α) : Pipe α := { pipe with inFlight := pipe.inFlight ++ bytes }

/-- The receiver is handed a non-empty piece of the stream, not longer than its buffer. -/
def Receives (limit : ℕ) (pipe next : Pipe α) : Prop :=
  ∃ chunk rest, pipe.inFlight = chunk ++ rest ∧ chunk ≠ [] ∧ chunk.length ≤ limit ∧
    next = { buffer := pipe.buffer ++ chunk, inFlight := rest }

def takeLine [DecidableEq α] (nl : α) (pipe : Pipe α) : Option (List α × Pipe α) :=
  (Framing.takeLine nl pipe.buffer).map fun p => (p.1,{ pipe with buffer := p.2 })

/-- What is left to do for the receiver: an element in flight is received and then taken. -/
def work (pipe : Pipe α) : ℕ := 2 * pipe.inFlight.length + pipe.buffer.length

theorem Receives.work_lt {limit : ℕ} {next : Pipe α} (hr : Receives limit pipe next) : next.work < pipe.work := by
  obtain ⟨chunk,rest,hin,hne,_,rfl⟩ := hr
  have hpos : 0 < chunk.length := List.length_pos_iff.mpr hne
  simp only [work, hin, List.length_append]
  omega

theorem takeLine_work_lt [DecidableEq α] {next : Pipe α} (ht : pipe.takeLine nl = some (line,next)) : next.work < pipe.work := by
  obtain ⟨⟨l,buffer⟩,hbuffer,heq⟩ := Option.map_eq_some_iff.mp ht
  obtain ⟨rfl,rfl⟩ := Prod.mk.inj heq
  simp only [work, (takeLine_split hbuffer).1, List.length_append, List.length_cons]
  omega

theorem exists_receives {limit : ℕ} (hlimit : 0 < limit) (h : pipe.inFlight ≠ []) : ∃ next, Receives limit pipe next := by
  obtain ⟨x,rest,hin⟩ := List.exists_cons_of_ne_nil h
  exact ⟨_,[x],rest,hin,List.cons_ne_nil _ _,hlimit,rfl⟩

theorem takeLine_eq_none_iff [DecidableEq α] : pipe.takeLine nl = none ↔ nl ∉ pipe.buffer := by
  rw [takeLine, Option.map_eq_none_iff, Framing.takeLine_eq_none_iff]

/-- The lines written and not yet taken. -/
structure Carries (nl : α) (pipe : Pipe α) (pending : List (List α)) : Prop where
  stream : pipe.buffer ++ pipe.inFlight = frame nl pending
  whole : ∀ line ∈ pending, nl ∉ line

theorem carries_empty : Carries nl ({} : Pipe α) [] := ⟨rfl,by simp⟩

theorem Carries.write (h : Carries nl pipe pending) (hline : nl ∉ line) :
    Carries nl (pipe.write (line ++ [nl])) (pending ++ [line]) := by
  refine ⟨?_,?_⟩
  · rw [frame_concat, ← h.stream, List.append_assoc]
    rfl
  · intro l hl
    rcases List.mem_append.mp hl with hl | hl
    · exact h.whole l hl
    · obtain rfl := List.mem_singleton.mp hl
      exact hline

theorem Carries.receives {limit : ℕ} {next : Pipe α} (h : Carries nl pipe pending) (hr : Receives limit pipe next) :
    Carries nl next pending := by
  obtain ⟨chunk,rest,hin,_,_,rfl⟩ := hr
  refine ⟨?_,h.whole⟩
  rw [← h.stream, hin, List.append_assoc]

theorem Carries.takeLine [DecidableEq α] {next : Pipe α} (h : Carries nl pipe pending)
    (ht : pipe.takeLine nl = some (line,next)) : ∃ pending', pending = line :: pending' ∧ Carries nl next pending' := by
  obtain ⟨⟨l,buffer⟩,hbuffer,heq⟩ := Option.map_eq_some_iff.mp ht
  obtain ⟨rfl,rfl⟩ := Prod.mk.inj heq
  obtain ⟨pending',rfl,hstream⟩ := takeLine_of_stream h.stream h.whole hbuffer
  exact ⟨pending',rfl,hstream,fun l hl => h.whole l (List.mem_cons_of_mem _ hl)⟩

theorem Carries.pending_eq_nil (h : Carries nl pipe pending) (hin : pipe.inFlight = []) (hb : nl ∉ pipe.buffer) :
    pending = [] := by
  by_contra hne
  have hmem : nl ∈ frame nl pending := nl_mem_frame_iff.mpr hne
  rw [← h.stream, hin, List.append_nil] at hmem
  exact hb hmem

end Pipe
end MiniHil.Framing
