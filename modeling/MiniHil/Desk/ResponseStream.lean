import MiniHil.Network.RequestStream

/-! # The responses in a byte stream

`receiveLine` and the loop around it. A blank line and the end of the connection look the same to
`readLoop`, so that what follows a blank line is never read.
-/
namespace MiniHil
open Framing

/-- The receiving side of `TcpClient`: the results of `recv` still to come, after which it returns no
more than zero, and how often the descriptor was looked at. -/
structure LineReader where
  readBuffer : Bytes := []
  incoming : List (Chunk UInt8 1023)
  looks : ℕ := 0
  ended : Bool := false
  closed : Bool := false

namespace LineReader

/-- `receiveLine`; `isOpen` tells at each look whether the descriptor is still set. -/
def receiveLine (isOpen : ℕ → Bool) (s : LineReader) : Bytes × LineReader :=
  match takeLine newline s.readBuffer with
  | some (line,readBuffer) => (line,{ s with readBuffer })
  | none =>
    if isOpen s.looks then
      match h : s.incoming with
      | [] => ([],{ s with looks := s.looks + 1, ended := true })
      | chunk :: incoming =>
        have : incoming.length < s.incoming.length := by simp [h]
        receiveLine isOpen { s with looks := s.looks + 1, readBuffer := s.readBuffer ++ chunk.bytes, incoming }
    else ([],{ s with looks := s.looks + 1, closed := true })
termination_by s.incoming.length

def receiveLines (isOpen : ℕ → Bool) : ℕ → LineReader → List Bytes × LineReader
  | 0, s => ([],s)
  | calls + 1, s =>
    let (line,next) := s.receiveLine isOpen
    let (lines,last) := receiveLines isOpen calls next
    (line :: lines,last)

end LineReader

/-- `readLoop` with the lines it hands to `processResponse`. -/
structure ResponseReader where
  reader : LineReader
  checks : ℕ := 0
  processed : List Bytes := []
  connectionLost : Bool := false
  finished : Bool := false

namespace ResponseReader

/-- At most so many rounds of the loop; `running` gives the values of `m_running`. -/
def readLoop (running isOpen : ℕ → Bool) : ℕ → ResponseReader → ResponseReader
  | 0, s => s
  | rounds + 1, s =>
    if running s.checks then
      if isOpen s.reader.looks then
        let (line,reader) := { s.reader with looks := s.reader.looks + 1 }.receiveLine isOpen
        if line = [] then
          { s with reader, checks := s.checks + 2, connectionLost := running (s.checks + 1), finished := true }
        else readLoop running isOpen rounds { s with reader, checks := s.checks + 1, processed := s.processed ++ [line] }
      else
        -- `sleep_for`
        readLoop running isOpen rounds
          { s with reader := { s.reader with looks := s.reader.looks + 1 }, checks := s.checks + 1 }
    else { s with checks := s.checks + 1, finished := true }

end ResponseReader

namespace LineReader
variable {isOpen : ℕ → Bool} {s : LineReader} {line rest : Bytes} {lines : List Bytes}

def Reads (s : LineReader) (lines : List Bytes) (rest : Bytes) : Prop :=
  Spells newline (s.readBuffer ++ Chunk.stream s.incoming) lines rest

/-- Receiving does not lose anything: a call returns the next line, or it comes to the end of the
stream or of the connection. -/
inductive Received (isOpen : ℕ → Bool) (s : LineReader) : Bytes × LineReader → Prop
  | line {line rest : Bytes} {lines : List Bytes} {t : LineReader} : s.Reads (line :: lines) rest → t.Reads lines rest →
      t.ended = s.ended → Received isOpen s (line,t)
  | ends {rest : Bytes} {t : LineReader} : s.Reads [] rest → t.ended = true → Received isOpen s ([],t)
  | closes {n : ℕ} {t : LineReader} : isOpen n = false → t.closed = true → Received isOpen s ([],t)

theorem reads_append {chunk : Chunk UInt8 1023} {incoming : List (Chunk UInt8 1023)} (h : s.incoming = chunk :: incoming)
    (looks : ℕ) : s.Reads lines rest ↔
      Reads { s with looks, readBuffer := s.readBuffer ++ chunk.bytes, incoming } lines rest := by
  unfold Reads
  rw [h, Chunk.stream_cons, List.append_assoc]

theorem received (isOpen : ℕ → Bool) (s : LineReader) : Received isOpen s (s.receiveLine isOpen) := by
  rw [receiveLine]
  split
  · rename_i line readBuffer htake
    obtain ⟨lines,rest,hspells⟩ := exists_spells newline (readBuffer ++ Chunk.stream s.incoming)
    have hmem : newline ∈ s.readBuffer := by
      by_contra hno
      rw [takeLine_eq_none_iff.mpr hno] at htake
      cases htake
    obtain ⟨first,after,heq,hfirst⟩ := List.eq_append_cons_of_mem hmem
    rw [heq, takeLine_line hfirst] at htake
    obtain ⟨rfl,rfl⟩ := Prod.mk.inj (Option.some.inj htake)
    have hall := hspells.cons hfirst
    refine .line (t := { s with readBuffer := after }) ?_ hspells rfl
    unfold Reads
    rw [heq, List.append_assoc]
    exact hall
  · rename_i hnone
    split_ifs with hopen
    · split
      · rename_i hin
        have hreads : s.Reads [] s.readBuffer := by
          unfold Reads
          rw [hin, Chunk.stream, List.flatMap_nil, List.append_nil]
          exact spells_of_notMem (takeLine_eq_none_iff.mp hnone)
        exact .ends hreads rfl
      · rename_i chunk incoming hin
        have hnext := received isOpen
          { s with looks := s.looks + 1, readBuffer := s.readBuffer ++ chunk.bytes, incoming }
        generalize receiveLine isOpen _ = r at hnext
        cases hnext with
        | line hs ht he => exact .line ((reads_append hin _).mpr hs) ht he
        | ends hs he => exact .ends ((reads_append hin _).mpr hs) he
        | closes hn hc => exact .closes hn hc
    · exact .closes (Bool.eq_false_iff.mpr hopen) rfl
termination_by s.incoming.length
decreasing_by
  rename_i hin
  rw [hin]
  exact Nat.lt_succ_self _

theorem Reads.receiveLine_cons (h : s.Reads (line :: lines) rest) (hopen : ∀ n, isOpen n = true) :
    ∃ t, s.receiveLine isOpen = (line,t) ∧ t.Reads lines rest ∧ t.ended = s.ended := by
  have hr := received isOpen s
  generalize s.receiveLine isOpen = r at hr
  cases hr with
  | line hs ht he =>
    obtain ⟨heq,rfl⟩ := h.unique hs
    obtain ⟨rfl,rfl⟩ := List.cons.inj heq
    exact ⟨_,rfl,ht,he⟩
  | ends hs => exact absurd (h.unique hs).1 (List.cons_ne_nil _ _)
  | closes hn =>
    rw [hopen] at hn
    cases hn

theorem Reads.receiveLine_nil (h : s.Reads [] rest) (hopen : ∀ n, isOpen n = true) :
    ∃ t, s.receiveLine isOpen = ([],t) ∧ t.ended = true := by
  have hr := received isOpen s
  generalize s.receiveLine isOpen = r at hr
  cases hr with
  | line hs => exact absurd (hs.unique h).1 (List.cons_ne_nil _ _)
  | ends _ he => exact ⟨_,rfl,he⟩
  | closes hn =>
    rw [hopen] at hn
    cases hn

theorem Reads.receiveLines (h : s.Reads lines rest) (hopen : ∀ n, isOpen n = true) :
    (receiveLines isOpen lines.length s).1 = lines := by
  induction lines generalizing s with
  | nil => rfl
  | cons line lines ih =>
    obtain ⟨t,hline,ht,_⟩ := h.receiveLine_cons hopen
    rw [List.length_cons, LineReader.receiveLines, hline]
    exact congrArg (line :: ·) (ih ht)

end LineReader

namespace ResponseReader
variable {running isOpen : ℕ → Bool} {s : ResponseReader} {lines post : List Bytes} {rest : Bytes} {rounds : ℕ}

def start (chunks : List (Chunk UInt8 1023)) : ResponseReader := { reader := { incoming := chunks } }

theorem readLoop_succ (hrun : ∀ n, running n = true) (hopen : ∀ n, isOpen n = true) (rounds : ℕ) (s : ResponseReader) :
    readLoop running isOpen (rounds + 1) s =
      let r := { s.reader with looks := s.reader.looks + 1 }.receiveLine isOpen
      if r.1 = [] then
        { s with reader := r.2, checks := s.checks + 2, connectionLost := true, finished := true }
      else readLoop running isOpen rounds
        { s with reader := r.2, checks := s.checks + 1, processed := s.processed ++ [r.1] } := by
  rw [readLoop]
  simp only [hrun, hopen, ↓reduceIte]

theorem readLoop_lines (hrun : ∀ n, running n = true) (hopen : ∀ n, isOpen n = true) (h : s.reader.Reads lines rest)
    (hblank : [] ∉ lines) :
    let t := readLoop running isOpen (lines.length + 1) s
    t.processed = s.processed ++ lines ∧ t.reader.ended = true ∧ t.finished = true := by
  induction lines generalizing s with
  | nil =>
    obtain ⟨t,hline,he⟩ := LineReader.Reads.receiveLine_nil
      (s := { s.reader with looks := s.reader.looks + 1 }) h hopen
    rw [readLoop_succ hrun hopen, hline]
    exact ⟨(List.append_nil _).symm,he,rfl⟩
  | cons line lines ih =>
    rw [List.mem_cons, not_or] at hblank
    obtain ⟨t,hline,ht,_⟩ := LineReader.Reads.receiveLine_cons
      (s := { s.reader with looks := s.reader.looks + 1 }) h hopen
    rw [readLoop_succ hrun hopen, hline]
    dsimp only
    rw [if_neg (Ne.symm hblank.1)]
    have hnext := @ih { s with reader := t, checks := s.checks + 1, processed := s.processed ++ [line] } ht hblank.2
    rw [List.append_assoc] at hnext
    exact hnext

theorem readLoop_blank (hrun : ∀ n, running n = true) (hopen : ∀ n, isOpen n = true)
    (h : s.reader.Reads (lines ++ [] :: post) rest) (hblank : [] ∉ lines) (hrounds : lines.length < rounds) :
    let t := readLoop running isOpen rounds s
    t.processed = s.processed ++ lines ∧ t.connectionLost = true ∧ t.reader.ended = s.reader.ended ∧ t.finished = true := by
  induction lines generalizing s rounds with
  | nil =>
    obtain ⟨rounds,rfl⟩ := Nat.exists_eq_succ_of_ne_zero (Nat.ne_of_gt hrounds)
    obtain ⟨t,hline,_,he⟩ := LineReader.Reads.receiveLine_cons
      (s := { s.reader with looks := s.reader.looks + 1 }) h hopen
    rw [Nat.succ_eq_add_one, readLoop_succ hrun hopen, hline]
    exact ⟨(List.append_nil _).symm,rfl,he,rfl⟩
  | cons line lines ih =>
    obtain ⟨rounds,rfl⟩ := Nat.exists_eq_succ_of_ne_zero (Nat.ne_of_gt (Nat.zero_lt_of_lt hrounds))
    rw [List.mem_cons, not_or] at hblank
    obtain ⟨t,hline,ht,he⟩ := LineReader.Reads.receiveLine_cons
      (s := { s.reader with looks := s.reader.looks + 1 }) h hopen
    rw [Nat.succ_eq_add_one, readLoop_succ hrun hopen, hline]
    dsimp only
    rw [if_neg (Ne.symm hblank.1)]
    have hnext := @ih { s with reader := t, checks := s.checks + 1, processed := s.processed ++ [line] } rounds ht hblank.2
      (Nat.lt_of_succ_lt_succ hrounds)
    rw [List.append_assoc] at hnext
    obtain ⟨hprocessed,hlost,hended,hfinished⟩ := hnext
    exact ⟨hprocessed,hlost,hended.trans he,hfinished⟩

/-- Whatever other threads do to the connection: without a blank line a loss is announced only at the
end of the stream or of the connection, and what was processed is the beginning of the stream. -/
theorem readLoop_safe (running isOpen : ℕ → Bool) (rounds : ℕ) (h : s.reader.Reads lines rest) (hblank : [] ∉ lines)
    (hlost : s.connectionLost = false) :
    let t := readLoop running isOpen rounds s
    (∃ unread, s.processed ++ lines = t.processed ++ unread) ∧
      (t.connectionLost = true → t.reader.ended = true ∨ t.reader.closed = true) := by
  induction rounds generalizing s lines with
  | zero =>
    refine ⟨⟨lines,rfl⟩,?_⟩
    intro hl
    rw [readLoop, hlost] at hl
    cases hl
  | succ rounds ih =>
    rw [readLoop]
    split_ifs with hrun hopen
    · have hr := LineReader.received isOpen { s.reader with looks := s.reader.looks + 1 }
      generalize LineReader.receiveLine isOpen _ = r at hr
      cases hr with
      | @line line rest' lines' t hs ht he =>
        obtain ⟨rfl,rfl⟩ := Spells.unique h hs
        rw [List.mem_cons, not_or] at hblank
        dsimp only
        rw [if_neg (Ne.symm hblank.1)]
        have hnext := @ih { s with reader := t, checks := s.checks + 1, processed := s.processed ++ [line] } lines' ht
          hblank.2 hlost
        rw [List.append_assoc] at hnext
        exact hnext
      | ends hs he =>
        dsimp only
        rw [if_pos rfl]
        exact ⟨⟨lines,rfl⟩,fun _ => .inl he⟩
      | closes hn hc =>
        dsimp only
        rw [if_pos rfl]
        exact ⟨⟨lines,rfl⟩,fun _ => .inr hc⟩
    · exact @ih { s with reader := { s.reader with looks := s.reader.looks + 1 }, checks := s.checks + 1 } lines h hblank
        hlost
    · refine ⟨⟨lines,rfl⟩,?_⟩
      intro hl
      rw [hlost] at hl
      cases hl

/-- For every stream and every way to cut it: on a connection that nobody closes, `receiveLine` returns
the lines in order and `readLoop` comes to an end, having processed all of them and announced the loss
only after the end of the stream, exactly when no line is blank. Without a blank line it announces no
loss before the end of the stream or of the connection even if other threads close it. -/
theorem readLoop_iff (chunks : List (Chunk UInt8 1023)) (segments : List Bytes) (tail : Bytes)
    (hsegments : Spells newline (Chunk.stream chunks) segments tail) :
    (∀ running isOpen : ℕ → Bool, (∀ n, running n = true) → (∀ n, isOpen n = true) →
      let s := readLoop running isOpen (segments.length + 1) (start chunks)
      s.finished = true ∧
      (((LineReader.receiveLines isOpen segments.length (start chunks).reader).1 = segments ∧ s.processed = segments ∧
        (s.connectionLost = true → s.reader.ended = true ∨ s.reader.closed = true)) ↔ [] ∉ segments)) ∧
    ([] ∉ segments → ∀ (running isOpen : ℕ → Bool) (rounds : ℕ),
      let s := readLoop running isOpen rounds (start chunks)
      (∃ unread, segments = s.processed ++ unread) ∧
        (s.connectionLost = true → s.reader.ended = true ∨ s.reader.closed = true)) := by
  have hreads : (start chunks).reader.Reads segments tail := hsegments
  refine ⟨?_,?_⟩
  · intro running isOpen hrun hopen s
    by_cases hblank : [] ∈ segments
    · obtain ⟨pre,post,rfl,hpre⟩ := List.eq_append_cons_of_mem hblank
      have hlt : pre.length < (pre ++ [] :: post).length + 1 := by
        rw [List.length_append]
        omega
      obtain ⟨hprocessed,_,_,hfinished⟩ := readLoop_blank hrun hopen hreads hpre hlt
      refine ⟨hfinished,iff_of_false ?_ (not_not.mpr hblank)⟩
      rintro ⟨_,hall,_⟩
      have hlen := congrArg List.length (hprocessed.symm.trans hall)
      simp [start] at hlen
    · obtain ⟨hprocessed,hended,hfinished⟩ := readLoop_lines hrun hopen hreads hblank
      exact ⟨hfinished,iff_of_true ⟨hreads.receiveLines hopen,hprocessed,fun _ => .inl hended⟩ hblank⟩
  · intro hblank running isOpen rounds
    exact readLoop_safe running isOpen rounds hreads hblank rfl

/-- Two lines in three chunks. -/
theorem readLoop_iff_lines :
    let chunks : List (Chunk UInt8 1023) :=
      [⟨[0x61],by decide,by decide⟩,⟨[newline,0x62],by decide,by decide⟩,⟨[newline],by decide,by decide⟩]
    let s := readLoop (fun _ => true) (fun _ => true) 3 (start chunks)
    (LineReader.receiveLines (fun _ => true) 2 (start chunks).reader).1 = [[0x61],[0x62]] ∧
      s.processed = [[0x61],[0x62]] ∧ (s.connectionLost = true → s.reader.ended = true ∨ s.reader.closed = true) := by
  intro chunks s
  have hspells : Spells newline (Chunk.stream chunks) [[0x61],[0x62]] [] := ⟨rfl,by decide,by decide⟩
  exact (((readLoop_iff chunks _ _ hspells).1 _ _ (fun _ => rfl) (fun _ => rfl)).2).mpr (by decide)

/-- A blank line between two responses: the second one is never processed, and the loss is announced on
a connection that goes on. -/
theorem readLoop_fails :
    ¬∀ (chunks : List (Chunk UInt8 1023)) (segments : List Bytes) (tail : Bytes),
      Spells newline (Chunk.stream chunks) segments tail →
      let s := readLoop (fun _ => true) (fun _ => true) (segments.length + 1) (start chunks)
      (LineReader.receiveLines (fun _ => true) segments.length (start chunks).reader).1 = segments ∧
        s.processed = segments ∧ (s.connectionLost = true → s.reader.ended = true ∨ s.reader.closed = true) := by
  intro h
  set chunks : List (Chunk UInt8 1023) := [⟨[0x7B,0x7D,newline,newline,0x7B,0x7D,newline],by decide,by decide⟩]
  have hspells : Spells newline (Chunk.stream chunks) ([[0x7B,0x7D]] ++ [] :: [[0x7B,0x7D]]) [] :=
    ⟨rfl,by decide,by decide⟩
  have hreads : (start chunks).reader.Reads ([[0x7B,0x7D]] ++ [] :: [[0x7B,0x7D]]) [] := hspells
  have hrounds : [([0x7B,0x7D] : Bytes)].length < 4 := by decide
  have hstops := readLoop_blank (fun _ => rfl) (fun _ => rfl) hreads (by decide) hrounds
  have hall := (h chunks _ _ hspells).2.1
  exact absurd (hstops.1.symm.trans hall) (by decide)

end ResponseReader
end MiniHil
