import MiniHil.Core.Punctuality
import MiniHil.Foundation.JsonText

/-! # What a status text says

The text of `getRelayStatus` determines what it was formatted from, and what it says holds of the time after the query.
-/
namespace MiniHil
open Runs

/-- What stands in a status text behind the level. -/
inductive StatusReport
  | toggle
  | timer (seconds : ℕ)
  | pulse (ms : ℕ)
  | blink (count : ℕ) (phase : Bool)
  | bare
  deriving DecidableEq

namespace StatusReport

def onOff (level : Bool) : String := if level then "ON" else "OFF"

def text : StatusReport → String
  | .toggle => " (Toggle)"
  | .timer seconds => " (Timer, rem: " ++ toString seconds ++ "s)"
  | .pulse ms => " (Pulse, rem: " ++ toString ms ++ "ms)"
  | .blink count phase => " (Blink, count: " ++ toString count ++ ", phase: " ++ onOff phase ++ ")"
  | .bare => ""

@[simp] theorem text_toggle : text .toggle = " (Toggle)" := rfl
@[simp] theorem text_timer (seconds : ℕ) : text (.timer seconds) = " (Timer, rem: " ++ toString seconds ++ "s)" := rfl
@[simp] theorem text_pulse (ms : ℕ) : text (.pulse ms) = " (Pulse, rem: " ++ toString ms ++ "ms)" := rfl
@[simp] theorem text_blink (count : ℕ) (phase : Bool) :
    text (.blink count phase) = " (Blink, count: " ++ toString count ++ ", phase: " ++ onOff phase ++ ")" := rfl
@[simp] theorem text_bare : text .bare = "" := rfl

def statusText (relayId : ℤ) (level : Bool) (report : StatusReport) : String :=
  "Channel " ++ toString relayId ++ ": " ++ onOff level ++ report.text

def remaining : StatusReport → Option (ℕ × ℕ)
  | .timer seconds => some (1000 * seconds,1000 * seconds + 999)
  | .pulse ms => some (ms,ms)
  | _ => none

def ofState (rs : RelayState) (now : TimePoint) : StatusReport :=
  if !rs.active then .toggle
  else match rs.mode with
    | .timer => .timer ((BaseRelayController.remainingMs rs now).toNat / 1000)
    | .pulse => .pulse (BaseRelayController.remainingMs rs now).toNat
    | .blink => .blink rs.blinkCount.toNat rs.blinkPhase
    | .toggle => .bare

theorem statusText_eq (relayId : ℤ) (rs : RelayState) (now : TimePoint) :
    BaseRelayController.statusText relayId rs now = statusText relayId rs.state (ofState rs now) := by
  unfold BaseRelayController.statusText ofState statusText onOff
  cases ha : rs.active with
  | false => simp only [Bool.not_false, ↓reduceIte, text_toggle]
  | true =>
    simp only [Bool.not_true, Bool.false_eq_true, ↓reduceIte]
    cases hm : rs.mode with
    | timer => simp only [text_timer, String.append_assoc]
    | pulse => simp only [text_pulse, String.append_assoc]
    | blink => simp only [text_blink, onOff, String.append_assoc]
    | toggle => simp only [text_bare, String.append_empty]

theorem eq_of_append_cons {α : Type} {c : α} {a b x y : List α} (ha : c ∉ a) (hb : c ∉ b) (h : a ++ c :: x = b ++ c :: y) :
    a = b ∧ x = y := by
  induction a generalizing b with
  | nil =>
    cases b with
    | nil => exact ⟨rfl,(List.cons.inj h).2⟩
    | cons d b => exact absurd (List.mem_cons.mpr (.inl (List.cons.inj h).1)) hb
  | cons d a ih =>
    cases b with
    | nil => exact absurd (List.mem_cons.mpr (.inl (List.cons.inj h).1.symm)) ha
    | cons e b =>
      obtain ⟨hd,htail⟩ := List.cons.inj h
      obtain ⟨rfl,hxy⟩ := ih (fun hmem => ha (List.mem_cons_of_mem _ hmem)) (fun hmem => hb (List.mem_cons_of_mem _ hmem)) htail
      exact ⟨by rw [hd],hxy⟩

def head : StatusReport → List Char
  | .toggle => [' ','(','T','o']
  | .timer _ => [' ','(','T','i']
  | .pulse _ => [' ','(','P','u']
  | .blink _ _ => [' ','(','B','l']
  | .bare => []

theorem take_append {lead : String} {front rest : List Char} (hl : 4 ≤ lead.toList.length)
    (h : lead.toList.take 4 = front) : (lead.toList ++ rest).take 4 = front := by
  rw [List.take_append_of_le_length hl, h]

theorem take_text (report : StatusReport) : report.text.toList.take 4 = report.head := by
  cases report with
  | toggle => decide
  | bare => decide
  | timer | pulse =>
    simp only [text_timer, text_pulse, String.toList_append, List.append_assoc]
    exact take_append (by decide) (by rw [head]; decide)
  | blink =>
    simp only [text_blink, String.toList_append, List.append_assoc]
    exact take_append (by decide) (by rw [head]; decide)

theorem notMem_digits {c : Char} (hc : c.isDigit = false) (n : ℕ) : c ∉ (toString n).toList := by
  intro hmem
  have hlist : (toString n).toList = Nat.toDigits 10 n := Nat.toList_repr
  rw [hlist] at hmem
  cases hc.symm.trans (Nat.isDigit_of_mem_toDigits (by decide) (by decide) hmem)

theorem toString_injective {m n : ℕ} (h : (toString m).toList = (toString n).toList) : m = n := by
  have hascii : ascii (toString m) = ascii (toString n) := by rw [ascii, ascii, h]
  have hm := (JsonText.decimal_digits m).2.1
  rw [hascii, (JsonText.decimal_digits n).2.1] at hm
  exact hm.symm

theorem text_injective {report report' : StatusReport} (h : report.text = report'.text) : report = report' := by
  have hhead : report.head = report'.head := by rw [← take_text, ← take_text, h]
  have hlist := congrArg String.toList h
  have hdigits {m n : ℕ} {lead tail tail' : String} {c : Char} {rest rest' : List Char} (hc : c.isDigit = false)
      (htail : tail.toList = c :: rest) (htail' : tail'.toList = c :: rest')
      (h : (lead ++ toString m ++ tail).toList = (lead ++ toString n ++ tail').toList) : m = n ∧ rest = rest' := by
    rw [String.toList_append, String.toList_append, String.toList_append, String.toList_append, List.append_assoc,
      List.append_assoc, List.append_cancel_left_eq, htail, htail'] at h
    obtain ⟨hm,hrest⟩ := eq_of_append_cons (notMem_digits hc m) (notMem_digits hc n) h
    exact ⟨toString_injective hm,hrest⟩
  cases report with
  | toggle =>
    cases report' with
    | toggle => rfl
    | timer | pulse | blink | bare => cases hhead
  | timer seconds =>
    cases report' with
    | timer seconds' => rw [(hdigits (by decide) rfl rfl hlist).1]
    | toggle | pulse | blink | bare => cases hhead
  | pulse ms =>
    cases report' with
    | pulse ms' => rw [(hdigits (by decide) rfl rfl hlist).1]
    | toggle | timer | blink | bare => cases hhead
  | blink count phase =>
    cases report' with
    | blink count' phase' =>
      have htail (phase : Bool) : (", phase: " ++ onOff phase ++ ")").toList = ',' :: (" phase: " ++ onOff phase ++ ")").toList := by
        cases phase <;> decide
      have hblink : (" (Blink, count: " ++ toString count ++ (", phase: " ++ onOff phase ++ ")")).toList =
          (" (Blink, count: " ++ toString count' ++ (", phase: " ++ onOff phase' ++ ")")).toList := by
        simpa only [text_blink, String.append_assoc] using hlist
      obtain ⟨rfl,hrest⟩ := hdigits (by decide) (htail phase) (htail phase') hblink
      have hphase : ∀ phase phase', (" phase: " ++ onOff phase ++ ")").toList = (" phase: " ++ onOff phase' ++ ")").toList →
        phase = phase' := by decide
      rw [hphase _ _ hrest]
    | toggle | timer | pulse | bare => cases hhead
  | bare =>
    cases report' with
    | bare => rfl
    | toggle | timer | pulse | blink => cases hhead

theorem statusText_injective {relayId : ℤ} {level level' : Bool} {report report' : StatusReport}
    (h : statusText relayId level report = statusText relayId level' report') : level = level' ∧ report = report' := by
  have hlist := congrArg String.toList h
  simp only [statusText, String.toList_append, List.append_assoc, List.append_cancel_left_eq] at hlist
  have hon : (onOff true).toList = ['O','N'] := by decide
  have hoff : (onOff false).toList = ['O','F','F'] := by decide
  cases level with
  | false =>
    cases level' with
    | false => exact ⟨rfl,text_injective (String.toList_inj.mp (List.append_cancel_left hlist))⟩
    | true =>
      rw [hoff, hon] at hlist
      exact absurd (List.cons.inj (List.cons.inj hlist).2).1 (by decide)
  | true =>
    cases level' with
    | true => exact ⟨rfl,text_injective (String.toList_inj.mp (List.append_cancel_left hlist))⟩
    | false =>
      rw [hoff, hon] at hlist
      exact absurd (List.cons.inj (List.cons.inj hlist).2).1 (by decide)

end StatusReport
namespace BaseRelayController
variable {H : Type*} {c : BaseRelayController H} {relayId : ℤ}

theorem length_toString_le {n : ℕ} (h : n < 2 ^ 64) : (toString n).length ≤ 20 := by
  refine (Nat.length_repr_le_iff (by decide)).mpr ?_
  omega

theorem length_onOff_le (level : Bool) : (StatusReport.onOff level).length ≤ 3 := by
  revert level
  decide

theorem length_text_ofState (rs : RelayState) (now : TimePoint) : (StatusReport.ofState rs now).text.length ≤ 60 := by
  unfold StatusReport.ofState
  cases rs.active with
  | false =>
    simp only [Bool.not_false, ↓reduceIte, StatusReport.text_toggle]
    decide
  | true =>
    simp only [Bool.not_true, Bool.false_eq_true, ↓reduceIte]
    cases rs.mode with
    | toggle =>
      simp only [StatusReport.text_bare]
      decide
    | timer =>
      have hn := @length_toString_le ((remainingMs rs now).toNat / 1000)
        ((Nat.div_le_self _ _).trans_lt (remainingMs rs now).toNat_lt)
      have hlead : " (Timer, rem: ".length = 14 := by decide
      have htail : "s)".length = 2 := by decide
      simp only [StatusReport.text_timer, String.length_append, hlead, htail]
      omega
    | pulse =>
      have hn := length_toString_le (remainingMs rs now).toNat_lt
      have hlead : " (Pulse, rem: ".length = 14 := by decide
      have htail : "ms)".length = 3 := by decide
      simp only [StatusReport.text_pulse, String.length_append, hlead, htail]
      omega
    | blink =>
      have hn := length_toString_le (rs.blinkCount.toNat_lt.trans (by decide : 2 ^ 32 < 2 ^ 64))
      have hphase := length_onOff_le rs.blinkPhase
      have hlead : " (Blink, count: ".length = 16 := by decide
      have hmiddle : ", phase: ".length = 9 := by decide
      have htail : ")".length = 1 := by decide
      simp only [StatusReport.text_blink, String.length_append, hlead, hmiddle, htail]
      omega

theorem getRelayStatus_fits (query : TimePoint) {text : String} (h : c.getRelayStatus query relayId = some text) :
    text.length < 256 := by
  unfold getRelayStatus at h
  split_ifs at h with hr
  · obtain rfl := Option.some.inj h
    decide
  · obtain ⟨rs,_,rfl⟩ := Option.map_eq_some_iff.mp h
    obtain ⟨n,rfl⟩ := Int.eq_ofNat_of_zero_le (by omega : 0 ≤ relayId)
    have hn : (toString (n : ℤ)).length ≤ 20 := @length_toString_le n (by omega)
    have hlevel := length_onOff_le rs.state
    have htext := length_text_ofState rs query
    have hlead : "Channel ".length = 8 := by decide
    have hmiddle : ": ".length = 2 := by decide
    rw [StatusReport.statusText_eq, StatusReport.statusText]
    simp only [String.length_append, hlead, hmiddle]
    omega

end BaseRelayController

namespace Channel
variable {ch : Channel} {n : ℕ} {phase : Bool}

structure Blinking (n : ℕ) (phase : Bool) (ch : Channel) : Prop where
  active : ch.rs.active = true
  mode : ch.rs.mode = .blink
  state : ch.rs.state = phase
  blinkPhase : ch.rs.blinkPhase = phase
  count : ch.rs.blinkCount.toNat = n

def blinkWrites (n : ℕ) (phase : Bool) : List Bool := (if phase then [false] else []) ++ cycleLevels (n - 1)

theorem cycleLevels_succ (cycles : ℕ) : cycleLevels (cycles + 1) = [true,false] ++ cycleLevels cycles := by
  induction cycles with
  | zero => rfl
  | succ cycles ih =>
    calc cycleLevels (cycles + 1 + 1) = cycleLevels (cycles + 1) ++ [true,false] := rfl
      _ = [true,false] ++ (cycleLevels cycles ++ [true,false]) := by rw [ih, List.append_assoc]
      _ = [true,false] ++ cycleLevels (cycles + 1) := rfl

theorem cyclesLeft_toNat (count : UInt32) : (cyclesLeft count).toNat = count.toNat - 1 := by
  unfold cyclesLeft
  split_ifs with h
  · rw [h]
    rfl
  · have hpos : (1 : UInt32) ≤ count := by
      rw [UInt32.le_iff_toNat_le]
      exact Nat.pos_of_ne_zero fun h0 => h (UInt32.toNat_inj.mp h0)
    rw [UInt32.toNat_sub_of_le _ _ hpos]
    rfl

theorem Blinking.tick (h : Blinking n phase ch) (hn : n ≠ 0) (now : TimePoint) :
    (∃ n' phase' written, n' ≠ 0 ∧ Blinking n' phase' (ch.tick now) ∧ (ch.tick now).calls = ch.calls ++ written ∧
      blinkWrites n phase = written ++ blinkWrites n' phase') ∨
    ((ch.tick now).rs.active = false ∧ (ch.tick now).calls = ch.calls ++ blinkWrites n phase) := by
  have ht := ticked now ch
  generalize ch.tick now = ch' at ht
  cases ht with
  | idle => exact .inl ⟨n,phase,[],hn,h,(List.append_nil _).symm,rfl⟩
  | timeout _ hm =>
    rw [h.mode] at hm
    exact absurd hm (by decide)
  | onEnds _ _ hp =>
    obtain rfl : phase = true := h.blinkPhase.symm.trans hp
    refine .inl ⟨n,false,[false],hn,⟨?_,?_,?_,?_,?_⟩,?_,rfl⟩
    · simpa [enterPhase] using h.active
    · simpa [enterPhase] using h.mode
    · simp [enterPhase]
    · simp [enterPhase]
    · simpa [enterPhase] using h.count
    · simp [enterPhase, drive_calls, h.state]
  | lastOffEnds _ _ hp hone =>
    obtain rfl : phase = false := h.blinkPhase.symm.trans hp
    have hcount : n = 1 := by rw [← h.count, hone]; rfl
    refine .inr ⟨rfl,?_⟩
    rw [hcount]
    exact (List.append_nil _).symm
  | offEnds _ _ hp hone =>
    obtain rfl : phase = false := h.blinkPhase.symm.trans hp
    have hleft : (cyclesLeft ch.rs.blinkCount).toNat = n - 1 := by
      rw [cyclesLeft_toNat, h.count]
    have hmore : ∃ k, n = k + 2 := by
      refine ⟨n - 2,?_⟩
      have hne : n ≠ 1 := fun h1 => hone (UInt32.toNat_inj.mp (h.count.trans h1))
      omega
    obtain ⟨k,rfl⟩ := hmore
    refine .inl ⟨k + 1,true,[true],Nat.succ_ne_zero k,⟨?_,?_,?_,?_,?_⟩,?_,cycleLevels_succ k⟩
    · simpa [enterPhase] using h.active
    · simpa [enterPhase] using h.mode
    · simp [enterPhase]
    · simp [enterPhase]
    · simpa [enterPhase] using hleft
    · simp [enterPhase, drive_calls, h.state]

theorem Blinking.tick_endless (h : Blinking 0 phase ch) (now : TimePoint) : ∃ phase', Blinking 0 phase' (ch.tick now) := by
  have ht := ticked now ch
  generalize ch.tick now = ch' at ht
  cases ht with
  | idle => exact ⟨phase,h⟩
  | timeout _ hm =>
    rw [h.mode] at hm
    exact absurd hm (by decide)
  | onEnds =>
    refine ⟨false,?_,?_,?_,?_,?_⟩
    · simpa [enterPhase] using h.active
    · simpa [enterPhase] using h.mode
    · simp [enterPhase]
    · simp [enterPhase]
    · simpa [enterPhase] using h.count
  | lastOffEnds _ _ _ hone =>
    have hzero := h.count
    rw [hone] at hzero
    exact absurd hzero (by decide)
  | offEnds =>
    refine ⟨true,?_,?_,?_,?_,?_⟩
    · simpa [enterPhase] using h.active
    · simpa [enterPhase] using h.mode
    · simp [enterPhase]
    · simp [enterPhase]
    · simp [enterPhase, cyclesLeft_toNat, h.count]

theorem Blinking.ticks (h : Blinking n phase ch) (hn : n ≠ 0) (ticks : List TimePoint) :
    (∃ written, written <+: blinkWrites n phase ∧ (ticks.foldl (fun ch now => ch.tick now) ch).calls = ch.calls ++ written) ∧
    ((ticks.foldl (fun ch now => ch.tick now) ch).rs.active = false →
      (ticks.foldl (fun ch now => ch.tick now) ch).calls = ch.calls ++ blinkWrites n phase) := by
  induction ticks generalizing ch n phase with
  | nil =>
    refine ⟨⟨[],List.nil_prefix,(List.append_nil _).symm⟩,?_⟩
    intro hi
    cases h.active.symm.trans hi
  | cons now ticks ih =>
    rw [List.foldl_cons]
    rcases h.tick hn now with ⟨n',phase',written,hn',h',hcalls,hwrites⟩ | ⟨hi,hcalls⟩
    · obtain ⟨⟨more,hmore,hmorecalls⟩,hover⟩ := ih h' hn'
      refine ⟨⟨written ++ more,?_,?_⟩,?_⟩
      · rw [hwrites]
        exact (List.prefix_append_right_inj written).mpr hmore
      · rw [hmorecalls, hcalls, List.append_assoc]
      · intro hi
        rw [hover hi, hcalls, hwrites, List.append_assoc]
    · rw [ticks_of_inactive _ hi]
      exact ⟨⟨_,List.prefix_rfl,hcalls⟩,fun _ => hcalls⟩

theorem Blinking.ticks_endless (h : Blinking 0 phase ch) (ticks : List TimePoint) :
    (ticks.foldl (fun ch now => ch.tick now) ch).rs.active = true := by
  induction ticks generalizing ch phase with
  | nil => exact h.active
  | cons now ticks ih =>
    obtain ⟨phase',h'⟩ := h.tick_endless now
    exact ih h'

end Channel

namespace BaseRelayController
variable {H : Type*}

/-- The channel is on and will be switched off, by the one tick that writes to it, when the remaining time is over that
the text names in milliseconds, and at most a gap later. -/
structure SwitchesOff (hw : Hardware H) (relayId : ℤ) (least most gap : ℕ) (query : TimePoint) (c : BaseRelayController H)
    (es : List (TimePoint × Event)) (later : TimePoint) (c' : BaseRelayController H) : Prop where
  active : (c'.relay relayId).active = true → later.val ≤ query.val + most * 1000000 + gap
  ended : (c'.relay relayId).active = false → ∃ before tick after, es = before ++ (tick,.tick) :: after ∧
    query.val + least * 1000000 < tick.val + 1000000 ∧ tick.val ≤ query.val + most * 1000000 + gap ∧
    ((before.foldl (handle hw) c).relay relayId).state = true ∧
    (before.foldl (handle hw) c).callsOf relayId = c.callsOf relayId ∧
    c'.callsOf relayId = c.callsOf relayId ++ [false]

/-- What a status text with this level and report says of the run after the query. -/
def Foretold (hw : Hardware H) (relayId : ℤ) (gap : ℕ) (query : TimePoint) (c : BaseRelayController H)
    (es : List (TimePoint × Event)) (later : TimePoint) (c' : BaseRelayController H) (level : Bool) : StatusReport → Prop
  | .toggle => c'.channel relayId = c.channel relayId
  | .timer seconds => level = true ∧ SwitchesOff hw relayId (1000 * seconds) (1000 * seconds + 999) gap query c es later c'
  | .pulse ms => level = true ∧ SwitchesOff hw relayId ms ms gap query c es later c'
  | .blink count phase => level = phase ∧ (count = 0 → (c'.relay relayId).active = true) ∧
      (count ≠ 0 → (∃ written, written <+: Channel.blinkWrites count phase ∧
          c'.callsOf relayId = c.callsOf relayId ++ written) ∧
        ((c'.relay relayId).active = false →
          c'.callsOf relayId = c.callsOf relayId ++ Channel.blinkWrites count phase))
  | .bare => False

section
variable {hw : Hardware H} {c c' : BaseRelayController H} {relayId : ℤ} {start query later : TimePoint} {onTime gap : ℕ}
  {es : List (TimePoint × Event)}

theorem switchesOff (height : c.HasEight) (hr : 1 ≤ relayId ∧ relayId ≤ 8)
    (htimed : Channel.Timed start onTime (c.channel relayId)) (hstart : start ≤ query)
    (hrun : Run (timedStep hw) (query,c) es (later,c')) (hes : NoCommandFor relayId es)
    (hchain : (query :: (tickTimes es ++ [later])).IsChain (Soon gap)) {least most : ℕ}
    (hleast : least ≤ (remainingMs (c.relay relayId) query).toNat) (hmost : (remainingMs (c.relay relayId) query).toNat ≤ most) :
    SwitchesOff hw relayId least most gap query c es later c' := by
  obtain ⟨hactive,hover⟩ := timed_switches_off height hr htimed hstart hrun hes hchain
  have hv : start.val ≤ query.val := hstart
  have hrem : ((remainingMs (c.relay relayId) query).toNat : ℤ) = max ((onTime : ℤ) - elapsedMs query start) 0 :=
    htimed.remainingMs hstart
  rw [elapsedMs_eq hstart] at hrem
  constructor
  · intro ha
    have hle := hactive ha
    omega
  · intro hi
    obtain ⟨before,tick,after,hes',hlow,hquery,hhigh,hon,hsame,_,hcalls⟩ := hover hi
    have htick : query.val ≤ tick.val := hquery
    refine ⟨before,tick,after,hes',?_,?_,hon,hsame,hcalls⟩
    · omega
    · omega

end

/-- In every reachable state: a status text that is answered for a channel says what level the channel has, and what it
says more holds of every run after the query with ticks at most a gap apart, any queries and commands for other channels. A
channel in toggle mode is left as it is; a timer or pulse is switched off, with one write, not before the named time is over
(less the rounding) and at most a gap later; a blink program with a count writes exactly what is left of it before it
is over, and one without a count goes on. -/
theorem status_foretells (hw : Hardware H) (device : H) (now : TimePoint) (c : BaseRelayController H)
    (h : Reachable hw device (now,c)) (relayId : ℤ) (hr : 1 ≤ relayId ∧ relayId ≤ 8) (query : TimePoint) (hquery : now ≤ query)
    (level : Bool) (report : StatusReport)
    (hanswer : c.getRelayStatus query relayId = some (StatusReport.statusText relayId level report)) (gap : ℕ)
    (es : List (TimePoint × Event)) (later : TimePoint) (c' : BaseRelayController H)
    (hrun : Run (timedStep hw) (query,c) es (later,c')) (hes : NoCommandFor relayId es)
    (hchain : (query :: (tickTimes es ++ [later])).IsChain (Soon gap)) :
    level = (c.relay relayId).state ∧ Foretold hw relayId gap query c es later c' level report := by
  have height : c.HasEight := h.valid.1
  have hv : (c.channel relayId).Valid now := h.valid.2 relayId hr
  have hticks : c'.channel relayId = (tickTimes es).foldl (fun ch now => ch.tick now) (c.channel relayId) := by
    rw [timedRun_eq hrun]
    exact channel_run_ticks height hr hes
  rw [getRelayStatus_eq height hr] at hanswer
  have htext := (StatusReport.statusText_eq relayId (c.relay relayId) query).symm.trans (Option.some.inj hanswer)
  obtain ⟨hlevel,hreport⟩ := StatusReport.statusText_injective htext
  refine ⟨hlevel.symm,?_⟩
  rw [← hreport, ← hlevel]
  unfold StatusReport.ofState
  cases ha : (c.relay relayId).active with
  | false => exact hticks.trans (Channel.ticks_of_inactive _ ha _)
  | true =>
    have hstart : (c.relay relayId).startTime ≤ query := (hv.started ha).trans hquery
    simp only [Bool.not_true, Bool.false_eq_true, ↓reduceIte]
    cases hm : (c.relay relayId).mode with
    | toggle =>
      have hinactive := hv.inactive_iff.mpr hm
      cases ha.symm.trans hinactive
    | timer =>
      have hon := hv.timed_on ha (.inl hm)
      refine ⟨hon,switchesOff height hr ⟨ha,.inl hm,hon,rfl,rfl⟩ hstart hrun hes hchain ?_ ?_⟩
      · omega
      · omega
    | pulse =>
      have hon := hv.timed_on ha (.inr hm)
      exact ⟨hon,switchesOff height hr ⟨ha,.inr hm,hon,rfl,rfl⟩ hstart hrun hes hchain le_rfl le_rfl⟩
    | blink =>
      have hphase := hv.blink_phase ha hm
      have hblinking : Channel.Blinking (c.relay relayId).blinkCount.toNat (c.relay relayId).blinkPhase (c.channel relayId) :=
        ⟨ha,hm,hphase,rfl,rfl⟩
      refine ⟨hphase,?_,?_⟩
      · intro hzero
        rw [hzero] at hblinking
        exact (congrArg (fun ch : Channel => ch.rs.active) hticks).trans (hblinking.ticks_endless _)
      · intro hne
        obtain ⟨⟨written,hwrites,hcalls⟩,hover⟩ := hblinking.ticks hne (tickTimes es)
        rw [← hticks] at hcalls hover
        exact ⟨⟨written,hwrites,hcalls⟩,hover⟩

/-- A pulse of 3 ms on relay 2, asked for after 1.2 ms; ticks 2 ms apart. -/
theorem status_foretells_pulse :
    let c := ((construct ()).execute sil 7 (.startPulse 2 3)).2
    let es : List (TimePoint × Event) := [(2200007,.tick),(4200007,.tick)]
    let c' := (c.handle sil (2200007,.tick)).handle sil (4200007,.tick)
    c.getRelayStatus 1200007 2 = some "Channel 2: ON (Pulse, rem: 2ms)" ∧ (c'.relay 2).active = false ∧
      SwitchesOff sil 2 2 2 2000000 1200007 c es 4200007 c' := by
  intro c es c'
  have hreach : Reachable sil () (7,c) :=
    ⟨0,[(7,.command (.startPulse 2 3))],.single (timedStep_handle (by decide))⟩
  have hrun : Run (timedStep sil) (1200007,c) es (4200007,c') :=
    .step (timedStep_handle (by decide)) (.single (timedStep_handle (by decide)))
  have hes : NoCommandFor 2 es := by
    intro e he cmd hcmd
    simp only [es, List.mem_cons, List.not_mem_nil, or_false] at he
    rcases he with rfl | rfl <;> cases hcmd
  have hchain : ((1200007 : TimePoint) :: (tickTimes es ++ [4200007])).IsChain (Soon 2000000) := by
    change [(1200007 : TimePoint),2200007,4200007,4200007].IsChain (Soon 2000000)
    simp only [List.isChain_cons_cons, List.isChain_singleton, and_true, Soon]
    decide
  have hanswer : c.getRelayStatus 1200007 2 = some (StatusReport.statusText 2 true (.pulse 2)) := by decide
  refine ⟨hanswer,by decide,?_⟩
  exact (status_foretells sil () 7 c hreach 2 (by decide) 1200007 (by decide) true (.pulse 2) hanswer 2000000 es 4200007 c'
    hrun hes hchain).2.2

end BaseRelayController
end MiniHil
