import MiniHil.Protocol.NlohmannJson

/-! # The desk's controller

`AppController` of minihildesk: the requests its command methods send, and the signals that
`processResponse` emits for a line from the server.
-/
namespace MiniHil

/-- The command methods of `AppController` with their arguments. -/
inductive DeskCommand
  | toggleRelay (relayId : Int32) (state : Bool)
  | startTimer (relayId : Int32) (seconds : UInt32)
  | startPulse (relayId : Int32) (durationMs : UInt32)
  | startBlink (relayId : Int32) (onMs offMs count : UInt32)
  | queryAllRelays
  deriving DecidableEq

inductive Signal
  | log (text : Bytes)
  | relayState (relayId : ℤ) (state : Bool)

namespace DeskCommand

def method : DeskCommand → Bytes
  | .toggleRelay _ _ => ascii "set_relay"
  | .startTimer _ _ => ascii "start_timer"
  | .startPulse _ _ => ascii "start_pulse"
  | .startBlink _ _ _ _ => ascii "start_blink"
  | .queryAllRelays => ascii "get_relays"

def params : DeskCommand → Json
  | .toggleRelay relayId state =>
    .ofMembers [(ascii "relay_id",.integer relayId.toInt),(ascii "state",.boolean state)]
  | .startTimer relayId seconds =>
    .ofMembers [(ascii "relay_id",.integer relayId.toInt),(ascii "seconds",.integer seconds.toNat)]
  | .startPulse relayId durationMs =>
    .ofMembers [(ascii "relay_id",.integer relayId.toInt),(ascii "duration_ms",.integer durationMs.toNat)]
  | .startBlink relayId onMs offMs count =>
    .ofMembers [(ascii "relay_id",.integer relayId.toInt),(ascii "on_ms",.integer onMs.toNat),
      (ascii "off_ms",.integer offMs.toNat),(ascii "count",.integer count.toNat)]
  | .queryAllRelays => .null

/-- The request that `sendJsonRpc` builds. -/
def request (requestId : Int32) (cmd : DeskCommand) : Json :=
  .ofMembers ([(ascii "jsonrpc",.string (ascii "2.0")),(ascii "method",.string cmd.method)] ++
    (if cmd.params.isNull then [] else [(ascii "params",cmd.params)]) ++ [(ascii "id",.integer requestId.toInt)])

theorem exact_int32 (n : Int32) : (Json.integer n.toInt).exact = true := by
  have hlow := n.le_toInt
  have hhigh := n.toInt_lt
  simp only [Json.exact, Bool.and_eq_true, decide_eq_true_eq]
  omega

theorem exact_uint32 (n : UInt32) : (Json.integer n.toNat).exact = true := by
  have hlt := n.toNat_lt
  simp only [Json.exact, Bool.and_eq_true, decide_eq_true_eq]
  omega

theorem params_exact (cmd : DeskCommand) : cmd.params.exact = true := by
  cases cmd with
  | queryAllRelays => rfl
  | toggleRelay relayId =>
    refine Json.exact_ofMembers ?_
    simp only [List.forall_mem_cons, List.not_mem_nil, false_implies, implies_true, and_true]
    exact ⟨exact_int32 relayId,rfl⟩
  | startTimer | startPulse | startBlink =>
    refine Json.exact_ofMembers ?_
    simp only [List.forall_mem_cons, List.not_mem_nil, false_implies, implies_true, exact_int32, exact_uint32, and_self]

theorem params_validStrings (cmd : DeskCommand) : cmd.params.validStrings = true := by
  cases cmd with
  | queryAllRelays => rfl
  | toggleRelay | startTimer | startPulse | startBlink =>
    refine Json.validStrings_ofMembers ?_
    simp only [List.forall_mem_cons, List.not_mem_nil, false_implies, implies_true, and_true, Json.validStrings]
    decide

theorem request_exact (requestId : Int32) (cmd : DeskCommand) : (cmd.request requestId).exact = true := by
  refine Json.exact_ofMembers ?_
  intro p hp
  simp only [List.cons_append, List.nil_append, List.mem_cons, List.mem_append, List.not_mem_nil, or_false] at hp
  rcases hp with rfl | rfl | hp | rfl
  · rfl
  · rfl
  · split_ifs at hp
    · cases hp
    · obtain rfl := List.mem_singleton.mp hp
      exact cmd.params_exact
  · exact exact_int32 requestId

theorem request_validStrings (requestId : Int32) (cmd : DeskCommand) : (cmd.request requestId).validStrings = true := by
  have hmethod : Utf8.valid cmd.method = true := by
    cases cmd <;> (simp only [method]; decide)
  refine Json.validStrings_ofMembers ?_
  intro p hp
  simp only [List.cons_append, List.nil_append, List.mem_cons, List.mem_append, List.not_mem_nil, or_false] at hp
  rcases hp with rfl | rfl | hp | rfl
  · exact ⟨by decide,by decide⟩
  · refine ⟨?_,hmethod⟩
    dsimp only
    decide
  · split_ifs at hp
    · cases hp
    · obtain rfl := List.mem_singleton.mp hp
      refine ⟨?_,cmd.params_validStrings⟩
      dsimp only
      decide
  · refine ⟨?_,rfl⟩
    dsimp only
    decide

end DeskCommand

/-- `std::stoi`: `none` where it throws. -/
def stoi (text : Bytes) : Option ℤ :=
  let text := text.dropWhile fun b => b = 0x20 || (0x09 ≤ b && b ≤ 0x0D)
  let (negative,text) := match text with
    | 0x2D :: rest => (true,rest)
    | 0x2B :: rest => (false,rest)
    | _ => (false,text)
  let digits := text.takeWhile JsonText.isDigit
  let value : ℤ := if negative then -(JsonText.digitsValue digits : ℤ) else JsonText.digitsValue digits
  if digits = [] ∨ value < -2 ^ 31 ∨ 2 ^ 31 ≤ value then none else some value

namespace AppController
variable (lib : JsonLib)

def memberSignal (p : Bytes × Json) : Option Signal :=
  match stoi p.1, p.2 with
  | some relayId, .boolean state => some (.relayState relayId state)
  | _, _ => none

def resultSignals (result : Json) : Except Exn (List Signal) :=
  match result with
  | .object members =>
    if result.contains (ascii "relay_id") && result.contains (ascii "state") then do
      let relayId ← lib.getInt (result.member (ascii "relay_id"))
      let state ← JsonLib.getBool (result.member (ascii "state"))
      pure [.relayState relayId state]
    else pure (members.filterMap memberSignal)
  | _ => pure []

/-- The signals after the `[RX]` log line. -/
def responseSignals (res : Json) : Except Exn (List Signal) :=
  if res.contains (ascii "error") && !(res.member (ascii "error")).isNull then do
    let text ← lib.dump (res.member (ascii "error"))
    pure [.log (ascii "[Error] " ++ text)]
  else if res.contains (ascii "result") then resultSignals lib (res.member (ascii "result"))
  else pure []

def parsingError (e : Exn) : Signal := .log (ascii "[System] Error parsing response: " ++ e.what)

def processResponse (rawResponse : Bytes) : List Signal :=
  match lib.parse rawResponse with
  | .error e => [parsingError e]
  | .ok res =>
    .log (ascii "[RX] " ++ rawResponse) ::
      match responseSignals lib res with
      | .ok signals => signals
      | .error e => [parsingError e]

end AppController
end MiniHil
