import MiniHil.Core.ChannelMachine
import MiniHil.Hardware.RelayHardware
import MiniHil.Protocol.JsonRpcRouter

/-! # What the four command methods accept

The handlers check the relay id after a narrowing conversion and never check the durations. Which
params they let through, what they then apply, and for which params this is what the API says.
-/
namespace MiniHil
open Throwing JsonRpcRouter

namespace Json

def isNumeric : Json → Bool
  | .integer _ | .float _ | .boolean _ => true
  | _ => false

theorem isNumeric_iff_getInt {lib : JsonLib} {j : Json} : j.isNumeric = true ↔ ∃ n, lib.getInt j = .ok n := by
  cases j <;> simp [isNumeric, JsonLib.getInt]

theorem isNumeric_iff_getUint32 {lib : JsonLib} {j : Json} : j.isNumeric = true ↔ ∃ n, lib.getUint32 j = .ok n := by
  cases j <;> simp [isNumeric, JsonLib.getUint32]

theorem isBoolean_iff_getBool {j : Json} : j.isBoolean = true ↔ ∃ b, JsonLib.getBool j = .ok b := by
  cases j <;> simp [isBoolean, JsonLib.getBool]

theorem getInt_error {lib : JsonLib} {j : Json} {e : Exn} (h : lib.getInt j = .error e) : e = j.typeError "number" := by
  cases j <;> simp only [JsonLib.getInt, reduceCtorEq, Except.error.injEq] at h <;> exact h.symm

theorem getUint32_error {lib : JsonLib} {j : Json} {e : Exn} (h : lib.getUint32 j = .error e) :
    e = j.typeError "number" := by
  cases j <;> simp only [JsonLib.getUint32, reduceCtorEq, Except.error.injEq] at h <;> exact h.symm

theorem getBool_error {j : Json} {e : Exn} (h : JsonLib.getBool j = .error e) : e = j.typeError "boolean" := by
  cases j <;> simp only [JsonLib.getBool, reduceCtorEq, Except.error.injEq] at h <;> exact h.symm

theorem getString_error {j : Json} {e : Exn} (h : JsonLib.getString j = .error e) : e = j.typeError "string" := by
  cases j <;> simp only [JsonLib.getString, reduceCtorEq, Except.error.injEq] at h <;> exact h.symm

theorem getString_eq_ok_iff {j : Json} {t : Bytes} : JsonLib.getString j = .ok t ↔ j = .string t := by
  cases j <;> simp [JsonLib.getString]

theorem getBool_eq_ok_iff {j : Json} {b : Bool} : JsonLib.getBool j = .ok b ↔ j = .boolean b := by
  cases j <;> simp [JsonLib.getBool]

theorem contains_of_member {key : Bytes} {j value : Json} (h : j.member key = value) (hv : value.isNull = false) :
    j.isObject = true ∧ j.contains key = true := by
  cases j with
  | object members =>
    refine ⟨rfl,?_⟩
    rw [contains]
    cases hl : members.lookup key with
    | none =>
      simp only [member, hl, Option.getD_none] at h
      rw [← h] at hv
      cases hv
    | some value => rfl
  | _ =>
    rw [member] at h
    · rw [← h] at hv
      cases hv
    · rintro members ⟨⟩

end Json

namespace CommandMethod
variable {lib : JsonLib} {m : CommandMethod} {params : Json}

def checked (lib : JsonLib) (m : CommandMethod) (params : Json) : Option (Command × List (Bytes × Json)) :=
  if !params.isObject || !(ascii "relay_id" :: m.required).all fun key => params.contains key then none
  else match lib.getInt (params.member (ascii "relay_id")), m.arguments params with
    | .ok relayId, .ok args => if relayId < 1 ∨ relayId > 8 then none else some (args.command relayId,args.echo)
    | _, _ => none

theorem checked_eq_some {cmd : Command} {echo : List (Bytes × Json)} (h : m.checked lib params = some (cmd,echo)) :
    ∃ relayId args, m.arguments params = .ok args ∧ 1 ≤ relayId ∧ relayId ≤ 8 ∧
      cmd = args.command relayId ∧ echo = args.echo := by
  unfold checked at h
  split at h
  · cases h
  split at h
  next relayId args _ hargs =>
    split at h
    · cases h
    next hrange =>
      obtain ⟨rfl,rfl⟩ := Prod.mk.inj (Option.some.inj h)
      exact ⟨relayId,args,hargs,by omega,by omega,rfl,rfl⟩
  · cases h

/-- The command is for the relay it is given, the result repeats the required members as booleans
or integers, and the conversions throw type errors only. -/
structure Regular (m : CommandMethod) : Prop where
  addresses : ∀ {params args}, m.arguments params = .ok args → ∀ relayId, (args.command relayId).relayId = relayId
  echoes : ∀ {params args}, m.arguments params = .ok args → args.echo.map Prod.fst = m.required
  values : ∀ {params args}, m.arguments params = .ok args → ∀ p ∈ args.echo, p.2.validStrings = true
  throws : ∀ {params e}, m.arguments params = .error e → ∃ j : Json, e = j.typeError "number" ∨ e = j.typeError "boolean"

def converts (m : CommandMethod) (j : Json) : Bool :=
  if m.name = ascii "set_relay" then j.isBoolean else j.isNumeric

/-- The params that the handler refuses: by shape, by type, or for the relay id that it converts to. -/
inductive Refused (lib : JsonLib) (m : CommandMethod) (params : Json) : Prop
  | notObject : params.isObject = false → Refused lib m params
  | missing (key : Bytes) : key ∈ ascii "relay_id" :: m.required → params.contains key = false → Refused lib m params
  | relayIdType : (params.member (ascii "relay_id")).isNumeric = false → Refused lib m params
  | argumentType (key : Bytes) : key ∈ m.required → m.converts (params.member key) = false → Refused lib m params
  | range (relayId : ℤ) : lib.getInt (params.member (ascii "relay_id")) = .ok relayId → relayId < 1 ∨ relayId > 8 →
      Refused lib m params

/-- The arguments convert exactly when every required member has a fitting type. -/
def Converting (m : CommandMethod) : Prop :=
  ∀ params, (∃ args, m.arguments params = .ok args) ↔ ∀ key ∈ m.required, m.converts (params.member key) = true

theorem setRelay_regular : setRelayMethod.Regular := by
  have hok : ∀ {params args}, setRelayMethod.arguments params = .ok args →
      ∃ b, args = ⟨fun relayId => .setRelay relayId b,[(ascii "state",.boolean b)]⟩ := by
    intro params args h
    obtain ⟨b,_,hb⟩ := bind_eq_ok_iff.mp h
    exact ⟨b,(Except.ok.inj hb).symm⟩
  refine ⟨?_,?_,?_,?_⟩
  · intro params args h
    obtain ⟨b,rfl⟩ := hok h
    exact fun _ => rfl
  · intro params args h
    obtain ⟨b,rfl⟩ := hok h
    rfl
  · intro params args h
    obtain ⟨b,rfl⟩ := hok h
    simp [Json.validStrings]
  · intro params e h
    rcases bind_eq_error_iff.mp h with h | ⟨_,_,h⟩
    · exact ⟨_,.inr (Json.getBool_error h)⟩
    · cases h

theorem uint32_regular {key : Bytes} {command : ℤ → UInt32 → Command} (hrequired : m.required = [key])
    (hc : ∀ relayId n, (command relayId n).relayId = relayId)
    (hargs : ∀ params : Json, m.arguments params = (do
      let n ← lib.getUint32 (params.member key)
      pure ⟨fun relayId => command relayId n,[(key,.integer n.toNat)]⟩)) : m.Regular := by
  have hok : ∀ {params args}, m.arguments params = .ok args →
      ∃ n : UInt32, args = ⟨fun relayId => command relayId n,[(key,.integer n.toNat)]⟩ := by
    intro params args h
    rw [hargs] at h
    obtain ⟨n,_,hn⟩ := bind_eq_ok_iff.mp h
    exact ⟨n,(Except.ok.inj hn).symm⟩
  refine ⟨?_,?_,?_,?_⟩
  · intro params args h relayId
    obtain ⟨n,rfl⟩ := hok h
    exact hc relayId n
  · intro params args h
    obtain ⟨n,rfl⟩ := hok h
    exact hrequired.symm
  · intro params args h
    obtain ⟨n,rfl⟩ := hok h
    simp [Json.validStrings]
  · intro params e h
    rw [hargs] at h
    rcases bind_eq_error_iff.mp h with h | ⟨_,_,h⟩
    · exact ⟨_,.inl (Json.getUint32_error h)⟩
    · cases h

theorem startTimer_regular : (startTimerMethod lib).Regular := uint32_regular rfl (fun _ _ => rfl) fun _ => rfl

theorem startPulse_regular : (startPulseMethod lib).Regular := uint32_regular rfl (fun _ _ => rfl) fun _ => rfl

theorem startBlink_regular : (startBlinkMethod lib).Regular := by
  have hok : ∀ {params args}, (startBlinkMethod lib).arguments params = .ok args →
      ∃ on off count : UInt32, args = ⟨fun relayId => .startBlink relayId on off count,
        [(ascii "on_ms",.integer on.toNat),(ascii "off_ms",.integer off.toNat),(ascii "count",.integer count.toNat)]⟩ := by
    intro params args h
    obtain ⟨on,_,h⟩ := bind_eq_ok_iff.mp h
    obtain ⟨off,_,h⟩ := bind_eq_ok_iff.mp h
    obtain ⟨count,_,h⟩ := bind_eq_ok_iff.mp h
    exact ⟨on,off,count,(Except.ok.inj h).symm⟩
  refine ⟨?_,?_,?_,?_⟩
  · intro params args h
    obtain ⟨on,off,count,rfl⟩ := hok h
    exact fun _ => rfl
  · intro params args h
    obtain ⟨on,off,count,rfl⟩ := hok h
    rfl
  · intro params args h
    obtain ⟨on,off,count,rfl⟩ := hok h
    simp [Json.validStrings]
  · intro params e h
    rcases bind_eq_error_iff.mp h with h | ⟨_,_,h⟩
    · exact ⟨_,.inl (Json.getUint32_error h)⟩
    rcases bind_eq_error_iff.mp h with h | ⟨_,_,h⟩
    · exact ⟨_,.inl (Json.getUint32_error h)⟩
    rcases bind_eq_error_iff.mp h with h | ⟨_,_,h⟩
    · exact ⟨_,.inl (Json.getUint32_error h)⟩
    · cases h

theorem regular (hm : m ∈ commandMethods lib) : m.Regular := by
  simp only [commandMethods, List.mem_cons, List.not_mem_nil, or_false] at hm
  rcases hm with rfl | rfl | rfl | rfl
  · exact setRelay_regular
  · exact startTimer_regular
  · exact startPulse_regular
  · exact startBlink_regular

theorem converting (hm : m ∈ commandMethods lib) : m.Converting := by
  intro params
  simp only [commandMethods, List.mem_cons, List.not_mem_nil, or_false] at hm
  rcases hm with rfl | rfl | rfl | rfl
  · have hb := @Json.isBoolean_iff_getBool (params.member (ascii "state"))
    cases h : JsonLib.getBool (params.member (ascii "state")) <;>
      simp [setRelayMethod, converts, hb, h, bind, Except.bind, pure, Except.pure]
  · have hd := @Json.isNumeric_iff_getUint32 lib (params.member (ascii "seconds"))
    have hne : ascii "start_timer" ≠ ascii "set_relay" := by decide
    cases h : lib.getUint32 (params.member (ascii "seconds")) <;>
      simp [startTimerMethod, converts, hne, hd, h, bind, Except.bind, pure, Except.pure]
  · have hd := @Json.isNumeric_iff_getUint32 lib (params.member (ascii "duration_ms"))
    have hne : ascii "start_pulse" ≠ ascii "set_relay" := by decide
    cases h : lib.getUint32 (params.member (ascii "duration_ms")) <;>
      simp [startPulseMethod, converts, hne, hd, h, bind, Except.bind, pure, Except.pure]
  · have hon := @Json.isNumeric_iff_getUint32 lib (params.member (ascii "on_ms"))
    have hoff := @Json.isNumeric_iff_getUint32 lib (params.member (ascii "off_ms"))
    have hcount := @Json.isNumeric_iff_getUint32 lib (params.member (ascii "count"))
    have hne : ascii "start_blink" ≠ ascii "set_relay" := by decide
    cases h₁ : lib.getUint32 (params.member (ascii "on_ms")) <;>
      cases h₂ : lib.getUint32 (params.member (ascii "off_ms")) <;>
      cases h₃ : lib.getUint32 (params.member (ascii "count")) <;>
      simp [startBlinkMethod, converts, hne, hon, hoff, hcount, h₁, h₂, h₃, bind, Except.bind, pure, Except.pure]

/-- The checks refuse exactly the params that are refused by shape, type or relay id. -/
theorem checked_eq_none_iff (hm : m ∈ commandMethods lib) : m.checked lib params = none ↔ Refused lib m params := by
  have hargs := converting hm params
  have hid := @Json.isNumeric_iff_getInt lib (params.member (ascii "relay_id"))
  unfold checked
  by_cases hobject : params.isObject = false
  · simp only [hobject, Bool.not_false, Bool.true_or, ↓reduceIte, true_iff]
    exact .notObject hobject
  by_cases hall : (ascii "relay_id" :: m.required).all (fun key => params.contains key) = false
  · simp only [hall, Bool.not_false, Bool.or_true, ↓reduceIte, true_iff]
    obtain ⟨key,hmem,hkey⟩ := List.all_eq_false.mp hall
    exact .missing key hmem (Bool.eq_false_iff.mpr hkey)
  rw [Bool.not_eq_false] at hobject hall
  simp only [hobject, hall, Bool.not_true, Bool.or_false, Bool.false_eq_true, ↓reduceIte]
  have hcontains : ∀ key ∈ ascii "relay_id" :: m.required, ¬params.contains key = false := by
    intro key hmem hkey
    rw [List.all_eq_true.mp hall key hmem] at hkey
    cases hkey
  cases hr : lib.getInt (params.member (ascii "relay_id")) with
  | error e =>
    simp only [true_iff]
    refine .relayIdType (Bool.eq_false_iff.mpr fun h => ?_)
    obtain ⟨n,hn⟩ := hid.mp h
    rw [hr] at hn
    cases hn
  | ok relayId =>
    cases ha : m.arguments params with
    | error e =>
      simp only [true_iff]
      by_contra hno
      obtain ⟨args,hok⟩ := hargs.mpr fun key hmem => by
        by_contra hkey
        exact hno (.argumentType key hmem (Bool.eq_false_iff.mpr hkey))
      rw [ha] at hok
      cases hok
    | ok args =>
      simp only [ite_eq_left_iff, reduceCtorEq, imp_false, not_not]
      constructor
      · exact fun hrange => .range relayId hr hrange
      · rintro (h | ⟨key,hmem,hkey⟩ | h | ⟨key,hmem,hkey⟩ | ⟨n,hn,hrange⟩)
        · rw [hobject] at h
          cases h
        · exact absurd hkey (hcontains key hmem)
        · rw [hid.mpr ⟨relayId,hr⟩] at h
          cases h
        · rw [hargs.mp ⟨args,ha⟩ key hmem] at hkey
          cases hkey
        · rw [hr] at hn
          obtain rfl := Except.ok.inj hn
          exact hrange

end CommandMethod

section
variable {H : Type} {m : CommandMethod}

theorem exec_command (hw : Hardware H) (cmd : Command) (s : Server H) :
    exec (Server.command hw cmd) s = (.ok (s.controller.execute hw s.now cmd).1,s.called hw (.command cmd)) := rfl

/-- How a handler fails: it returns an object with a code and an error text, or throws what a
conversion threw. -/
inductive Fails (lib : JsonLib) (m : CommandMethod) (params : Json) : Except Exn Json → Prop
  | missing : Fails lib m params (.ok (errorResult (-32602) m.missing))
  | relayIdType {e : Exn} : lib.getInt (params.member (ascii "relay_id")) = .error e → Fails lib m params (.error e)
  | argumentType {e : Exn} : m.arguments params = .error e → Fails lib m params (.error e)
  | range : Fails lib m params (.ok (errorResult (-32602) outOfRangeText))

theorem exec_commandHandler (hm : m.Regular) (lib : JsonLib) (hw : Hardware H) (params id : Json) (s : Server H) :
    (∃ cmd echo, m.checked lib params = some (cmd,echo) ∧
      exec (commandHandler lib hw m params id) s =
        (.ok (.ofMembers ((ascii "success",.boolean true) :: (ascii "relay_id",.integer cmd.relayId) :: echo)),
          s.called hw (.command cmd))) ∨
    (m.checked lib params = none ∧
      ∃ r, exec (commandHandler lib hw m params id) s = (r,s) ∧ Fails lib m params r) := by
  unfold CommandMethod.checked commandHandler
  by_cases hshape : (!params.isObject || !(ascii "relay_id" :: m.required).all fun key => params.contains key) = true
  · rw [if_pos hshape, if_pos hshape]
    exact .inr ⟨rfl,_,rfl,.missing⟩
  rw [if_neg hshape, if_neg hshape]
  cases hr : lib.getInt (params.member (ascii "relay_id")) with
  | error e =>
    refine .inr ⟨rfl,.error e,?_,.relayIdType hr⟩
    exact exec_bind_error rfl
  | ok relayId =>
    cases ha : m.arguments params with
    | error e =>
      refine .inr ⟨rfl,.error e,?_,.argumentType ha⟩
      rw [exec_bind_ok (exec_lift _)]
      exact exec_bind_error rfl
    | ok args =>
      rw [exec_bind_ok (exec_lift _), exec_bind_ok (exec_lift _)]
      by_cases hrange : relayId < 1 ∨ relayId > 8
      · simp only [if_pos hrange]
        exact .inr ⟨trivial,_,rfl,.range⟩
      · have haddr : (args.command relayId).relayId = relayId := hm.addresses ha relayId
        have hok : (s.controller.execute hw s.now (args.command relayId)).1 = true := by
          rcases BaseRelayController.execute_cases hw s.controller s.now (args.command relayId) with ⟨hn,_⟩ | ⟨_,he⟩
          · omega
          · rw [he]
        simp only [if_neg hrange]
        refine .inl ⟨_,_,rfl,?_⟩
        rw [exec_bind_ok (exec_command hw _ s), hok, haddr]
        rfl

end

def Command.method : Command → Bytes
  | .setRelay _ _ => ascii "set_relay"
  | .startTimer _ _ => ascii "start_timer"
  | .startPulse _ _ => ascii "start_pulse"
  | .startBlink _ _ _ _ => ascii "start_blink"

/-- The params ask for this command: a relay id from 1 to 8, a boolean state, and durations and
counts that are JSON integers equal to the 32-bit arguments, at most 100000 ms for a pulse. -/
def Documented (params : Json) (cmd : Command) : Prop :=
  params.member (ascii "relay_id") = .integer cmd.relayId ∧ 1 ≤ cmd.relayId ∧ cmd.relayId ≤ 8 ∧
  match cmd with
  | .setRelay _ state => params.member (ascii "state") = .boolean state
  | .startTimer _ seconds => params.member (ascii "seconds") = .integer seconds.toNat
  | .startPulse _ durationMs =>
    params.member (ascii "duration_ms") = .integer durationMs.toNat ∧ durationMs.toNat ≤ 100000
  | .startBlink _ onMs offMs count =>
    params.member (ascii "on_ms") = .integer onMs.toNat ∧ params.member (ascii "off_ms") = .integer offMs.toNat ∧
    params.member (ascii "count") = .integer count.toNat

/-- The request is well formed, names the method of the command and its params ask for it. -/
def Asks (reqJson : Json) (cmd : Command) : Prop :=
  reqJson.member (ascii "method") = .string cmd.method ∧ Documented (requestParams reqJson) cmd

theorem getInt_int32 {lib : JsonLib} {n : ℤ} (h : -2 ^ 31 ≤ n ∧ n < 2 ^ 31) : lib.getInt (.integer n) = .ok n := by
  have hb : n.bmod (2 ^ 32) = n := by
    apply Int.bmod_eq_of_le <;> omega
  rw [JsonLib.getInt, hb]

theorem getUint32_toNat {lib : JsonLib} (n : UInt32) : lib.getUint32 (.integer n.toNat) = .ok n := by
  have hlt : n.toNat < 2 ^ 32 := n.toNat_lt
  have hn : UInt32.ofInt (n.toNat : ℤ) = n := by
    have hmod : ((n.toNat : ℤ) % 2 ^ 32).toNat = n.toNat := by omega
    rw [UInt32.ofInt, hmod, UInt32.ofNat_toNat]
  rw [JsonLib.getUint32, hn]

def commandMethod (lib : JsonLib) : Command → CommandMethod
  | .setRelay _ _ => setRelayMethod
  | .startTimer _ _ => startTimerMethod lib
  | .startPulse _ _ => startPulseMethod lib
  | .startBlink _ _ _ _ => startBlinkMethod lib

theorem commandMethod_mem (lib : JsonLib) (cmd : Command) : commandMethod lib cmd ∈ commandMethods lib := by
  cases cmd <;> simp [commandMethod, commandMethods]

theorem eq_commandMethod {lib : JsonLib} {m : CommandMethod} (hm : m ∈ commandMethods lib) {cmd : Command}
    (hname : cmd.method = m.name) : m = commandMethod lib cmd := by
  have hname : (commandMethod lib cmd).name = m.name := by
    rw [← hname]
    cases cmd <;> rfl
  have hnodup : ((commandMethods lib).map CommandMethod.name).Nodup := by
    change [ascii "set_relay",ascii "start_timer",ascii "start_pulse",ascii "start_blink"].Nodup
    decide
  exact List.inj_on_of_nodup_map hnodup hm (commandMethod_mem lib cmd) hname.symm

/-- The params have the members of a command, whether or not its relay exists. -/
def Carries (params : Json) (cmd : Command) : Prop :=
  params.member (ascii "relay_id") = .integer cmd.relayId ∧ -2 ^ 31 ≤ cmd.relayId ∧ cmd.relayId < 2 ^ 31 ∧
  match cmd with
  | .setRelay _ state => params.member (ascii "state") = .boolean state
  | .startTimer _ seconds => params.member (ascii "seconds") = .integer seconds.toNat
  | .startPulse _ durationMs => params.member (ascii "duration_ms") = .integer durationMs.toNat
  | .startBlink _ onMs offMs count =>
    params.member (ascii "on_ms") = .integer onMs.toNat ∧ params.member (ascii "off_ms") = .integer offMs.toNat ∧
    params.member (ascii "count") = .integer count.toNat

/-- Params with the members of a command pass the checks if its relay exists, and it is that command
which is applied. -/
theorem Carries.checked (lib : JsonLib) {params : Json} {cmd : Command} (h : Carries params cmd) :
    ∃ echo, (commandMethod lib cmd).checked lib params =
      if cmd.relayId < 1 ∨ cmd.relayId > 8 then none else some (cmd,echo) := by
  obtain ⟨hid,hlow,hhigh,hargs⟩ := h
  have hrid := Json.contains_of_member hid rfl
  have hget : lib.getInt (params.member (ascii "relay_id")) = .ok cmd.relayId := by
    rw [hid, getInt_int32 ⟨hlow,hhigh⟩]
  cases cmd with
  | setRelay relayId state =>
    have hs := Json.contains_of_member hargs rfl
    refine ⟨[(ascii "state",.boolean state)],?_⟩
    simp only [CommandMethod.checked, commandMethod, setRelayMethod, hrid.1, hrid.2, hs.2, hget, hargs, JsonLib.getBool,
      List.all_cons, List.all_nil, Bool.and_self, Bool.not_true, Bool.or_self, Bool.false_eq_true, ↓reduceIte]
    rfl
  | startTimer relayId seconds =>
    have hs := Json.contains_of_member hargs rfl
    refine ⟨[(ascii "seconds",.integer seconds.toNat)],?_⟩
    simp only [CommandMethod.checked, commandMethod, startTimerMethod, hrid.1, hrid.2, hs.2, hget, hargs, getUint32_toNat,
      List.all_cons, List.all_nil, Bool.and_self, Bool.not_true, Bool.or_self, Bool.false_eq_true, ↓reduceIte]
    rfl
  | startPulse relayId durationMs =>
    have hs := Json.contains_of_member hargs rfl
    refine ⟨[(ascii "duration_ms",.integer durationMs.toNat)],?_⟩
    simp only [CommandMethod.checked, commandMethod, startPulseMethod, hrid.1, hrid.2, hs.2, hget, hargs, getUint32_toNat,
      List.all_cons, List.all_nil, Bool.and_self, Bool.not_true, Bool.or_self, Bool.false_eq_true, ↓reduceIte]
    rfl
  | startBlink relayId onMs offMs count =>
    obtain ⟨hon,hoff,hcount⟩ := hargs
    have hs₁ := Json.contains_of_member hon rfl
    have hs₂ := Json.contains_of_member hoff rfl
    have hs₃ := Json.contains_of_member hcount rfl
    refine ⟨[(ascii "on_ms",.integer onMs.toNat),(ascii "off_ms",.integer offMs.toNat),(ascii "count",.integer count.toNat)],?_⟩
    simp only [CommandMethod.checked, commandMethod, startBlinkMethod, hrid.1, hrid.2, hs₁.2, hs₂.2, hs₃.2, hget, hon,
      hoff, hcount, getUint32_toNat, List.all_cons, List.all_nil, Bool.and_self, Bool.not_true, Bool.or_self, Bool.false_eq_true,
      ↓reduceIte]
    rfl

theorem Documented.checked {lib : JsonLib} {m : CommandMethod} (hm : m ∈ commandMethods lib) {params : Json} {cmd : Command}
    (hname : cmd.method = m.name) (h : Documented params cmd) : ∃ echo, m.checked lib params = some (cmd,echo) := by
  obtain ⟨hid,hlow,hhigh,hargs⟩ := h
  have hc : Carries params cmd := by
    refine ⟨hid,by omega,by omega,?_⟩
    cases cmd with
    | startPulse => exact hargs.1
    | setRelay | startTimer | startBlink => exact hargs
  obtain ⟨echo,he⟩ := hc.checked lib
  refine ⟨echo,?_⟩
  rw [eq_commandMethod hm hname, he]
  exact if_neg (by omega)

section
variable {H : Type} {lib : JsonLib} {hw : Hardware H} {m : CommandMethod} {reqJson : Json} {s : Server H}

def IsResult (response : Json) : Prop :=
  response.contains (ascii "result") = true ∧ response.contains (ascii "error") = false

def IsError (response : Json) : Prop :=
  response.contains (ascii "error") = true ∧ response.contains (ascii "result") = false

theorem isError_makeErrorResponse (id : Json) (code : ℤ) (message : Bytes) : IsError (makeErrorResponse id code message) :=
  ⟨rfl,rfl⟩

theorem isResult_makeSuccessResponse (id result : Json) : IsResult (makeSuccessResponse id result) := ⟨rfl,rfl⟩

theorem lookup_commandMethod (hm : m ∈ commandMethods lib) :
    (mainRouter lib hw).lookup m.name = some (commandHandler lib hw m) := by
  simp only [commandMethods, List.mem_cons, List.not_mem_nil, or_false] at hm
  rcases hm with rfl | rfl | rfl | rfl <;> rfl

theorem not_contains_error (hm : m ∈ commandMethods lib) {params : Json} {cmd : Command}
    {echo : List (Bytes × Json)} (h : m.checked lib params = some (cmd,echo)) (relayId : ℤ) :
    (Json.ofMembers ((ascii "success",.boolean true) :: (ascii "relay_id",.integer relayId) :: echo)).contains
      (ascii "error") = false := by
  rw [Bool.eq_false_iff]
  intro hc
  rw [Json.contains_ofMembers_iff] at hc
  have hecho : echo.map Prod.fst = m.required := by
    obtain ⟨_,args,ha,_,_,_,rfl⟩ := CommandMethod.checked_eq_some h
    exact (CommandMethod.regular hm).echoes ha
  rw [List.map_cons, List.map_cons, hecho] at hc
  simp only [commandMethods, List.mem_cons, List.not_mem_nil, or_false] at hm
  revert hc
  rcases hm with rfl | rfl | rfl | rfl
  all_goals
    simp only [setRelayMethod, startTimerMethod, startPulseMethod, startBlinkMethod]
    decide

/-- A request for one of the four methods applies the checked command and answers with a result,
or changes nothing and answers with an error. -/
theorem exec_processSingleRequest (hw : Hardware H) (s : Server H) (hm : m ∈ commandMethods lib) (hreq : isRequest reqJson = true)
    (hname : reqJson.member (ascii "method") = .string m.name) :
    (∃ cmd echo response, m.checked lib (requestParams reqJson) = some (cmd,echo) ∧
      exec (processSingleRequest lib (mainRouter lib hw) reqJson) s = (.ok response,s.called hw (.command cmd)) ∧
      IsResult response) ∨
    (m.checked lib (requestParams reqJson) = none ∧
      ∃ response, exec (processSingleRequest lib (mainRouter lib hw) reqJson) s = (.ok response,s) ∧
        IsError response) := by
  have hmethod : JsonLib.getString (reqJson.member (ascii "method")) = .ok m.name := by rw [hname]; rfl
  unfold processSingleRequest
  rw [if_neg (by simp [hreq]), hmethod, exec_bind_ok (exec_lift _), exec_tryCatch, callMethod, lookup_commandMethod hm]
  rcases exec_commandHandler (CommandMethod.regular hm) lib hw (requestParams reqJson) (requestId reqJson) s with
    ⟨cmd,echo,hc,he⟩ | ⟨hc,r,he,hf⟩
  · set result := Json.ofMembers
      ((ascii "success",.boolean true) :: (ascii "relay_id",.integer cmd.relayId) :: echo) with hresult
    refine .inl ⟨cmd,echo,makeSuccessResponse (requestId reqJson) result,hc,?_,isResult_makeSuccessResponse _ _⟩
    have herror : result.contains (ascii "error") = false := not_contains_error hm hc cmd.relayId
    dsimp only
    rw [exec_bind_ok he, if_neg (by simp [herror])]
    rfl
  · refine .inr ⟨hc,?_⟩
    cases hf with
    | missing | range =>
      rw [exec_bind_ok he]
      exact ⟨_,rfl,isError_makeErrorResponse _ _ _⟩
    | relayIdType | argumentType =>
      rw [exec_bind_error he]
      exact ⟨_,rfl,isError_makeErrorResponse _ _ _⟩

/-- A command that the params ask for is applied as it is, and answered with a result; any other
request is answered with an error and changes nothing. -/
def AppliesExactly (hw : Hardware H) (s : Server H) (reqJson : Json) (outcome : Except Exn Json × Server H) : Prop :=
  (∀ cmd, Asks reqJson cmd →
    ∃ response, outcome = (.ok response,s.called hw (.command cmd)) ∧ IsResult response) ∧
  ((¬∃ cmd, Asks reqJson cmd) → ∃ response, outcome = (.ok response,s) ∧ IsError response)

theorem called_ne (e : Event) : s.called hw e ≠ s := by
  intro h
  have hlen := congrArg (fun s => s.operations.length) h
  simp [Server.called] at hlen

/-- The four methods apply exactly what the API says when the params ask for a command, or when
the checks of the code refuse them; on all other params they apply something else. -/
theorem appliesExactly_iff (lib : JsonLib) (hw : Hardware H) (s : Server H) (m : CommandMethod)
    (hm : m ∈ commandMethods lib) (reqJson : Json) (hreq : isRequest reqJson = true)
    (hname : reqJson.member (ascii "method") = .string m.name) :
    AppliesExactly hw s reqJson (exec (processSingleRequest lib (mainRouter lib hw) reqJson) s) ↔
      (∃ cmd, Asks reqJson cmd) ∨ m.Refused lib (requestParams reqJson) := by
  have hasks : ∀ cmd, Asks reqJson cmd → ∃ echo, m.checked lib (requestParams reqJson) = some (cmd,echo) := by
    rintro cmd ⟨hmethod,hdoc⟩
    have hn : cmd.method = m.name := Json.string.inj (hmethod.symm.trans hname)
    exact hdoc.checked hm hn
  rw [← CommandMethod.checked_eq_none_iff hm]
  rcases exec_processSingleRequest hw s hm hreq hname with ⟨cmd,echo,response,hc,he,hr⟩ | ⟨hc,response,he,hr⟩
  · rw [he]
    constructor
    · rintro ⟨_,hno⟩
      by_contra hnone
      obtain ⟨_,heq,_⟩ := hno fun h => hnone (.inl h)
      exact called_ne _ (Prod.mk.inj heq).2
    · rintro (⟨cmd',ha⟩ | hnone)
      · refine ⟨?_,fun hno => absurd ⟨cmd',ha⟩ hno⟩
        intro cmd'' ha''
        obtain ⟨echo'',hc''⟩ := hasks cmd'' ha''
        obtain ⟨rfl,_⟩ := Prod.mk.inj (Option.some.inj (hc''.symm.trans hc))
        exact ⟨response,rfl,hr⟩
      · rw [hc] at hnone
        cases hnone
  · rw [he]
    refine iff_of_true ⟨?_,fun _ => ⟨response,rfl,hr⟩⟩ (.inr hc)
    intro cmd ha
    obtain ⟨echo,hsome⟩ := hasks cmd ha
    rw [hc] at hsome
    cases hsome

/-- Relay 4294967297 is relay 1. -/
theorem appliesExactly_fails :
    ¬∀ (H : Type) (lib : JsonLib) (hw : Hardware H) (s : Server H) (m : CommandMethod), m ∈ commandMethods lib →
      ∀ reqJson, isRequest reqJson = true → reqJson.member (ascii "method") = .string m.name →
      AppliesExactly hw s reqJson (exec (processSingleRequest lib (mainRouter lib hw) reqJson) s) := by
  intro h
  set params : Json := .object [(ascii "relay_id",.integer 4294967297),(ascii "state",.boolean true)]
  set reqJson : Json := .object [(ascii "jsonrpc",.string (ascii "2.0")),(ascii "method",.string (ascii "set_relay")),
    (ascii "params",params)]
  set s : Server Unit := { controller := .construct (), clock := fun _ => 0 }
  have hm : setRelayMethod ∈ commandMethods .compact := List.mem_cons_self
  have hno : ¬∃ cmd, Asks reqJson cmd := by
    rintro ⟨cmd,_,hid,_,hhigh,_⟩
    have hrid : (4294967297 : ℤ) = cmd.relayId := Json.integer.inj hid
    omega
  obtain ⟨_,heq,_⟩ := (h Unit .compact sil s setRelayMethod hm reqJson rfl rfl).2 hno
  have hreq : isRequest reqJson = true := rfl
  rcases exec_processSingleRequest sil s hm hreq rfl with ⟨_,_,_,_,he,_⟩ | ⟨hc,_⟩
  · rw [he] at heq
    exact called_ne _ (Prod.mk.inj heq).2
  · have hsome : (setRelayMethod.checked .compact params).isSome = true := by decide
    rw [show setRelayMethod.checked .compact params = none from hc] at hsome
    cases hsome

/-- A pulse of 500 ms on relay 2. -/
theorem appliesExactly_iff_pulse :
    let params : Json := .object [(ascii "duration_ms",.integer 500),(ascii "relay_id",.integer 2)]
    let reqJson : Json := .object [(ascii "jsonrpc",.string (ascii "2.0")),(ascii "method",.string (ascii "start_pulse")),
      (ascii "params",params)]
    let s : Server Unit := { controller := .construct (), clock := fun _ => 0 }
    AppliesExactly sil s reqJson (exec (processSingleRequest .compact (mainRouter .compact sil) reqJson) s) := by
  intro params reqJson s
  refine (appliesExactly_iff .compact sil s (startPulseMethod .compact) (by simp [commandMethods]) reqJson rfl rfl).mpr
    (.inl ⟨.startPulse 2 500,rfl,rfl,by decide,by decide,rfl,by decide⟩)

end

end MiniHil
