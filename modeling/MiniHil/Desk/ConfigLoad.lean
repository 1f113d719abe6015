import MiniHil.Desk.ConfigManager

/-! # A load of the settings that keeps or takes everything

The members of the file are assigned one after the other, and any of the conversions can throw. For
which files this is still all or nothing.
-/
namespace MiniHil
open Throwing

namespace Json

/-- The value is a number, and equal to `n`. -/
def IsInt : Json → ℤ → Prop
  | .integer k, n => k = n
  | .float d, n => d.mantissa * 2 ^ d.exponent.toNat = n * 2 ^ (-d.exponent).toNat
  | _, _ => False

def isString : Json → Bool
  | .string _ => true
  | _ => false

theorem isString_iff_getString {j : Json} : j.isString = true ↔ ∃ t, JsonLib.getString j = .ok t := by
  cases j <;> simp [isString, JsonLib.getString]

theorem IsInt.trunc {d : Double} {n : ℤ} (h : (Json.float d).IsInt n) : d.trunc = n := by
  change d.mantissa * 2 ^ d.exponent.toNat = n * 2 ^ (-d.exponent).toNat at h
  unfold Double.trunc
  split_ifs with he
  · rw [h, Int.toNat_eq_zero.mpr (by omega), Int.pow_zero, Int.mul_one]
  · rw [Int.toNat_eq_zero.mpr (by omega), Int.pow_zero, Int.mul_one] at h
    rw [h]
    exact Int.mul_tdiv_cancel n (Int.ne_of_gt (Int.pow_pos (by decide)))

theorem IsInt.getInt {lib : JsonLib} {j : Json} {n : ℤ} (h : j.IsInt n) (hn : -2 ^ 31 ≤ n ∧ n < 2 ^ 31) :
    lib.getInt j = .ok n := by
  cases j with
  | integer k =>
    obtain rfl : k = n := h
    exact getInt_int32 hn
  | float d =>
    rw [JsonLib.getInt, h.trunc, if_pos hn]
  | _ => exact h.elim

def Optional (key : Bytes) (p : Json → Prop) (j : Json) : Prop := j.contains key = true → p (j.member key)

theorem Optional.refuse {key : Bytes} {right : Json → Bool} {j : Json} (h : j.Optional key fun v => right v = true)
    (hc : j.contains key = true ∧ right (j.member key) = false) : False := by
  have hr : right (j.member key) = true := h hc.1
  rw [hc.2] at hr
  cases hr

end Json

namespace ConfigManager

def Stored {α : Type} (key : Bytes) (is : Json → α → Prop) (j : Json) (old new : α) : Prop :=
  if j.contains key then is (j.member key) new else new = old

/-- The settings `new` are those of the file over the settings `old`. -/
structure Stores (j : Json) (old new : ConfigManager) : Prop where
  ip : Stored (ascii "ip") (fun value ip => value = .string ip) j old.ip new.ip
  port : Stored (ascii "port") (fun value port => value.IsInt port.toInt) j old.port new.port
  useSsl : Stored (ascii "ssl") (fun value b => value = .boolean b) j old.useSsl new.useSsl
  useMtls : Stored (ascii "mtls") (fun value b => value = .boolean b) j old.useMtls new.useMtls

/-- The file can be read, and its text begins with this value. -/
structure Found (lib : ConfigLib) (sys : DeskSystem) (files : DeskFiles) (j : Json) : Prop where
  exists_ : sys.existsAt files (getConfigPath sys.home) = some true
  readable : sys.readable (getConfigPath sys.home) = true
  read : lib.readStream ((files (getConfigPath sys.home)).getD []) = .ok j

/-- A load that fails changes nothing, and one that succeeds takes exactly what the file holds. -/
def AllOrNothing (lib : ConfigLib) (sys : DeskSystem) (files : DeskFiles) (m : ConfigManager) : Prop :=
  ((load lib sys files m).1 = some false → (load lib sys files m).2 = m) ∧
  ((load lib sys files m).1 = some true → ∃ j, Found lib sys files j ∧ Stores j m (load lib sys files m).2)

/-- All members can be taken, or those in front of the first one that cannot hold the settings there
are already. -/
inductive Settled (lib : ConfigLib) (m : ConfigManager) (j : Json) : Prop
  | whole : j.Optional (ascii "ip") (fun v => v.isString = true) →
      j.Optional (ascii "port") (fun v => ∃ n : ℤ, v.IsInt n ∧ -2 ^ 31 ≤ n ∧ n < 2 ^ 31) →
      j.Optional (ascii "ssl") (fun v => v.isBoolean = true) →
      j.Optional (ascii "mtls") (fun v => v.isBoolean = true) → Settled lib m j
  | ip : j.contains (ascii "ip") = true → (j.member (ascii "ip")).isString = false → Settled lib m j
  | port : j.Optional (ascii "ip") (fun v => v = .string m.ip) →
      j.contains (ascii "port") = true → (j.member (ascii "port")).isNumeric = false → Settled lib m j
  | useSsl : j.Optional (ascii "ip") (fun v => v = .string m.ip) →
      j.Optional (ascii "port") (fun v => lib.getInt v = .ok m.port.toInt) →
      j.contains (ascii "ssl") = true → (j.member (ascii "ssl")).isBoolean = false → Settled lib m j
  | useMtls : j.Optional (ascii "ip") (fun v => v = .string m.ip) →
      j.Optional (ascii "port") (fun v => lib.getInt v = .ok m.port.toInt) →
      j.Optional (ascii "ssl") (fun v => v = .boolean m.useSsl) →
      j.contains (ascii "mtls") = true → (j.member (ascii "mtls")).isBoolean = false → Settled lib m j

variable {lib : ConfigLib} {sys : DeskSystem} {files : DeskFiles} {m : ConfigManager} {j : Json}

def valueOr {α : Type} (key : Bytes) (get : Json → Except Exn α) (j : Json) (old : α) : Except Exn α :=
  if j.contains key then get (j.member key) else .ok old

section
variable {α : Type} {key : Bytes} {get : Json → Except Exn α} {old new : α}

theorem exec_loadMember_valueOr (old : α) {set : α → ConfigManager → ConfigManager} (hset : set old m = m) :
    exec (loadMember key get set j) m = match valueOr key get j old with
      | .ok value => (.ok (),set value m)
      | .error e => (.error e,m) := by
  rw [exec_loadMember, valueOr]
  split_ifs
  · rfl
  · simp only [hset]

theorem valueOr_error {e : Exn} (h : valueOr key get j old = .error e) :
    j.contains key = true ∧ get (j.member key) = .error e := by
  unfold valueOr at h
  split_ifs at h with hc
  exact ⟨hc,h⟩

theorem valueOr_ok (h : valueOr key get j old = .ok new) :
    (j.contains key = true ∧ get (j.member key) = .ok new) ∨ (j.contains key = false ∧ new = old) := by
  unfold valueOr at h
  split_ifs at h with hc
  · exact .inl ⟨hc,h⟩
  · exact .inr ⟨Bool.eq_false_iff.mpr hc,(Except.ok.inj h).symm⟩

theorem accepted_of_valueOr {right : Json → Bool} (hright : ∀ {v}, right v = true ↔ ∃ n, get v = .ok n)
    (h : valueOr key get j old = .ok new) : j.Optional key fun v => right v = true := by
  intro hc
  rcases valueOr_ok h with ⟨_,hget⟩ | ⟨hno,_⟩
  · exact hright.mpr ⟨new,hget⟩
  · rw [hc] at hno
    cases hno

theorem refused_of_valueOr {right : Json → Bool} (hright : ∀ {v}, right v = true ↔ ∃ n, get v = .ok n) {e : Exn}
    (h : valueOr key get j old = .error e) : j.contains key = true ∧ right (j.member key) = false := by
  obtain ⟨hc,hget⟩ := valueOr_error h
  refine ⟨hc,Bool.eq_false_iff.mpr fun ht => ?_⟩
  obtain ⟨n,hn⟩ := hright.mp ht
  rw [hget] at hn
  cases hn

theorem stored_of_valueOr {is : Json → α → Prop} (his : get (j.member key) = .ok new → is (j.member key) new)
    (h : valueOr key get j old = .ok new) : Stored key is j old new := by
  unfold Stored
  rcases valueOr_ok h with ⟨hc,hget⟩ | ⟨hc,hnew⟩
  · rw [if_pos hc]
    exact his hget
  · rwa [if_neg (by simp [hc])]

/-- The value before is kept exactly where the member is absent or converts to it. -/
theorem valueOr_kept (h : valueOr key get j old = .ok new) : new = old ↔ j.Optional key fun v => get v = .ok old := by
  constructor
  · rintro rfl hc
    rcases valueOr_ok h with ⟨_,hget⟩ | ⟨hno,_⟩
    · exact hget
    · rw [hc] at hno
      cases hno
  · intro hold
    rcases valueOr_ok h with ⟨hc,hget⟩ | ⟨_,hnew⟩
    · exact Except.ok.inj (hget.symm.trans (hold hc))
    · exact hnew

end

theorem exec_loadMembers {contents : Bytes} (h : lib.readStream contents = .ok j) :
    exec (loadMembers lib contents) m =
      match valueOr (ascii "ip") JsonLib.getString j m.ip with
      | .error e => (.error e,m)
      | .ok ip =>
        match valueOr (ascii "port") lib.getInt j m.port.toInt with
        | .error e => (.error e,{ m with ip })
        | .ok port =>
          match valueOr (ascii "ssl") JsonLib.getBool j m.useSsl with
          | .error e => (.error e,{ m with ip, port := Int32.ofInt port })
          | .ok useSsl =>
            match valueOr (ascii "mtls") JsonLib.getBool j m.useMtls with
            | .error e => (.error e,{ m with ip, port := Int32.ofInt port, useSsl })
            | .ok useMtls => (.ok (),{ ip, port := Int32.ofInt port, useSsl, useMtls }) := by
  unfold loadMembers
  rw [h, exec_bind_ok (exec_lift _), exec_bind, loadIp, exec_loadMember_valueOr m.ip rfl]
  cases valueOr (ascii "ip") JsonLib.getString j m.ip with
  | error e => rfl
  | ok ip =>
    have hport : { m with ip, port := Int32.ofInt m.port.toInt } = { m with ip } := by rw [Int32.ofInt_toInt]
    dsimp only
    rw [exec_bind, loadPort, exec_loadMember_valueOr m.port.toInt hport]
    cases valueOr (ascii "port") lib.getInt j m.port.toInt with
    | error e => rfl
    | ok port =>
      dsimp only
      rw [exec_bind, loadSsl, exec_loadMember_valueOr m.useSsl rfl]
      cases valueOr (ascii "ssl") JsonLib.getBool j m.useSsl with
      | error e => rfl
      | ok useSsl =>
        dsimp only
        rw [loadMtls, exec_loadMember_valueOr m.useMtls rfl]
        cases valueOr (ascii "mtls") JsonLib.getBool j m.useMtls <;> rfl

theorem load_found (h : Found lib sys files j) :
    load lib sys files m = match exec (loadMembers lib ((files (getConfigPath sys.home)).getD [])) m with
      | (.ok _,m) => (some true,m)
      | (.error _,m) => (some false,m) := by
  unfold load
  dsimp only
  rw [h.exists_]
  exact if_pos h.readable

theorem load_not_found (h : ¬∃ j, Found lib sys files j) :
    (load lib sys files m).1 ≠ some true ∧ (load lib sys files m).2 = m := by
  simp only [load]
  cases hexists : sys.existsAt files (getConfigPath sys.home) with
  | none => exact ⟨nofun,rfl⟩
  | some found =>
    cases found with
    | false => exact ⟨nofun,rfl⟩
    | true =>
      dsimp only
      split_ifs with hreadable
      · cases hread : lib.readStream ((files (getConfigPath sys.home)).getD []) with
        | error e =>
          rw [loadMembers, hread, exec_bind_error (exec_lift _)]
          exact ⟨nofun,rfl⟩
        | ok j => exact absurd ⟨j,hexists,hreadable,hread⟩ h
      · exact ⟨nofun,rfl⟩

theorem Found.unique {j' : Json} (h : Found lib sys files j) (h' : Found lib sys files j') : j = j' :=
  Except.ok.inj (h.read.symm.trans h'.read)

theorem ofInt_eq_iff {port : ℤ} (h : valueOr (ascii "port") lib.getInt j m.port.toInt = .ok port) :
    Int32.ofInt port = m.port ↔ port = m.port.toInt := by
  rcases valueOr_ok h with ⟨_,hget⟩ | ⟨_,rfl⟩
  · obtain ⟨hlow,hhigh⟩ := JsonLib.getInt_range hget
    rw [← Int32.toInt_inj, Int32.toInt_ofInt_of_le hlow hhigh]
  · exact iff_of_true (Int32.ofInt_toInt m.port) rfl

theorem allOrNothing_found (h : Found lib sys files j) : AllOrNothing lib sys files m ↔
    match exec (loadMembers lib ((files (getConfigPath sys.home)).getD [])) m with
    | (.ok _,m') => Stores j m m'
    | (.error _,m') => m' = m := by
  unfold AllOrNothing
  rw [load_found h]
  rcases exec (loadMembers lib ((files (getConfigPath sys.home)).getD [])) m with ⟨_ | _,m'⟩
  · exact ⟨fun hr => hr.1 rfl,fun hr => ⟨fun _ => hr,nofun⟩⟩
  · constructor
    · rintro ⟨_,hr⟩
      obtain ⟨j',hfound,hstores⟩ := hr rfl
      exact h.unique hfound ▸ hstores
    · exact fun hr => ⟨nofun,fun _ => ⟨j,h,hr⟩⟩

/-- All conversions went through: the port is the only one that can have changed a value. -/
theorem stores_iff {ip : Bytes} {port : ℤ} {useSsl useMtls : Bool}
    (hip : valueOr (ascii "ip") JsonLib.getString j m.ip = .ok ip)
    (hport : valueOr (ascii "port") lib.getInt j m.port.toInt = .ok port)
    (hssl : valueOr (ascii "ssl") JsonLib.getBool j m.useSsl = .ok useSsl)
    (hmtls : valueOr (ascii "mtls") JsonLib.getBool j m.useMtls = .ok useMtls) :
    Stores j m { ip, port := Int32.ofInt port, useSsl, useMtls } ↔
      j.Optional (ascii "port") fun v => ∃ n : ℤ, v.IsInt n ∧ -2 ^ 31 ≤ n ∧ n < 2 ^ 31 := by
  constructor
  · intro h hc
    have hstored := h.port
    rw [Stored, if_pos hc] at hstored
    exact ⟨_,hstored,Int32.le_toInt _,Int32.toInt_lt _⟩
  · intro h
    refine ⟨stored_of_valueOr Json.getString_eq_ok_iff.mp hip,?_,stored_of_valueOr Json.getBool_eq_ok_iff.mp hssl,
      stored_of_valueOr Json.getBool_eq_ok_iff.mp hmtls⟩
    unfold Stored
    rcases valueOr_ok hport with ⟨hc,hget⟩ | ⟨hc,rfl⟩
    · obtain ⟨n,hn,hrange⟩ := h hc
      obtain rfl : n = port := Except.ok.inj ((hn.getInt hrange).symm.trans hget)
      rw [if_pos hc]
      change (j.member (ascii "port")).IsInt (Int32.ofInt n).toInt
      rw [Int32.toInt_ofInt_of_le hrange.1 hrange.2]
      exact hn
    · rw [if_neg (by simp [hc])]
      exact Int32.ofInt_toInt m.port

section
variable (hip : j.Optional (ascii "ip") fun v => v.isString = true)
  (hport : j.Optional (ascii "port") fun v => v.isNumeric = true)
  (hssl : j.Optional (ascii "ssl") fun v => v.isBoolean = true)
include hip

theorem settled_port_iff
    (h : j.contains (ascii "port") = true ∧ (j.member (ascii "port")).isNumeric = false) :
    Settled lib m j ↔ j.Optional (ascii "ip") fun v => v = .string m.ip := by
  have hnumeric {n : ℤ} (hn : lib.getInt (j.member (ascii "port")) = .ok n) : False := by
    have ht := Json.isNumeric_iff_getInt.mpr ⟨n,hn⟩
    rw [h.2] at ht
    cases ht
  refine ⟨fun hsettled => ?_,fun hi => .port hi h.1 h.2⟩
  cases hsettled with
  | whole _ hp =>
    obtain ⟨n,hn,hrange⟩ := hp h.1
    exact (hnumeric (hn.getInt hrange)).elim
  | ip hc hbad => exact (hip.refuse ⟨hc,hbad⟩).elim
  | port hi => exact hi
  | useSsl _ hp | useMtls _ hp => exact (hnumeric (hp h.1)).elim

include hport

theorem settled_useSsl_iff
    (h : j.contains (ascii "ssl") = true ∧ (j.member (ascii "ssl")).isBoolean = false) :
    Settled lib m j ↔ (j.Optional (ascii "ip") fun v => v = .string m.ip) ∧
      j.Optional (ascii "port") fun v => lib.getInt v = .ok m.port.toInt := by
  refine ⟨fun hsettled => ?_,fun ⟨hi,hp⟩ => .useSsl hi hp h.1 h.2⟩
  cases hsettled with
  | whole _ _ hs => exact (hs.refuse h).elim
  | ip hc hbad => exact (hip.refuse ⟨hc,hbad⟩).elim
  | port _ hc hbad => exact (hport.refuse ⟨hc,hbad⟩).elim
  | useSsl hi hp => exact ⟨hi,hp⟩
  | useMtls _ _ hs =>
    have hb := h.2
    rw [hs h.1] at hb
    cases hb

include hssl

theorem settled_useMtls_iff
    (h : j.contains (ascii "mtls") = true ∧ (j.member (ascii "mtls")).isBoolean = false) :
    Settled lib m j ↔ (j.Optional (ascii "ip") fun v => v = .string m.ip) ∧
      (j.Optional (ascii "port") fun v => lib.getInt v = .ok m.port.toInt) ∧
      j.Optional (ascii "ssl") fun v => v = .boolean m.useSsl := by
  refine ⟨fun hsettled => ?_,fun ⟨hi,hp,hs⟩ => .useMtls hi hp hs h.1 h.2⟩
  cases hsettled with
  | whole _ _ _ hm => exact (hm.refuse h).elim
  | ip hc hbad => exact (hip.refuse ⟨hc,hbad⟩).elim
  | port _ hc hbad => exact (hport.refuse ⟨hc,hbad⟩).elim
  | useSsl _ _ hc hbad => exact (hssl.refuse ⟨hc,hbad⟩).elim
  | useMtls hi hp hs => exact ⟨hi,hp,hs⟩

theorem settled_whole_iff (hmtls : j.Optional (ascii "mtls") fun v => v.isBoolean = true) :
    Settled lib m j ↔ j.Optional (ascii "port") fun v => ∃ n : ℤ, v.IsInt n ∧ -2 ^ 31 ≤ n ∧ n < 2 ^ 31 := by
  refine ⟨fun hsettled => ?_,fun hp => .whole hip hp hssl hmtls⟩
  cases hsettled with
  | whole _ hp => exact hp
  | ip hc hbad => exact (hip.refuse ⟨hc,hbad⟩).elim
  | port _ hc hbad => exact (hport.refuse ⟨hc,hbad⟩).elim
  | useSsl _ _ hc hbad => exact (hssl.refuse ⟨hc,hbad⟩).elim
  | useMtls _ _ _ hc hbad => exact (hmtls.refuse ⟨hc,hbad⟩).elim

end

/-- For every file and all settings: a load is all or nothing exactly when the file cannot be read as a
value, when all members that are there can be taken as they are, or when everything in front of the
first one that cannot is what the settings hold already. -/
theorem allOrNothing_iff (lib : ConfigLib) (sys : DeskSystem) (files : DeskFiles) (m : ConfigManager) :
    AllOrNothing lib sys files m ↔ ∀ j, Found lib sys files j → Settled lib m j := by
  by_cases hfound : ∃ j, Found lib sys files j
  swap
  · obtain ⟨hno,hkept⟩ := load_not_found (m := m) hfound
    exact iff_of_true ⟨fun _ => hkept,fun h => absurd h hno⟩ fun j h => absurd ⟨j,h⟩ hfound
  obtain ⟨j,hfound⟩ := hfound
  have hall : (∀ j, Found lib sys files j → Settled lib m j) ↔ Settled lib m j :=
    ⟨fun h => h j hfound,fun h j' hfound' => hfound.unique hfound' ▸ h⟩
  rw [hall, allOrNothing_found hfound, exec_loadMembers hfound.read]
  cases hip : valueOr (ascii "ip") JsonLib.getString j m.ip with
  | error e =>
    obtain ⟨hc,hbad⟩ := refused_of_valueOr Json.isString_iff_getString hip
    exact iff_of_true rfl (.ip hc hbad)
  | ok ip =>
    have hstring := accepted_of_valueOr Json.isString_iff_getString hip
    have hipKept := valueOr_kept hip
    simp only [Json.getString_eq_ok_iff] at hipKept
    cases hport : valueOr (ascii "port") lib.getInt j m.port.toInt with
    | error e =>
      rw [settled_port_iff hstring (refused_of_valueOr Json.isNumeric_iff_getInt hport), ← hipKept]
      cases m
      simp
    | ok port =>
      have hnumber := accepted_of_valueOr Json.isNumeric_iff_getInt hport
      have hportKept : Int32.ofInt port = m.port ↔ _ := (ofInt_eq_iff hport).trans (valueOr_kept hport)
      cases hssl : valueOr (ascii "ssl") JsonLib.getBool j m.useSsl with
      | error e =>
        rw [settled_useSsl_iff hstring hnumber (refused_of_valueOr Json.isBoolean_iff_getBool hssl), ← hipKept,
          ← hportKept]
        cases m
        simp
      | ok useSsl =>
        have hboolean := accepted_of_valueOr Json.isBoolean_iff_getBool hssl
        have hsslKept := valueOr_kept hssl
        simp only [Json.getBool_eq_ok_iff] at hsslKept
        cases hmtls : valueOr (ascii "mtls") JsonLib.getBool j m.useMtls with
        | error e =>
          rw [settled_useMtls_iff hstring hnumber hboolean (refused_of_valueOr Json.isBoolean_iff_getBool hmtls),
            ← hipKept, ← hportKept, ← hsslKept]
          cases m
          simp
        | ok useMtls =>
          rw [settled_whole_iff hstring hnumber hboolean (accepted_of_valueOr Json.isBoolean_iff_getBool hmtls)]
          exact stores_iff hip hport hssl hmtls

/-- An address, and a port that is a string: the load fails, and the address is the one of the file. -/
theorem allOrNothing_fails : ¬∀ lib sys files m, AllOrNothing lib sys files m := by
  intro h
  set j : Json := .object [(ascii "ip",.string (ascii "10.0.0.1")),(ascii "port",.string (ascii "x"))]
  have hread := @ConfigLib.indented_readStream j (by decide) (by decide) 4
  generalize JsonText.renderIndented 4 0 j = text at hread
  set sys : DeskSystem := { home := none, createDirectories := fun _ => true }
  set files : DeskFiles := fun _ => some text
  have hfound : Found .indented sys files j := ⟨rfl,rfl,hread⟩
  have hsettled := (allOrNothing_iff .indented sys files {}).mp (h .indented sys files {}) j hfound
  have hip : j.contains (ascii "ip") = true := by decide
  have hport : j.contains (ascii "port") = true := by decide
  have hsame : (Json.member (ascii "ip") j).equalsString (ascii "127.0.0.1") = false := by decide
  cases hsettled with
  | whole _ hp =>
    obtain ⟨n,hn,_⟩ := hp hport
    exact hn.elim
  | ip _ hbad => exact absurd hbad (by decide)
  | port hi | useSsl hi | useMtls hi =>
    rw [show Json.member (ascii "ip") j = .string (ascii "127.0.0.1") from hi hip] at hsame
    exact absurd hsame (by decide)

end ConfigManager
end MiniHil
