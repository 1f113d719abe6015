import MiniHil.Desk.ConfigLoad
import MiniHil.Desk.SecureClient

/-! # Connections with the mTLS box checked

The rule that mTLS needs SSL is kept by the handlers of the two check boxes, and they are connected after
the boxes were set from the file. What a run of the window connects and transfers from any start.
-/
namespace MiniHil
open Throwing

inductive Occurrence
  | connected (connection : ℕ) (useMtls : Bool) (ssl : Option Ssl)
  | transferred (t : Transfer)

/-- The check boxes, and the controller with its settings and its client. -/
structure DeskWindow where
  sslCheck : Bool
  mtlsCheck : Bool
  config : ConfigManager
  files : DeskFiles
  client : SecureClient := {}
  connections : ℕ := 0
  history : List Occurrence := []

/-- What the user does, a request on the connection with what its writes return, or a read of the read
thread, which runs while the connection is open. -/
inductive WindowEvent
  | toggleSsl
  | toggleMtls
  | connectClicked (ip : Bytes) (port : Int32) (calls : ConnectCalls)
  | send (message : Bytes) (returns : List ℤ)
  | receive (bytes : Bytes)

namespace WindowEvent

def isToggle : WindowEvent → Bool
  | .toggleSsl | .toggleMtls => true
  | _ => false

/-- A click whose connection is made, as far as it does not depend on SSL. -/
def Reaches : WindowEvent → Prop
  | .connectClicked _ _ calls => SecureClient.Reaches calls
  | _ => False

end WindowEvent

namespace DeskWindow
variable {lib : ConfigLib} {sys : DeskSystem}

/-- The constructor, where the boxes have no handlers yet. `none` where that of the settings throws. -/
def openDesk (lib : ConfigLib) (sys : DeskSystem) (files : DeskFiles) : Option DeskWindow :=
  match ConfigManager.construct lib sys files with
  | none => none
  | some (config,files) => some { sslCheck := config.useSsl, mtlsCheck := config.useMtls, config, files }

def onMtlsToggled (s : DeskWindow) : DeskWindow := if s.mtlsCheck then { s with sslCheck := true } else s

def onSslToggled (s : DeskWindow) : DeskWindow := if !s.sslCheck then { s with mtlsCheck := false } else s

def requestConnect (lib : ConfigLib) (sys : DeskSystem) (ip : Bytes) (port : Int32) (calls : ConnectCalls)
    (useSsl useMtls : Bool) (s : DeskWindow) : DeskWindow :=
  match s.client.disconnect.connect sys.home calls s.connections useSsl useMtls with
  | (true,client) =>
    let config : ConfigManager := { ip, port, useSsl, useMtls }
    { s with
      client, config, connections := s.connections + 1
      files := (config.save lib sys s.files).2
      history := s.history ++ [.connected s.connections useMtls client.ssl] }
  | (false,client) => { s with client, connections := s.connections + 1 }

def onConnectClicked (lib : ConfigLib) (sys : DeskSystem) (ip : Bytes) (port : Int32) (calls : ConnectCalls)
    (s : DeskWindow) : DeskWindow :=
  if s.client.isOpen then { s with client := s.client.disconnect }
  else s.requestConnect lib sys ip port calls s.sslCheck s.mtlsCheck

def perform (lib : ConfigLib) (sys : DeskSystem) (s : DeskWindow) : WindowEvent → DeskWindow
  | .toggleSsl => { s with sslCheck := !s.sslCheck }.onSslToggled
  | .toggleMtls => { s with mtlsCheck := !s.mtlsCheck }.onMtlsToggled
  | .connectClicked ip port calls => s.onConnectClicked lib sys ip port calls
  | .send message returns => { s with history := s.history ++ (s.client.send returns message).map .transferred }
  | .receive bytes => { s with history := s.history ++ (s.client.receive bytes).map .transferred }

/-- A connection that was made with the mTLS box checked is a completed session that the configurator has
configured, and everything on it goes through this session. -/
def Protected (home : Option Bytes) (history : List Occurrence) : Prop :=
  ∀ connection ssl, .connected connection true ssl ∈ history → ∃ session, ssl = some session ∧
    session.connection = connection ∧ session.connected = true ∧ SecureClient.Configured home session.context ∧
    ∀ t, .transferred t ∈ history → t.connection = connection → t.ssl = some session

def Occurrence.connection : Occurrence → ℕ
  | .connected connection _ _ => connection
  | .transferred t => t.connection

/-- The client, its session and what went over it, whatever the boxes are. -/
structure Tracked (home : Option Bytes) (s : DeskWindow) : Prop where
  guarded : Protected home s.history
  past : ∀ o ∈ s.history, Occurrence.connection o < s.connections
  current : ∀ n, s.client.socketFd = some n → n < s.connections
  session : ∀ ssl, s.client.ssl = some ssl → s.client.socketFd = some ssl.connection
  secured : ∀ n ssl, .connected n true ssl ∈ s.history → s.client.socketFd = some n →
    s.client.useSsl = true ∧ s.client.ssl = ssl

structure Inv (home : Option Bytes) (s : DeskWindow) : Prop extends Tracked home s where
  boxes : s.mtlsCheck = true → s.sslCheck = true

variable {home : Option Bytes} {s : DeskWindow}

theorem tracked_closed (hfd : s.client.socketFd = none) (hssl : s.client.ssl = none) (hhistory : s.history = []) :
    Tracked home s := by
  constructor
  · rw [hhistory]
    exact fun _ _ h => nomatch h
  · rw [hhistory]
    exact fun _ h => nomatch h
  · rw [hfd]
    exact fun _ h => nomatch h
  · rw [hssl]
    exact fun _ h => nomatch h
  · rw [hhistory]
    exact fun _ _ h => nomatch h

theorem Tracked.check (hi : Tracked home s) {sslCheck mtlsCheck : Bool} (h : mtlsCheck = true → sslCheck = true) :
    Inv home { s with sslCheck, mtlsCheck } := { hi with boxes := h }

theorem Tracked.toggleSsl (hi : Tracked home s) : Inv home { s with sslCheck := !s.sslCheck }.onSslToggled := by
  unfold onSslToggled
  dsimp only
  split_ifs with hssl
  · exact hi.check nofun
  · exact hi.check fun _ => by simpa using hssl

theorem Tracked.toggleMtls (hi : Tracked home s) : Inv home { s with mtlsCheck := !s.mtlsCheck }.onMtlsToggled := by
  unfold onMtlsToggled
  dsimp only
  split_ifs with hmtls
  · exact hi.check fun _ => rfl
  · exact hi.check fun h => absurd h hmtls

theorem Tracked.disconnect (hi : Tracked home s) : Tracked home { s with client := s.client.disconnect } :=
  { hi with current := nofun, session := nofun, secured := nofun }

theorem Tracked.transport (hi : Tracked home s) {n : ℕ} {ssl : Option Ssl} (h : s.client.transport = some (n,ssl)) :
    s.client.socketFd = some n ∧ (s.client.useSsl = true → ssl = s.client.ssl) := by
  unfold SecureClient.transport at h
  cases hfd : s.client.socketFd with
  | none =>
    rw [hfd] at h
    cases h
  | some fd =>
    rw [hfd] at h
    dsimp only at h
    split_ifs at h with huse
    · obtain ⟨session,hsession,hway⟩ := Option.map_eq_some_iff.mp h
      obtain ⟨rfl,rfl⟩ := Prod.mk.inj hway
      exact ⟨hfd.symm.trans (hi.session session hsession),fun _ => hsession.symm⟩
    · obtain ⟨rfl,rfl⟩ := Prod.mk.inj (Option.some.inj h)
      exact ⟨rfl,fun hu => absurd hu huse⟩

theorem Tracked.transfer (hi : Tracked home s) {ts : List Transfer}
    (hts : ∀ t ∈ ts, s.client.transport = some (t.connection,t.ssl)) :
    Tracked home { s with history := s.history ++ ts.map .transferred } := by
  have hold {n : ℕ} {useMtls : Bool} {ssl : Option Ssl}
      (h : .connected n useMtls ssl ∈ s.history ++ ts.map .transferred) : .connected n useMtls ssl ∈ s.history := by
    rcases List.mem_append.mp h with h | h
    · exact h
    · obtain ⟨_,_,heq⟩ := List.mem_map.mp h
      cases heq
  constructor
  · intro n ssl hn
    obtain ⟨session,hssl,hconnection,hconnected,hconfigured,hall⟩ := hi.guarded n ssl (hold hn)
    refine ⟨session,hssl,hconnection,hconnected,hconfigured,?_⟩
    intro t ht htn
    rcases List.mem_append.mp ht with ht | ht
    · exact hall t ht htn
    · obtain ⟨t',ht',heq⟩ := List.mem_map.mp ht
      obtain rfl := Occurrence.transferred.inj heq
      obtain ⟨hfd,hway⟩ := hi.transport (hts t' ht')
      rw [htn] at hfd
      obtain ⟨huse,hclient⟩ := hi.secured n ssl (hold hn) hfd
      rw [hway huse, hclient, hssl]
  · intro o ho
    rcases List.mem_append.mp ho with ho | ho
    · exact hi.past o ho
    · obtain ⟨t,ht,rfl⟩ := List.mem_map.mp ho
      exact hi.current t.connection (hi.transport (hts t ht)).1
  · exact hi.current
  · exact hi.session
  · exact fun n ssl hn => hi.secured n ssl (hold hn)

theorem Tracked.failed (hi : Tracked home s) {client : SecureClient} (hfd : client.socketFd = none) (hssl : client.ssl = none) :
    Tracked home { s with client, connections := s.connections + 1 } := by
  constructor
  · exact hi.guarded
  · intro o ho
    exact Nat.lt_succ_of_lt (hi.past o ho)
  · intro n hn
    rw [hfd] at hn
    cases hn
  · intro ssl h
    rw [hssl] at h
    cases h
  · intro n ssl _ hn
    rw [hfd] at hn
    cases hn

theorem Tracked.connected (hi : Tracked home s) {client : SecureClient} {config : ConfigManager} {files : DeskFiles}
    {useMtls : Bool}
    (hfd : client.socketFd = some s.connections) (hsession : ∀ ssl, client.ssl = some ssl → ssl.connection = s.connections)
    (hsecured : useMtls = true → client.useSsl = true ∧
      ∃ session, client.ssl = some session ∧ session.connected = true ∧ SecureClient.Configured home session.context) :
    Tracked home { s with
      client, config, files, connections := s.connections + 1
      history := s.history ++ [.connected s.connections useMtls client.ssl] } := by
  have hnew {n : ℕ} {ssl : Option Ssl}
      (h : .connected n true ssl ∈ s.history ++ [.connected s.connections useMtls client.ssl]) :
      (n < s.connections ∧ .connected n true ssl ∈ s.history) ∨
        (n = s.connections ∧ useMtls = true ∧ ssl = client.ssl) := by
    rcases List.mem_append.mp h with h | h
    · exact .inl ⟨hi.past _ h,h⟩
    · obtain ⟨rfl,rfl,rfl⟩ := Occurrence.connected.inj (List.mem_singleton.mp h)
      exact .inr ⟨rfl,rfl,rfl⟩
  have hold {t : Transfer} (h : .transferred t ∈ s.history ++ [.connected s.connections useMtls client.ssl]) :
      .transferred t ∈ s.history := by
    rcases List.mem_append.mp h with h | h
    · exact h
    · cases List.mem_singleton.mp h
  constructor
  · intro n ssl hn
    rcases hnew hn with ⟨_,hn⟩ | ⟨rfl,hmtls,rfl⟩
    · obtain ⟨session,hssl,hconnection,hconnected,hconfigured,hall⟩ := hi.guarded n ssl hn
      exact ⟨session,hssl,hconnection,hconnected,hconfigured,fun t ht => hall t (hold ht)⟩
    · obtain ⟨_,session,hssl,hconnected,hconfigured⟩ := hsecured hmtls
      refine ⟨session,hssl,hsession session hssl,hconnected,hconfigured,?_⟩
      intro t ht htn
      have hpast := hi.past _ (hold ht)
      rw [Occurrence.connection, htn] at hpast
      exact absurd hpast (Nat.lt_irrefl _)
  · intro o ho
    rcases List.mem_append.mp ho with ho | ho
    · exact Nat.lt_succ_of_lt (hi.past o ho)
    · obtain rfl := List.mem_singleton.mp ho
      exact Nat.lt_succ_self _
  · intro n hn
    rw [hfd] at hn
    obtain rfl := Option.some.inj hn
    exact Nat.lt_succ_self _
  · intro ssl hssl
    rw [hsession ssl hssl]
    exact hfd
  · intro n ssl hn hcurrent
    rcases hnew hn with ⟨hlt,_⟩ | ⟨_,hmtls,rfl⟩
    · rw [hfd] at hcurrent
      obtain rfl := Option.some.inj hcurrent
      exact absurd hlt (Nat.lt_irrefl _)
    · exact ⟨(hsecured hmtls).1,rfl⟩

theorem Tracked.requestConnect (hi : Tracked sys.home s) (ip : Bytes) (port : Int32) (calls : ConnectCalls)
    {useSsl useMtls : Bool} (h : useMtls = true → useSsl = true) :
    Tracked sys.home (s.requestConnect lib sys ip port calls useSsl useMtls) := by
  have hconnects := SecureClient.connects sys.home calls s.connections useSsl useMtls s.client.disconnect
  unfold DeskWindow.requestConnect
  generalize s.client.disconnect.connect sys.home calls s.connections useSsl useMtls = r at hconnects ⊢
  cases hconnects with
  | failed hfd hssl => exact hi.failed hfd hssl
  | plain huse hfd _ hssl =>
    apply hi.connected hfd
    · intro ssl h
      rw [hssl] at h
      cases h
    · intro hmtls
      rw [h hmtls] at huse
      cases huse
  | @secured client ssl _ hfd huse hssl hconnection hconnected hconfigured =>
    apply hi.connected hfd
    · intro ssl' h
      rw [hssl] at h
      obtain rfl := Option.some.inj h
      exact hconnection
    · exact fun hmtls => ⟨huse,ssl,hssl,hconnected,hconfigured hmtls⟩

theorem requestConnect_checks (ip : Bytes) (port : Int32) (calls : ConnectCalls) (useSsl useMtls : Bool) :
    (s.requestConnect lib sys ip port calls useSsl useMtls).sslCheck = s.sslCheck ∧
      (s.requestConnect lib sys ip port calls useSsl useMtls).mtlsCheck = s.mtlsCheck := by
  unfold DeskWindow.requestConnect
  split <;> exact ⟨rfl,rfl⟩

theorem Inv.perform (hi : Inv sys.home s) (e : WindowEvent) : Inv sys.home (s.perform lib sys e) := by
  cases e with
  | toggleSsl => exact hi.toggleSsl
  | toggleMtls => exact hi.toggleMtls
  | connectClicked ip port calls =>
    unfold DeskWindow.perform onConnectClicked
    dsimp only
    split_ifs
    · exact ⟨hi.disconnect,hi.boxes⟩
    · have hchecks := @requestConnect_checks lib sys s ip port calls s.sslCheck s.mtlsCheck
      refine ⟨hi.requestConnect ip port calls hi.boxes,?_⟩
      rw [hchecks.1, hchecks.2]
      exact hi.boxes
  | send message returns => exact ⟨hi.transfer fun t ht => SecureClient.mem_send ht,hi.boxes⟩
  | receive bytes => exact ⟨hi.transfer fun t ht => SecureClient.mem_receive ht,hi.boxes⟩

theorem Inv.run (hi : Inv sys.home s) (es : List WindowEvent) : Inv sys.home (es.foldl (DeskWindow.perform lib sys) s) := by
  induction es generalizing s with
  | nil => exact hi
  | cons e es ih => exact ih (hi.perform e)

end DeskWindow

namespace ConfigManager
variable {lib : ConfigLib} {sys : DeskSystem} {files : DeskFiles} {m : ConfigManager} {j : Json}

/-- The value selects mTLS and not SSL, and nothing in front of the two fails to convert. -/
structure MtlsAlone (j : Json) : Prop where
  ip : j.Optional (ascii "ip") fun v => v.isString = true
  port : j.Optional (ascii "port") fun v => v.isNumeric = true
  ssl : j.Optional (ascii "ssl") fun v => v = .boolean false
  mtls : j.contains (ascii "mtls") = true ∧ j.member (ascii "mtls") = .boolean true

theorem mtlsAlone_iff {contents : Bytes} (h : lib.readStream contents = .ok j) :
    (exec (loadMembers lib contents) {}).2.useMtls = true ∧ (exec (loadMembers lib contents) {}).2.useSsl = false ↔
      MtlsAlone j := by
  rw [exec_loadMembers h]
  cases hip : valueOr (ascii "ip") JsonLib.getString j _ with
  | error e =>
    refine iff_of_false nofun fun hj => ?_
    exact hj.ip.refuse (refused_of_valueOr Json.isString_iff_getString hip)
  | ok ip =>
    cases hport : valueOr (ascii "port") lib.getInt j _ with
    | error e =>
      refine iff_of_false nofun fun hj => ?_
      exact hj.port.refuse (refused_of_valueOr Json.isNumeric_iff_getInt hport)
    | ok port =>
      cases hssl : valueOr (ascii "ssl") JsonLib.getBool j _ with
      | error e =>
        refine iff_of_false nofun fun hj => ?_
        obtain ⟨hc,hbad⟩ := refused_of_valueOr Json.isBoolean_iff_getBool hssl
        rw [hj.ssl hc] at hbad
        cases hbad
      | ok useSsl =>
        cases hmtls : valueOr (ascii "mtls") JsonLib.getBool j _ with
        | error e =>
          refine iff_of_false nofun fun hj => ?_
          obtain ⟨_,hbad⟩ := refused_of_valueOr Json.isBoolean_iff_getBool hmtls
          rw [hj.mtls.2] at hbad
          cases hbad
        | ok useMtls =>
          have hkept := valueOr_kept hssl
          simp only [Json.getBool_eq_ok_iff] at hkept
          dsimp only
          constructor
          · rintro ⟨rfl,hfalse⟩
            constructor
            · exact accepted_of_valueOr Json.isString_iff_getString hip
            · exact accepted_of_valueOr Json.isNumeric_iff_getInt hport
            · exact hkept.mp hfalse
            · rcases valueOr_ok hmtls with ⟨hc,hget⟩ | ⟨_,hdefault⟩
              · exact ⟨hc,Json.getBool_eq_ok_iff.mp hget⟩
              · cases hdefault
          · intro hj
            refine ⟨?_,hkept.mpr hj.ssl⟩
            rcases valueOr_ok hmtls with ⟨_,hget⟩ | ⟨hno,_⟩
            · rw [hj.mtls.2] at hget
              exact (Except.ok.inj hget).symm
            · rw [hj.mtls.1] at hno
              cases hno

theorem construct_found (h : Found lib sys files j) : construct lib sys files =
    some ((exec (loadMembers lib ((files (getConfigPath sys.home)).getD [])) {}).2,files) := by
  unfold construct
  rw [h.exists_]
  dsimp only
  rw [load_found h]
  rcases exec (loadMembers lib ((files (getConfigPath sys.home)).getD [])) {} with ⟨_ | _,m⟩ <;> rfl

theorem construct_not_found (hno : ¬∃ j, Found lib sys files j) {files' : DeskFiles}
    (h : construct lib sys files = some (m,files')) : m = {} := by
  unfold construct at h
  split at h
  · cases h
  · exact (Prod.mk.inj (Option.some.inj h)).1.symm
  · have hkept := (load_not_found (m := {}) hno).2
    split at h
    · cases h
    · next heq =>
      rw [heq] at hkept
      exact (Prod.mk.inj (Option.some.inj h)).1.symm.trans hkept

end ConfigManager

namespace DeskWindow
variable {lib : ConfigLib} {sys : DeskSystem} {files : DeskFiles} {home : Option Bytes} {s : DeskWindow}

theorem history_requestConnect (ip : Bytes) (port : Int32) (calls : ConnectCalls) (useSsl useMtls : Bool) :
    ∃ more, (s.requestConnect lib sys ip port calls useSsl useMtls).history = s.history ++ more := by
  unfold requestConnect
  split
  · exact ⟨_,rfl⟩
  · exact ⟨[],(List.append_nil _).symm⟩

theorem history_perform (s : DeskWindow) (e : WindowEvent) : ∃ more, (s.perform lib sys e).history = s.history ++ more := by
  cases e with
  | toggleSsl =>
    refine ⟨[],?_⟩
    unfold perform onSslToggled
    dsimp only
    split_ifs <;> exact (List.append_nil _).symm
  | toggleMtls =>
    refine ⟨[],?_⟩
    unfold perform onMtlsToggled
    dsimp only
    split_ifs <;> exact (List.append_nil _).symm
  | connectClicked ip port calls =>
    unfold perform onConnectClicked
    dsimp only
    split_ifs
    · exact ⟨[],(List.append_nil _).symm⟩
    · exact history_requestConnect ip port calls s.sslCheck s.mtlsCheck
  | send message returns => exact ⟨_,rfl⟩
  | receive bytes => exact ⟨_,rfl⟩

theorem history_run (s : DeskWindow) (es : List WindowEvent) :
    ∃ more, (es.foldl (perform lib sys) s).history = s.history ++ more := by
  induction es generalizing s with
  | nil => exact ⟨[],(List.append_nil _).symm⟩
  | cons e es ih =>
    obtain ⟨first,hfirst⟩ := @history_perform lib sys s e
    obtain ⟨more,hmore⟩ := ih (s.perform lib sys e)
    refine ⟨first ++ more,?_⟩
    rw [List.foldl_cons, hmore, hfirst, List.append_assoc]

structure Alone (s : DeskWindow) : Prop where
  sslCheck : s.sslCheck = false
  mtlsCheck : s.mtlsCheck = true
  socketFd : s.client.socketFd = none
  ssl : s.client.ssl = none
  history : s.history = []

theorem Alone.connectClicked (hs : Alone s) (ip : Bytes) (port : Int32) (calls : ConnectCalls) :
    (SecureClient.Reaches calls ∧
      .connected s.connections true none ∈ (s.perform lib sys (.connectClicked ip port calls)).history) ∨
    (¬SecureClient.Reaches calls ∧ Alone (s.perform lib sys (.connectClicked ip port calls))) := by
  have hclosed : s.client.isOpen = false := by
    rw [SecureClient.isOpen, hs.socketFd]
    rfl
  unfold perform onConnectClicked
  dsimp only
  rw [hclosed, if_neg Bool.false_ne_true, hs.sslCheck, hs.mtlsCheck]
  unfold requestConnect
  rcases SecureClient.connect_plain sys.home calls s.connections true s.client.disconnect with ⟨hreaches,he⟩ | ⟨hno,he⟩
  · rw [he]
    exact .inl ⟨hreaches,List.mem_append_right _ List.mem_cons_self⟩
  · rw [he]
    exact .inr ⟨hno,hs.sslCheck,hs.mtlsCheck,rfl,rfl,hs.history⟩

theorem Alone.transport (hs : Alone s) : s.client.transport = none := by
  rw [SecureClient.transport, hs.socketFd]

theorem Alone.transferred (hs : Alone s) {ts : List Transfer} (h : ∀ t ∈ ts, s.client.transport = some (t.connection,t.ssl)) :
    Alone { s with history := s.history ++ ts.map .transferred } := by
  have hnone : ts = [] := by
    apply List.eq_nil_iff_forall_not_mem.mpr
    intro t ht
    have hsome := h t ht
    rw [hs.transport] at hsome
    cases hsome
  subst hnone
  exact { hs with history := by rw [List.map_nil, List.append_nil]; exact hs.history }

/-- From such a window a run is protected exactly when no click is answered before the first toggle. -/
theorem Alone.protected_iff (hs : Alone s) (es : List WindowEvent) :
    Protected sys.home (es.foldl (perform lib sys) s).history ↔ ∀ e ∈ es.takeWhile fun e => !e.isToggle, ¬e.Reaches := by
  induction es generalizing s with
  | nil =>
    rw [List.takeWhile_nil, List.foldl_nil, hs.history]
    exact iff_of_true (fun _ _ h => nomatch h) (List.forall_mem_nil _)
  | cons e es ih =>
    have htracked : Tracked sys.home s := tracked_closed hs.socketFd hs.ssl hs.history
    rw [List.foldl_cons]
    cases e with
    | toggleSsl =>
      rw [List.takeWhile_cons_of_neg Bool.false_ne_true]
      exact iff_of_true (htracked.toggleSsl.run es).guarded (List.forall_mem_nil _)
    | toggleMtls =>
      rw [List.takeWhile_cons_of_neg Bool.false_ne_true]
      exact iff_of_true (htracked.toggleMtls.run es).guarded (List.forall_mem_nil _)
    | connectClicked ip port calls =>
      rw [List.takeWhile_cons_of_pos rfl, List.forall_mem_cons]
      rcases @Alone.connectClicked lib sys s hs ip port calls with ⟨hreaches,hplain⟩ | ⟨hno,halone⟩
      · refine iff_of_false (fun hprotected => ?_) fun h => h.1 hreaches
        obtain ⟨more,hmore⟩ := @history_run lib sys (s.perform lib sys (.connectClicked ip port calls)) es
        rw [hmore] at hprotected
        obtain ⟨session,hnone,_⟩ := hprotected s.connections none (List.mem_append_left _ hplain)
        cases hnone
      · rw [ih halone]
        exact ⟨fun h => ⟨hno,h⟩,fun h => h.2⟩
    | send message returns =>
      rw [List.takeWhile_cons_of_pos rfl, List.forall_mem_cons]
      have halone : Alone (s.perform lib sys (.send message returns)) := hs.transferred fun t ht => SecureClient.mem_send ht
      rw [ih halone]
      exact ⟨fun h => ⟨not_false,h⟩,fun h => h.2⟩
    | receive bytes =>
      rw [List.takeWhile_cons_of_pos rfl, List.forall_mem_cons]
      have halone : Alone (s.perform lib sys (.receive bytes)) := hs.transferred fun t ht => SecureClient.mem_receive ht
      rw [ih halone]
      exact ⟨fun h => ⟨not_false,h⟩,fun h => h.2⟩

theorem openDesk_cases (h : openDesk lib sys files = some s) :
    ((∃ j, ConfigManager.Found lib sys files j ∧ ConfigManager.MtlsAlone j) ∧ Alone s) ∨
    ((¬∃ j, ConfigManager.Found lib sys files j ∧ ConfigManager.MtlsAlone j) ∧ Inv sys.home s) := by
  unfold openDesk at h
  cases hconfig : ConfigManager.construct lib sys files with
  | none =>
    rw [hconfig] at h
    cases h
  | some made =>
    obtain ⟨config,files'⟩ := made
    rw [hconfig] at h
    obtain rfl := Option.some.inj h
    by_cases hfound : ∃ j, ConfigManager.Found lib sys files j
    · obtain ⟨j,hfound⟩ := hfound
      have hloaded := (ConfigManager.construct_found hfound).symm.trans hconfig
      have halone := ConfigManager.mtlsAlone_iff hfound.read
      rw [(Prod.mk.inj (Option.some.inj hloaded)).1] at halone
      by_cases hboxes : config.useMtls = true ∧ config.useSsl = false
      · exact .inl ⟨⟨j,hfound,halone.mp hboxes⟩,⟨hboxes.2,hboxes.1,rfl,rfl,rfl⟩⟩
      · refine .inr ⟨?_,⟨tracked_closed rfl rfl rfl,?_⟩⟩
        · rintro ⟨j',hfound',h'⟩
          rw [hfound'.unique hfound] at h'
          exact hboxes (halone.mpr h')
        · intro hmtls
          by_contra hssl
          exact hboxes ⟨hmtls,Bool.eq_false_iff.mpr hssl⟩
    · refine .inr ⟨fun ⟨j,hj,_⟩ => hfound ⟨j,hj⟩,⟨tracked_closed rfl rfl rfl,?_⟩⟩
      rw [ConfigManager.construct_not_found hfound hconfig]
      exact nofun

/-- For every file, every environment and every run: what is connected with the mTLS box checked is under
its session exactly when the file does not select mTLS alone, or no click is answered before one of the
boxes was toggled. -/
theorem mtls_protected_iff (lib : ConfigLib) (sys : DeskSystem) (files : DeskFiles) (s : DeskWindow)
    (hopen : openDesk lib sys files = some s) (es : List WindowEvent) :
    Protected sys.home (es.foldl (perform lib sys) s).history ↔
      (¬∃ j, ConfigManager.Found lib sys files j ∧ ConfigManager.MtlsAlone j) ∨
        ∀ e ∈ es.takeWhile fun e => !e.isToggle, ¬e.Reaches := by
  rcases openDesk_cases hopen with ⟨hfound,hs⟩ | ⟨hno,hi⟩
  · rw [hs.protected_iff es]
    exact ⟨.inr,fun h => h.resolve_left (not_not.mpr hfound)⟩
  · exact iff_of_true (hi.run es).guarded (.inl hno)

/-- Without a file: mTLS is selected, and a request is sent. -/
theorem mtls_protected_iff_request :
    let sys : DeskSystem := { home := some (ascii "/root"), createDirectories := fun _ => true }
    ∃ s, openDesk .indented sys (fun _ => none) = some s ∧
      Protected sys.home (List.foldl (perform .indented sys) s
        [.toggleMtls,.connectClicked (ascii "10.0.0.7") 9000 ⟨3,1,0,true,1,1,1,true,1⟩,.send [0x61] [1]]).history := by
  intro sys
  have hmissing : sys.existsAt (fun _ => none) (ConfigManager.getConfigPath sys.home) = some false := rfl
  have hopen : ∃ s, openDesk .indented sys (fun _ => none) = some s := by
    unfold openDesk ConfigManager.construct
    rw [hmissing]
    exact ⟨_,rfl⟩
  obtain ⟨s,hs⟩ := hopen
  refine ⟨s,hs,(mtls_protected_iff .indented sys (fun _ => none) s hs _).mpr (.inl ?_)⟩
  rintro ⟨j,hfound,_⟩
  rw [hfound.exists_] at hmissing
  cases hmissing

/-- A file with mTLS on and no word about SSL, and a click: the connection is in plain. -/
theorem mtls_protected_fails :
    ¬∀ (lib : ConfigLib) (sys : DeskSystem) (files : DeskFiles) (s : DeskWindow), openDesk lib sys files = some s →
      ∀ es : List WindowEvent, Protected sys.home (es.foldl (perform lib sys) s).history := by
  intro h
  set j : Json := .object [(ascii "mtls",.boolean true)]
  have hread := @ConfigLib.indented_readStream j (by decide) (by decide) 4
  generalize JsonText.renderIndented 4 0 j = text at hread
  set sys : DeskSystem := { home := none, createDirectories := fun _ => true }
  have hfound : ConfigManager.Found .indented sys (fun _ => some text) j := ⟨rfl,rfl,hread⟩
  have halone : ConfigManager.MtlsAlone j := by
    constructor
    · exact fun hc => absurd hc (by decide)
    · exact fun hc => absurd hc (by decide)
    · exact fun hc => absurd hc (by decide)
    · exact ⟨by decide,rfl⟩
  have hopen : ∃ s, openDesk .indented sys (fun _ => some text) = some s := by
    unfold openDesk
    rw [ConfigManager.construct_found hfound]
    exact ⟨_,rfl⟩
  obtain ⟨s,hs⟩ := hopen
  set click : WindowEvent := .connectClicked (ascii "10.0.0.7") 9000 ⟨3,1,0,true,1,1,1,true,1⟩
  rcases (mtls_protected_iff .indented sys _ s hs [click]).mp (h .indented sys _ s hs [click]) with hno | hno
  · exact hno ⟨j,hfound,halone⟩
  · refine hno click List.mem_cons_self ?_
    change (0 : ℤ) ≤ 3 ∧ (0 : ℤ) < 1 ∧ (0 : ℤ) ≤ 0
    decide

end DeskWindow
end MiniHil
