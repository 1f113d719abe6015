import MiniHil.Desk.AppController
import MiniHil.Desk.ConfigSave
import MiniHil.Desk.MtlsConnect
import MiniHil.Foundation.Runs

/-! # The settings from one start to the next

The window shows the settings of `ConfigManager` in its entries and its check boxes, and `onConnectClicked` reads them
back as texts. What is saved when a connection was made is what the next start shows.
-/
namespace MiniHil
open Runs

theorem digit_head {b : UInt8} (h : JsonText.isDigit b = true) :
    (b = 0x20 || (0x09 ≤ b && b ≤ 0x0D)) = false ∧ b ≠ 0x2D ∧ b ≠ 0x2B := by
  simp only [JsonText.isDigit, Bool.and_eq_true, decide_eq_true_eq, UInt8.le_iff_toNat_le] at h
  obtain ⟨hlow,hhigh⟩ := h
  refine ⟨?_,?_,?_⟩
  · simp only [Bool.or_eq_false_iff, Bool.and_eq_false_iff, decide_eq_false_iff_not, UInt8.le_iff_toNat_le]
    refine ⟨?_,.inr fun h => ?_⟩
    · rintro rfl
      exact absurd hlow (by decide)
    · exact absurd (hlow.trans h) (by decide)
  · rintro rfl
    exact absurd hlow (by decide)
  · rintro rfl
    exact absurd hlow (by decide)

theorem stoi_toString {n : ℤ} (hn : -2 ^ 31 ≤ n ∧ n < 2 ^ 31) : stoi (ascii (toString n)) = some n := by
  cases n with
  | ofNat m =>
    obtain ⟨hd,hv,hne⟩ := JsonText.decimal_digits m
    change stoi (ascii (toString m)) = _
    generalize ascii (toString m) = text at hd hv hne
    obtain ⟨b,digits,rfl⟩ := List.exists_cons_of_ne_nil hne
    obtain ⟨hspace,hminus,hplus⟩ := digit_head (hd b List.mem_cons_self)
    unfold stoi
    rw [List.dropWhile_cons_of_neg (by rw [hspace]; exact Bool.false_ne_true)]
    dsimp only
    split
    next input heq => exact absurd (List.cons.inj heq).1 hminus
    next input heq => exact absurd (List.cons.inj heq).1 hplus
    next =>
      simp only [List.takeWhile_eq_self_iff.mpr hd, hv, hne, Bool.false_eq_true, ↓reduceIte, false_or]
      rw [if_neg (by simp only [Int.ofNat_eq_natCast] at hn; omega)]
      rfl
  | negSucc m =>
    obtain ⟨hd,hv,hne⟩ := JsonText.decimal_digits (m + 1)
    rw [JsonText.ascii_negSucc]
    unfold stoi
    rw [List.dropWhile_cons_of_neg (by decide)]
    simp only [List.takeWhile_eq_self_iff.mpr hd, hv, hne, ↓reduceIte, false_or]
    rw [if_neg (by omega)]
    rfl

structure SettingsForm where
  ipEntry : Bytes
  portEntry : Bytes
  window : DeskWindow

namespace SettingsForm

/-- What the user does in the window, with the settings of the connection that a click has made, and the next start. -/
inductive Label
  | editIp (text : Bytes)
  | editPort (text : Bytes)
  | toggleSsl
  | toggleMtls
  | connectClicked (calls : ConnectCalls) (made : Option ConfigManager)
  | send (message : Bytes) (returns : List ℤ)
  | receive (bytes : Bytes)
  | reopen

def Label.made : Label → Option ConfigManager
  | .connectClicked _ made => made
  | _ => none

/-- The settings of the connection that was made last. -/
def lastMade (last : ConfigManager) (ls : List Label) : ConfigManager := ls.foldl (fun last l => l.made.getD last) last

section
variable (entry : Bytes → Bytes) (lib : ConfigLib) (sys : DeskSystem)

/-- The constructor sets the texts of the entries; `entry` is what an entry holds of a text that it is given. -/
def openForm (files : DeskFiles) : Option SettingsForm :=
  (DeskWindow.openDesk lib sys files).map fun window =>
    { ipEntry := entry window.config.ip, portEntry := entry (ascii (toString window.config.port.toInt)), window }

/-- The port of `onConnectClicked`, with its fallback. -/
def port (s : SettingsForm) : Int32 :=
  match stoi s.portEntry with
  | some port => Int32.ofInt port
  | none => 9000

/-- What a click on the closed client asks for. -/
def requested (s : SettingsForm) : ConfigManager :=
  { ip := s.ipEntry, port := s.port, useSsl := s.window.sslCheck, useMtls := s.window.mtlsCheck }

def connection (calls : ConnectCalls) (s : SettingsForm) : Option ConfigManager :=
  if s.window.client.isOpen then none
  else if (s.window.client.disconnect.connect sys.home calls s.window.connections s.window.sslCheck s.window.mtlsCheck).1 then
    some s.requested
  else none

inductive Step (s : SettingsForm) : Label → SettingsForm → Prop
  | editIp {text : Bytes} : Utf8.valid text = true → Step s (.editIp text) { s with ipEntry := entry text }
  | editPort {text : Bytes} : Step s (.editPort text) { s with portEntry := entry text }
  | toggleSsl : Step s .toggleSsl { s with window := s.window.perform lib sys .toggleSsl }
  | toggleMtls : Step s .toggleMtls { s with window := s.window.perform lib sys .toggleMtls }
  | connectClicked {calls : ConnectCalls} : Step s (.connectClicked calls (s.connection sys calls))
      { s with window := s.window.perform lib sys (.connectClicked s.ipEntry s.port calls) }
  | send {message : Bytes} {returns : List ℤ} :
      Step s (.send message returns) { s with window := s.window.perform lib sys (.send message returns) }
  | receive {bytes : Bytes} : Step s (.receive bytes) { s with window := s.window.perform lib sys (.receive bytes) }
  -- the window is closed and the program is started again
  | reopen {t : SettingsForm} : openForm entry lib sys s.window.files = some t → Step s .reopen t

end

/-- What the code relies on in an entry: it holds UTF-8, and keeps what an entry has held and what is a number. -/
structure LawfulEntry (entry : Bytes → Bytes) : Prop where
  valid : ∀ {text}, Utf8.valid text = true → Utf8.valid (entry text) = true
  held : ∀ text, entry (entry text) = entry text
  number : ∀ n : Int32, entry (ascii (toString n.toInt)) = ascii (toString n.toInt)

variable {entry : Bytes → Bytes} {lib : ConfigLib} {sys : DeskSystem} {files files' : DeskFiles} {s t : SettingsForm}
  {last m : ConfigManager} {l : Label}

def shown (entry : Bytes → Bytes) (m : ConfigManager) : ConfigManager := { m with ip := entry m.ip }

theorem openForm_cases (hentry : LawfulEntry entry) (h : openForm entry lib sys files = some t) :
    ConfigManager.construct lib sys files = some (t.window.config,t.window.files) ∧ t.requested = shown entry t.window.config ∧
      t.ipEntry = entry t.window.config.ip ∧ t.portEntry = ascii (toString t.window.config.port.toInt) := by
  unfold openForm DeskWindow.openDesk at h
  cases hconfig : ConfigManager.construct lib sys files with
  | none =>
    rw [hconfig] at h
    cases h
  | some made =>
    obtain ⟨config,files'⟩ := made
    rw [hconfig] at h
    obtain rfl := Option.some.inj h
    refine ⟨rfl,?_,rfl,hentry.number _⟩
    have hport := stoi_toString ⟨config.port.le_toInt,config.port.toInt_lt⟩
    simp only [requested, port, hentry.number, hport, Int32.ofInt_toInt, shown]

variable (entry) in
theorem openForm_of_construct (h : ConfigManager.construct lib sys files = some (m,files)) :
    ∃ t, openForm entry lib sys files = some t ∧ t.window.config = m := by
  unfold openForm DeskWindow.openDesk
  rw [h]
  exact ⟨_,rfl,rfl⟩

theorem construct_valid (hread : ∀ text j, lib.readStream text = .ok j → j.validStrings = true)
    (h : ConfigManager.construct lib sys files = some (m,files')) : Utf8.valid m.ip = true := by
  by_cases hfound : ∃ j, ConfigManager.Found lib sys files j
  · obtain ⟨j,hfound⟩ := hfound
    have hip (ip : Bytes) (hget : ConfigManager.valueOr (ascii "ip") JsonLib.getString j ({} : ConfigManager).ip = .ok ip) :
        Utf8.valid ip = true := by
      rcases ConfigManager.valueOr_ok hget with ⟨_,hstring⟩ | ⟨_,rfl⟩
      · have hmember : (j.member (ascii "ip")).validStrings = true := Json.validStrings_member (hread _ _ hfound.read)
        unfold JsonLib.getString at hstring
        split at hstring
        next text htext =>
          rw [htext] at hmember
          exact Except.ok.inj hstring ▸ hmember
        next => cases hstring
      · decide
    rw [ConfigManager.construct_found hfound, ConfigManager.exec_loadMembers hfound.read] at h
    obtain rfl := (Prod.mk.inj (Option.some.inj h)).1
    cases hvalue : ConfigManager.valueOr (ascii "ip") JsonLib.getString j ({} : ConfigManager).ip with
    | error e =>
      dsimp only
      decide
    | ok ip =>
      have hvalid := hip ip hvalue
      dsimp only
      split
      · exact hvalid
      · split
        · exact hvalid
        · split <;> exact hvalid
  · rw [ConfigManager.construct_not_found hfound h]
    decide

theorem construct_again (hlib : lib.Lawful) (hsys : ConfigManager.Writable sys) {home : Bytes} (hhome : sys.home = some home)
    (h : ConfigManager.construct lib sys files = some (m,files')) :
    ConfigManager.construct lib sys files' = some (m,files') := by
  cases hexists : sys.existsAt files (ConfigManager.getConfigPath sys.home) with
  | none =>
    rw [ConfigManager.construct, hexists] at h
    cases h
  | some found =>
    cases found with
    | false =>
      have hsaved := (ConfigManager.construct_of_save (m := {}) hlib files hsys (by decide) home hhome).2
      rw [ConfigManager.construct, hexists] at h
      obtain ⟨rfl,rfl⟩ := Prod.mk.inj (Option.some.inj h)
      exact hsaved
    | true =>
      have hsame : files' = files := by
        rw [ConfigManager.construct, hexists] at h
        dsimp only at h
        split at h
        · cases h
        · exact (Prod.mk.inj (Option.some.inj h)).2.symm
      rw [hsame] at h ⊢
      exact h

/-- The file holds what the next start shows, and this is what was connected to last. -/
structure Kept (entry : Bytes → Bytes) (lib : ConfigLib) (sys : DeskSystem) (last : ConfigManager) (s : SettingsForm) : Prop where
  shown : shown entry s.window.config = last
  next : ConfigManager.construct lib sys s.window.files = some (s.window.config,s.window.files)
  config : Utf8.valid s.window.config.ip = true
  valid : Utf8.valid s.ipEntry = true
  held : entry s.ipEntry = s.ipEntry

theorem Kept.frame (hk : Kept entry lib sys last s) {window : DeskWindow} (hconfig : window.config = s.window.config)
    (hfiles : window.files = s.window.files) (portEntry : Bytes) :
    Kept entry lib sys last { s with portEntry, window } where
  shown := by rw [hconfig]; exact hk.shown
  next := by rw [hconfig, hfiles]; exact hk.next
  config := by rw [hconfig]; exact hk.config
  valid := hk.valid
  held := hk.held

theorem performed (lib : ConfigLib) (sys : DeskSystem) (calls : ConnectCalls) (s : SettingsForm) :
    (s.connection sys calls = none ∧
      (s.window.perform lib sys (.connectClicked s.ipEntry s.port calls)).config = s.window.config ∧
      (s.window.perform lib sys (.connectClicked s.ipEntry s.port calls)).files = s.window.files) ∨
    (s.connection sys calls = some s.requested ∧
      (s.window.perform lib sys (.connectClicked s.ipEntry s.port calls)).config = s.requested ∧
      (s.window.perform lib sys (.connectClicked s.ipEntry s.port calls)).files =
        (s.requested.save lib sys s.window.files).2) := by
  unfold DeskWindow.perform DeskWindow.onConnectClicked connection
  dsimp only
  by_cases hopen : s.window.client.isOpen = true
  · rw [if_pos hopen, if_pos hopen]
    exact .inl ⟨rfl,rfl,rfl⟩
  · rw [if_neg hopen, if_neg hopen]
    unfold DeskWindow.requestConnect
    rcases hconnect : s.window.client.disconnect.connect sys.home calls s.window.connections s.window.sslCheck
        s.window.mtlsCheck with ⟨_ | _,client⟩
    · exact .inl ⟨rfl,rfl,rfl⟩
    · exact .inr ⟨rfl,rfl,rfl⟩

theorem Step.kept (hentry : LawfulEntry entry) (hlib : lib.Lawful) (hsys : ConfigManager.Writable sys) {home : Bytes}
    (hhome : sys.home = some home) (hs : Step entry lib sys s l t) (hk : Kept entry lib sys last s) :
    Kept entry lib sys (l.made.getD last) t := by
  cases hs with
  | editIp htext => exact ⟨hk.shown,hk.next,hk.config,hentry.valid htext,hentry.held _⟩
  | editPort => exact hk.frame rfl rfl _
  | toggleSsl =>
    refine hk.frame ?_ ?_ _ <;> (simp only [DeskWindow.perform, DeskWindow.onSslToggled]; split_ifs <;> rfl)
  | toggleMtls =>
    refine hk.frame ?_ ?_ _ <;> (simp only [DeskWindow.perform, DeskWindow.onMtlsToggled]; split_ifs <;> rfl)
  | send | receive => refine hk.frame ?_ ?_ _ <;> rfl
  | @connectClicked calls =>
    rcases performed lib sys calls s with ⟨hmade,hconfig,hfiles⟩ | ⟨hmade,hconfig,hfiles⟩
    · rw [hmade]
      exact hk.frame hconfig hfiles _
    · rw [hmade]
      have hsaved := (ConfigManager.construct_of_save (m := s.requested) hlib s.window.files hsys hk.valid home hhome).2
      refine ⟨?_,?_,?_,hk.valid,hk.held⟩
      · rw [hconfig, SettingsForm.shown]
        change { s.requested with ip := entry s.ipEntry } = s.requested
        rw [hk.held]
        rfl
      · rw [hconfig, hfiles]
        exact hsaved
      · rw [hconfig]
        exact hk.valid
  | reopen hopen =>
    obtain ⟨hconstruct,_,hip,_⟩ := openForm_cases hentry hopen
    obtain ⟨hconfig,hfiles⟩ := Prod.mk.inj (Option.some.inj (hk.next.symm.trans hconstruct))
    refine ⟨?_,?_,?_,?_,?_⟩
    · rw [← hconfig]
      exact hk.shown
    · rw [← hconfig, ← hfiles]
      exact hk.next
    · rw [← hconfig]
      exact hk.config
    · rw [hip, ← hconfig]
      exact hentry.valid hk.config
    · rw [hip]
      exact hentry.held _

theorem run_kept (hentry : LawfulEntry entry) (hlib : lib.Lawful) (hsys : ConfigManager.Writable sys) {home : Bytes}
    (hhome : sys.home = some home) {ls : List Label} (hr : Run (Step entry lib sys) s ls t)
    (hk : Kept entry lib sys last s) : Kept entry lib sys (lastMade last ls) t := by
  induction hr generalizing last with
  | refl => exact hk
  | step hs _ ih => exact ih (hs.kept hentry hlib hsys hhome hk)

theorem indented_validStrings (text : Bytes) (j : Json) (h : ConfigLib.indented.readStream text = .ok j) :
    j.validStrings = true := by
  unfold ConfigLib.indented at h
  dsimp only at h
  split at h
  · split_ifs at h with hj
    exact Except.ok.inj h ▸ hj
  · cases h

/-- Where the file can be written, and whatever it holds at first: over any number of starts, with any texts in the
entries, toggles, clicks and transfers between them, the next start shows, and its first click asks for, the settings of
the connection that was made last, the port as a number also where its text was none; and before there was a connection,
those of the first start. -/
theorem settings_restored (hentry : LawfulEntry entry) (hlib : lib.Lawful)
    (hread : ∀ text j, lib.readStream text = .ok j → j.validStrings = true) (hsys : ConfigManager.Writable sys)
    (hhome : sys.home ≠ none) (hopen : openForm entry lib sys files = some s) (ls : List Label)
    (hr : Run (Step entry lib sys) s ls t) :
    ∃ u, openForm entry lib sys t.window.files = some u ∧ u.requested = lastMade s.requested ls ∧
      u.portEntry = ascii (toString (lastMade s.requested ls).port.toInt) := by
  obtain ⟨home,hhome⟩ := Option.ne_none_iff_exists'.mp hhome
  obtain ⟨hconstruct,hrequested,hip,_⟩ := openForm_cases hentry hopen
  have hvalid := construct_valid hread hconstruct
  have hstart : Kept entry lib sys s.requested s := by
    refine ⟨hrequested.symm,construct_again hlib hsys hhome hconstruct,hvalid,?_,?_⟩
    · rw [hip]
      exact hentry.valid hvalid
    · rw [hip]
      exact hentry.held _
  have hk := run_kept hentry hlib hsys hhome hr hstart
  obtain ⟨u,hu,hconfig⟩ := openForm_of_construct entry hk.next
  obtain ⟨_,hshown,_,hport⟩ := openForm_cases hentry hu
  rw [hconfig, hk.shown] at hshown
  refine ⟨u,hu,hshown,?_⟩
  rw [hport, hconfig, ← hk.shown]
  rfl

/-- The first start, a connection with mTLS, another address that nothing was connected to, and the next start. -/
theorem settings_restored_restart :
    ∃ s t u ls, openForm id .indented (ConfigManager.roomy (some (ascii "/root"))) (fun _ => none) = some s ∧
      Run (Step id .indented (ConfigManager.roomy (some (ascii "/root")))) s ls t ∧ t.ipEntry = ascii "10.0.0.8" ∧
      openForm id .indented (ConfigManager.roomy (some (ascii "/root"))) t.window.files = some u ∧
      u.requested = { ip := ascii "10.0.0.7", port := 9001, useSsl := true, useMtls := true } := by
  have hopen : ∃ files, openForm id .indented (ConfigManager.roomy (some (ascii "/root"))) (fun _ => none) = some
      { ipEntry := ascii "127.0.0.1", portEntry := ascii "9000",
        window := { sslCheck := false, mtlsCheck := false, config := {}, files } } := by
    have hmissing : (ConfigManager.roomy (some (ascii "/root"))).existsAt (fun _ => none)
      (ConfigManager.getConfigPath (ConfigManager.roomy (some (ascii "/root"))).home) = some false := rfl
    unfold openForm DeskWindow.openDesk ConfigManager.construct
    rw [hmissing]
    exact ⟨_,rfl⟩
  obtain ⟨files,hopen⟩ := hopen
  have hr : Run (Step id .indented (ConfigManager.roomy (some (ascii "/root"))))
      { ipEntry := ascii "127.0.0.1", portEntry := ascii "9000",
        window := { sslCheck := false, mtlsCheck := false, config := {}, files } }
      [.editIp (ascii "10.0.0.7"),.editPort (ascii " 9001x"),.toggleMtls,.connectClicked ⟨3,1,0,true,1,1,1,true,1⟩
        (some { ip := ascii "10.0.0.7", port := 9001, useSsl := true, useMtls := true }),.editIp (ascii "10.0.0.8")] _ :=
    .step (.editIp (by decide)) (.step .editPort (.step .toggleMtls (.step .connectClicked (.single (.editIp (by decide))))))
  obtain ⟨u,hu,hrequested,_⟩ := settings_restored ⟨id,fun _ => rfl,fun _ => rfl⟩ ConfigLib.indented_lawful
    indented_validStrings (ConfigManager.roomy_writable _) (Option.some_ne_none _) hopen _ hr
  exact ⟨_,_,u,_,hopen,hr,rfl,hu,hrequested⟩

end SettingsForm
end MiniHil
