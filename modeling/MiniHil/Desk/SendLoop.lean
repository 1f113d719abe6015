import MiniHil.Desk.SecureClient
import MiniHil.Foundation.PartialWrites

/-! # The loop of `send`

A message goes out in as many writes as the connection wants. Under SSL the length of the rest is cast to
an `int`, which may be shorter than the rest, zero or negative, but never longer.
-/
namespace MiniHil.SecureClient
open PartialWrites

/-- `OpenSslSession::send` -/
def sessionSend (ssl : Option Ssl) (sslWrite : ℤ → ℤ) (size : Int32) : ℤ :=
  match ssl with
  | none => -1
  | some _ => sslWrite size.toInt

/-- One write of the loop, by what the call with this number returns for a length. The factory gives every
client a session object, which may have been freed. -/
def writeRest (c : SecureClient) (calls : ℕ → ℤ → ℤ) (k remaining : ℕ) : ℤ :=
  if c.useSsl then sessionSend c.ssl (calls k) (Int32.ofNat remaining) else calls k remaining

/-- `send` with what it returns. Its loop hands what is behind `totalSent` to `writeRest`. -/
def sendLoop (c : SecureClient) (calls : ℕ → ℤ → ℤ) (fuel : ℕ) (message : Bytes) : Option (Bool × Progress UInt8) :=
  if c.isOpen then writeAll (c.writeRest calls) message fuel {} else some (false,{})

variable {c : SecureClient} {calls : ℕ → ℤ → ℤ} {message : Bytes}

theorem toInt_ofNat_le (n : ℕ) : (Int32.ofNat n).toInt ≤ n := by
  have hsize : Int32.size = 4294967296 := rfl
  rw [Int32.toInt_ofNat', Int.bmod, hsize]
  split_ifs <;> omega

/-- A rest of `2 ^ 32 + 5` bytes is handed over as five bytes. -/
example : (Int32.ofNat 4294967301).toInt = 5 := by decide

theorem writeRest_le (hcalls : ∀ k n, 0 < calls k n → calls k n ≤ n) (k n : ℕ) (h : 0 < c.writeRest calls k n) :
    c.writeRest calls k n ≤ n := by
  unfold writeRest at h ⊢
  split_ifs at h ⊢
  · cases hssl : c.ssl with
    | none =>
      rw [hssl] at h
      change (0 : ℤ) < -1 at h
      omega
    | some ssl =>
      rw [hssl] at h
      exact Int.le_trans (hcalls _ _ h) (toInt_ofNat_le n)
  · exact hcalls _ _ h

theorem sendLoop_ends (hcalls : ∀ k n, 0 < calls k n → calls k n ≤ n) (hopen : c.isOpen = true) (message : Bytes) :
    ∃ ok p, (∀ fuel, message.length < fuel → c.sendLoop calls fuel message = some (ok,p)) ∧
      Ended (c.writeRest calls) message ok p := by
  obtain ⟨ok,p,hrun,hend⟩ := writeAll_ends (writeRest_le hcalls) (reached_start _ message) le_rfl
  refine ⟨ok,p,?_,hend⟩
  intro fuel hfuel
  obtain ⟨more,rfl⟩ := Nat.exists_eq_add_of_lt hfuel
  rw [sendLoop, if_pos hopen, Nat.add_comm message.length more]
  exact hrun more

/-- Every message, however it is cut by the writes: `send` comes to an end, and what was accepted is a prefix
of the message as long as `totalSent` says. It is cut as the writes returned, each of them called for what
those before it had left. Over an open connection `true` means all of the message, and `false` that the last
write failed; over a closed one nothing is written. -/
theorem sendLoop_prefix (c : SecureClient) (calls : ℕ → ℤ → ℤ) (hcalls : ∀ k n, 0 < calls k n → calls k n ≤ n)
    (message : Bytes) :
    ∃ ok p, (∀ fuel, message.length < fuel → c.sendLoop calls fuel message = some (ok,p)) ∧
      p.accepted <+: message ∧ p.totalSent = p.accepted.length ∧
      p.pieces = cut p.returns message ∧ Made (c.writeRest calls) message.length p.returns ∧
      (c.isOpen = true → (ok = true ↔ p.accepted = message) ∧ (ok = false → ∃ sent, p.returns.getLast? = some sent ∧ sent ≤ 0)) ∧
      (c.isOpen = false → ok = false ∧ p.returns = [] ∧ p.accepted = []) := by
  by_cases hopen : c.isOpen = true
  · obtain ⟨ok,p,hrun,hend⟩ := sendLoop_ends hcalls hopen message
    refine ⟨ok,p,hrun,hend.isPrefix,hend.totalSent_eq,hend.pieces,hend.made,fun _ => ⟨hend.ok_iff,hend.failed⟩,?_⟩
    intro hclosed
    rw [hopen] at hclosed
    cases hclosed
  · refine ⟨false,{},fun _ _ => if_neg hopen,List.nil_prefix,rfl,rfl,?_,fun h => absurd h hopen,fun _ => ⟨rfl,rfl,rfl⟩⟩
    intro k sent h
    cases h

/-- A message of three bytes under SSL, taken one byte at a time: three writes, and all of it. -/
theorem sendLoop_prefix_bytes :
    let c : SecureClient := { socketFd := some 0, useSsl := true, ssl := some { context := {}, connection := 0 } }
    ∃ ok p, (∀ fuel, 3 < fuel → c.sendLoop (fun _ n => if 0 < n then 1 else -1) fuel (ascii "on\n") = some (ok,p)) ∧
      p.accepted <+: ascii "on\n" ∧ p.pieces = cut p.returns (ascii "on\n") ∧ (ok = true ↔ p.accepted = ascii "on\n") ∧
      ok = true ∧ p.returns = [1,1,1] := by
  intro c
  have hcalls : ∀ (k : ℕ) (n : ℤ), (0 : ℤ) < (if 0 < n then 1 else -1) → (if 0 < n then 1 else -1) ≤ n := by
    intro _ n h
    split_ifs at h ⊢ <;> omega
  obtain ⟨ok,p,hrun,haccepted,_,hpieces,_,hopen,_⟩ := sendLoop_prefix c (fun _ n => if 0 < n then 1 else -1) hcalls (ascii "on\n")
  have heval : c.sendLoop (fun _ n => if 0 < n then 1 else -1) 4 (ascii "on\n") =
      some (true,{ totalSent := 3, pieces := [ascii "o",ascii "n",ascii "\n"], returns := [1,1,1] }) := by rfl
  obtain ⟨rfl,rfl⟩ := Prod.mk.inj (Option.some.inj ((hrun 4 (by decide)).symm.trans heval))
  exact ⟨true,_,hrun,haccepted,hpieces,(hopen rfl).1,rfl,rfl⟩

theorem send_eq_map_cut {way : ℕ × Option Ssl} (hway : c.transport = some way) (returns : List ℤ) (message : Bytes) :
    c.send returns message = (cut returns message).map fun bytes => ⟨way.1,way.2,bytes⟩ := by
  induction returns generalizing message with
  | nil => rfl
  | cons sent returns ih =>
    unfold send cut
    rw [hway]
    split_ifs
    · rfl
    · rw [List.map_cons, ih]

theorem isOpen_of_transport {way : ℕ × Option Ssl} (hway : c.transport = some way) : c.isOpen = true := by
  unfold transport at hway
  unfold isOpen
  cases hfd : c.socketFd with
  | none =>
    rw [hfd] at hway
    cases hway
  | some socketFd => rfl

theorem sendLoop_transfers (hcalls : ∀ k n, 0 < calls k n → calls k n ≤ n) {way : ℕ × Option Ssl}
    (hway : c.transport = some way) (message : Bytes) :
    ∃ ok p, (∀ fuel, message.length < fuel → c.sendLoop calls fuel message = some (ok,p)) ∧
      c.send p.returns message = p.pieces.map fun bytes => ⟨way.1,way.2,bytes⟩ := by
  obtain ⟨ok,p,hrun,hend⟩ := sendLoop_ends hcalls (isOpen_of_transport hway) message
  refine ⟨ok,p,hrun,?_⟩
  rw [send_eq_map_cut hway, ← hend.pieces]

end MiniHil.SecureClient
