import Mathlib.Logic.Function.Basic
import MiniHil.Foundation.Runs

/-! # The desk's connection

`requestConnect`, `requestDisconnect` and `stop` on the thread of the user interface against `readLoop` on
the read threads. `receiveLine` works on the buffer and the SSL session of the client without its mutex.
-/
namespace MiniHil
open Runs

structure ReceivedByte where
  connection : ℕ
  byte : UInt8
  deriving DecidableEq, Repr

structure TcpClient where
  socketFd : Option ℕ := none
  readBuffer : List ReceivedByte := []
  useSsl : Bool := false
  /-- The connection on which the session was set up. -/
  ssl : Option ℕ := none

/-- What the user interface asks the controller for. -/
inductive Call
  | requestConnect (useSsl : Bool)
  | requestDisconnect
  | stop
  deriving DecidableEq, Repr

/-- Where the thread of the user interface stands; all calls begin with those of `requestDisconnect`. -/
inductive Ui
  | idle
  | exchanging (call : Call)
  | shuttingDown (wasRunning : Bool) (call : Call)
  | joining (wasRunning : Bool) (call : Call)
  | disconnecting (wasRunning : Bool) (call : Call)
  | announcing (wasRunning : Bool) (call : Call)
  | resetting (useSsl : Bool)
  | connecting (useSsl : Bool)
  | starting
  | spawning
  | connected
  | querying
  | failed
  deriving DecidableEq, Repr

/-- What follows on the part that is `requestDisconnect`. -/
def Call.next : Call → Ui
  | .requestConnect useSsl => .resetting useSsl
  | .requestDisconnect | .stop => .idle

inductive ReadLoop
  | checking
  | opening
  | scanning
  | loading
  | receiving (fd : ℕ)
  | received (line : List ReceivedByte)
  | losing
  | announcing
  | ended
  deriving DecidableEq, Repr

def TcpClient.takeLine (buffer : List ReceivedByte) : Option (List ReceivedByte × List ReceivedByte) :=
  if buffer.any fun b => b.byte = 0x0A then
    some (buffer.takeWhile (fun b => b.byte ≠ 0x0A),(buffer.dropWhile fun b => b.byte ≠ 0x0A).tail)
  else none

/-- The controller with its client, the read threads that were started and not yet joined, the last value
of the connection-state signal, and the connections behind the open descriptors. -/
structure DeskController where
  client : TcpClient := {}
  running : Bool := false
  readThread : Option ℕ := none
  connectionState : Bool := false
  ui : Ui := .idle
  started : ℕ := 0
  readLoops : ℕ → Option ReadLoop := fun _ => none
  connections : ℕ := 0
  sockets : ℕ → Option ℕ := fun _ => none

namespace DeskController

inductive Label
  | request (call : Call)
  | exchange
  | shutdownSocket
  | join
  | disconnect
  | announceDisconnected
  | connect (socketFd : Option ℕ)
  | setRunning
  | spawn
  | announceConnected
  | announceFailed
  | queryAllRelays
  | checkRunning (thread : ℕ)
  | isOpen (thread : ℕ)
  | scan (thread : ℕ)
  | load (thread : ℕ)
  | receive (thread : ℕ) (bytes : List UInt8)
  | checkLoss (thread : ℕ)
  | clearRunning (thread : ℕ)
  | announceLost (thread : ℕ)
  | processResponse (thread : ℕ) (line : List ReceivedByte)
  deriving DecidableEq

def isConnected (s : DeskController) : Bool := s.client.socketFd.isSome

def setLoop (s : DeskController) (n : ℕ) (p : ReadLoop) : DeskController :=
  { s with readLoops := Function.update s.readLoops n (some p) }

/-- `TcpClient::disconnect` -/
def disconnect (s : DeskController) : DeskController :=
  { s with
    client := { s.client with socketFd := none, ssl := none, readBuffer := [] }
    sockets := match s.client.socketFd with
      | some fd => Function.update s.sockets fd none
      | none => s.sockets }

def source (s : DeskController) (fd : ℕ) : Option ℕ := if s.client.useSsl then s.client.ssl else s.sockets fd

/-- `TcpClient::connect` has a connection, and a session on it if one was asked for. -/
def opened (s : DeskController) (useSsl : Bool) (fd : ℕ) : DeskController :=
  { s with
    client := { s.client with socketFd := some fd, useSsl, ssl := if useSsl then some s.connections else s.client.ssl }
    sockets := Function.update s.sockets fd (some s.connections)
    connections := s.connections + 1 }

/-- The steps of the user interface and of the read threads. Calls on a socket may fail or return
at any time, so that `shutdown` and the end of the server's side leave no trace of their own. -/
inductive Step (s : DeskController) : Label → DeskController → Prop
  -- `requestDisconnect`
  | request {call : Call} : s.ui = .idle → Step s (.request call) { s with ui := .exchanging call }
  | exchange {call : Call} : s.ui = .exchanging call →
      Step s .exchange { s with running := false, ui := .shuttingDown s.running call }
  | shutdownSocket {wasRunning : Bool} {call : Call} : s.ui = .shuttingDown wasRunning call →
      Step s .shutdownSocket { s with ui := .joining wasRunning call }
  | join {wasRunning : Bool} {call : Call} {n : ℕ} : s.ui = .joining wasRunning call → s.readThread = some n →
      s.readLoops n = some .ended → Step s .join { s with
        readThread := none, readLoops := Function.update s.readLoops n none, ui := .disconnecting wasRunning call }
  | notJoinable {wasRunning : Bool} {call : Call} : s.ui = .joining wasRunning call → s.readThread = none →
      Step s .join { s with ui := .disconnecting wasRunning call }
  | disconnect {wasRunning : Bool} {call : Call} : s.ui = .disconnecting wasRunning call →
      Step s .disconnect { s.disconnect with ui := .announcing wasRunning call }
  | announceDisconnected {wasRunning : Bool} {call : Call} : s.ui = .announcing wasRunning call →
      Step s .announceDisconnected { s with
        connectionState := if wasRunning then false else s.connectionState, ui := call.next }
  -- the rest of `requestConnect`
  | reset {useSsl : Bool} : s.ui = .resetting useSsl → Step s .disconnect { s.disconnect with ui := .connecting useSsl }
  | connect {useSsl : Bool} {fd : ℕ} : s.ui = .connecting useSsl → s.sockets fd = none →
      Step s (.connect (some fd)) { s.opened useSsl fd with ui := .starting }
  | connectFails {useSsl handshake : Bool} : s.ui = .connecting useSsl → Step s (.connect none) { s with
      client := { s.client with
        socketFd := none, useSsl, ssl := if useSsl && handshake then none else s.client.ssl }
      ui := .failed }
  | setRunning : s.ui = .starting → Step s .setRunning { s with running := true, ui := .spawning }
  | spawn : s.ui = .spawning → Step s .spawn { s.setLoop s.started .checking with
      readThread := some s.started, started := s.started + 1, ui := .connected }
  | announceConnected : s.ui = .connected → Step s .announceConnected { s with connectionState := true, ui := .querying }
  | announceFailed : s.ui = .failed → Step s .announceFailed { s with connectionState := false, ui := .idle }
  | queryAllRelays : s.ui = .querying → Step s .queryAllRelays { s with ui := .idle }
  -- `readLoop` and `receiveLine`
  | checkRunning {n : ℕ} : s.readLoops n = some .checking →
      Step s (.checkRunning n) (s.setLoop n (if s.running then .opening else .ended))
  | isOpen {n : ℕ} : s.readLoops n = some .opening →
      Step s (.isOpen n) (s.setLoop n (if s.isConnected then .scanning else .checking))
  | takeLine {n : ℕ} {line rest : List ReceivedByte} : s.readLoops n = some .scanning →
      TcpClient.takeLine s.client.readBuffer = some (line,rest) →
      Step s (.scan n) ({ s with client := { s.client with readBuffer := rest } }.setLoop n (.received line))
  | noLine {n : ℕ} : s.readLoops n = some .scanning → TcpClient.takeLine s.client.readBuffer = none →
      Step s (.scan n) (s.setLoop n .loading)
  | load {n : ℕ} : s.readLoops n = some .loading → Step s (.load n) (s.setLoop n (match s.client.socketFd with
      | some fd => .receiving fd
      | none => .received []))
  | receive {n fd c : ℕ} {bytes : List UInt8} : s.readLoops n = some (.receiving fd) → s.source fd = some c →
      bytes ≠ [] → bytes.length ≤ 1023 → Step s (.receive n bytes) ({ s with client := { s.client with
        readBuffer := s.client.readBuffer ++ bytes.map (ReceivedByte.mk c) } }.setLoop n .scanning)
  | receiveFails {n fd : ℕ} : s.readLoops n = some (.receiving fd) → Step s (.receive n []) (s.setLoop n (.received []))
  -- what `readLoop` does with a line
  | checkLoss {n : ℕ} : s.readLoops n = some (.received []) →
      Step s (.checkLoss n) (s.setLoop n (if s.running then .losing else .ended))
  | clearRunning {n : ℕ} : s.readLoops n = some .losing →
      Step s (.clearRunning n) ({ s with running := false }.setLoop n .announcing)
  | announceLost {n : ℕ} : s.readLoops n = some .announcing →
      Step s (.announceLost n) ({ s with connectionState := false }.setLoop n .ended)
  | processResponse {n : ℕ} {line : List ReceivedByte} : s.readLoops n = some (.received line) → line ≠ [] →
      Step s (.processResponse n line) (s.setLoop n .checking)

end DeskController
end MiniHil
