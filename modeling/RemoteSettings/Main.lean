import RemoteSettings.CommandLine
import RemoteSettings.Config.Setup
import RemoteSettings.Http.Wire
import Std.Async.DNS
import Std.Async.TCP
import Std.Async.Timer
import Std.Internal.UV.System

/-!
# The program

The outermost layer: it reads the command line, the environment and the configuration file, carries
messages over connections, and prints.  What is read, asked and printed is decided elsewhere.

## Main definitions

* `Program.exchange` — carries a message over a connection.
* `Program.perform` — performs a call of the store.
* `main` — the program.
-/

namespace RemoteSettings.Program

open Std.Async

/-! ### The network -/

/-- The addresses of a host that connections can go to. -/
def addresses (t : Target) : Async (Array Std.Net.SocketAddress) := do
  let port := t.port.toUInt16
  let found ← DNS.getAddrInfo t.host (toString t.port)
  return found.map fun
    | .v4 addr => .v4 ⟨addr, port⟩
    | .v6 addr => .v6 ⟨addr, port⟩

/-- Connects to the first address that takes the connection. -/
def connect? : List Std.Net.SocketAddress → Async (Option TCP.Socket.Client)
  | [] => return none
  | address :: rest => do
    try
      let socket ← TCP.Socket.Client.mk
      socket.connect address
      return some socket
    catch _ => connect? rest

/-- Everything that comes over a connection until it is closed. -/
partial def receiveAll (socket : TCP.Socket.Client) (sofar : ByteArray) : Async ByteArray := do
  match ← socket.recv? 65536 with
  | some bytes => receiveAll socket (sofar ++ bytes)
  | none => return sofar

/-- Carries a message over a connection of its own. -/
def carry (t : Target) (m : Message) : Async Delivery := do
  let found ← try addresses t catch _ => pure #[]
  match ← connect? found.toList with
  | none => return .refused
  | some socket =>
    let received ←
      try
        socket.send (m.bytes (String.ofList t.hostAndPort))
        receiveAll socket .empty
      catch _ => pure .empty
    let bytes := received.toList
    return .ofBytes (bytes.length + 1) bytes

/-- Waits until the time for an answer is up. -/
def giveUp (after : Duration) : Async Delivery := do
  sleep (.ofNat (after.seconds * 1000 + after.nanos / 1000000 + 1))
  return .late

/-- Carries a message, as long as there is time. -/
def exchange (c : Client) (t : Target) (m : Message) : IO Delivery :=
  (Async.race (carry t m) (giveUp c.timeout)).block

/-- The reply to a request. -/
def request (c : Client) (r : Request) : IO Reply := do
  match c.prepare r with
  | .error p => return .error (.transport p.message)
  | .ok (target, message) =>
    if target.scheme.any fun name => name.toList.map Char.toLower == "http".toList then
      return c.receive (← exchange c target message)
    else return c.receive .refused

/-! ### The store -/

/-- Answers requests until none is awaited. -/
partial def serve (c : Client) (s : Store) : IO Store := do
  match s.awaited with
  | [] => return s
  | (number, _) :: _ =>
    let reply ← match s.requests[number]? with
      | some r => request c r
      | none => pure (.error Command.unanswered)
    serve c ((s.respond number reply).2.settle .later)

/-- Performs a call. -/
def perform (c : Client) (s : Store) (call : Call) :
    IO (Option (Except Failure Answer) × Store) := do
  let (task, s) := s.spawn call false
  let s ← serve c (s.settle .later)
  return (s.answerOf? task, s)

/-! ### The configuration -/

/-- The configuration from a file, the environment and the command line. -/
def setup (l : CommandLine) : IO (Except Setup.Problem Setup) := do
  let environment ← Std.Internal.UV.System.osEnviron
  let text : Except Setup.Problem (Option String) ← match l.file with
    | none => pure (.ok none)
    | some path =>
      try
        match String.fromUTF8? (← IO.FS.readBinFile path) with
        | some text => pure (.ok (some text))
        | none => pure (.error .invalid)
      catch _ => pure (.error (.noSuchFile path))
  return do
    let s := (← Setup.load (← text) environment.toList).withBaseUrl l.baseUrl
    return { s with logging := { s.logging with format := l.logFormat.getD s.logging.format } }

/-- Says why the program fails, and gives its exit code. -/
def fail (message : String) : IO UInt32 := do
  IO.eprintln ("Error: " ++ message)
  return 1

/-- Runs a command. -/
def run (s : Setup) (command : Command) : IO UInt32 := do
  match Client.ofConfig s.service with
  | .error f => fail f.message
  | .ok client =>
    let ((out, problem), _) ← command.runWith (perform client) (.ofConfig s.service)
    IO.print out
    match problem with
    | some p => fail p.message
    | none => return 0

end RemoteSettings.Program

open RemoteSettings RemoteSettings.Program in
/-- The program. -/
def main (args : List String) : IO UInt32 := do
  match CommandLine.parse args with
  | .error .help =>
    IO.print (CommandLine.Problem.message .help)
    return 0
  | .error .version =>
    IO.print (CommandLine.Problem.message .version)
    return 0
  | .error p =>
    IO.eprint p.message
    return 2
  | .ok l =>
    match ← setup l with
    | .error p => fail p.message
    | .ok s =>
      if l.printConfig then
        IO.print s.yaml
        return 0
      else
        match l.command with
        | none => fail CommandLine.noCommand
        | some command => run s command
