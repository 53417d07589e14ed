import SearchClient.Console.Session
import SearchClient.Wire.Reply
import SearchClient.Wire.Request
import Std.Async.DNS
import Std.Async.TCP
import Std.Async.Timer

/-!
# The program

The commands with a terminal, files, a clock and a network around them. Messages go over plain
connections, one for each message. A node with an encrypted scheme, or behind a proxy, is not
reached.
-/

set_option autoImplicit false
set_option relaxedAutoImplicit false

namespace SearchClient.Main

open Std.Async Std.Net

/-! ### The network -/

/-- The addresses of a host. -/
def addressesOf : Url.Host → Async (Array IPAddr)
  | .name name => DNS.getAddrInfo name ""
  | .address32 address =>
    let part (place : Nat) : UInt8 := UInt8.ofNat (address >>> (8 * place))
    return #[.v4 (.ofParts (part 3) (part 2) (part 1) (part 0))]
  | host => return ((IPv6Addr.ofString (host.text.drop 1 |>.dropEnd 1 |>.toString)).map
      IPAddr.v6).toArray

/-- The place of an address and a port. -/
def socketAddress (port : UInt16) : IPAddr → SocketAddress
  | .v4 address => .v4 ⟨address, port⟩
  | .v6 address => .v6 ⟨address, port⟩

/-- A connection to the first address that takes one. -/
def connectFirst (port : UInt16) : List IPAddr → Async (Option TCP.Socket.Client)
  | [] => return none
  | address :: addresses => do
    let socket ← TCP.Socket.Client.mk
    try
      socket.connect (socketAddress port address)
      return some socket
    catch _ => connectFirst port addresses

/-- A connection to a node, if it takes one. -/
def connect (url : Url) : Async (Option TCP.Socket.Client) := do
  match url.authority, url.effectivePort? with
  | some authority, some port =>
    try connectFirst (UInt16.ofNat port) (← addressesOf authority.host).toList
    catch _ => return none
  | _, _ => return none

/-- What comes over a connection, until it is a whole reply or can be none. -/
partial def receive (socket : TCP.Socket.Client) (asked : Method) (bytes : ByteArray) :
    Async Http.Contact := do
  let chunk ← socket.recv? 65536
  let bytes := bytes ++ chunk.getD .empty
  match Wire.decode asked chunk.isNone bytes.toList with
  | .whole reply => return .answered reply
  | .broken => return .broken
  | .more => receive socket asked bytes

/-- A message is sent and its reply received, however long it takes. -/
def exchange (m : Message) : Async Http.Contact := do
  match ← connect m.url with
  | none => return .refused
  | some socket =>
    try
      socket.send ⟨(Wire.encode m).toArray⟩
      receive socket m.method .empty
    catch _ => return .broken

/-- A message is sent, and its reply awaited as long as the message may take. -/
def carry (settings : Settings) (m : Message) : IO (Except LinkFault Reply) := do
  match Http.unfit? m with
  | some fault => return .error fault
  | none =>
    if settings.proxy.isSome ∨ m.url.scheme ≠ "http" then
      return Http.outcome Gzip.expand? m .refused
    else
      let limit := Std.Time.Millisecond.Offset.ofNat (m.timeout / 1000000)
      let giveUp : Async Http.Contact := do
        Std.Async.sleep limit
        return .silent
      return Http.outcome Gzip.expand? m (← (Async.race (exchange m) giveUp).block)

/-! ### Running programs -/

/-- A program runs with the real clock and network. -/
def perform {α : Type} (settings : Settings) (shared : IO.Ref Shared) : Program α → IO α
  | .done a => return a
  | .step .clock next => do perform settings shared (next (← IO.monoNanosNow))
  | .step .look next => do perform settings shared (next (← shared.get))
  | .step (.keep changed) next => do
    shared.set changed
    perform settings shared (next ())
  | .step (.call message) next => do perform settings shared (next (← carry settings message))
  | .step .acquire next => perform settings shared (next ())
  | .step .release next => perform settings shared (next ())
  | .step (.pause nanos) next => do
    IO.sleep (UInt32.ofNat (nanos / 1000000))
    perform settings shared (next ())

/-! ### Files and the environment -/

/-- What stands under a path. -/
def entryAt (path : String) : IO Console.Entry := do
  try return .file (← IO.FS.readFile path)
  catch
  | .noFileOrDirectory .. => return .nothing
  | _ => return .other

/-- A variable as it is listed. -/
def listedVariable (listed : List Char) : Option (String × String) :=
  (Text.splitFirst '=' listed).map fun (name, value) ↦ (String.ofList name, String.ofList value)

/-- The variables of the environment. -/
def environment : IO Environment := do
  let listing ← try IO.FS.readFile "/proc/self/environ" catch _ => pure ""
  return (Text.split '\x00' listing.toList).filterMap listedVariable

/-- The paths that a command may look at, with what stands under them. -/
def filesFor (arguments : List String) : IO (String → Console.Entry) := do
  let named :=
    match Console.Invocation.read arguments with
    | .ok invocation => invocation.config.toList
    | .error _ => []
  let found ← (Console.defaultConfig :: named).mapM fun path ↦ do return (path, ← entryAt path)
  return fun path ↦ ((found.find? (·.1 == path)).map (·.2)).getD .nothing

/-- What a command leaves behind is shown. -/
def tell (report : Console.Report) : IO UInt32 := do
  for line in report.sideLines do
    IO.eprintln line
  IO.print report.output
  return UInt32.ofNat report.exitCode

end SearchClient.Main

open SearchClient in
/-- The command that the arguments ask for is run. -/
def main (arguments : List String) : IO UInt32 := do
  match Console.launch (← Main.filesFor arguments) (← Main.environment) arguments with
  | .misused =>
    for line in Console.grammar.helpLines [] [] do
      IO.eprintln line
    return 2
  | .settled report => Main.tell report
  | .begun settings pool program =>
    let shared ← IO.mkRef { pool := pool : Shared }
    Main.tell (← Main.perform settings shared program)
