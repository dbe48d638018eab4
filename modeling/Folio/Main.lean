import Folio.CommandLine
import Folio.CommandLine.Report
import Folio.Http.Message
import Folio.Http.Replay
import Folio.Pdf.File
import Std.Async.DNS
import Std.Async.TCP
import Std.Async.Timer
import Std.Time.Zoned

/-!
# The program

The outer layer: what a command may read is looked up on the disk, the command is run on that, and
what it changed is written back. A request is sent when the run comes to it; the run is then
repeated with the answer.
-/

set_option autoImplicit false

namespace Folio

/-! ### Files -/

/-- The path of a place. -/
def placePath (place : Place) : String :=
  match place with
  | "/" :: names => "/" ++ "/".intercalate names
  | names => "/".intercalate names

/-- What lies at a place on the disk. -/
def entryAt? (place : Place) : IO (Option Entry) := do
  let path := (← IO.currentDir) / placePath place
  if ← path.isDir then return some .directory
  try return some (.file (← IO.FS.readBinFile path))
  catch _ => return none

/-- Adds what lies on the way along the parts of a path. -/
def lookAlong (files : Files) (place : Place) : List (List Char) → IO Files
  | [] => return files
  | part :: parts => do
    if part.isEmpty ∨ part = ['.'] then lookAlong files place parts
    else if part = Path.up then
      lookAlong files (if place = ["/"] then place else place.dropLast) parts
    else
      let place := place ++ [String.ofList part]
      match ← entryAt? place with
      | some entry => lookAlong (files.put place entry) place parts
      | none => return files

/-- Adds what lies on the way to a path. -/
def look (files : Files) (path : String) : IO Files :=
  match path.toList with
  | '/' :: rest => lookAlong files ["/"] (Text.splitWhere (· == '/') rest)
  | rest => lookAlong files files.start (Text.splitWhere (· == '/') rest)

/-- The directory that the program runs in. -/
def currentFiles : IO Files := do
  let current := toString (← IO.currentDir)
  let files ← look Files.empty current
  return match files.locate current with
    | .ok place => { files with start := place.filter (!·.isEmpty) }
    | .error _ => files

/-- The files that a translation may read and the places that it may write to. -/
def lookForTranslation (options : CommandLine.TranslateOptions) (files : Files) : IO Files := do
  let named := [options.configPath, options.input, CommandLine.outputPath options]
  let files ← named.foldlM look files
  match (CommandLine.loadConfig options files).1.toOption.bind (·.fontDirectory) with
  | none => return files
  | some directory =>
    let font := (Face.ofLanguage options.request.targetLanguage).fileName
    [directory, String.ofList (Path.join directory.toList font.toList)].foldlM look files

/-- The files that a command may read and the places that it may write to. -/
def lookFor (arguments : List String) : IO Files := do
  let files ← currentFiles
  match CommandLine.Command.ofArguments? arguments with
  | some (.translate options) => lookForTranslation options files
  | some (.initConfig path _) => look files path
  | _ => return files

/-- Writes what a run changed. -/
def writeChanges (before after : Files) : IO Unit :=
  after.entries.forM fun (place, entry) => do
    if before.at? place ≠ some entry then
      match entry with
      | .directory => IO.FS.createDir (placePath place)
      | .file content => IO.FS.writeBinFile (placePath place) content

/-! ### Requests -/

open Std.Async Std.Net

instance : Inhabited Http.Exchange := ⟨.dropped⟩

/-- Receives until the connection is closed. -/
partial def receive (client : TCP.Socket.Client) (received : ByteArray) : Async ByteArray := do
  match ← client.recv? 65536 with
  | some bytes => receive client (received ++ bytes)
  | none => return received

/-- The name or the number of the host that an address leads to. -/
def hostName (url : Url) : String :=
  match url.authority with
  | some authority =>
    match authority.host with
    | .ipv6 groups => String.ofList (Url.ipv6Text groups)
    | host => String.ofList host.text
  | none => ""

/-- Connects to the host of an address. -/
def connect (url : Url) : Async (Except String TCP.Socket.Client) := do
  let addresses ← try DNS.getAddrInfo (hostName url) ""
    catch _ => pure #[]
  let port := (Http.port url).toUInt16
  match addresses[0]? with
  | none =>
    return .error ("dns error: failed to lookup address information: " ++
      "Name or service not known")
  | some address =>
    let client ← TCP.Socket.Client.mk
    let socket : SocketAddress :=
      match address with
      | .v4 addr => .v4 { addr, port }
      | .v6 addr => .v6 { addr, port }
    try
      client.connect socket
      return .ok client
    catch _ => return .error "tcp connect error: Connection refused (os error 111)"

/-- Sends a request and waits for the answer. -/
def exchange (post : Post) : Async Http.Exchange := do
  if post.url.scheme ≠ "http".toList then
    return .unreachable "no encrypted connections"
  match ← connect post.url with
  | .error reason => return .unreachable reason
  | .ok client =>
    try
      client.send (Http.requestBytes post)
      return .ofBytes (← receive client .empty).toList
    catch _ => return .dropped

/-- The longest wait for an answer, in milliseconds. -/
def longestWait : Nat := 365 * 24 * 60 * 60 * 1000

/-- Sends a request and waits for the answer as long as the request allows. -/
def exchangeInTime (post : Post) : IO Http.Exchange :=
  Async.block <| Async.race (exchange post) do
    sleep (.ofNat (min (1000 * post.timeout) longestWait))
    return .expired

/-! ### Running -/

/-- The time of day. -/
def timeOfDay : IO String := do
  let time ← try Std.Time.PlainTime.now
    catch _ =>
      let now ← Std.Time.Timestamp.now
      let passed := now.toMillisecondsSinceUnixEpoch.toInt.toNat
      pure (Std.Time.PlainTime.ofMilliseconds (.ofNat (passed % 86400000)))
  let part (width : Nat) (n : Int) : String := paddedNumeral width n.toNat
  return s!"{part 2 time.hour.val}:{part 2 time.minute.val}:{part 2 time.second.val}." ++
    part 3 (time.nanosecond.val / 1000000)

/-- Shows lines of the log of a run that began at a time. -/
def report (began : Nat) (log : Log) : IO Unit := do
  let elapsed := (← IO.monoMsNow) - began
  for line in log do
    IO.eprintln (line.text (← timeOfDay) elapsed)

/-- Runs the program from the exchanges that are known, of which `shown` lines were shown, and goes
on with each exchange that it needs. The last line of a run that waits says only that it does. -/
partial def converse (arguments : List String) (files : Files) (began : Nat)
    (known : List Http.Exchange) (shown : Nat) : IO (CommandLine.Exit Http.Replay × Nat) := do
  let exit := CommandLine.run arguments Pdf.File.library Http.Replay.transport files { known }
  match exit.state.waiting with
  | none => return (exit, shown)
  | some post =>
    let told := exit.log.dropLast
    report began (told.drop shown)
    converse arguments files began (known ++ [← exchangeInTime post]) told.length

/-- Shows why a run failed. -/
def reportFailure (failure : Failure) : IO Unit :=
  (CommandLine.failureLines failure).forM (IO.eprintln ·)

/-- Shows why the program panicked. -/
def reportPanic (panic : Panic) : IO Unit :=
  IO.eprintln s!"thread 'main' panicked: {panic.message}"

/-- Runs the program: the code that it exits with. -/
def runProgram (arguments : List String) : IO UInt32 := do
  let began ← IO.monoMsNow
  let files ← lookFor arguments
  let (exit, shown) ← converse arguments files began [] 0
  try
    writeChanges files exit.files
    report began (exit.log.drop shown)
    IO.print exit.output
    exit.failure.forM reportFailure
    exit.panic.forM reportPanic
    if exit.code = CommandLine.usageCode then IO.eprint CommandLine.helpText
    return exit.code.toUInt32
  catch e =>
    reportFailure (.of (toString e))
    return 1

end Folio

def main (arguments : List String) : IO UInt32 :=
  Folio.runProgram arguments
