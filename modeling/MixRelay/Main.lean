import MixRelay.CommandLine

/-! # The program -/
namespace MixRelay

/-- What the system reports about a file. -/
def ofSystem : IO.Error → TransferError
  | .noFileOrDirectory .. => .system 2 "No such file or directory"
  | .permissionDenied .. => .system 13 "Permission denied"
  | e => .reported (toString e)

/-- No transport is linked in, so no address can be listened at. -/
def noTransport : Host := fun _ => .error (.reported "no network transport")

def fail (chain : List String) : IO UInt32 := do
  (← IO.getStderr).putStr (CommandLine.renderChain chain)
  return 1

def initCommand (path : String) (line : CommandLine) : IO UInt32 := do
  let opened ← (IO.FS.Handle.mk path .read).toBaseIO
  let pathExists := match opened with
    | .ok _ => true
    | .error (.noFileOrDirectory ..) => false
    | .error _ => true
  match RelayCommands.createSettings path pathExists line.previousHops line.furtherHops
      line.nextRelay with
  | .error e => fail e.chain
  | .ok settings =>
    match CommandLine.parentOf? path with
    | some dir => IO.FS.createDirAll dir
    | none => pure ()
    IO.FS.writeFile path settings.render
    IO.setAccessRights path ⟨⟨true, true, false⟩, ⟨false, false, false⟩, ⟨false, false, false⟩⟩
    IO.print (RelayCommands.creationReport path settings)
    return 0

def runCommand (path : String) : IO UInt32 := do
  let file := match ← (IO.FS.readFile path).toBaseIO with
    | .ok text => .ok text
    | .error e => .error (ofSystem e)
  match RelayCommands.startRelay path file noTransport (.ofList []) with
  | .error e => fail e.chain
  | .ok _ => fail ["Failed to start relay", "no network transport"]

def keygenCommand : IO UInt32 := do
  let random ← IO.getRandomBytes 32
  IO.print (RelayCommands.keyReport (.ofDraws (random.toList.map UInt8.toUInt32)))
  return 0

def perform (line : CommandLine) : IO UInt32 := do
  let home ← IO.getEnv "HOME"
  match line.settingsPath.or (home.map CommandLine.defaultPath), line.command with
  | none, _ => fail ["Could not determine home directory"]
  | some path, some .init => initCommand path line
  | some path, some .run => runCommand path
  | some _, some .keygen => keygenCommand
  | _, none => do
    (← IO.getStderr).putStr CommandLine.usage
    return 2

end MixRelay

def main (args : List String) : IO UInt32 :=
  match MixRelay.CommandLine.empty.parse? args with
  | some line => MixRelay.perform line
  | none => do
    (← IO.getStderr).putStr MixRelay.CommandLine.usage
    return 2
