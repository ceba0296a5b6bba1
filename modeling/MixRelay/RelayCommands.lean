import MixRelay.Relay
import MixRelay.SettingsFile

/-! # The commands of the relay program

One command writes the settings of a relay at a place in the cascade, one starts the relay from its
settings file, and one shows a fresh edge key. A failure is told as a chain of messages, each the
cause of the one before it. -/
namespace MixRelay

inductive CommandError
  | settingsExist (path : String)
  | notWritten (error : SettingsError)
  | unreadable (path : String) (error : TransferError)
  | malformed (path : String)
  | invalidSettings (error : SettingsError)
  | keyMissing
  | notStarted (error : RelayError)
  deriving DecidableEq

/-- What is said of any file from which no settings come. -/
def CommandError.noSettings : String := "No config found. Run 'cascade init' first."

def CommandError.chain : CommandError → List String
  | .settingsExist path =>
    [s!"Config already exists at {path}\n" ++
      "Use a different --config path or delete the existing config."]
  | .notWritten e => "Refusing to write an invalid config" :: e.chain
  | .unreadable path e => [noSettings, s!"Failed to read config from {path}", e.message]
  | .malformed path => [noSettings, s!"Failed to parse config from {path}"]
  | .invalidSettings e => "Invalid configuration" :: e.chain
  | .keyMissing => ["Relays with neighbours need a [keys] section (see 'cascade keygen')"]
  | .notStarted e => "Failed to start relay" :: e.chain

namespace RelayCommands

/-- What the relay will do, told when its settings are written. -/
def outlook (s : RelaySettings) : List String :=
  let requests := if s.isFirst
    then s!"  - Accept clients on {s.listener.bindAddress}:{s.listener.port}"
    else s!"  - Accept the previous relay on {s.inbound.listen}"
  let replies := match s.outbound.address with
    | some address =>
      if s.isLast then "  - Deliver mixed requests to the destination and size replies"
      else s!"  - Forward mixed requests to {address}"
    | none => "  - Deliver mixed requests to the destination and size replies"
  let steps := if s.isFirst && s.isLast then [] else
    ["", "Next steps:",
      "  1. Run 'cascade keygen' once and add the [keys] section to every relay",
      "  2. Run 'cascade run' on each relay, last relay first"]
  ["", "This relay will:", requests, replies] ++ steps

/-- Each line with its end. -/
def linesText (lines : List String) : String := String.join (lines.map (· ++ "\n"))

/-- Makes the settings of a relay, unless the file exists or they do not fit together. -/
def createSettings (path : String) (pathExists : Bool) (previousHops furtherHops : Nat)
    (nextRelay : Option String) : Except CommandError RelaySettings := do
  if pathExists then .error (.settingsExist path)
  else
    let s := RelaySettings.atPosition previousHops furtherHops nextRelay
    s.validate.mapError .notWritten
    .ok s

/-- What is told about settings that have been written. -/
def creationReport (path : String) (s : RelaySettings) : String :=
  linesText (["", "Relay configuration created.", s!"Config saved to: {path}"] ++ outlook s)

/-- The settings in a file, or why there are none. -/
def loadSettings (path : String) (file : Except TransferError String) :
    Except CommandError RelaySettings := do
  let text ← file.mapError (.unreadable path)
  match RelaySettings.parse? text with
  | none => .error (.malformed path)
  | some s => .ok s

/-- How the edges of a relay come by their keys: a relay with neighbours needs a shared one. -/
def keysOf (s : RelaySettings) : Except CommandError KeyExchange := do
  match ← s.edgeKey.mapError .invalidSettings with
  | some key => .ok (.pinned key)
  | none => if s.isFirst && s.isLast then .ok (.published []) else .error .keyMissing

/-- Starts the relay of a settings file. -/
def startRelay (path : String) (file : Except TransferError String) (host : Host) (draws : Draws) :
    Except CommandError Relay := do
  let s ← loadSettings path file
  s.validate.mapError .invalidSettings
  let keys ← keysOf s
  let (relay, _) ← (Relay.start s host keys draws).mapError .notStarted
  .ok relay

/-- A key as the section of a settings file. -/
def keyReport (key : EdgeKey) : String :=
  linesText ["[keys]", s!"key = \"{key.keyText}\"", s!"iv = \"{key.ivText}\""]

end RelayCommands

/-- What a command comes to: its failure if any, what it prints, and the settings file behind it. -/
structure CommandOutcome where
  failure : Option CommandError
  printed : String
  file : Option String
  deriving DecidableEq

namespace CommandOutcome
open RelayCommands

/-- Writes settings to a path where there may be a file already. -/
def ofInit (path : String) (file : Option String) (previousHops furtherHops : Nat)
    (nextRelay : Option String) : CommandOutcome :=
  match createSettings path file.isSome previousHops furtherHops nextRelay with
  | .ok s => ⟨none, creationReport path s, some s.render⟩
  | .error e => ⟨some e, "", file⟩

/-- Starts the relay of the file at a path, if there is one. -/
def ofRun (path : String) (file : Option String) (host : Host) (draws : Draws) : CommandOutcome :=
  let content := match file with
    | some text => .ok text
    | none => .error (.system 2 "No such file or directory")
  match startRelay path content host draws with
  | .ok _ => ⟨none, "", file⟩
  | .error e => ⟨some e, "", file⟩

/-- Shows a fresh key. -/
def ofKeygen (file : Option String) (key : EdgeKey) : CommandOutcome := ⟨none, keyReport key, file⟩

end CommandOutcome
end MixRelay
