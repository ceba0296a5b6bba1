import MixRelay.NumberReading
import MixRelay.RelayCommands

/-! # The command line

The command is a word; options start with dashes and stand anywhere. An option that takes a value
takes the next word, or what follows its equals sign. -/
namespace MixRelay

inductive LogLevel
  | info
  | debug
  deriving DecidableEq

namespace LogLevel

def ofVerbose (verbose : Bool) : LogLevel := if verbose then .debug else .info

def name : LogLevel → String
  | .info => "info"
  | .debug => "debug"

end LogLevel

inductive CommandWord
  | init
  | run
  | keygen
  deriving DecidableEq

def CommandWord.ofText? : String → Option CommandWord
  | "init" => some .init
  | "run" => some .run
  | "keygen" => some .keygen
  | _ => none

structure CommandLine where
  command : Option CommandWord
  settingsPath : Option String
  verbose : Bool
  previousHops : Nat
  furtherHops : Nat
  nextRelay : Option String
  deriving DecidableEq

namespace CommandLine

def empty : CommandLine := ⟨none, none, false, 0, 0, none⟩

/-- A number of relays. -/
def hops? (text : String) : Option Nat := Reader.whole (Reader.number 10 (2 ^ 32 - 1)) text.toList

/-- Sets an option that takes a value. -/
def withOption (c : CommandLine) (option value : String) : Option CommandLine :=
  match option with
  | "-c" | "--config" => some { c with settingsPath := some value }
  | "--previous-hops" => (hops? value).map fun n => { c with previousHops := n }
  | "--further-hops" => (hops? value).map fun n => { c with furtherHops := n }
  | "--upstream" => some { c with nextRelay := some value }
  | _ => none

/-- Reads a word that stands for itself: the command, a switch, or an option with its value. -/
def withWord (c : CommandLine) (word : String) : Option CommandLine :=
  if word = "-v" ∨ word = "--verbose" then some { c with verbose := true }
  else if word.toList.contains '=' then
    let option := String.ofList (word.toList.takeWhile (· != '='))
    c.withOption option (String.ofList ((word.toList.dropWhile (· != '=')).drop 1))
  else
    match c.command, CommandWord.ofText? word with
    | none, some command => some { c with command := some command }
    | _, _ => none

/-- The command line of some words; none if one of them means nothing. -/
def parse? (c : CommandLine) : List String → Option CommandLine
  | [] => some c
  | [word] => c.withWord word
  | word :: value :: rest =>
    match c.withOption word value with
    | some c => c.parse? rest
    | none => (c.withWord word).bind fun c => c.parse? (value :: rest)

def usage : String :=
  "Usage: cascade [--config <CONFIG>] [--verbose] <init|run|keygen>\n" ++
    "  init: [--previous-hops <N>] [--further-hops <N>] [--upstream <ADDRESS>]\n"

/-- A chain of messages, the causes numbered if there are several. -/
def renderChain : List String → String
  | [] => ""
  | [message] => s!"Error: {message}\n"
  | [message, cause] => s!"Error: {message}\n\nCaused by:\n    {cause}\n"
  | message :: causes =>
    let numbered := causes.zipIdx.map fun (cause, i) => s!"    {i}: {cause}\n"
    s!"Error: {message}\n\nCaused by:\n" ++ String.join numbered

/-- The settings file where no other is named, below the home directory. -/
def defaultPath (home : String) : String := home ++ "/.cascade/config.toml"

/-- The directory of a path, if it names one. -/
def parentOf? (path : String) : Option String :=
  let dir := ((path.toList.reverse.dropWhile (· != '/')).drop 1).reverse
  if dir.isEmpty then none else some (String.ofList dir)

end CommandLine
end MixRelay
