import SodiumDecl.Catalog.Libsodium
import SodiumDecl.CommandLine.Invocation
import SodiumDecl.Generate
import SodiumDecl.Settings.Load

/-!
# The command

`execute` does what an invocation asks for: it loads the settings, generates the
declarations and says where they are. An error goes to the error stream, and the exit code
is 1. Arguments that ask for nothing the command allows end with the code 2.
-/

namespace SodiumDecl.CommandLine

/-- What the command prints, and its exit code. -/
structure Output where
  code : UInt8
  stdout : String := ""
  stderr : String := ""
  deriving DecidableEq, Repr

/-- The text that tells the version of the command. -/
def versionText : String := "sodium-typegen 0.2.0\n"

/-- The line that shows how the command is called. -/
def usageLine : String := "Usage: sodium-typegen [OPTIONS] --output <OUTPUT>\n"

/-- The help text. -/
def helpText : String :=
  "TypeScript declaration generation for libsodium.js\n\n" ++ usageLine ++ "\n" ++
  "Options:\n" ++
  "  -o, --output <OUTPUT>        " ++
    "Output file, or a directory to write the default file name into\n" ++
  "  -b, --base <BASE>            Local libsodium.js checkout (skips the download)\n" ++
  "  -s, --sumo                   Declare the sumo build (libsodium-wrappers-sumo)\n" ++
  "  -v, --setversion <VERSION>   Release to download\n" ++
  "      --min-version <VERSION>  Oldest accepted release\n" ++
  "      --config <FILE>          " ++
    "Configuration file (defaults to the user config, if present)\n" ++
  "  -h, --help                   Print help\n" ++
  "  -V, --version                Print version\n"

/-- What the command says after a run. -/
def successText (r : Report) : String :=
  "Success! The declaration file for libsodium.js v" ++ r.version
    ++ (if r.profile.isExtended then " (sumo)" else "")
    ++ " is now available at \"" ++ r.output.text ++ "\".\n"

/-- Where a command runs: the user's directories, the fetcher, and the directory of
scratch directories. -/
structure Context where
  environment : Environment
  fetcher : Fetcher
  temporary : Path

/-- The settings of an invocation. The option of the oldest release comes before what the
file says. -/
def settings (files : FileTree) (env : Environment) (s : Settled) : Except Error Settings := do
  let loaded ← Settings.load files env ((s.values.lookup .config).map Path.mk)
  match s.values.lookup .minimum with
  | some m => return { loaded with minimumVersion := m }
  | none => return loaded

/-- The options of a run. -/
def options (output : String) (s : Settled) : Options where
  output := ⟨output⟩
  base := (s.values.lookup .base).map Path.mk
  version := s.values.lookup .release
  profile := .ofExtended s.extended

/-- Generate declarations. -/
def run (context : Context) (output : String) (s : Settled) : Run Report := do
  let settings ← Run.ofExcept (settings (← Run.files) context.environment s)
  let provider : Provider := ⟨settings, context.fetcher, context.temporary⟩
  generate provider .libsodium (options output s)

/-- Do what an invocation asks for. -/
def execute (context : Context) (i : Invocation) (w : World) : Output × World :=
  match i with
  | .help => ({ code := 0, stdout := helpText }, w)
  | .version => ({ code := 0, stdout := versionText }, w)
  | .usageError => ({ code := 2, stderr := usageLine }, w)
  | .generate output s =>
    match (run context output s).run.run w with
    | (.ok r, w) => ({ code := 0, stdout := successText r }, w)
    | (.error e, w) => ({ code := 1, stderr := e.message ++ "\n" }, w)

end SodiumDecl.CommandLine
