import GridBridge.Config.Launch
import GridBridge.Config.Override
import GridBridge.Config.Store
import GridBridge.Session.Launcher

/-!
# Command line: a demonstration run

The command loads a configuration, applies the environment to it, starts an instance and works on
one of its caches: a put, some asynchronous puts, and the size at the end. What it does is a
function of its arguments, its environment and the files it may look at.
-/

namespace GridBridge.CommandLine

open Protocol Seam Session Config Files

/-- The runtime a build of the command drives. -/
inductive Build where
  /-- The loopback runtime, which needs no classes. -/
  | loopback
  /-- None. -/
  | bare
  deriving DecidableEq, Repr

/-- How the command was called. -/
structure Invocation where
  /-- What follows the name of the command. -/
  arguments : List String
  overrides : Overrides := {}
  files : FileSystem := {}

/-- What a run leaves. -/
structure Outcome where
  code : UInt8
  output : String := ""
  errors : String := ""
  deriving DecidableEq, Repr

/-- The name the command goes by. -/
def commandName : String := "ignite-interop"

def usage : String := s!"Usage: {commandName} <config.toml|config.json> [cache]"

def defaultCacheName : String := "cache1"

/-- A run that ends with a line on the error stream. -/
def Outcome.failed (code : UInt8) (line : String) : Outcome := { code, errors := line ++ "\n" }

/-! ## The demonstration -/

/-- Steps that may be refused and print lines. Lines printed before a refusal stay. -/
abbrev Demo := ExceptT Refusal (StateT (List String) Step)

def Demo.perform {α : Type} (steps : Request α) : Demo α :=
  ExceptT.mk (StateT.lift steps.run)

def Demo.print (line : String) : Demo Unit := modifyThe (List String) (· ++ [line])

/-- Asynchronous puts of a run. -/
def asyncPuts : Nat := 16

def instanceLabel : String := "instance"
def cacheLabel : String := "cache"
def loopLabel : String := "loop"

/-- Puts once, then puts the squares of keys asynchronously, and counts. -/
def demonstrate (launch : LaunchArgs) (configPath instanceName cacheName : String) : Demo Unit := do
  Demo.perform (start launch false)
  let _ ← Demo.perform (openInstance instanceLabel configPath instanceName)
  let _ ← Demo.perform (openCache cacheLabel instanceLabel (some cacheName))
  let reply ← Demo.perform (put cacheLabel 1 1 false)
  Demo.print s!"put(1, 1) -> {reply.toInt}"
  Demo.perform (openLoop loopLabel)
  for key in List.range asyncPuts do
    let key := Int32.ofNat key
    let _ ← Demo.perform (putAsync cacheLabel loopLabel key (key * key) key.toInt none)
  let ended ← Demo.perform (runLoop loopLabel)
  Demo.print s!"{ended.count} async puts completed"
  let size ← Demo.perform (size cacheLabel false)
  Demo.print s!"size -> {size.toNat}"

/-- What is wrong where a run was refused. -/
def refusalText : Refusal → String
  | .missing what => s!"no such {what}"
  | .failed error => error.message
  | .wouldBlock pending => s!"{pending} calls never complete"

/-! ## Starting -/

/-- The launch of the loopback runtime. It loads no classes, so it can do without a classpath. -/
def loopbackLaunch (settings : Settings) (files : FileSystem) : LaunchArgs :=
  match settings.launchArgs files with
  | .ok launch => launch
  | .error _ => Settings.launchWith [Settings.quietOption settings.quiet]

/-- The path of the instance configuration as text. -/
def instanceConfig (settings : Settings) : Except ConfigError String := do
  let path ← settings.instanceConfigPath
  match path.toString? with
  | some text => return text
  | none => throw (.validation (.instanceConfigNotUtf8 path.bytes))

/-- A run that ended in an error of the bridge. -/
def errorLine (text : String) : String := "Error: " ++ text

/-- Runs the demonstration on the loopback runtime. -/
def runLoopback (settings : Settings) (files : FileSystem) (cacheName : String) : Outcome :=
  match instanceConfig settings with
  | .error e => .failed 1 (errorLine e.message)
  | .ok configPath =>
    let demo := demonstrate (loopbackLaunch settings files) configPath settings.inst.name cacheName
    let (outcome, _) := ((demo.run.run []).run).run { runtime := { files } }
    match outcome with
    | .ok (result, lines) =>
      let output := String.join (lines.map (· ++ "\n"))
      match result with
      | .ok () => { code := 0, output }
      | .error refusal => { Outcome.failed 1 (errorLine (refusalText refusal)) with output }
    | .error cause => .failed 134 cause.message

/-- A build without a runtime cannot start one. -/
def noBackend : BridgeError :=
  .embeddingStart Status.err
    "no managed runtime backend compiled in; rebuild with `--features jvm`" none

def runWith (build : Build) (settings : Settings) (files : FileSystem) (cacheName : String) :
    Outcome :=
  match build with
  | .loopback => runLoopback settings files cacheName
  | .bare => .failed 1 (errorLine noBackend.message)

/-- The settings of a call: those of the file, changed by the environment. -/
def configure (invocation : Invocation) (path : String) : Except Outcome Settings :=
  match Settings.load invocation.files (.ofString path) with
  | .error e => .error (.failed 2 s!"Failed to load {path}: {e.message}")
  | .ok loaded =>
    match loaded.override invocation.overrides with
    | (.ok (), settings) => .ok settings
    | (.error e, _) => .error (.failed 2 s!"Invalid environment override: {e.message}")

/-- What a run with these settings looks at, apart from the configuration itself. -/
def lookedAt (settings : Settings) : List Path :=
  (settings.home.map fun home => Settings.libraryDirectories.map home.join).getD [] ++
    settings.instanceConfigPath.toOption.toList

/-- Runs the command. -/
def run (build : Build) (invocation : Invocation) : Outcome :=
  match invocation.arguments with
  | [] => .failed 2 usage
  | path :: rest =>
    match configure invocation path with
    | .error outcome => outcome
    | .ok settings =>
      runWith build settings invocation.files (rest.headD defaultCacheName)

end GridBridge.CommandLine
