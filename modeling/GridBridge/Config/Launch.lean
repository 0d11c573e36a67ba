import GridBridge.Config.Settings
import GridBridge.Files.FileSystem
import GridBridge.Seam.Call

/-!
# Config: what settings make of a launch

The classpath, the options of the runtime and the file the instance is configured by. Without an
explicit classpath it is assembled from the installation, in an order that does not depend on the
order in which directories list their entries.
-/

namespace GridBridge.Config

open Files Seam

namespace Settings

/-! ## Validation -/

def isOption (option : String) : Bool := option.toList.head? == some '-'

/-- What is wrong with the settings, if anything: the first of a missing name, a missing source of
classes and an option that is none. -/
def problem? (s : Settings) : Option ConfigProblem :=
  if s.inst.name.isEmpty then some .emptyInstanceName
  else if s.classpath.isEmpty && s.home.isNone then some .noClasspathSource
  else (s.options.find? fun option => !isOption option).map .badOption

def validate (s : Settings) : Except ConfigError Unit :=
  match s.problem? with
  | none => .ok ()
  | some problem => .error (.validation problem)

/-! ## Classpath -/

/-- Class directories of an installation. -/
def classDirectories : List Path :=
  [.ofString "modules/core/target/classes", .ofString "modules/spring/target/classes"]

/-- Directories of an installation whose archives belong to the classpath. -/
def libraryDirectories : List Path :=
  [.ofString "modules/core/target/libs", .ofString "modules/spring/target/libs"]

def archiveExtension : Name := nameOfString "jar"

/-- The names of archives, in ascending order of their bytes. -/
def archives (names : List Name) : List Name :=
  (names.filter fun name => Path.nameExtension? name == some archiveExtension).mergeSort
    fun a b => a ≤ b

/-- The archives in a directory. One that cannot be listed has none. -/
def archivesIn (fs : FileSystem) (directory : Path) : List Path :=
  match fs.list directory with
  | .ok names => (archives names).map fun name => directory.join ⟨name⟩
  | .error _ => []

/-- The classpath of an installation: its class directories, then the archives of each library
directory. -/
def installedClasspath (fs : FileSystem) (home : Path) : List Path :=
  classDirectories.map home.join ++
    libraryDirectories.flatMap fun directory => archivesIn fs (home.join directory)

/-- The explicit classpath, or that of the installation. -/
def resolveClasspath (s : Settings) (fs : FileSystem) : Except ConfigError (List Path) :=
  if !s.classpath.isEmpty then .ok s.classpath
  else
    match s.home with
    | some home => .ok (installedClasspath fs home)
    | none => .error (.validation .noHome)

/-! ## Launch arguments -/

/-- Stands between the entries of a classpath. -/
def entrySeparator : UInt8 := 0x3A

/-- The entries in one text; an entry must not hold the separator. -/
def joinEntries (entries : List Path) : Except ConfigError Path :=
  if entries.any fun entry => entry.bytes.contains entrySeparator then
    .error (.validation .separatorInEntry)
  else .ok ⟨joinWithByte entrySeparator (entries.map (·.bytes))⟩

def classpathOption (joined : Path) : String := "-Djava.class.path=" ++ joined.toStringLossy

def quietOption (quiet : Bool) : String := "-DIGNITE_QUIET=" ++ (if quiet then "true" else "false")

/-- A launch with these options. Options that the runtime does not know are refused. -/
def launchWith (options : List String) : LaunchArgs where
  version := Protocol.runtimeVersion
  options := options
  ignoreUnrecognized := false

/-- The launch that the settings ask for. -/
def launchArgs (s : Settings) (fs : FileSystem) : Except ConfigError LaunchArgs := do
  let joined ← joinEntries (← s.resolveClasspath fs)
  return launchWith ([classpathOption joined, quietOption s.quiet] ++ s.options)

/-! ## Instance -/

/-- The instance configuration of an installation. -/
def defaultInstanceConfig : Path := .ofString "config/default-config.xml"

/-- The file the instance is configured by. -/
def instanceConfigPath (s : Settings) : Except ConfigError Path :=
  match s.inst.configPath, s.home with
  | some path, _ => .ok path
  | none, some home => .ok (home.join defaultInstanceConfig)
  | none, none => .error (.validation .noInstanceConfig)

end Settings

end GridBridge.Config
