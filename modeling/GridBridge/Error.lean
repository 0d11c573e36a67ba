import GridBridge.Protocol.Opcode
import GridBridge.Protocol.Status
import GridBridge.Text.Quoted

/-!
# Errors of the bridge

An error is its cause. The wording of every cause is in `message`, and nowhere else.
-/

namespace GridBridge

open Protocol Text

/-! ## Faults of the managed side -/

/-- What is known of a managed exception. -/
structure ManagedFault where
  message : String
  /-- Dotted class name, where it could be read. -/
  className : Option String := none
  deriving DecidableEq, Repr

namespace ManagedFault

/-- A call that owes an object returned none and raised nothing. -/
def noResult : ManagedFault := { message := "no result" }

/-- A global reference was not handed out and nothing was raised. -/
def noGlobalReference : ManagedFault := { message := "failed to allocate a global reference" }

/-- The class in front of the message, where known. -/
def text (f : ManagedFault) : String :=
  match f.className with
  | some name => s!"{name}: {f.message}"
  | none => f.message

end ManagedFault

/-! ## Configuration errors -/

/-- Failures of file access. -/
inductive IoError where
  | notFound
  | notDirectory
  | isDirectory
  | nameWithNul
  | nameTooLong
  | notUtf8
  | stated (text : String)
  deriving DecidableEq, Repr

def IoError.message : IoError → String
  | .notFound => "No such file or directory (os error 2)"
  | .notDirectory => "Not a directory (os error 20)"
  | .isDirectory => "Is a directory (os error 21)"
  | .nameWithNul => "file name contained an unexpected NUL byte"
  | .nameTooLong => "File name too long (os error 36)"
  | .notUtf8 => "stream did not contain valid UTF-8"
  | .stated text => text

/-- What is wrong with a configuration that could be read. -/
inductive ConfigProblem where
  | emptyInstanceName
  | noClasspathSource
  | badOption (option : String)
  | noHome
  | separatorInEntry
  | noInstanceConfig
  | instanceConfigNotUtf8 (path : List UInt8)
  | instanceNameNotUtf8 (raw : List UInt8)
  | quietNotBoolean (raw : List UInt8)
  | stated (text : String)
  deriving DecidableEq, Repr

def ConfigProblem.message : ConfigProblem → String
  | .emptyInstanceName => "instance name must not be empty"
  | .noClasspathSource => "either classpath or ignite_home (IGNITE_HOME) must be set"
  | .badOption option => s!"runtime option {quoted option} does not start with '-'"
  | .noHome => "cannot assemble a classpath without ignite_home"
  | .separatorInEntry => "invalid classpath entry: path segment contains separator `:`"
  | .noInstanceConfig => "instance.config_path is not set"
  | .instanceConfigNotUtf8 path => s!"instance config path {lossy path} is not valid UTF-8"
  | .instanceNameNotUtf8 raw => s!"IGNITE_INTEROP_INSTANCE is not UTF-8: {quotedBytes raw}"
  | .quietNotBoolean raw =>
    s!"IGNITE_INTEROP_QUIET must be `true` or `false`, got {quotedBytes raw}"
  | .stated text => text

inductive ConfigError where
  | io (cause : IoError)
  /-- The text is no configuration. What the reader of the format said is kept as it is. -/
  | parse (detail : String)
  | validation (problem : ConfigProblem)
  deriving DecidableEq, Repr

def ConfigError.message : ConfigError → String
  | .io cause => s!"Config file error: {cause.message}"
  | .parse detail => s!"Config parse error: {detail}"
  | .validation problem => s!"Config validation error: {problem.message}"

/-! ## Errors of bridge operations -/

/-- Opcode, target, shape or text do not agree with the protocol. -/
inductive Violation where
  | unknownOpcode (code : Int32)
  | wrongTarget (op : Opcode) (target : TargetClass)
  | wrongShape (op : Opcode) (shape : Shape)
  | oversizedRequest (op : Opcode) (length : Nat)
  | nulInText (text : String)
  | nullPromotion
  | stated (text : String)
  deriving DecidableEq, Repr

def Violation.message : Violation → String
  | .unknownOpcode code => s!"unknown opcode {code.toInt}"
  | .wrongTarget op target => s!"{op.label} is not supported by a {target.name} target"
  | .wrongShape op shape => s!"{op.label} cannot be issued as {shape.name}"
  | .oversizedRequest op length =>
    s!"{op.label} request of {length} bytes does not fit the wire format"
  | .nulInText text => s!"string {quoted text} contains NUL"
  | .nullPromotion => "cannot promote a null reference"
  | .stated text => text

/-- A lookup that found nothing and raised nothing. -/
inductive MissingTarget where
  | cache (name : Option String) (instanceName : String)
  | stated (text : String)
  deriving DecidableEq, Repr

def MissingTarget.message : MissingTarget → String
  | .cache name instanceName =>
    "cache " ++ quoted (name.getD "<default>") ++ " on instance " ++ quoted instanceName
  | .stated text => text

/-- Everything that can go wrong while the managed runtime is driven. -/
inductive BridgeError where
  /-- The calling thread could not join the runtime. -/
  | attach (code : Status)
  /-- The runtime could not be created, or a descriptor of it not resolved. -/
  | embeddingStart (code : Status) (detail : String) (className : Option String)
  /-- An instance could not be started or found. -/
  | startup (fault : ManagedFault)
  /-- A call-scoped reference could not be made durable. -/
  | promotion (fault : ManagedFault)
  | managedFault (fault : ManagedFault)
  | protocolViolation (cause : Violation)
  | targetUnavailable (target : MissingTarget)
  /-- The handle has outlived the context it came from. -/
  | runtimeTornDown
  | config (cause : ConfigError)
  deriving DecidableEq, Repr

namespace BridgeError

def message : BridgeError → String
  | .attach code => s!"failed to attach thread to the managed runtime (status {code.toInt})"
  | .embeddingStart code detail _ =>
    s!"failed to start the managed runtime (status {code.toInt}): {detail}"
  | .startup fault => s!"failed to start instance: {fault.text}"
  | .promotion fault => s!"failed to promote reference: {fault.text}"
  | .managedFault fault => fault.text
  | .protocolViolation cause => s!"protocol violation: {cause.message}"
  | .targetUnavailable target => s!"target unavailable: {target.message}"
  | .runtimeTornDown => "the managed runtime has been torn down"
  | .config cause => cause.message

/-- The managed fault the error carries. -/
def fault? : BridgeError → Option ManagedFault
  | .startup fault | .promotion fault | .managedFault fault => some fault
  | _ => none

/-- The managed class behind the error, where known. -/
def className? : BridgeError → Option String
  | .embeddingStart _ _ className => className
  | e => e.fault?.bind (·.className)

end BridgeError

/-- Rejects an opcode that a target or a shape does not take. -/
def Protocol.Opcode.check (op : Opcode) (target : TargetClass) (shape : Shape) :
    Except BridgeError Unit :=
  if op.targetClass ≠ target then .error (.protocolViolation (.wrongTarget op target))
  else if op.supports shape then .ok ()
  else .error (.protocolViolation (.wrongShape op shape))

/-- The opcode of a code, or the violation of naming none. -/
def Protocol.Opcode.decode (code : Int32) : Except BridgeError Opcode :=
  match Opcode.ofCode? code with
  | some op => .ok op
  | none => .error (.protocolViolation (.unknownOpcode code))

end GridBridge
