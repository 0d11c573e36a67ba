/-!
# Protocol: classes and methods of the managed side

The names by which both sides know classes and methods. The bridge looks its share of them up once,
when a runtime starts.
-/

namespace GridBridge.Protocol

/-- A method as it is looked up: by name, signature and whether it belongs to the class itself. -/
structure MethodSpec where
  name : String
  signature : String
  isStatic : Bool
  deriving DecidableEq, Repr

namespace ClassName

def object : String := "java/lang/Object"
def string : String := "java/lang/String"
def throwable : String := "java/lang/Throwable"
def cls : String := "java/lang/Class"
def ignition : String := "org/apache/ignite/Ignition"
def kernal : String := "org/apache/ignite/internal/IgniteKernal"
def ignitionEx : String := "org/apache/ignite/internal/IgnitionEx"
def interopUtils : String := "org/apache/ignite/internal/processors/interop/InteropUtils"
def interopProcessor : String := "org/apache/ignite/internal/processors/interop/InteropProcessor"
def interopTarget : String := "org/apache/ignite/internal/processors/interop/InteropTargetAdapter"
def interopCache : String := "org/apache/ignite/internal/processors/interop/InteropCache"

end ClassName

namespace Method

def toString : MethodSpec := ⟨"toString", "()Ljava/lang/String;", false⟩

def getMessage : MethodSpec := ⟨"getMessage", "()Ljava/lang/String;", false⟩

def getName : MethodSpec := ⟨"getName", "()Ljava/lang/String;", false⟩

def ignite : MethodSpec :=
  ⟨"ignite", "(Ljava/lang/String;)Lorg/apache/ignite/Ignite;", true⟩

def startWithClosure : MethodSpec :=
  ⟨"startWithClosure",
    "(Ljava/lang/String;Ljava/lang/String;Lorg/apache/ignite/lang/IgniteClosure;)" ++
      "Lorg/apache/ignite/Ignite;", true⟩

def interop : MethodSpec :=
  ⟨"interop",
    "(Lorg/apache/ignite/Ignite;)" ++
      "Lorg/apache/ignite/internal/processors/interop/InteropProcessor;", true⟩

def asyncCallback : MethodSpec := ⟨"asyncCallback", "(JJIJ)V", true⟩

def cache : MethodSpec :=
  ⟨"cache",
    "(Ljava/lang/String;)Lorg/apache/ignite/internal/processors/interop/InteropTarget;", false⟩

def inOp : MethodSpec := ⟨"inOp", "(IJI)I", false⟩

def inOutOp : MethodSpec := ⟨"inOutOp", "(IJI)J", false⟩

def inOutOpAsync : MethodSpec := ⟨"inOutOpAsync", "(IJIJJ)V", false⟩

end Method

end GridBridge.Protocol
