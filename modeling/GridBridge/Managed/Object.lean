import GridBridge.Managed.ClassTable
import GridBridge.Text.Quoted

/-!
# Managed: objects and exceptions
-/

namespace GridBridge.Managed

open Protocol

/-- The number of a cache's contents in the store of the grid. -/
abbrev StoreId := Nat

/-- An exception of the managed side. -/
structure Thrown where
  cls : ThrownClass
  message : String
  deriving DecidableEq, Repr

/-- A managed object. -/
inductive Object where
  /-- A class, by its name with slashes. -/
  | cls (name : String)
  | str (text : String)
  | throwable (thrown : Thrown)
  | grid (name : Option String)
  | processor (instanceName : Option String)
  | cache (store : StoreId)
  deriving DecidableEq, Repr

/-- The name with slashes of the class of an object. -/
def Object.className : Object → String
  | .cls _ => ClassName.cls
  | .str _ => ClassName.string
  | .throwable thrown => thrown.cls.name
  | .grid _ => ClassName.kernal
  | .processor _ => ClassName.interopProcessor
  | .cache _ => ClassName.interopCache

/-- Class and message, as an exception prints itself. -/
def Thrown.text (t : Thrown) : String := s!"{dotted t.cls.name}: {t.message}"

end GridBridge.Managed
