import GridBridge.Protocol.Names

/-!
# Managed: classes

The classes that the loopback runtime knows and their superclasses. Following `superclass` from any
name comes to an end, because the rank of the name goes down; `lineage` lists the names on the way.
-/

namespace GridBridge.Managed

open Protocol

/-! ## Known classes -/

/-- Classes of which the runtime raises exceptions. -/
inductive ThrownClass where
  | noClassDef
  | noSuchMethod
  | outOfMemory
  | illegalArgument
  | illegalState
  | unsupported
  | unsatisfiedLink
  | nullPointer
  | classCast
  | ignite
  | igniteIllegalState
  deriving DecidableEq, Repr

namespace ThrownClass

def all : List ThrownClass :=
  [.noClassDef, .noSuchMethod, .outOfMemory, .illegalArgument, .illegalState, .unsupported,
    .unsatisfiedLink, .nullPointer, .classCast, .ignite, .igniteIllegalState]

/-- The name with slashes. -/
def name : ThrownClass → String
  | .noClassDef => "java/lang/NoClassDefFoundError"
  | .noSuchMethod => "java/lang/NoSuchMethodError"
  | .outOfMemory => "java/lang/OutOfMemoryError"
  | .illegalArgument => "java/lang/IllegalArgumentException"
  | .illegalState => "java/lang/IllegalStateException"
  | .unsupported => "java/lang/UnsupportedOperationException"
  | .unsatisfiedLink => "java/lang/UnsatisfiedLinkError"
  | .nullPointer => "java/lang/NullPointerException"
  | .classCast => "java/lang/ClassCastException"
  | .ignite => "org/apache/ignite/IgniteException"
  | .igniteIllegalState => "org/apache/ignite/IgniteIllegalStateException"

/-- The name of every class in `all`. -/
def names : List String := all.map name

end ThrownClass

/-- Classes that are no exceptions. -/
def plainClasses : List String :=
  [ClassName.object, ClassName.string, ClassName.throwable, ClassName.cls,
    ClassName.ignition, ClassName.ignitionEx, ClassName.kernal,
    ClassName.interopUtils, ClassName.interopProcessor,
    ClassName.interopTarget, ClassName.interopCache]

def isKnownClass (name : String) : Bool :=
  plainClasses.contains name || ThrownClass.names.contains name

/-- The name with dots in place of slashes. -/
def dotted (name : String) : String := name.map fun c => if c = '/' then '.' else c

/-! ## Inheritance -/

/-- The direct superclass. A name that is not known counts as a direct child of the root. -/
def superclass (name : String) : Option String :=
  if name = ClassName.object then none
  else if name = ClassName.interopCache then some ClassName.interopTarget
  else if ThrownClass.names.contains name then some ClassName.throwable
  else some ClassName.object

/-- Steps from a name to the root. -/
def rank (name : String) : Nat :=
  if name = ClassName.object then 0
  else if name = ClassName.interopCache then 2
  else if ThrownClass.names.contains name then 2
  else 1

theorem rank_superclass {name parent : String} (h : superclass name = some parent) :
    rank parent < rank name := by
  have hcacheRank : rank ClassName.interopTarget = 1 := by decide
  have hthrownRank : rank ClassName.throwable = 1 := by decide
  have hrootRank : rank ClassName.object = 0 := by decide
  -- one case for each parent that the table knows, the root last
  unfold superclass at h
  split at h
  · cases h
  · rename_i hnotRoot
    split at h
    · rename_i hisCache
      cases h
      rw [hcacheRank, rank, if_neg hnotRoot, if_pos hisCache]
      decide
    · rename_i hnotCache
      split at h
      · rename_i hisThrown
        cases h
        rw [hthrownRank, rank, if_neg hnotRoot, if_neg hnotCache, if_pos hisThrown]
        decide
      · rename_i hnotThrown
        cases h
        rw [hrootRank, rank, if_neg hnotRoot, if_neg hnotCache, if_neg hnotThrown]
        decide

/-- The name and all its ancestors, nearest first. -/
def lineage (name : String) : List String :=
  name :: match _h : superclass name with
    | some parent => lineage parent
    | none => []
termination_by rank name
decreasing_by exact rank_superclass (by assumption)

/-- Whether a class is another one or inherits from it. -/
def isSubclass (name ancestor : String) : Bool := (lineage name).contains ancestor

end GridBridge.Managed
