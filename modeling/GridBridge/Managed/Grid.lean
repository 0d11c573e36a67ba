import GridBridge.Managed.Object
import Std.Data.ExtTreeMap

/-!
# Managed: instances and caches

A grid has instances by name, an instance has caches by name, and a cache has contents. No name
stands for the default. Contents live in a store of their own, so that a cache object still reaches
them when its instance has stopped.
-/

namespace GridBridge.Managed

/-- What a cache holds. -/
abbrev Contents := Std.ExtTreeMap Int32 Int32

/-- A running instance: the file it was started from and its caches. -/
structure GridInstance where
  configPath : String
  caches : List (Option String × StoreId) := []
  deriving DecidableEq, Repr

structure Grid where
  instances : List (Option String × GridInstance) := []
  stores : Array Contents := #[]

namespace Grid

def instance? (g : Grid) (name : Option String) : Option GridInstance := g.instances.lookup name

def isRunning (g : Grid) (name : Option String) : Bool := (g.instance? name).isSome

/-- The store of a cache that was opened before. -/
def storeOf? (g : Grid) (instanceName cacheName : Option String) : Option StoreId :=
  (g.instance? instanceName).bind fun i => i.caches.lookup cacheName

/-- What a store holds. A store that was never opened is empty. -/
def contents (g : Grid) (store : StoreId) : Contents := g.stores.getD store ∅

/-- The value bound to a key of a cache that was opened before. -/
def entry? (g : Grid) (instanceName cacheName : Option String) (key : Int32) : Option Int32 :=
  (g.storeOf? instanceName cacheName).bind fun store => (g.contents store)[key]?

/-- Adds a running instance without caches. -/
def start (g : Grid) (name : Option String) (configPath : String) : Grid :=
  { g with instances := (name, { configPath }) :: g.instances }

/-- The store of a cache of a running instance, opened empty at its first use. -/
def openCache (g : Grid) (name : Option String) (i : GridInstance) (cacheName : Option String) :
    StoreId × Grid :=
  match i.caches.lookup cacheName with
  | some store => (store, g)
  | none =>
    let store := g.stores.size
    let opened := { i with caches := (cacheName, store) :: i.caches }
    (store, {
      instances := g.instances.map fun (key, other) =>
        if key = name then (key, opened) else (key, other)
      stores := g.stores.push ∅ })

/-- Replaces what a store holds. -/
def setContents (g : Grid) (store : StoreId) (contents : Contents) : Grid :=
  { g with stores := g.stores.setIfInBounds store contents }

/-- Stops every instance. -/
def stopAll (g : Grid) : Grid := { g with instances := [] }

end Grid

end GridBridge.Managed
