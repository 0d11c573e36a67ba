import GridBridge.Managed.Object
import GridBridge.Protocol.Reference

/-!
# Managed: the reference table

Native code sees objects through tokens only. Local and global references share one counter and one
table, so a token is never handed out twice and a reference that is given back as the wrong kind is
noticed.
-/

namespace GridBridge.Managed

open Protocol

inductive RefKind where
  /-- Valid for the call that made it. -/
  | localRef
  /-- Valid until it is given back. -/
  | globalRef
  deriving DecidableEq, Repr

def RefKind.name : RefKind → String
  | .localRef => "Local"
  | .globalRef => "Global"

/-- A live reference. -/
structure LiveRef where
  token : Ref
  kind : RefKind
  object : Object
  deriving DecidableEq, Repr

/-- The live references, newest first, and the number to be handed out next. A token is 64 bits wide,
so numbers come round again after `2 ^ 64`. -/
structure RefTable where
  live : List LiveRef := []
  next : Nat := 1
  deriving DecidableEq, Repr

/-- Why a reference could not be given back. -/
inductive DeleteFault where
  | stale
  | wrongKind (actual : RefKind)
  deriving DecidableEq, Repr

namespace RefTable

/-- The token of the next reference. -/
def token (t : RefTable) : Ref := ⟨UInt64.ofNat t.next⟩

/-- Makes a reference to an object. -/
def insert (t : RefTable) (object : Object) (kind : RefKind) : Ref × RefTable :=
  (t.token, { live := ⟨t.token, kind, object⟩ :: t.live, next := t.next + 1 })

/-- The live reference with a token. -/
def find? (t : RefTable) (r : Ref) : Option LiveRef := t.live.find? (·.token == r)

/-- The object behind a live reference. -/
def get? (t : RefTable) (r : Ref) : Option Object := (t.find? r).map (·.object)

/-- Gives a reference back. The null reference needs no giving back. -/
def remove (t : RefTable) (r : Ref) (kind : RefKind) : Except DeleteFault RefTable :=
  if r.isNull then .ok t
  else
    match t.find? r with
    | none => .error .stale
    | some entry =>
      if entry.kind = kind then .ok { t with live := t.live.filter (·.token != r) }
      else .error (.wrongKind entry.kind)

/-- Live references of a kind. -/
def count (t : RefTable) (kind : RefKind) : Nat := t.live.countP (·.kind = kind)

end RefTable

end GridBridge.Managed
