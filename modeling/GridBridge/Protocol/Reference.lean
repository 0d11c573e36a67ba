import GridBridge.Text.Hex

/-!
# Protocol: references and method identifiers

Words handed out by the managed runtime. They say nothing by themselves; the runtime looks them up.
-/

namespace GridBridge.Protocol

/-- A reference to a managed object. Zero is the null reference. -/
structure Ref where
  bits : UInt64
  deriving DecidableEq, Repr

namespace Ref

def null : Ref := ⟨0⟩

instance : Inhabited Ref := ⟨null⟩

def isNull (r : Ref) : Bool := r.bits == 0

@[simp] theorem isNull_null : null.isNull = true := rfl

theorem isNull_iff {r : Ref} : r.isNull = true ↔ r = null := by
  cases r
  simp [isNull, null]

theorem isNull_eq_false_iff {r : Ref} : r.isNull = false ↔ r ≠ null := by
  rw [← Bool.not_eq_true, Ne, isNull_iff]

def describe (r : Ref) : String :=
  if r.isNull then "ObjRef(null)" else s!"ObjRef(0x{Text.hexNumber r.bits.toNat})"

end Ref

/-- A resolved method. -/
structure MethodId where
  bits : UInt64
  deriving DecidableEq, Repr

def MethodId.describe (m : MethodId) : String :=
  s!"MethodId \x7b bits: {m.bits.toNat} \x7d"

end GridBridge.Protocol
