import GridBridge.Managed.MethodTable
import Mathlib.Data.List.Basic

/-!
# Methods: what a look-up finds

A look-up answers an identifier of the method that was asked for, declared on the class or on one of
its ancestors. So a method that was found on a class can be called through that class, and through
every class that inherits from it.
-/

namespace GridBridge.Managed

open Protocol

theorem isSubclass_iff {name ancestor : String} :
    isSubclass name ancestor = true ↔ ancestor ∈ lineage name := by
  simp [isSubclass]

/-- The place of a declared method holds that method. -/
theorem declaredMethod_eq_some {cls : String} {spec : MethodSpec} {index : Nat}
    (h : declaredMethod cls spec = some index) :
    ∃ entry, methodTable[index]? = some entry ∧ entry.cls = cls ∧ entry.spec = spec := by
  obtain ⟨hlt, hentry, _⟩ := List.findIdx?_eq_some_iff_getElem.mp h
  refine ⟨methodTable[index], List.getElem?_eq_getElem hlt, ?_⟩
  simpa using hentry

/-- An identifier counted from the place of a method denotes that method. -/
theorem methodEntry?_of_index {index : Nat} (h : index < methodTable.length) :
    methodEntry? ⟨UInt64.ofNat (index + 1)⟩ = methodTable[index]? := by
  have hlength : methodTable.length = 11 := rfl
  have hnat : (UInt64.ofNat (index + 1)).toNat = index + 1 := by
    rw [UInt64.toNat_ofNat', Nat.mod_eq_of_lt (by omega)]
  have hne : (UInt64.ofNat (index + 1) == 0) = false := by
    rw [beq_eq_false_iff_ne]
    intro hzero
    rw [hzero] at hnat
    exact absurd hnat (by simp)
  show (if (UInt64.ofNat (index + 1) == 0) = true then none
    else methodTable[(UInt64.ofNat (index + 1)).toNat - 1]?) = _
  rw [hne, hnat, Nat.add_sub_cancel]
  rfl

/-- **What is found.** The identifier denotes a method of this name and signature, static or not as
was asked, which the class declares or inherits. -/
theorem findMethod_eq_some {name : String} {spec : MethodSpec} {id : MethodId}
    (h : findMethod name spec = some id) :
    ∃ entry, methodEntry? id = some entry ∧ entry.spec = spec ∧ isSubclass name entry.cls := by
  obtain ⟨index, hindex, rfl⟩ := Option.map_eq_some_iff.mp h
  obtain ⟨ancestor, hmem, hdeclared⟩ := List.exists_of_findSome?_eq_some hindex
  obtain ⟨entry, hentry, hcls, hspec⟩ := declaredMethod_eq_some hdeclared
  have hlt : index < methodTable.length := (List.getElem?_eq_some_iff.mp hentry).1
  refine ⟨entry, (methodEntry?_of_index hlt).trans hentry, hspec, ?_⟩
  rw [isSubclass_iff, hcls]
  exact hmem

/-- The ancestors of an ancestor are ancestors. -/
theorem lineage_subset {name parent : String} (h : superclass name = some parent) :
    lineage parent ⊆ lineage name := by
  intro ancestor hmem
  rw [lineage, List.mem_cons]
  right
  split
  · rename_i p hp
    rw [h, Option.some.injEq] at hp
    rwa [← hp]
  · rename_i hp
    rw [h] at hp
    exact absurd hp (Option.some_ne_none parent)

/-- A class inherits the methods of its superclass. -/
theorem isSubclass_of_superclass {name parent ancestor : String}
    (h : superclass name = some parent) (hsub : isSubclass parent ancestor) :
    isSubclass name ancestor :=
  isSubclass_iff.mpr (lineage_subset h (isSubclass_iff.mp hsub))

end GridBridge.Managed
