import GridBridge.Files.FileSystem
import Mathlib.Data.List.Nodup
import Mathlib.Data.List.TakeWhile

/-!
# Files: the names in a directory

The extension of a name is what follows its last dot, but for a dot in front of the name
(`nameExtension?_eq_some_iff`). A listing has no name twice (`nodup_list`). Its order says nothing: a
file system with its nodes in another order finds the same places, and lists the same names there
(`Reordered.sameListing`).
-/

namespace GridBridge.Files

/-- What stands behind the last dot has no dot itself. -/
theorem Path.takeWhile_extension {stem ext : Name} (hplain : dot ∉ ext) :
    (stem ++ dot :: ext).reverse.takeWhile (· != dot) = ext.reverse := by
  have hall : ∀ b ∈ ext.reverse, (b != dot) = true := by
    intro b hinside
    rw [bne_iff_ne]
    rintro rfl
    exact hplain (List.mem_reverse.mp hinside)
  rw [List.reverse_append, List.reverse_cons, List.append_assoc,
    List.takeWhile_append_of_pos hall]
  simp

/-- A name ends in the part behind its last dot, which is all of it or follows a dot. -/
theorem Path.eq_or_eq_append_extension (name : Name) :
    let ext := (name.reverse.takeWhile (· != dot)).reverse
    dot ∉ ext ∧ (name = ext ∨ ∃ stem, name = stem ++ dot :: ext) := by
  intro ext
  have hshape := List.takeWhile_append_dropWhile (p := (· != dot)) (l := name.reverse)
  have hwhole : name = (name.reverse.dropWhile (· != dot)).reverse ++ ext := by
    rw [← List.reverse_append, hshape, List.reverse_reverse]
  refine ⟨fun hinside => ?_, ?_⟩
  · rw [List.mem_reverse] at hinside
    simpa using List.mem_takeWhile_imp hinside
  · cases hrest : name.reverse.dropWhile (· != dot) with
    | nil =>
      rw [hrest] at hwhole
      exact .inl hwhole
    | cons first stem =>
      -- What stopped the walk from the end is a dot.
      have hstopped := List.head?_dropWhile_not (· != dot) name.reverse
      rw [hrest] at hstopped hwhole
      have hfirstEq : first = dot := by simpa using hstopped
      rw [hfirstEq, List.reverse_cons, List.append_assoc] at hwhole
      exact .inr ⟨stem.reverse, hwhole⟩

/-- A name has an extension exactly if a dot, and something before it, stands in front of it. -/
theorem Path.nameExtension?_eq_some_iff (name ext : Name) :
    Path.nameExtension? name = some ext ↔
      dot ∉ ext ∧ ∃ stem, stem ≠ [] ∧ name = stem ++ dot :: ext := by
  constructor
  · intro hfound
    obtain ⟨hplain, hends⟩ := eq_or_eq_append_extension name
    unfold nameExtension? at hfound
    dsimp only at hfound
    split at hfound
    · cases hfound
    · rename_i hbefore
      rw [Option.some.inj hfound] at hplain hends hbefore
      refine ⟨hplain, ?_⟩
      -- without a dot the extension is the whole name, which the length test refuses
      obtain rfl | ⟨stem, rfl⟩ := hends
      · omega
      · refine ⟨stem, ?_, rfl⟩
        rintro rfl
        rw [List.nil_append, List.length_cons] at hbefore
        omega
  · rintro ⟨hplain, stem, hsomeStem, rfl⟩
    have hlong := List.length_pos_iff.mpr hsomeStem
    -- the dot and a byte of the stem are left over
    have hbefore : ¬ (stem ++ dot :: ext).length - ext.length ≤ 1 := by
      rw [List.length_append, List.length_cons]
      omega
    unfold nameExtension?
    simp only [takeWhile_extension hplain, List.reverse_reverse, if_neg hbefore]

namespace FileSystem

/-- What a listing is made of. -/
theorem list_eq_ok {fs : FileSystem} {p : Path} {names : List Name} (h : fs.list p = .ok names) :
    ∃ place, names = fs.nodes.filterMap fun (below, _) =>
      if below.dropLast = place then below.getLast? else none := by
  unfold list at h
  cases hlocated : fs.locate p with
  | error cause =>
    rw [hlocated] at h
    cases h
  | ok place =>
    simp only [hlocated, bind, Except.bind] at h
    split at h
    · cases h
    · cases h
    · exact ⟨place, (Except.ok.inj h).symm⟩

/-- No name is listed twice. -/
theorem nodup_list {fs : FileSystem} {p : Path} {names : List Name} (h : fs.list p = .ok names) :
    names.Nodup := by
  obtain ⟨place, rfl⟩ := list_eq_ok h
  -- Two nodes with one name in the same directory would be the same node.
  refine (List.pairwise_map.mp fs.distinct).filterMap _ ?_
  rintro ⟨below, _⟩ ⟨below', _⟩ hapart name hhere name' hthere
  rintro rfl
  simp only [Option.ite_none_right_eq_some] at hhere hthere
  refine hapart ?_
  rw [← List.dropLast_append_getLast? name hhere.2, ← List.dropLast_append_getLast? name hthere.2,
    hhere.1, hthere.1]

/-! ## Another order -/

/-- Two listings of one directory: the same names in some order each, or none at all. -/
inductive SameListing : Except IoError (List Name) → Except IoError (List Name) → Prop where
  | unlisted {cause cause' : IoError} : SameListing (.error cause) (.error cause')
  | listed {names names' : List Name} (hperm : names.Perm names') : SameListing (.ok names) (.ok names')

/-- The same nodes in some other order. -/
structure Reordered (fs fs' : FileSystem) : Prop where
  nodes : fs.nodes.Perm fs'.nodes
  workingDirectory : fs.workingDirectory = fs'.workingDirectory

/-- With distinct keys, a look-up finds what stands in the list. -/
theorem lookup_eq_some_iff_mem {nodes : List (List Name × Node)} (hdistinct : (nodes.map (·.1)).Nodup)
    (place : List Name) (node : Node) :
    nodes.lookup place = some node ↔ (place, node) ∈ nodes := by
  induction nodes with
  | nil => simp
  | cons first rest ih =>
    obtain ⟨place', node'⟩ := first
    obtain ⟨hfresh, hdistinct⟩ := List.nodup_cons.mp hdistinct
    rw [List.lookup_cons]
    by_cases hhere : place = place'
    · subst hhere
      have habsent : (place, node) ∉ rest := fun hinside =>
        hfresh (List.mem_map_of_mem (f := (·.1)) hinside)
      simp [habsent, eq_comm]
    · simp [beq_eq_false_iff_ne.mpr hhere, hhere, ih hdistinct]

namespace Reordered

variable {fs fs' : FileSystem} (h : fs.Reordered fs')

include h

theorem node?_eq : fs'.node? = fs.node? := by
  have hsame (place : List Name) : fs'.nodes.lookup place = fs.nodes.lookup place := by
    refine Option.ext fun node => ?_
    rw [lookup_eq_some_iff_mem fs'.distinct, lookup_eq_some_iff_mem fs.distinct, h.nodes.mem_iff]
  funext place
  unfold node?
  rw [hsame]

theorem follow_eq (place : List Name) (names : List Name) :
    fs'.follow place names = fs.follow place names := by
  induction names generalizing place with
  | nil => rfl
  | cons name rest ih => simp only [follow, h.node?_eq, ih]

theorem locate_eq (p : Path) : fs'.locate p = fs.locate p := by
  simp only [locate, start, h.workingDirectory, h.follow_eq]

theorem sameListing (p : Path) : SameListing (fs.list p) (fs'.list p) := by
  unfold list
  rw [h.locate_eq]
  cases fs.locate p with
  | error cause => exact .unlisted
  | ok place =>
    simp only [bind, Except.bind, h.node?_eq]
    cases fs.node? place with
    | none => exact .unlisted
    | some node =>
      cases node with
      | file content => exact .unlisted
      | directory => exact .listed (h.nodes.filterMap _)

end Reordered

end FileSystem

end GridBridge.Files
