import GridBridge.Proofs.Config.Toml.Document

/-!
# Config: layouts are read back

The lines and sections of a written layout fill a table each, key by key. No key comes twice, so
each is a new one where it comes (`assignAll_assigned`, `foldlM_take`), and the document says what
the layout says: **`read?_write`**.
-/

namespace GridBridge.Config.Toml

open Text Text.Scan

/-! ## Tables -/

/-- The entries that lines of settings make. -/
def entriesOf (items : Items) : Table := items.map fun (key, item) => (key, .value item.tree)

/-- The entry that a section makes. -/
def entryOf : String × Items → String × Entry
  | (key, items) => (key, .table .named (entriesOf items))

/-- A key that no entry has is not found. -/
theorem lookup_eq_none_of_not_mem {α : Type} {entries : List (String × α)} {key : String}
    (hnew : key ∉ entries.map (·.1)) : entries.lookup key = none := by
  rw [List.lookup_eq_none_iff]
  intro entry hinside
  rw [bne_iff_ne]
  rintro rfl
  exact hnew (List.mem_map_of_mem hinside)

namespace Table

variable {table : Table} {key : String}

/-- A key that is still to come is new. -/
theorem not_mem_of_nodup_append {keys others : List String}
    (hdistinct : (keys ++ key :: others).Nodup) : key ∉ keys := fun hinside =>
  (List.nodup_append.mp hdistinct).2.2 key hinside key List.mem_cons_self rfl

/-- Lines with new keys add their values. -/
theorem assignAll_assigned (table : Table) (items : Items)
    (hdistinct : (table.map (·.1) ++ items.map (·.1)).Nodup) :
    table.assignAll (items.map assigned) = some (table ++ entriesOf items) := by
  induction items generalizing table with
  | nil => simp [assignAll, entriesOf]
  | cons item items ih =>
    obtain ⟨key, item⟩ := item
    have hnew := not_mem_of_nodup_append hdistinct
    have hhere : table.assign key item.tree [] = some (table ++ [(key, .value item.tree)]) := by
      unfold assign
      rw [lookup_eq_none_of_not_mem hnew]
      rfl
    have hlater := ih (table ++ [(key, .value item.tree)]) (by simpa using hdistinct)
    unfold assignAll at hlater ⊢
    simp only [List.map_cons, assigned, List.foldlM_cons, hhere]
    simpa [entriesOf] using hlater

/-- A section with a new name adds its table. -/
theorem take_sectionOf {s : String × Items} (hnew : s.1 ∉ table.map (·.1))
    (hdistinct : (s.2.map (·.1)).Nodup) :
    table.take (sectionOf s) = some (table ++ [entryOf s]) := by
  have hbody : assignAll [] (s.2.map assigned) = some (entriesOf s.2) := by
    simpa using assignAll_assigned [] s.2 (by simpa using hdistinct)
  show fill s.1 (s.2.map assigned) table = _
  unfold fill
  rw [lookup_eq_none_of_not_mem hnew, hbody]
  rfl

theorem foldlM_take (table : Table) (sections : List (String × Items))
    (hdistinct : (table.map (·.1) ++ sections.map (·.1)).Nodup)
    (hinside : ∀ s ∈ sections, (s.2.map (·.1)).Nodup) :
    (sections.map sectionOf).foldlM (fun t s => t.take s) table =
      some (table ++ sections.map entryOf) := by
  induction sections generalizing table with
  | nil => simp
  | cons s sections ih =>
    have hhere := take_sectionOf (not_mem_of_nodup_append hdistinct) (hinside s List.mem_cons_self)
    have hlater := ih (table ++ [entryOf s]) (by simpa [entryOf] using hdistinct)
      fun s hknown => hinside s (List.mem_cons_of_mem _ hknown)
    simp only [List.map_cons, List.foldlM_cons, hhere]
    simpa using hlater

theorem trees_eq_map (table : Table) :
    trees table = table.map fun (key, entry) => (key, entry.tree) := by
  induction table with
  | nil => simp [trees]
  | cons entry table ih =>
    obtain ⟨key, entry⟩ := entry
    simp [trees, ih]

theorem trees_entriesOf (items : Items) : trees (entriesOf items) = items.trees := by
  simp [trees_eq_map, entriesOf, Items.trees, Function.comp_def, Entry.tree]

end Table

/-! ## Documents -/

/-- A layout that can be written: its keys need no quotes, and none is there twice. -/
structure Layout.Plain (l : Layout) : Prop where
  front : ∀ item ∈ l.front, Bare item.1
  sections : ∀ s ∈ l.sections, Bare s.1 ∧ ∀ item ∈ s.2, Bare item.1
  distinct : (l.front.map (·.1) ++ l.sections.map (·.1)).Nodup
  inside : ∀ s ∈ l.sections, (s.2.map (·.1)).Nodup

variable {l : Layout}

/-- No document starts with a mark of the byte order. -/
theorem head?_write_ne (hplain : l.Plain) : l.write.toList.head? ≠ some '\uFEFF' := by
  intro hfirst
  unfold Layout.write at hfirst
  rw [String.toList_ofList] at hfirst
  -- a document begins with its first key, or with the bracket of its first section
  cases hfront : l.front with
  | nil =>
    rw [hfront] at hfirst
    cases hsections : l.sections with
    | nil =>
      rw [hsections] at hfirst
      cases hfirst
    | cons s sections =>
      rw [hsections] at hfirst
      exact absurd (Option.some.inj hfirst) (by decide)
  | cons item items =>
    obtain ⟨c, more, hchars, hstart⟩ := (hplain.front item (hfront ▸ List.mem_cons_self)).exists_first
    rw [hfront] at hfirst
    simp only [Items.write, List.flatMap_cons, hchars, List.cons_append, List.head?_cons] at hfirst
    exact (ne_of_isBare hstart).2.2.2.2.2.2.2 (Option.some.inj hfirst)

theorem document_eq : document = do
    let _ ← acceptOne ['\uFEFF']
    let root ← assignments
    let sections ← repeatedly sectionStep
    return (root, sections) := rfl

theorem document_write (hplain : l.Plain) :
    document l.write.toList = some ((l.front.map assigned, l.sections.map sectionOf), []) := by
  have hfirst := acceptOne_of_head?_ne (head?_write_ne hplain)
  have hwritten : l.write.toList =
      l.front.write ++ l.sections.flatMap fun s => '\n' :: sectionText s := by
    simp [Layout.write, sectionText]
  have hlines := assignments_write hplain.front (lineStep_sections l.sections)
  rw [← hwritten] at hlines
  simp only [document_eq, bind_apply, hfirst, Option.bind_some, hlines, sections_text hplain.sections,
    pure_apply]

/-- **A written document is read back.** -/
theorem read?_write (hplain : l.Plain) : read? l.write = some l.tree := by
  -- the text splits into the lines that were written
  have hwhole : whole? document l.write = some (l.front.map assigned, l.sections.map sectionOf) := by
    simp [whole?, document_write hplain]
  -- no key is given twice, so every line of the front finds its place free
  have hfront : Table.assignAll [] (l.front.map assigned) = some (entriesOf l.front) :=
    Table.assignAll_assigned [] l.front (List.nodup_append.mp hplain.distinct).1
  have hkeys : (entriesOf l.front).map (·.1) = l.front.map (·.1) := by
    simp [entriesOf]
  have hsections := Table.foldlM_take (entriesOf l.front) l.sections
    (hkeys ▸ hplain.distinct) hplain.inside
  -- a section's key is not one of the front either, so the tables are the layout's own
  have htables : Table.ofSections? (l.front.map assigned) (l.sections.map sectionOf) =
      some (entriesOf l.front ++ l.sections.map entryOf) := by
    simp only [Table.ofSections?, hfront]
    exact hsections
  have htrees : Table.trees (entriesOf l.front ++ l.sections.map entryOf) =
      l.front.trees ++ l.sections.map fun (key, items) => (key, .record items.trees) := by
    have hentry : ∀ s : String × Items,
        ((entryOf s).1, (entryOf s).2.tree) = (s.1, .record s.2.trees) :=
      fun s => by simp [entryOf, Entry.tree, Table.trees_entriesOf]
    rw [← Table.trees_entriesOf]
    simp [Table.trees_eq_map, hentry, Function.comp_def]
  simp only [read?, hwhole, Option.bind_eq_bind, Option.bind_some, htables, htrees]
  rfl

end GridBridge.Config.Toml
