import GridBridge.Files.FileSystem

/-!
# Files: what a write changes

A write sets one node and nothing else, and whether it succeeds does not depend on what is written
(`write_cases`). The path leads to the same place afterwards, since the directories on the way are
other nodes: what was written is read there (`read_of_write`).
-/

namespace GridBridge.Files.FileSystem

variable {fs fs' : FileSystem} {place other : List Name} {node : Node} {p : Path}
  {content : List UInt8}

theorem lookup_filter_ne (nodes : List (List Name × Node)) (hne : other ≠ place) :
    (nodes.filter (·.1 != place)).lookup other = nodes.lookup other := by
  induction nodes with
  | nil => rfl
  | cons entry nodes ih =>
    obtain ⟨names, node⟩ := entry
    by_cases hhere : names = place
    · have hotherNames : (other == names) = false := by simpa [hhere] using hne
      rw [List.filter_cons_of_neg (by simpa using hhere), ih, List.lookup_cons, hotherNames]
    · rw [List.filter_cons_of_pos (by simpa using hhere), List.lookup_cons, List.lookup_cons, ih]

theorem node?_set (fs : FileSystem) (node : Node) (hbelow : place ≠ []) :
    (fs.set place node).node? place = some node := by
  simp [node?, set, hbelow]

theorem node?_set_of_ne (fs : FileSystem) (node : Node) (hne : other ≠ place) :
    (fs.set place node).node? other = fs.node? other := by
  unfold node?
  split
  · rfl
  · have hfirst : (other == place) = false := by simpa using hne
    show List.lookup other ((place, node) :: fs.nodes.filter (·.1 != place)) = _
    rw [List.lookup_cons, hfirst]
    exact lookup_filter_ne fs.nodes hne

/-- Names lead where they led, since they lead through directories only. -/
theorem follow_set {start : List Name} {names : List Name} {reached : List Name}
    (hnowhere : fs.node? place ≠ some .directory) (hled : fs.follow start names = .ok reached) :
    (fs.set place node).follow start names = .ok reached := by
  induction names generalizing start with
  | nil => exact hled
  | cons name rest ih =>
    unfold follow at hled ⊢
    cases hpassed : fs.node? start with
    | none =>
      rw [hpassed] at hled
      cases hled
    | some found =>
      cases found with
      | file content =>
        rw [hpassed] at hled
        cases hled
      | directory =>
        -- it is a directory, so it is not what was written, and from here on both go the same way
        have hne : start ≠ place := fun hsame => hnowhere (hsame ▸ hpassed)
        rw [hpassed] at hled
        rw [node?_set_of_ne fs node hne, hpassed]
        dsimp only at hled ⊢
        split
        · rename_i hstays
          rw [if_pos hstays] at hled
          exact ih hled
        · rename_i hmoves
          rw [if_neg hmoves] at hled
          split
          · rename_i hup
            rw [if_pos hup] at hled
            exact ih hled
          · rename_i hdown
            rw [if_neg hdown] at hled
            split
            · rename_i hlong
              rw [if_pos hlong] at hled
              cases hled
            · rename_i hshort
              rw [if_neg hshort] at hled
              exact ih hled

theorem locate_set (hnowhere : fs.node? place ≠ some .directory) (hled : fs.locate p = .ok other) :
    (fs.set place node).locate p = .ok other := by
  unfold locate at hled ⊢
  cases hchecked : checkPath p with
  | error e =>
    rw [hchecked] at hled
    cases hled
  | ok _ =>
    rw [hchecked] at hled
    exact follow_set hnowhere hled

/-- A write fails as another one at the same path does, or it sets the node that the path leads to,
which is no directory. -/
theorem write_cases (fs : FileSystem) (p : Path) :
    (∃ e, ∀ content, fs.write p content = .error e) ∨
    ∃ place, fs.locate p = .ok place ∧ fs.node? place ≠ some .directory ∧
      ∀ content, fs.write p content = .ok (fs.set place (.file content)) := by
  -- the checks in the order of the call: the directory above, a trailing separator, what stands there
  -- already
  cases habove : fs.locateAbove p with
  | error e => exact .inl ⟨e, fun content => by simp only [write, bind, Except.bind, habove]⟩
  | ok directory =>
    by_cases htrimmed : p.trimEnd = p
    · cases hlocated : fs.locate p with
      | error e =>
        refine .inl ⟨e, fun content => ?_⟩
        simp [write, bind, Except.bind, habove, htrimmed, hlocated]
      | ok place =>
        by_cases hoccupied : fs.node? place = some .directory
        · refine .inl ⟨.isDirectory, fun content => ?_⟩
          simp only [write, bind, Except.bind, habove, htrimmed, hlocated, hoccupied, ne_eq,
            not_true_eq_false, if_false]
          rfl
        · refine .inr ⟨place, rfl, hoccupied, fun content => ?_⟩
          simp [write, bind, Except.bind, habove, htrimmed, hlocated, pure, Except.pure]
    · refine .inl ⟨.isDirectory, fun content => ?_⟩
      simp only [write, bind, Except.bind, habove, ne_eq, htrimmed, not_false_eq_true, if_true]
      rfl

/-- Whether a file can be written has nothing to do with what is written. -/
theorem exists_write_of_ok {content' : List UInt8} (hpossible : fs.write p content' = .ok fs')
    (content : List UInt8) : ∃ written, fs.write p content = .ok written := by
  obtain ⟨e, hfails⟩ | ⟨place, -, -, hwrites⟩ := write_cases fs p
  · rw [hfails] at hpossible
    cases hpossible
  · exact ⟨_, hwrites content⟩

theorem write_of_error {content' : List UInt8} {e : IoError}
    (hfailed : fs.write p content' = .error e) (content : List UInt8) :
    fs.write p content = .error e := by
  obtain ⟨e', hfails⟩ | ⟨place, -, -, hwrites⟩ := write_cases fs p
  · rw [hfails] at hfailed ⊢
    exact hfailed
  · rw [hwrites] at hfailed
    cases hfailed

theorem ne_nil_of_node? (hnowhere : fs.node? place ≠ some .directory) : place ≠ [] := by
  rintro rfl
  exact hnowhere rfl

/-- What was written is read there. -/
theorem read_of_write (hwritten : fs.write p content = .ok fs') : fs'.read p = .ok content := by
  obtain ⟨e, hfails⟩ | ⟨place, hlocated, hnowhere, hwrites⟩ := write_cases fs p
  · rw [hfails] at hwritten
    cases hwritten
  · rw [hwrites] at hwritten
    obtain rfl := Except.ok.inj hwritten
    have hfound := node?_set fs (.file content) (ne_nil_of_node? hnowhere)
    unfold read lookup
    rw [locate_set hnowhere hlocated]
    simp only [bind, Except.bind, hfound]
    rfl

end GridBridge.Files.FileSystem
