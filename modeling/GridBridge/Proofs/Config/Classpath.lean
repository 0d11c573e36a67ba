import GridBridge.Config.Launch
import GridBridge.Proofs.Files.Listing

/-!
# Config: the classpath of an installation

The classpath of an installation is its class directories, and the archives of its library
directories. **`Contributes`** says which those are, from the names in a directory alone: an order
among the names does not occur in it, and it leaves no choice (`Contributes.unique`). So
**`classpath_assembled`** holds for every order in which directories list their entries.
-/

namespace GridBridge.Config.Settings

open Files FileSystem

/-- The name of an archive: `.jar` at its end, and something before it. -/
def IsArchive (name : Name) : Prop := ∃ stem, stem ≠ [] ∧ name = stem ++ nameOfString ".jar"

/-- What a directory adds to a classpath: each of its archives once, in ascending order of their
names. A directory that cannot be listed adds nothing. -/
inductive Contributes (directory : Path) : Except IoError (List Name) → List Path → Prop where
  | unlisted {cause : IoError} : Contributes directory (.error cause) []
  | listed {names found : List Name} (hascending : found.Pairwise (· < ·))
      (harchives : ∀ name, name ∈ found ↔ name ∈ names ∧ IsArchive name) :
      Contributes directory (.ok names) (found.map fun name => directory.join ⟨name⟩)

theorem isArchive_iff (name : Name) :
    Path.nameExtension? name = some archiveExtension ↔ IsArchive name := by
  have hplain : Path.dot ∉ archiveExtension := by decide +kernel
  have hending : nameOfString ".jar" = Path.dot :: archiveExtension := by decide +kernel
  rw [Path.nameExtension?_eq_some_iff, IsArchive, hending]
  exact and_iff_right hplain

theorem mem_archives (names : List Name) (name : Name) :
    name ∈ archives names ↔ name ∈ names ∧ IsArchive name := by
  simp [archives, isArchive_iff]

/-- Names that are no two the same are in strictly ascending order. -/
theorem ascending_archives {names : List Name} (hdistinct : names.Nodup) :
    (archives names).Pairwise (· < ·) := by
  have hsorted : (archives names).Pairwise fun a b => decide (a ≤ b) = true := by
    refine List.pairwise_mergeSort (fun a b c => ?_) (fun a b => ?_) _
    · simpa using List.le_trans
    · simpa using List.le_total a b
  have hnodup : (archives names).Nodup :=
    (List.mergeSort_perm _ _).nodup_iff.mpr (hdistinct.filter _)
  exact (hsorted.and hnodup).imp fun ⟨hle, hne⟩ => Std.lt_of_le_of_ne (of_decide_eq_true hle) hne

theorem contributes_archivesIn (fs : FileSystem) (directory : Path) :
    Contributes directory (fs.list directory) (archivesIn fs directory) := by
  unfold archivesIn
  cases hlisting : fs.list directory with
  | error cause => exact .unlisted
  | ok names =>
    exact .listed (ascending_archives (FileSystem.nodup_list hlisting)) (mem_archives names)

/-- What a directory adds does not depend on how it is listed. -/
theorem Contributes.unique {directory : Path} {listing listing' : Except IoError (List Name)}
    {entries entries' : List Path} (h : Contributes directory listing entries)
    (h' : Contributes directory listing' entries') (hsame : SameListing listing listing') :
    entries = entries' := by
  cases hsame with
  | unlisted =>
    cases h
    cases h'
    rfl
  | listed hperm =>
    cases h with
    | @listed names found hascending harchives =>
      cases h' with
      | @listed names' found' hascending' harchives' =>
        have hnodup := hascending.imp fun {a b} (hbelow : a < b) => (Std.ne_of_lt hbelow)
        have hnodup' := hascending'.imp fun {a b} (hbelow : a < b) => (Std.ne_of_lt hbelow)
        have hmembers : found.Perm found' :=
          (List.perm_ext_iff_of_nodup hnodup hnodup').mpr fun name => by
          rw [harchives, harchives', hperm.mem_iff]
        -- Two sorted lists of the same names are equal.
        have hfoundEq : found = found' :=
          hmembers.eq_of_pairwise (fun a b _ _ hbelow habove => absurd habove (List.lt_asymm hbelow))
            hascending hascending'
        rw [hfoundEq]

theorem archivesIn_eq {fs fs' : FileSystem} {directory : Path}
    (hsame : SameListing (fs.list directory) (fs'.list directory)) :
    archivesIn fs directory = archivesIn fs' directory :=
  (contributes_archivesIn fs directory).unique (contributes_archivesIn fs' directory) hsame

/-! ## Assembling -/

theorem resolveClasspath_explicit {s : Settings} (hstated : s.classpath ≠ []) (fs : FileSystem) :
    s.resolveClasspath fs = .ok s.classpath := by
  simp [resolveClasspath, hstated]

theorem resolveClasspath_installed {s : Settings} {home : Path} (hunstated : s.classpath = [])
    (hinstalled : s.home = some home) (fs : FileSystem) :
    s.resolveClasspath fs = .ok (installedClasspath fs home) := by
  simp [resolveClasspath, hunstated, hinstalled]

theorem resolveClasspath_nowhere {s : Settings} (hunstated : s.classpath = [])
    (hnowhere : s.home = none) (fs : FileSystem) :
    s.resolveClasspath fs = .error (.validation .noHome) := by
  simp [resolveClasspath, hunstated, hnowhere]

theorem installedClasspath_eq (fs : FileSystem) (home : Path) :
    installedClasspath fs home =
      home.join (.ofString "modules/core/target/classes") ::
        home.join (.ofString "modules/spring/target/classes") ::
          (archivesIn fs (home.join (.ofString "modules/core/target/libs")) ++
            archivesIn fs (home.join (.ofString "modules/spring/target/libs"))) := by
  simp [installedClasspath, classDirectories, libraryDirectories]

/-- The order of the names in the library directories does not matter. -/
theorem resolveClasspath_of_sameListing {s : Settings} {fs fs' : FileSystem}
    (hsame : ∀ home, s.home = some home → ∀ directory ∈ libraryDirectories,
      SameListing (fs.list (home.join directory)) (fs'.list (home.join directory))) :
    s.resolveClasspath fs = s.resolveClasspath fs' := by
  by_cases hunstated : s.classpath = []
  · cases hinstalled : s.home with
    | none =>
      rw [resolveClasspath_nowhere hunstated hinstalled, resolveClasspath_nowhere hunstated hinstalled]
    | some home =>
      have hcore := archivesIn_eq (hsame home hinstalled _ (List.mem_cons_self ..))
      have hspring := archivesIn_eq
        (hsame home hinstalled _ (List.mem_cons_of_mem _ (List.mem_cons_self ..)))
      rw [resolveClasspath_installed hunstated hinstalled,
        resolveClasspath_installed hunstated hinstalled, installedClasspath_eq,
        installedClasspath_eq, hcore, hspring]
  · rw [resolveClasspath_explicit hunstated, resolveClasspath_explicit hunstated]

/-- **The classpath.** An explicit one is taken as it is, whatever the files are. Otherwise it is made
of the class directories of the installation and of what its library directories contribute, the core
library first; each of them may be missing. Listings in another order lead to the same classpath. -/
theorem classpath_assembled (s : Settings) (fs : FileSystem) :
    (s.classpath ≠ [] → s.resolveClasspath fs = .ok s.classpath) ∧
    (s.classpath = [] → ∀ home, s.home = some home → ∃ core spring,
      Contributes (home.join (.ofString "modules/core/target/libs"))
        (fs.list (home.join (.ofString "modules/core/target/libs"))) core ∧
      Contributes (home.join (.ofString "modules/spring/target/libs"))
        (fs.list (home.join (.ofString "modules/spring/target/libs"))) spring ∧
      s.resolveClasspath fs = .ok
        (home.join (.ofString "modules/core/target/classes") ::
          home.join (.ofString "modules/spring/target/classes") :: (core ++ spring))) ∧
    (s.classpath = [] → s.home = none → s.resolveClasspath fs = .error (.validation .noHome)) ∧
    ∀ fs' : FileSystem,
      (∀ home, s.home = some home → ∀ directory ∈ libraryDirectories,
        SameListing (fs.list (home.join directory)) (fs'.list (home.join directory))) →
      s.resolveClasspath fs = s.resolveClasspath fs' := by
  refine ⟨fun hstated => resolveClasspath_explicit hstated fs, ?_,
    fun hunstated hnowhere => resolveClasspath_nowhere hunstated hnowhere fs,
    fun fs' => resolveClasspath_of_sameListing⟩
  -- what each library contributes is given by its archives, sorted and without repetition
  intro hunstated home hinstalled
  refine ⟨_, _, contributes_archivesIn fs _, contributes_archivesIn fs _, ?_⟩
  rw [resolveClasspath_installed hunstated hinstalled, installedClasspath_eq]

/-- An installation in `h` with these files in its core library, and without a spring library. -/
def installationWith (names : List String) : FileSystem :=
  names.foldr (fun name fs =>
    fs.addFile (Path.names (.ofString "h/modules/core/target/libs") ++ [nameOfString name]) [])
    (.ofWorkingDirectory [])

/-- A hidden name is left out, and the classpath is the same if all nodes are turned round. -/
theorem classpath_assembled_in_h :
    let s : Settings := { home := some (.ofString "h") }
    let fs := installationWith ["b.jar", ".jar", "a.tar.jar"]
    let fs' := { fs with nodes := fs.nodes.reverse, distinct := by simpa using fs.distinct }
    s.resolveClasspath fs = .ok (["h/modules/core/target/classes", "h/modules/spring/target/classes",
      "h/modules/core/target/libs/a.tar.jar", "h/modules/core/target/libs/b.jar"].map .ofString) ∧
    s.resolveClasspath fs = s.resolveClasspath fs' := by
  intro s fs fs'
  have hturned : fs.Reordered fs' := ⟨fs.nodes.reverse_perm.symm, rfl⟩
  have hsame := (classpath_assembled s fs).2.2.2 fs' fun _ _ _ _ => hturned.sameListing _
  refine ⟨?_, hsame⟩
  rw [hsame]
  have hlisted : fs'.list (Path.join (.ofString "h") (.ofString "modules/core/target/libs")) =
      .ok (["a.tar.jar", ".jar", "b.jar"].map nameOfString) := by decide +kernel
  have hmissing : fs'.list (Path.join (.ofString "h") (.ofString "modules/spring/target/libs")) =
      .error .notFound := by decide +kernel
  -- The listing has the archives in order already, so that sorting leaves them.
  have hsorted : archives (["a.tar.jar", ".jar", "b.jar"].map nameOfString) =
      ["a.tar.jar", "b.jar"].map nameOfString :=
    (congrArg (List.mergeSort · _) (by decide +kernel)).trans
      (List.mergeSort_of_pairwise (by decide +kernel))
  show Except.ok (installedClasspath fs' (.ofString "h")) = _
  simp only [installedClasspath, libraryDirectories, List.flatMap_cons, List.flatMap_nil,
    archivesIn, hlisted, hmissing, hsorted]
  decide +kernel

end GridBridge.Config.Settings
