import GridBridge.Config.Store
import GridBridge.Proofs.Config.Toml.Layout
import GridBridge.Proofs.Files.Writing
import GridBridge.Proofs.Text.Utf8
import Mathlib.Data.Set.List

/-!
# Config: saved settings load back

Settings are saved as a layout, which holds their paths as texts: `layout?_eq_some_iff` says which
layouts those are, and `isSome_layout?_iff` when there is one. A layout is a document that is read
back, and its tree states the settings again (`ofTree?_layoutOf`). It leaves out the paths that are
absent, and these are the settings whose default is absence. **`saved_loads_back`** puts the file
system under it.
-/

namespace GridBridge.Config

open Files Text Toml

/-! ## Paths and texts -/

/-- A path is a text if that text makes the path. -/
theorem toString?_eq_some_iff {p : Path} {text : String} :
    p.toString? = some text ↔ p = .ofString text := by
  unfold Path.toString?
  rw [fromUTF8?_eq_some_iff]
  constructor
  · intro hbytes
    cases p
    cases hbytes
    rfl
  · rintro rfl
    rfl

/-- A path is text exactly if some text makes it. -/
theorem isSome_toString?_iff (p : Path) : p.toString?.isSome ↔ p ∈ Set.range Path.ofString := by
  rw [Option.isSome_iff_exists]
  exact exists_congr fun text => toString?_eq_some_iff.trans eq_comm

/-- Several paths are texts if each one is. -/
theorem mapM_toString?_eq_some_iff {paths : List Path} {texts : List String} :
    paths.mapM Path.toString? = some texts ↔ paths = texts.map Path.ofString := by
  induction paths generalizing texts with
  | nil => cases texts <;> simp
  | cons p paths ih =>
    cases texts with
    | nil => simp [Option.bind_eq_some_iff]
    | cons text texts => simp [Option.bind_eq_some_iff, toString?_eq_some_iff, ih]

/-! ## Layouts of settings -/

/-- An entry for a path that may be absent. -/
def optionalItem (key : String) (text : Option String) : Items :=
  (text.map fun text => (key, Item.text text)).toList

/-- A path that is absent has no entry, and another one has one if it is text. -/
theorem pathItem?_eq_some_iff {key : String} {path : Option Path} {items : Items} :
    pathItem? key path = some items ↔
      ∃ text : Option String, path = text.map Path.ofString ∧ items = optionalItem key text := by
  cases path with
  | none =>
    constructor
    · rintro ⟨rfl⟩
      exact ⟨none, rfl, rfl⟩
    · rintro ⟨text, hsame, rfl⟩
      cases text with
      | none => rfl
      | some text => cases hsame
  | some path =>
    constructor
    · intro hfound
      -- a path that is there has an entry only as a text
      obtain ⟨text, hread, rfl⟩ := Option.map_eq_some_iff.mp hfound
      exact ⟨some text, congrArg some (toString?_eq_some_iff.mp hread), rfl⟩
    · rintro ⟨text, hsame, rfl⟩
      cases text with
      | none => cases hsame
      | some text =>
        cases hsame
        exact congrArg (Option.map _) (toString?_eq_some_iff.mpr rfl)

def instanceItems (configPath : Option String) (name : String) : Items :=
  optionalItem Key.configPath configPath ++ [(Key.name, .text name)]

/-- The layout of settings whose paths are these texts. -/
def layoutOf (s : Settings) (home : Option String) (classpath : List String)
    (configPath : Option String) : Layout where
  front := optionalItem Key.home home ++
    [(Key.classpath, .texts classpath), (Key.options, .texts s.options),
      (Key.quiet, .truth s.quiet)]
  sections :=
    [(Key.inst, instanceItems configPath s.inst.name),
      (Key.logging, [(Key.filter, .text s.logging.filter)])]

variable {s : Settings} {l : Layout}

/-- Settings have a layout for the texts that make their paths. -/
theorem layout?_eq_some_iff :
    layout? s = some l ↔ ∃ home classpath configPath,
      s.home = home.map Path.ofString ∧ s.classpath = classpath.map Path.ofString ∧
        s.inst.configPath = configPath.map Path.ofString ∧
        l = layoutOf s home classpath configPath := by
  simp only [layout?, Option.bind_eq_bind, Option.bind_eq_some_iff, pathItem?_eq_some_iff,
    mapM_toString?_eq_some_iff, pure, Option.some.injEq]
  constructor
  · rintro ⟨_, ⟨home, hhome, rfl⟩, classpath, hclasspath, _, ⟨configPath, hconfig, rfl⟩, rfl⟩
    exact ⟨home, classpath, configPath, hhome, hclasspath, hconfig, rfl⟩
  · rintro ⟨home, classpath, configPath, hhome, hclasspath, hconfig, rfl⟩
    exact ⟨_, ⟨home, hhome, rfl⟩, classpath, hclasspath, _, ⟨configPath, hconfig, rfl⟩, rfl⟩

/-- The paths among settings. -/
def Settings.paths (s : Settings) : List Path :=
  s.home.toList ++ s.classpath ++ s.inst.configPath.toList

/-- A path that may be absent is text if there is none that is not. -/
theorem exists_eq_map_iff (path : Option Path) :
    (∃ text : Option String, path = text.map Path.ofString) ↔
      ∀ p, path = some p → p ∈ Set.range Path.ofString := by
  cases path with
  | none => exact iff_of_true ⟨none, rfl⟩ nofun
  | some path =>
    constructor
    · rintro ⟨text, hsame⟩ p ⟨rfl⟩
      obtain ⟨text, -, rfl⟩ := Option.map_eq_some_iff.mp hsame.symm
      exact ⟨text, rfl⟩
    · intro hall
      obtain ⟨text, rfl⟩ := hall path rfl
      exact ⟨some text, rfl⟩

/-- Several paths are text if there is none that is not. -/
theorem exists_eq_map_list_iff (paths : List Path) :
    (∃ texts : List String, paths = texts.map Path.ofString) ↔
      ∀ p ∈ paths, p ∈ Set.range Path.ofString := by
  have hrange := congrArg (paths ∈ ·) (Set.range_list_map Path.ofString)
  exact (exists_congr fun texts => eq_comm).trans (iff_of_eq hrange)

/-- Settings have a layout exactly if all their paths are text. -/
theorem isSome_layout?_iff (s : Settings) :
    (layout? s).isSome ↔ ∀ p ∈ s.paths, p.toString?.isSome := by
  have hsplit : (layout? s).isSome ↔ (∃ text : Option String, s.home = text.map Path.ofString) ∧
      (∃ texts : List String, s.classpath = texts.map Path.ofString) ∧
      ∃ text : Option String, s.inst.configPath = text.map Path.ofString := by
    rw [Option.isSome_iff_exists]
    simp only [layout?_eq_some_iff]
    constructor
    · rintro ⟨l, home, classpath, configPath, hhome, hclasspath, hconfig, -⟩
      exact ⟨⟨home, hhome⟩, ⟨classpath, hclasspath⟩, ⟨configPath, hconfig⟩⟩
    · rintro ⟨⟨home, hhome⟩, ⟨classpath, hclasspath⟩, ⟨configPath, hconfig⟩⟩
      exact ⟨_, home, classpath, configPath, hhome, hclasspath, hconfig, rfl⟩
  -- each of the three kinds of paths by itself, then all of them
  rw [hsplit, exists_eq_map_iff, exists_eq_map_iff, exists_eq_map_list_iff]
  simp only [isSome_toString?_iff, Settings.paths, List.mem_append, Option.mem_toList, or_imp,
    forall_and, and_assoc]

/-! ## Keys -/

/-- No key of the settings needs quotes. -/
theorem bare_key : ∀ key ∈ Key.ofSettings ++ (Key.ofInstance ++ Key.ofLogging), Bare key := by
  decide

variable (s) (home configPath : Option String) (classpath : List String)

/-- The keys of a layout are those of the settings, each once and in order. -/
theorem keys_sublist : ((layoutOf s home classpath configPath).front.map (·.1) ++
    (layoutOf s home classpath configPath).sections.map (·.1)).Sublist Key.ofSettings := by
  cases home with
  | none => exact List.sublist_cons_self _ _
  | some text => exact List.Sublist.refl _

/-- The keys of a section are among those of its group of settings. -/
theorem section_keys_sublist : ∀ part ∈ (layoutOf s home classpath configPath).sections,
    ∃ keys ∈ [Key.ofInstance, Key.ofLogging], (part.2.map (·.1)).Sublist keys := by
  intro part hinside
  simp only [layoutOf, List.mem_cons, List.not_mem_nil, or_false] at hinside
  obtain rfl | rfl := hinside
  · refine ⟨Key.ofInstance, by simp, ?_⟩
    cases configPath with
    | none => exact List.sublist_cons_self _ _
    | some text => exact List.Sublist.refl _
  · exact ⟨Key.ofLogging, by simp, List.Sublist.refl _⟩

/-- The layout of settings is one that is read back: its keys are bare, and none comes twice. -/
theorem plain_layoutOf : (layoutOf s home classpath configPath).Plain := by
  have hkeys := keys_sublist s home configPath classpath
  have hparts := section_keys_sublist s home configPath classpath
  constructor
  · intro item hinside
    -- keys at the front, keys of sections and those within them
    have hknown := hkeys.subset (List.mem_append_left _ (List.mem_map_of_mem hinside))
    exact bare_key _ (List.mem_append_left _ hknown)
  · intro part hinside
    have hknown := hkeys.subset (List.mem_append_right _ (List.mem_map_of_mem hinside))
    refine ⟨bare_key _ (List.mem_append_left _ hknown), fun item hwithin => ?_⟩
    obtain ⟨group, hwhich, hbelow⟩ := hparts part hinside
    have hknown := hbelow.subset (List.mem_map_of_mem hwithin)
    refine bare_key _ (List.mem_append_right _ ?_)
    obtain rfl | rfl : group = Key.ofInstance ∨ group = Key.ofLogging := by simpa using hwhich
    · exact List.mem_append_left _ hknown
    · exact List.mem_append_right _ hknown
  · exact List.Nodup.sublist hkeys (by decide)
  · intro part hinside
    obtain ⟨group, hwhich, hbelow⟩ := hparts part hinside
    have hdistinct : ∀ group ∈ [Key.ofInstance, Key.ofLogging], group.Nodup := by decide
    exact (hdistinct group hwhich).sublist hbelow

/-! ## Back to settings -/

/-- The entries of a layout's tree. -/
def layoutEntries : List (String × Tree) :=
  (layoutOf s home classpath configPath).front.trees ++
    (layoutOf s home classpath configPath).sections.map fun (key, items) =>
      (key, .record items.trees)

/-- A list of texts is read back. -/
theorem toTexts?_texts (values : List String) :
    (Item.texts values).tree.toTexts? = some values := by
  show (values.map Tree.text).mapM Tree.toText? = some values
  induction values with
  | nil => rfl
  | cons value values ih => simp [ih, Tree.toText?]

/-- So are the paths that they make. -/
theorem toPaths?_texts (texts : List String) :
    toPaths? (Item.texts texts).tree = some (texts.map Path.ofString) := by
  unfold toPaths?
  rw [toTexts?_texts]
  rfl

/-- **The tree of a layout states its settings.** -/
theorem ofTree?_layoutOf (surplus : Bool) :
    Settings.ofTree? surplus (layoutOf s home classpath configPath).tree =
      some { s with
        home := home.map .ofString
        classpath := classpath.map .ofString
        inst := { s.inst with configPath := configPath.map .ofString } } := by
  -- the entries stay folded but for the key that is looked at
  obtain ⟨entries, hsame⟩ : ∃ entries, entries = layoutEntries s home configPath classpath :=
    ⟨_, rfl⟩
  have hall : (layoutOf s home classpath configPath).tree.entries? Key.ofSettings surplus =
      some entries := by
    subst hsame
    cases home <;> rfl
  have hatHome : Tree.setting? entries Key.home toOptionalPath? none =
      some (home.map .ofString) := by
    subst hsame
    cases home <;> rfl
  have hatClasspath : Tree.setting? entries Key.classpath toPaths? [] =
      some (classpath.map .ofString) := by
    subst hsame
    rw [← toPaths?_texts]
    cases home <;> rfl
  have hatOptions : Tree.setting? entries Key.options Tree.toTexts? [] = some s.options := by
    subst hsame
    rw [← toTexts?_texts]
    cases home <;> rfl
  have hatQuiet : Tree.setting? entries Key.quiet Tree.toTruth? false = some s.quiet := by
    subst hsame
    cases home <;> rfl
  -- a part is read as its own group of settings, with its own default
  have hatInst : Tree.setting? entries Key.inst (InstanceSettings.ofTree? surplus) {} =
      some { s.inst with configPath := configPath.map .ofString } := by
    subst hsame
    cases home <;> cases configPath <;> rfl
  have hatLogging : Tree.setting? entries Key.logging (LoggingSettings.ofTree? surplus) {} =
      some s.logging := by
    subst hsame
    cases home <;> rfl
  unfold Settings.ofTree?
  rw [hall]
  simp [hatHome, hatClasspath, hatOptions, hatQuiet, hatInst, hatLogging]

/-- What was saved says what it was saved from. -/
theorem parse_text {s : Settings} {text : String} (hsaved : s.text? = some text) :
    Settings.parse .toml text = .ok s := by
  obtain ⟨l, hlaid, rfl⟩ := Option.map_eq_some_iff.mp hsaved
  obtain ⟨home, classpath, configPath, hhome, hclasspath, hconfig, rfl⟩ :=
    layout?_eq_some_iff.mp hlaid
  have htree : Format.toml.read? (layoutOf s home classpath configPath).write =
      some (layoutOf s home classpath configPath).tree := read?_write (plain_layoutOf ..)
  unfold Settings.parse
  rw [htree, Option.bind_some, ofTree?_layoutOf, ← hhome, ← hclasspath, ← hconfig]

/-! ## What is left out -/

/-- A record that does not give a setting. -/
def Tree.Omits (tree : Tree) (key : String) : Prop :=
  ∃ entries, tree = .record entries ∧ key ∉ entries.map (·.1)

theorem omits_record {entries : List (String × Tree)} {key : String} :
    (Tree.record entries).Omits key ↔ key ∉ entries.map (·.1) := by
  constructor
  · rintro ⟨_, ⟨rfl⟩, homitted⟩
    exact homitted
  · exact fun homitted => ⟨entries, rfl, homitted⟩

/-- Where a setting is not given, its default is read. -/
theorem setting?_of_omits {α : Type} {tree : Tree} {entries : List (String × Tree)}
    {names : List String} {surplus : Bool} {key : String} {read : Tree → Option α} {default : α}
    (hknown : tree.entries? names surplus = some entries) (homits : tree.Omits key) :
    Tree.setting? entries key read default = some default := by
  obtain ⟨given, rfl, homitted⟩ := homits
  unfold Tree.entries? at hknown
  dsimp only at hknown
  split at hknown
  · have hsame := Option.some.inj hknown
    -- what is kept of the entries is some of those that were given
    have habsent : entries.lookup key = none := by
      rw [← hsame, List.partition_eq_filter_filter]
      refine lookup_eq_none_of_not_mem fun hinside => homitted ?_
      obtain ⟨entry, hkept, rfl⟩ := List.mem_map.mp hinside
      exact List.mem_map_of_mem (List.mem_of_mem_filter hkept)
    unfold Tree.setting?
    rw [habsent]
  · cases hknown

/-- Settings that leave the home out have none. -/
theorem home_of_omits {surplus : Bool} {tree : Tree} {s : Settings}
    (hread : Settings.ofTree? surplus tree = some s) (homits : tree.Omits Key.home) :
    s.home = none := by
  simp only [Settings.ofTree?, Option.bind_eq_bind, Option.bind_eq_some_iff] at hread
  obtain ⟨entries, hknown, home, habsent, classpath, -, options, -, quiet, -, inst, -, logging, -,
    ⟨rfl⟩⟩ := hread
  rw [setting?_of_omits hknown homits] at habsent
  exact (Option.some.inj habsent).symm

/-- An instance that leaves its configuration out has none. -/
theorem configPath_of_omits {surplus : Bool} {tree : Tree} {inst : InstanceSettings}
    (hread : InstanceSettings.ofTree? surplus tree = some inst) (homits : tree.Omits Key.configPath) :
    inst.configPath = none := by
  simp only [InstanceSettings.ofTree?, Option.bind_eq_bind, Option.bind_eq_some_iff] at hread
  obtain ⟨entries, hknown, configPath, habsent, name, -, ⟨rfl⟩⟩ := hread
  rw [setting?_of_omits hknown homits] at habsent
  exact (Option.some.inj habsent).symm

/-- A layout leaves out the home that is absent, and no other setting. -/
theorem omits_layoutEntries : ∀ key ∈ Key.ofSettings,
    (Tree.record (layoutEntries s home configPath classpath)).Omits key ↔
      key = Key.home ∧ home = none := by
  intro key hknown
  rw [omits_record]
  cases home with
  | none =>
    show key ∉ [Key.classpath, Key.options, Key.quiet, Key.inst, Key.logging] ↔ _
    revert key
    decide
  | some text =>
    show key ∉ Key.ofSettings ↔ _
    simp [hknown]

/-- The part of the instance leaves out the path that is absent, and not the name. -/
theorem omits_instanceItems (name : String) : ∀ key ∈ Key.ofInstance,
    (Tree.record (instanceItems configPath name).trees).Omits key ↔
      key = Key.configPath ∧ configPath = none := by
  intro key hknown
  rw [omits_record]
  cases configPath with
  | none =>
    show key ∉ [Key.name] ↔ _
    revert key
    decide
  | some text =>
    show key ∉ Key.ofInstance ↔ _
    simp [hknown]

/-! ## Files -/

section
variable {s : Settings} {fs fs' : FileSystem} {p : Path} {text : String} {content : List UInt8}

/-- What is loaded is what the text that was written says. -/
theorem loadAs_of_write (hwritten : fs.write p text.toUTF8.toList = .ok fs') (format : Format) :
    Settings.loadAs format fs' p = Settings.parse format text := by
  have hdecoded := (fromUTF8?_eq_some_iff text.toUTF8.toList text).mpr rfl
  have hshown : fs'.readText p = .ok text := by
    unfold FileSystem.readText
    rw [FileSystem.read_of_write hwritten]
    simp only [bind, Except.bind, hdecoded]
    rfl
  unfold Settings.loadAs
  rw [hshown]
  rfl

/-- Settings with a text are saved by one write of that text. -/
theorem save_of_text (hshown : s.text? = some text) (fs : FileSystem) (p : Path) :
    s.save fs p = match fs.write p text.toUTF8.toList with
      | .ok written => (.ok (), written)
      | .error e => (.error (.io e), fs) := by
  unfold Settings.save Settings.showText
  rw [hshown]
  -- what is left of the save once there is a text
  show StateT.run (ExceptT.run (match fs.write p text.toUTF8.toList with
      | .ok written => (set written : Saving Unit)
      | .error e => throw (ConfigError.io e))) fs = _
  cases fs.write p text.toUTF8.toList <;> rfl

/-- Settings without a text are refused before any file is touched. -/
theorem save_of_textless (hnone : s.text? = none) (fs : FileSystem) (p : Path) :
    s.save fs p = (.error (.parse "path contains invalid UTF-8 characters"), fs) := by
  unfold Settings.save Settings.showText
  rw [hnone]
  rfl

/-- Whatever a save fails at, it leaves all files as they were. -/
theorem files_of_failed_save {e : ConfigError} {left : FileSystem}
    (hfailed : s.save fs p = (.error e, left)) : left = fs := by
  cases hshown : s.text? with
  | none =>
    rw [save_of_textless hshown] at hfailed
    exact (congrArg Prod.snd hfailed).symm
  | some text =>
    rw [save_of_text hshown] at hfailed
    cases hwritten : fs.write p text.toUTF8.toList with
    | ok written =>
      rw [hwritten] at hfailed
      cases hfailed
    | error e =>
      rw [hwritten] at hfailed
      exact (congrArg Prod.snd hfailed).symm

/-- Where something can be written, the text of the settings can be, and it loads back. -/
theorem loads_of_saved (hshown : s.text? = some text) (hpossible : fs.write p content = .ok fs') :
    ∃ saved, s.save fs p = (.ok (), saved) ∧ saved.read p = .ok text.toUTF8.toList ∧
      Settings.loadAs .toml saved p = .ok s ∧
      (p.extension? ≠ some (nameOfString "json") → Settings.load saved p = .ok s) := by
  obtain ⟨saved, hdone⟩ := FileSystem.exists_write_of_ok hpossible text.toUTF8.toList
  have hloads := (loadAs_of_write hdone .toml).trans (parse_text hshown)
  refine ⟨saved, ?_, FileSystem.read_of_write hdone, hloads, fun hother => ?_⟩
  · rw [save_of_text hshown, hdone]
  · unfold Settings.load Format.ofPath
    rw [if_neg hother]
    exact hloads

/-- Where nothing can be written, saving says so. -/
theorem save_of_unwritable {e : IoError} (hshown : s.text? = some text)
    (hfailed : fs.write p content = .error e) : s.save fs p = (.error (.io e), fs) := by
  rw [save_of_text hshown, FileSystem.write_of_error hfailed]

/-- A path that is no text leaves the settings without one. -/
theorem text?_eq_none {path : Path} (hknown : path ∈ s.paths) (hbroken : path.toString? = none) :
    s.text? = none := by
  have hunlaid : ¬ (layout? s).isSome := fun hlaid => by
    have htext := (isSome_layout?_iff s).mp hlaid path hknown
    rw [hbroken] at htext
    cases htext
  unfold Settings.text?
  rw [Option.not_isSome_iff_eq_none.mp hunlaid]
  rfl

end

/-- **Saved settings load back.** Settings whose paths are all text have a text. It leaves out the
paths that are absent, and nothing else; in it and in any other configuration, a path that is left
out is absent. Where a file can be written at all, saving writes that text, and loading the file as
TOML gives the same settings, as does loading it by its name unless that stands for JSON. Settings
with a path that is no text are refused, and so is a file that cannot be written; every file is then
as it was. -/
theorem saved_loads_back (s : Settings) (fs : FileSystem) (p : Path) :
    ((∀ path ∈ s.paths, path.toString?.isSome) →
      ∃ text entries inst, s.text? = some text ∧ Toml.read? text = some (.record entries) ∧
        (∀ key ∈ Key.ofSettings,
          (Tree.record entries).Omits key ↔ key = Key.home ∧ s.home = none) ∧
        entries.lookup Key.inst = some inst ∧
        (∀ key ∈ Key.ofInstance,
          inst.Omits key ↔ key = Key.configPath ∧ s.inst.configPath = none) ∧
        (∀ content written, fs.write p content = .ok written →
          ∃ saved, s.save fs p = (.ok (), saved) ∧ saved.read p = .ok text.toUTF8.toList ∧
            Settings.loadAs .toml saved p = .ok s ∧
            (p.extension? ≠ some (nameOfString "json") → Settings.load saved p = .ok s)) ∧
        ∀ content e, fs.write p content = .error e → s.save fs p = (.error (.io e), fs)) ∧
    ((∃ path ∈ s.paths, path.toString? = none) →
      ∃ message, s.save fs p = (.error (.parse message), fs)) ∧
    (∀ e left, s.save fs p = (.error e, left) → left = fs) ∧
    (∀ surplus tree loaded, Settings.ofTree? surplus tree = some loaded →
      tree.Omits Key.home → loaded.home = none) ∧
    ∀ surplus tree loaded, InstanceSettings.ofTree? surplus tree = some loaded →
      tree.Omits Key.configPath → loaded.configPath = none := by
  refine ⟨fun htexts => ?_, ?_, fun _ _ => files_of_failed_save, fun _ _ _ => home_of_omits,
    fun _ _ _ => configPath_of_omits⟩
  · obtain ⟨l, hlaid⟩ := Option.isSome_iff_exists.mp ((isSome_layout?_iff s).mpr htexts)
    obtain ⟨home, classpath, configPath, hhome, hclasspath, hconfig, rfl⟩ :=
      layout?_eq_some_iff.mp hlaid
    -- all paths are text, so there is a layout, and it is what is written
    have hshown : s.text? = some (layoutOf s home classpath configPath).write :=
      congrArg (Option.map Layout.write) hlaid
    refine ⟨_, layoutEntries s home configPath classpath,
      .record (instanceItems configPath s.inst.name).trees, hshown, read?_write (plain_layoutOf ..),
      ?_, ?_, ?_, fun _ _ hpossible => loads_of_saved hshown hpossible,
      fun _ _ hfailed => save_of_unwritable hshown hfailed⟩
    · simpa [hhome] using omits_layoutEntries s home configPath classpath
    · cases home <;> rfl
    · simpa [hconfig] using omits_instanceItems configPath s.inst.name
  · rintro ⟨path, hknown, hbroken⟩
    exact ⟨_, save_of_textless (text?_eq_none hknown hbroken) fs p⟩

/-- Texts with quotes, backslashes, controls and several lines, and one that is empty. -/
def quoted : Settings where
  classpath := [.ofString "lib/it's", .ofString ""]
  options := ["-D\"\"\"", "-Da=\\\t'\x00", "\nñ\r\n\"\""]
  inst := { name := "" }

theorem quoted_loads_back :
    (∃ saved, quoted.save {} (.ofString "c.toml") = (.ok (), saved) ∧
      Settings.load saved (.ofString "c.toml") = .ok quoted) ∧
    quoted.save {} (.ofString "no/c.toml") = (.error (.io .notFound), {}) ∧
    (∃ message, Settings.save { home := some ⟨[0xFF]⟩ } {} (.ofString "c.toml") =
      (.error (.parse message), {})) ∧
    (∃ loaded, Settings.ofTree? true (.record []) = some loaded ∧ loaded.home = none) ∧
    ∃ loaded, InstanceSettings.ofTree? true (.record []) = some loaded ∧
      loaded.configPath = none := by
  -- one instance for each outcome: saved, not text, and no directory to write to
  have hmain := saved_loads_back quoted {} (.ofString "c.toml")
  have hbroken := saved_loads_back { home := some ⟨[0xFF]⟩ } {} (.ofString "c.toml")
  have hnowhere := saved_loads_back quoted {} (.ofString "no/c.toml")
  obtain ⟨_, _, _, -, -, -, -, -, hsaves, -⟩ := hmain.1 (by decide +kernel)
  obtain ⟨_, _, _, -, -, -, -, -, -, hrefused⟩ := hnowhere.1 (by decide +kernel)
  have hpossible : FileSystem.write {} (.ofString "c.toml") [] =
      .ok (FileSystem.set {} [nameOfString "c.toml"] (.file [])) := by decide +kernel
  have himpossible : FileSystem.write {} (.ofString "no/c.toml") [] = .error .notFound := by
    decide +kernel
  obtain ⟨saved, hdone, -, -, hloads⟩ := hsaves [] _ hpossible
  refine ⟨⟨saved, hdone, hloads (by decide +kernel)⟩, hrefused [] _ himpossible,
    hbroken.2.1 ⟨⟨[0xFF]⟩, by decide +kernel, by decide +kernel⟩, ⟨{}, rfl, ?_⟩, ⟨{}, rfl, ?_⟩⟩
  · exact hmain.2.2.2.1 true (.record []) {} rfl ⟨[], rfl, by simp⟩
  · exact hmain.2.2.2.2 true (.record []) {} rfl ⟨[], rfl, by simp⟩

end GridBridge.Config
