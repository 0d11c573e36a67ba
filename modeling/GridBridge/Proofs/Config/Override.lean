import GridBridge.Config.Override
import GridBridge.Proofs.Outcome
import GridBridge.Proofs.Text.Utf8

/-!
# Config: what the environment changes

Each of the three variables is described by the bytes it takes and by the value they stand for
(`IsPath`, `Encodes`, `SpellsTruth`), and `Applied` is a setting after its variable. One step of the
overrides either applies its variable or refuses it and changes nothing, so that a refusal leaves
what the steps before it have done. **`override_exact`** puts the three steps together: when the
overrides hold, what is changed and what is not, which variable a refusal names, and that the same
environment changes nothing more.
-/

namespace GridBridge.Config

open Files Text

variable {α : Type} {s : Settings} {o : Overrides} {raw : List UInt8}

/-! ## What a variable stands for -/

/-- Any bytes are a path. -/
def IsPath (raw : List UInt8) (home : Option Path) : Prop := home = some ⟨raw⟩

/-- The bytes are the text in UTF-8. -/
def Encodes (raw : List UInt8) (text : String) : Prop := raw = text.toUTF8.toList

/-- The bytes are `true` or `false`, exactly. -/
def SpellsTruth (raw : List UInt8) (truth : Bool) : Prop :=
  Encodes raw (if truth then "true" else "false")

/-- A setting after its variable was applied: what the variable stands for where it is set, and what
was there before otherwise. -/
def Applied (stands : List UInt8 → α → Prop) (raw? : Option (List UInt8)) (before after : α) : Prop :=
  match raw? with
  | none => after = before
  | some raw => stands raw after

/-- A variable holds if it is absent or stands for something. -/
def Holds (stands : List UInt8 → α → Prop) (raw? : Option (List UInt8)) : Prop :=
  ∀ raw, raw? = some raw → ∃ value, stands raw value

/-- The same bytes do not stand for two values. -/
def Unique (stands : List UInt8 → α → Prop) : Prop :=
  ∀ raw one other, stands raw one → stands raw other → one = other

/-- Bytes are one path. -/
theorem isPath_unique : Unique IsPath :=
  fun _ _ _ hone hother => hone.trans hother.symm

/-- Bytes encode at most one text. -/
theorem encodes_unique : Unique Encodes := by
  intro raw name name' hone hother
  have hfirst := (fromUTF8?_eq_some_iff raw name).mpr hone
  have hsecond := (fromUTF8?_eq_some_iff raw name').mpr hother
  exact Option.some.inj (hfirst.symm.trans hsecond)

/-- The two spellings differ. -/
theorem spellsTruth_unique : Unique SpellsTruth := by
  intro raw truth truth' hone hother
  have hsame := encodes_unique raw _ _ hone hother
  revert hsame
  cases truth <;> cases truth' <;> decide

/-- A variable that does not hold is there, and stands for nothing. -/
theorem not_holds {stands : List UInt8 → α → Prop} {raw? : Option (List UInt8)}
    (hbroken : ¬ Holds stands raw?) : ∃ raw, raw? = some raw ∧ ¬ ∃ value, stands raw value := by
  simpa only [Holds, not_forall, exists_prop] using hbroken

/-- A variable that was applied once is not seen to be applied again. -/
theorem Applied.again {stands : List UInt8 → α → Prop} {raw? : Option (List UInt8)}
    {before after later : α} (hunique : Unique stands)
    (honce : Applied stands raw? before after) (htwice : Applied stands raw? after later) :
    later = after := by
  cases raw? with
  | none => exact htwice
  | some raw => exact hunique raw later after htwice honce

namespace Overrides

/-- A text is read from the bytes that encode it. -/
theorem textOf?_eq_some_iff (raw : List UInt8) (text : String) :
    textOf? raw = some text ↔ Encodes raw text :=
  fromUTF8?_eq_some_iff raw text

/-- A truth value is read from the bytes that spell it. -/
theorem truthOf?_eq_some_iff (raw : List UInt8) (truth : Bool) :
    truthOf? raw = some truth ↔ SpellsTruth raw truth := by
  rw [SpellsTruth, ← textOf?_eq_some_iff]
  unfold truthOf?
  split
  · rename_i hread
    cases truth <;> simp [hread]
  · rename_i hread
    cases truth <;> simp [hread]
  -- any other text is neither of the two
  · rename_i hnoTrue hnoFalse
    cases truth with
    | true => simpa using hnoTrue
    | false => simpa using hnoFalse

/-! ## One step for each variable -/

/-- The directory is taken over as it is. -/
theorem run_applyHome (o : Overrides) (s : Settings) :
    ∃ home, Applied IsPath o.home s.home home ∧
      o.applyHome.run.run s = (.ok (), { s with home }) := by
  unfold applyHome
  cases o.home with
  | none => exact ⟨s.home, rfl, rfl⟩
  | some raw => exact ⟨some ⟨raw⟩, rfl, rfl⟩

/-- A name that can be read is taken over. -/
theorem run_applyInstanceName (hholds : Holds Encodes o.instanceName) (s : Settings) :
    ∃ name, Applied Encodes o.instanceName s.inst.name name ∧
      o.applyInstanceName.run.run s = (.ok (), { s with inst := { s.inst with name } }) := by
  unfold applyInstanceName
  cases hset : o.instanceName with
  | none => exact ⟨s.inst.name, rfl, rfl⟩
  | some raw =>
    obtain ⟨name, hencoded⟩ := hholds raw hset
    refine ⟨name, hencoded, ?_⟩
    simp only [(textOf?_eq_some_iff raw name).mpr hencoded]
    rfl

/-- A name that cannot be read is refused, with the bytes. -/
theorem run_applyInstanceName_refused (hset : o.instanceName = some raw)
    (hbroken : ¬ ∃ name, Encodes raw name) (s : Settings) :
    o.applyInstanceName.run.run s = (.error (.instanceNameNotUtf8 raw), s) := by
  have hunread : textOf? raw = none := by
    rw [Option.eq_none_iff_forall_ne_some]
    exact fun name hread => hbroken ⟨name, (textOf?_eq_some_iff raw name).mp hread⟩
  unfold applyInstanceName
  simp only [hset, hunread]
  rfl

/-- A truth value that is spelled out is taken over. -/
theorem run_applyQuiet (hholds : Holds SpellsTruth o.quiet) (s : Settings) :
    ∃ quiet, Applied SpellsTruth o.quiet s.quiet quiet ∧
      o.applyQuiet.run.run s = (.ok (), { s with quiet }) := by
  unfold applyQuiet
  cases hset : o.quiet with
  | none => exact ⟨s.quiet, rfl, rfl⟩
  | some raw =>
    obtain ⟨quiet, hspelled⟩ := hholds raw hset
    refine ⟨quiet, hspelled, ?_⟩
    simp only [(truthOf?_eq_some_iff raw quiet).mpr hspelled]
    rfl

/-- Anything else is refused, with the bytes. -/
theorem run_applyQuiet_refused (hset : o.quiet = some raw)
    (hbroken : ¬ ∃ quiet, SpellsTruth raw quiet) (s : Settings) :
    o.applyQuiet.run.run s = (.error (.quietNotBoolean raw), s) := by
  have hunread : truthOf? raw = none := by
    rw [Option.eq_none_iff_forall_ne_some]
    exact fun quiet hread => hbroken ⟨quiet, (truthOf?_eq_some_iff raw quiet).mp hread⟩
  unfold applyQuiet
  simp only [hset, hunread]
  rfl

end Overrides

/-! ## The three steps together -/

/-- The outcome is that of the steps, as a validation error. -/
theorem override_of_run (outcome : Except ConfigProblem Unit) {after : Settings}
    (hrun : o.apply.run.run s = (outcome, after)) :
    s.override o = (outcome.mapError .validation, after) := by
  rw [Settings.override, hrun]

/-- If every variable holds all three are applied. -/
theorem override_of_holds (hnameHolds : Holds Encodes o.instanceName)
    (hquietHolds : Holds SpellsTruth o.quiet) (s : Settings) :
    ∃ home name quiet, Applied IsPath o.home s.home home ∧
      Applied Encodes o.instanceName s.inst.name name ∧
      Applied SpellsTruth o.quiet s.quiet quiet ∧
      s.override o = (.ok (), { s with home, inst := { s.inst with name }, quiet }) := by
  obtain ⟨home, hatHome, hhomeRun⟩ := o.run_applyHome s
  obtain ⟨name, hatName, hnameRun⟩ := Overrides.run_applyInstanceName hnameHolds { s with home }
  obtain ⟨quiet, hatQuiet, hquietRun⟩ :=
    Overrides.run_applyQuiet hquietHolds { s with home, inst := { s.inst with name } }
  refine ⟨home, name, quiet, hatHome, hatName, hatQuiet, override_of_run (.ok ()) ?_⟩
  rw [Overrides.apply, run_bind_of_ok hhomeRun, run_bind_of_ok hnameRun]
  exact hquietRun

/-- If the name does not hold only the directory has been applied. -/
theorem override_of_name (hset : o.instanceName = some raw) (hbroken : ¬ ∃ name, Encodes raw name)
    (s : Settings) :
    ∃ home, Applied IsPath o.home s.home home ∧
      s.override o = (.error (.validation (.instanceNameNotUtf8 raw)), { s with home }) := by
  obtain ⟨home, hatHome, hhomeRun⟩ := o.run_applyHome s
  refine ⟨home, hatHome, override_of_run (.error (.instanceNameNotUtf8 raw)) ?_⟩
  rw [Overrides.apply, run_bind_of_ok hhomeRun]
  exact run_bind_of_error (Overrides.run_applyInstanceName_refused hset hbroken _)

/-- If only the last one does not hold the first two have been applied. -/
theorem override_of_quiet (hnameHolds : Holds Encodes o.instanceName) (hset : o.quiet = some raw)
    (hbroken : ¬ ∃ quiet, SpellsTruth raw quiet) (s : Settings) :
    ∃ home name, Applied IsPath o.home s.home home ∧
      Applied Encodes o.instanceName s.inst.name name ∧
      s.override o = (.error (.validation (.quietNotBoolean raw)),
        { s with home, inst := { s.inst with name } }) := by
  obtain ⟨home, hatHome, hhomeRun⟩ := o.run_applyHome s
  obtain ⟨name, hatName, hnameRun⟩ := Overrides.run_applyInstanceName hnameHolds { s with home }
  refine ⟨home, name, hatHome, hatName, override_of_run (.error (.quietNotBoolean raw)) ?_⟩
  rw [Overrides.apply, run_bind_of_ok hhomeRun, run_bind_of_ok hnameRun]
  exact Overrides.run_applyQuiet_refused hset hbroken _

/-! ## The whole -/

/-- The message of a problem starts with the variable. -/
def Blames (problem : ConfigProblem) (key : String) : Prop :=
  ∃ detail, problem.message = key ++ detail

/-- The message names the variable of the instance's name. -/
theorem instanceNameNotUtf8_blames (raw : List UInt8) :
    Blames (.instanceNameNotUtf8 raw) Overrides.instanceVariable := by
  have hstart : "IGNITE_INTEROP_INSTANCE is not UTF-8: " =
    Overrides.instanceVariable ++ " is not UTF-8: " := by decide
  refine ⟨" is not UTF-8: " ++ quotedBytes raw, ?_⟩
  rw [← String.append_assoc, ← hstart]
  rfl

/-- The message names the variable of the quiet flag. -/
theorem quietNotBoolean_blames (raw : List UInt8) :
    Blames (.quietNotBoolean raw) Overrides.quietVariable := by
  have hstart : "IGNITE_INTEROP_QUIET must be `true` or `false`, got " =
    Overrides.quietVariable ++ " must be `true` or `false`, got " := by decide
  refine ⟨" must be `true` or `false`, got " ++ quotedBytes raw, ?_⟩
  rw [← String.append_assoc, ← hstart]
  rfl

/-- What the variables make of settings, and how that ends. -/
structure Overridden (o : Overrides) (before after : Settings) (outcome : Except ConfigError Unit) :
    Prop where
  ok_iff : outcome = .ok () ↔ Holds Encodes o.instanceName ∧ Holds SpellsTruth o.quiet
  /-- The directory is taken over however it ends. -/
  home : Applied IsPath o.home before.home after.home
  /-- The name is taken over if it holds, also where the variable behind it does not. -/
  name : Holds Encodes o.instanceName →
    Applied Encodes o.instanceName before.inst.name after.inst.name
  quiet : outcome = .ok () → Applied SpellsTruth o.quiet before.quiet after.quiet
  /-- A name that does not hold is blamed, whatever comes behind it. -/
  name_refused : ¬ Holds Encodes o.instanceName → after.inst.name = before.inst.name ∧
    ∃ raw problem, o.instanceName = some raw ∧ problem = .instanceNameNotUtf8 raw ∧
      Blames problem Overrides.instanceVariable ∧ outcome = .error (.validation problem)
  quiet_refused : Holds Encodes o.instanceName → ¬ Holds SpellsTruth o.quiet →
    ∃ raw problem, o.quiet = some raw ∧ problem = .quietNotBoolean raw ∧
      Blames problem Overrides.quietVariable ∧ outcome = .error (.validation problem)
  quiet_kept : outcome ≠ .ok () → after.quiet = before.quiet
  others_kept : after = { before with
    home := after.home, quiet := after.quiet, inst := { before.inst with name := after.inst.name } }

/-- **What the variables make of settings**, up to the first one that does not hold. -/
theorem overridden (s : Settings) (o : Overrides) :
    Overridden o s (s.override o).2 (s.override o).1 := by
  by_cases hnameHolds : Holds Encodes o.instanceName
  · by_cases hquietHolds : Holds SpellsTruth o.quiet
    -- every step goes through
    · obtain ⟨home, name, quiet, hatHome, hatName, hatQuiet, hrun⟩ :=
        override_of_holds hnameHolds hquietHolds s
      rw [hrun]
      exact {
        ok_iff := ⟨fun _ => ⟨hnameHolds, hquietHolds⟩, fun _ => rfl⟩
        home := hatHome
        name := fun _ => hatName
        quiet := fun _ => hatQuiet
        name_refused := fun hbroken => absurd hnameHolds hbroken
        quiet_refused := fun _ hbroken => absurd hquietHolds hbroken
        quiet_kept := fun hrefused => absurd rfl hrefused
        others_kept := rfl }
    -- home and name were applied before the last variable was refused
    · obtain ⟨raw, hset, hbroken⟩ := not_holds hquietHolds
      obtain ⟨home, name, hatHome, hatName, hrun⟩ := override_of_quiet hnameHolds hset hbroken s
      rw [hrun]
      exact {
        ok_iff := ⟨nofun, fun hold => absurd hold.2 hquietHolds⟩
        home := hatHome
        name := fun _ => hatName
        quiet := nofun
        name_refused := fun hbroken => absurd hnameHolds hbroken
        quiet_refused := fun _ _ => ⟨raw, _, hset, rfl, quietNotBoolean_blames raw, rfl⟩
        quiet_kept := fun _ => rfl
        others_kept := rfl }
  -- only home was applied, and the last variable is not looked at
  · obtain ⟨raw, hset, hbroken⟩ := not_holds hnameHolds
    obtain ⟨home, hatHome, hrun⟩ := override_of_name hset hbroken s
    rw [hrun]
    exact {
      ok_iff := ⟨nofun, fun hold => absurd hold.1 hnameHolds⟩
      home := hatHome
      name := fun hholds => absurd hholds hnameHolds
      quiet := nofun
      name_refused := fun _ => ⟨rfl, raw, _, hset, rfl, instanceNameNotUtf8_blames raw, rfl⟩
      quiet_refused := fun hholds => absurd hholds hnameHolds
      quiet_kept := fun _ => rfl
      others_kept := rfl }

/-- The same environment a second time ends as before and changes nothing. Each setting that was
applied stands for the same bytes again, and what was refused is refused again. -/
theorem override_again (s : Settings) (o : Overrides) : (s.override o).2.override o = s.override o := by
  by_cases hnameHolds : Holds Encodes o.instanceName
  · by_cases hquietHolds : Holds SpellsTruth o.quiet
    · obtain ⟨home, name, quiet, hatHome, hatName, hatQuiet, hrun⟩ :=
        override_of_holds hnameHolds hquietHolds s
      obtain ⟨home', name', quiet', hhomeAgain, hnameAgain, hquietAgain, hrerun⟩ :=
        override_of_holds hnameHolds hquietHolds (s.override o).2
      rw [hrun] at hhomeAgain hnameAgain hquietAgain
      -- what was applied stands for the same bytes, so it is what was there
      obtain rfl := hatHome.again isPath_unique hhomeAgain
      obtain rfl := hatName.again encodes_unique hnameAgain
      obtain rfl := hatQuiet.again spellsTruth_unique hquietAgain
      rw [hrerun, hrun]
    · obtain ⟨raw, hset, hbroken⟩ := not_holds hquietHolds
      obtain ⟨home, name, hatHome, hatName, hrun⟩ := override_of_quiet hnameHolds hset hbroken s
      obtain ⟨home', name', hhomeAgain, hnameAgain, hrerun⟩ :=
        override_of_quiet hnameHolds hset hbroken (s.override o).2
      rw [hrun] at hhomeAgain hnameAgain
      obtain rfl := hatHome.again isPath_unique hhomeAgain
      obtain rfl := hatName.again encodes_unique hnameAgain
      rw [hrerun, hrun]
  · obtain ⟨raw, hset, hbroken⟩ := not_holds hnameHolds
    obtain ⟨home, hatHome, hrun⟩ := override_of_name hset hbroken s
    obtain ⟨home', hhomeAgain, hrerun⟩ := override_of_name hset hbroken (s.override o).2
    rw [hrun] at hhomeAgain
    obtain rfl := hatHome.again isPath_unique hhomeAgain
    rw [hrerun, hrun]

/-- Overrides end well if and only if every variable holds, and what they leave is settled by the
variables up to the first one that does not. The same variables again end and leave the same. -/
theorem override_exact (s : Settings) (o : Overrides) :
    Overridden o s (s.override o).2 (s.override o).1 ∧
      (s.override o).2.override o = s.override o :=
  ⟨overridden s o, override_again s o⟩

end GridBridge.Config
