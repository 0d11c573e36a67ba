import GridBridge.Proofs.Managed.Durable
import GridBridge.Proofs.Managed.Plays

/-!
# Stale references are always caught

A reference table is used any number of times: objects are inserted, and references are removed that may
be live, stale, null or made up. **`used`** is the table after such uses, with what came of each, newest
first; a reference is **`Alive`** from the event that made it to the one that removes it. `Records` says
what a table has to do with its history, and every use keeps it (**`records_used`**). So while numbers
last, the history tells what the table answers (`Records.toldBy`): no reference is handed out twice, one
that was removed leads nowhere ever after, and a call that uses it or gives it back again ends there.
-/

namespace GridBridge.Managed

open Protocol

/-! ## Uses and their history -/

/-- One use of a reference table. -/
inductive RefUse where
  | insert (object : Object) (kind : RefKind)
  | remove (r : Ref) (kind : RefKind)
  deriving DecidableEq, Repr

/-- What came of a use. -/
inductive RefEvent where
  /-- A reference was handed out for an object. -/
  | made (entry : LiveRef)
  | removed (r : Ref) (kind : RefKind)
  | refused (r : Ref) (kind : RefKind) (cause : DeleteFault)
  deriving DecidableEq, Repr

/-- The use makes a reference. -/
def RefUse.inserts : RefUse → Bool
  | .insert .. => true
  | .remove .. => false

/-- What comes of a use, and the table then. A removal that fails leaves it as it was. -/
def RefUse.apply (t : RefTable) : RefUse → RefEvent × RefTable
  | .insert object kind =>
    let (r, t') := t.insert object kind
    (.made ⟨r, kind, object⟩, t')
  | .remove r kind =>
    match t.remove r kind with
    | .ok t' => (.removed r kind, t')
    | .error cause => (.refused r kind cause, t)

/-- The reference that the event has handed out. -/
def RefEvent.entry? : RefEvent → Option LiveRef
  | .made e => some e
  | _ => none

/-- The event has handed out a reference of the kind. -/
def RefEvent.gives (kind : RefKind) : RefEvent → Bool
  | .made e => e.kind = kind
  | _ => false

/-- The event has taken out a reference of the kind. Null is of no kind. -/
def RefEvent.takes (kind : RefKind) : RefEvent → Bool
  | .removed r asked => !r.isNull && asked = kind
  | _ => false

/-- All references that were handed out, live or not, newest first. -/
def issued (events : List RefEvent) : List LiveRef := events.filterMap RefEvent.entry?

/-- The reference was handed out for the object and not removed since. -/
inductive Alive (e : LiveRef) : List RefEvent → Prop where
  | made (before : List RefEvent) : Alive e (.made e :: before)
  | kept {event : RefEvent} {before : List RefEvent} (h : Alive e before)
      (hspared : ∀ kind, event ≠ .removed e.token kind) : Alive e (event :: before)

namespace RefTable

/-- What came of some uses, the newest one first, and the table after them. -/
def used : List RefUse → List RefEvent × RefTable
  | [] => ([], {})
  | use :: before =>
    let (events, t) := used before
    let (event, t') := use.apply t
    (event :: events, t')

/-- The newest use is made of the table that the others have left. -/
theorem used_cons (use : RefUse) (before : List RefUse) :
    used (use :: before) =
      ((use.apply (used before).2).1 :: (used before).1, (use.apply (used before).2).2) := rfl

variable {t t' : RefTable} {events : List RefEvent} {r : Ref} {kind : RefKind} {object : Object}
  {e new : LiveRef}

/-- A removal that works is noted down as one. -/
theorem apply_remove_of_ok (h : t.remove r kind = .ok t') :
    (RefUse.remove r kind).apply t = (.removed r kind, t') := by
  rw [RefUse.apply, h]

/-- A removal that fails is noted down, and the table stays. -/
theorem apply_remove_of_error {cause : DeleteFault} (h : t.remove r kind = .error cause) :
    (RefUse.remove r kind).apply t = (.refused r kind cause, t) := by
  rw [RefUse.apply, h]

/-! ## What is alive -/

/-- What is made is alive from then on, besides what was. -/
theorem alive_made_iff : Alive e (.made new :: events) ↔ e = new ∨ Alive e events := by
  constructor
  · intro h
    cases h with
    | made => exact .inl rfl
    | kept h _ => exact .inr h
  · rintro (rfl | h)
    · exact .made events
    · exact h.kept nofun

/-- A removal ends the one reference. -/
theorem alive_removed_iff : Alive e (.removed r kind :: events) ↔ Alive e events ∧ e.token ≠ r := by
  constructor
  · intro h
    cases h with
    | kept h hspared =>
      refine ⟨h, ?_⟩
      rintro rfl
      exact hspared kind rfl
  · rintro ⟨h, hne⟩
    refine h.kept fun asked hsame => ?_
    injection hsame with htoken
    exact hne htoken.symm

/-- A refusal ends none. -/
theorem alive_refused_iff {cause : DeleteFault} :
    Alive e (.refused r kind cause :: events) ↔ Alive e events := by
  constructor
  · intro h
    cases h with
    | kept h _ => exact h
  · exact fun h => h.kept nofun

/-! ## A table and its history -/

/-- What a table has to do with its history. The live references alone would not carry it on: a removal
does away with what shows that a number was used. -/
structure Records (t : RefTable) (events : List RefEvent) : Prop where
  /-- One number was used up for each reference. -/
  counter : t.next = (issued events).length + 1
  /-- With all references live that were ever handed out, the table would still be sound. -/
  sound : Sound { live := issued events, next := t.next }
  fewer : t.live.Sublist (issued events)
  alive : ∀ e, e ∈ t.live ↔ Alive e events
  /-- Whatever was removed is not live, and its number does not come again. -/
  gone : ∀ r kind, .removed r kind ∈ events →
    r.bits.toNat < t.next ∧ ∀ e ∈ t.live, e.token ≠ r
  count : ∀ kind, t.count kind + events.countP (RefEvent.takes kind) =
    events.countP (RefEvent.gives kind)

namespace Records

/-- A new table, with no history. -/
theorem of_empty : Records {} [] where
  counter := rfl
  sound := ⟨by decide, by decide, nofun, .nil⟩
  fewer := List.Sublist.refl []
  alive e := ⟨nofun, nofun⟩
  gone := nofun
  count _ := rfl

/-- Fewer references are live than were handed out. -/
theorem soundNow (h : Records t events) : Sound t := h.sound.fewer h.fewer

/-- A reference that is handed out has a number that no other has had. -/
theorem insert (h : Records t events) (hroom : t.next < 2 ^ 64) (object : Object) (kind : RefKind) :
    Records (t.insert object kind).2 (.made ⟨t.token, kind, object⟩ :: events) where
  counter := congrArg (· + 1) h.counter
  sound := h.sound.insert hroom object kind
  fewer := h.fewer.cons_cons _
  alive e := by
    rw [alive_made_iff, ← h.alive]
    exact List.mem_cons
  gone r asked hmem := by
    obtain ⟨hbelow, hlost⟩ := h.gone r asked (by simpa using hmem)
    refine ⟨Nat.lt_succ_of_lt hbelow, List.forall_mem_cons.mpr ⟨?_, hlost⟩⟩
    -- what was removed before has a smaller number than the new reference
    rintro rfl
    rw [toNat_token hroom] at hbelow
    exact absurd hbelow (Nat.lt_irrefl _)
  count asked := by
    have hbefore := h.count asked
    rw [count_insert]
    simp only [List.countP_cons, RefEvent.takes, RefEvent.gives, decide_eq_true_eq,
      Bool.false_eq_true, if_false]
    omega

/-- Nothing comes of removing null. -/
theorem pass (h : Records t events) (kind : RefKind) : Records t (.removed .null kind :: events) where
  counter := h.counter
  sound := h.sound
  fewer := h.fewer
  alive e := by
    rw [alive_removed_iff, ← h.alive]
    exact ⟨fun hlive => ⟨hlive, h.soundNow.ne_null hlive⟩, And.left⟩
  gone r asked hmem := by
    rcases List.mem_cons.mp hmem with this | hbefore
    · obtain rfl : r = .null := by injection this
      exact ⟨h.soundNow.positive, fun e hlive => h.soundNow.ne_null hlive⟩
    · exact h.gone r asked hbefore
  count asked := by simpa [RefEvent.takes, RefEvent.gives] using h.count asked

/-- A live reference is removed, and no other. -/
theorem take (h : Records t events) (hlive : e ∈ t.live) :
    Records { t with live := t.live.filter (·.token != e.token) }
      (.removed e.token e.kind :: events) where
  counter := h.counter
  sound := h.sound
  fewer := List.filter_sublist.trans h.fewer
  alive e' := by
    rw [alive_removed_iff, ← h.alive]
    simp
  -- the entry just removed was alive until now, and tokens are not given out twice
  gone r asked hmem := by
    rcases List.mem_cons.mp hmem with this | hbefore
    · obtain rfl : r = e.token := by injection this
      exact ⟨(h.soundNow.below e hlive).2, by simp⟩
    · obtain ⟨hbelow, hlost⟩ := h.gone r asked hbefore
      exact ⟨hbelow, fun e' hkept => hlost e' (List.mem_of_mem_filter hkept)⟩
  count asked := by
    have hbefore := h.count asked
    -- a live entry's reference is not null, so the event counts as a removal
    have hnonnull := Ref.isNull_eq_false_iff.mpr (h.soundNow.ne_null hlive)
    rw [← count_erase h.soundNow hlive asked] at hbefore
    simp only [List.countP_cons, RefEvent.takes, RefEvent.gives, hnonnull, Bool.not_false,
      Bool.true_and, decide_eq_true_eq, Bool.false_eq_true, if_false]
    omega

/-- A use that is refused is only noted down. -/
theorem refuse (h : Records t events) (r : Ref) (kind : RefKind) (cause : DeleteFault) :
    Records t (.refused r kind cause :: events) where
  counter := h.counter
  sound := h.sound
  fewer := h.fewer
  alive e := by rw [alive_refused_iff, h.alive]
  gone r asked hmem := h.gone r asked (by simpa using hmem)
  count asked := by simpa [RefEvent.takes, RefEvent.gives] using h.count asked

/-- What one use keeps, if there is a number left for it. -/
theorem apply (h : Records t events) (hroom : t.next < 2 ^ 64) (use : RefUse) :
    Records (use.apply t).2 ((use.apply t).1 :: events) := by
  cases use with
  | insert object kind => exact h.insert hroom object kind
  | remove r kind =>
    cases houtcome : t.remove r kind with
    | error cause =>
      rw [apply_remove_of_error houtcome]
      exact h.refuse r kind cause
    | ok t' =>
      rw [apply_remove_of_ok houtcome]
      -- a removal that worked was one of null or of a live reference
      cases removal_iff.mpr houtcome with
      | null hnull =>
        obtain rfl := Ref.isNull_iff.mp hnull
        exact h.pass kind
      | taken _ hfound hsame =>
        obtain ⟨hlive, rfl⟩ := mem_of_find? hfound
        subst hsame
        exact h.take hlive

end Records

/-- As many references were handed out as uses asked for one. -/
theorem length_issued (uses : List RefUse) :
    (issued (used uses).1).length = uses.countP RefUse.inserts := by
  induction uses with
  | nil => rfl
  | cons use before ih =>
    rw [used_cons, List.countP_cons, ← ih]
    cases use with
    | insert object kind => rfl
    -- a removal hands nothing out, whether it works or not
    | remove r kind =>
      cases houtcome : (used before).2.remove r kind with
      | ok t' => rw [apply_remove_of_ok houtcome]; rfl
      | error cause => rw [apply_remove_of_error houtcome]; rfl

/-- **However it was used, a table goes with its history**, while there are numbers left. -/
theorem records_used {uses : List RefUse} (hfew : uses.countP RefUse.inserts < 2 ^ 64 - 1) :
    Records (used uses).2 (used uses).1 := by
  induction uses with
  | nil => exact .of_empty
  | cons use before ih =>
    rw [List.countP_cons] at hfew
    have h := ih (Nat.lt_of_le_of_lt (Nat.le_add_right ..) hfew)
    -- the counter is one ahead of the references handed out, so there is a number left
    have hroom : (used before).2.next < 2 ^ 64 := by
      rw [h.counter, length_issued]
      omega
    exact h.apply hroom use

/-! ## What a stale reference comes to -/

/-- What a table answers, told from its history. -/
structure ToldBy (t : RefTable) (events : List RefEvent) : Prop where
  /-- The number that comes next is still one word. -/
  counter : t.next < 2 ^ 64
  /-- No reference was handed out twice, and none was null. -/
  distinct : ((issued events).map (·.token)).Nodup
  nonnull : ∀ e ∈ issued events, e.token ≠ .null
  /-- A reference leads to the object that it was handed out for until it is removed, and nowhere at
  any other time. -/
  get?_iff : ∀ r object, t.get? r = some object ↔ ∃ kind, Alive ⟨r, kind, object⟩ events
  lost : ∀ r kind, .removed r kind ∈ events → t.get? r = none
  /-- Only null and what is alive and of the kind can be removed. -/
  removes_iff : ∀ r kind, (∃ t', t.remove r kind = .ok t') ↔
    r = .null ∨ ∃ object, Alive ⟨r, kind, object⟩ events
  null : ∀ kind, t.remove .null kind = .ok t
  /-- Nothing but this one reference is taken out. -/
  only : ∀ e t', Alive e events → t.remove e.token e.kind = .ok t' →
    t'.next = t.next ∧ ∀ r, t'.find? r = if r = e.token then none else t.find? r
  stale_iff : ∀ r kind, t.remove r kind = .error .stale ↔
    r ≠ .null ∧ ∀ e, Alive e events → e.token ≠ r
  wrongKind_iff : ∀ r kind actual, t.remove r kind = .error (.wrongKind actual) ↔
    actual ≠ kind ∧ ∃ object, Alive ⟨r, actual, object⟩ events
  /-- What fails is fatal to the call, and leaves the runtime as it was. -/
  fatal : ∀ rt : Runtime, rt.refs = t → ∀ r, r ≠ .null → (∀ e, Alive e events → e.token ≠ r) →
    (Answering.resolve r).run.run rt = (.error (.staleUse r), rt) ∧
      ∀ kind, (Answering.deleteRef r kind).run.run rt = (.error (.staleDelete kind r), rt)
  fatal_kind : ∀ rt : Runtime, rt.refs = t → ∀ e kind, Alive e events → e.kind ≠ kind →
    (Answering.deleteRef e.token kind).run.run rt = (.error (.wrongKind e.token kind e.kind), rt)
  count : ∀ kind, t.count kind + events.countP (RefEvent.takes kind) =
    events.countP (RefEvent.gives kind)

namespace Records

/-- A token leads to what is alive under it. -/
theorem find?_iff (h : Records t events) : t.find? r = some e ↔ Alive e events ∧ e.token = r := by
  rw [← h.alive]
  constructor
  · exact mem_of_find?
  · rintro ⟨hlive, rfl⟩
    exact h.soundNow.find?_eq hlive

/-- Null is never alive. -/
theorem not_null (h : Records t events) (halive : Alive e events) : e.token.isNull = false :=
  Ref.isNull_eq_false_iff.mpr (h.soundNow.ne_null ((h.alive e).mpr halive))

/-- A token leads nowhere exactly if nothing is alive under it. -/
theorem find?_eq_none_iff (h : Records t events) :
    t.find? r = none ↔ ∀ e, Alive e events → e.token ≠ r := by
  simp [Option.eq_none_iff_forall_ne_some, h.find?_iff]

/-- What is not alive leads nowhere. -/
theorem lost (h : Records t events) (hdead : ∀ e, Alive e events → e.token ≠ r) :
    t.get? r = none := by
  rw [get?, h.find?_eq_none_iff.mpr hdead]
  rfl

/-- It leads to the object that it was handed out for. -/
theorem get?_iff (h : Records t events) :
    t.get? r = some object ↔ ∃ kind, Alive ⟨r, kind, object⟩ events := by
  unfold get?
  rw [Option.map_eq_some_iff]
  constructor
  · rintro ⟨⟨_, kind, _⟩, hfound, rfl⟩
    obtain ⟨halive, rfl⟩ := h.find?_iff.mp hfound
    exact ⟨kind, halive⟩
  · rintro ⟨kind, halive⟩
    exact ⟨_, h.find?_iff.mpr ⟨halive, rfl⟩, rfl⟩

/-- A removal works for null, and for what is alive and of the kind. -/
theorem removes_iff (h : Records t events) :
    (∃ t', t.remove r kind = .ok t') ↔ r = .null ∨ ∃ object, Alive ⟨r, kind, object⟩ events := by
  constructor
  · rintro ⟨t', hdone⟩
    cases removal_iff.mpr hdone with
    | null hnull => exact .inl (Ref.isNull_iff.mp hnull)
    | taken _ hfound hsame =>
      obtain ⟨halive, rfl⟩ := h.find?_iff.mp hfound
      subst hsame
      exact .inr ⟨_, halive⟩
  · rintro (rfl | ⟨object, halive⟩)
    · exact ⟨t, rfl⟩
    · exact ⟨_, removal_iff.mp (.taken (h.not_null halive) (h.find?_iff.mpr ⟨halive, rfl⟩) rfl)⟩

/-- A live reference is taken out, and everything else stays. -/
theorem removes_only (h : Records t events) (halive : Alive e events)
    (hdone : t.remove e.token e.kind = .ok t') :
    t'.next = t.next ∧ ∀ r, t'.find? r = if r = e.token then none else t.find? r := by
  have hnonnull := h.not_null halive
  cases removal_iff.mpr hdone with
  | null hnull =>
    rw [hnull] at hnonnull
    cases hnonnull
  | taken => exact ⟨rfl, t.find?_erase e.token⟩

/-- A removal is stale exactly if nothing is alive under a token that is not null. -/
theorem stale_iff (h : Records t events) :
    t.remove r kind = .error .stale ↔ r ≠ .null ∧ ∀ e, Alive e events → e.token ≠ r := by
  rw [← h.find?_eq_none_iff, ← Ref.isNull_eq_false_iff]
  constructor
  · intro hfailed
    cases removal_iff.mpr hfailed with
    | stale hnonnull hlost => exact ⟨hnonnull, hlost⟩
  · exact fun ⟨hnonnull, hlost⟩ => removal_iff.mp (.stale hnonnull hlost)

theorem wrongKind_iff (h : Records t events) {actual : RefKind} :
    t.remove r kind = .error (.wrongKind actual) ↔
      actual ≠ kind ∧ ∃ object, Alive ⟨r, actual, object⟩ events := by
  constructor
  · intro hfailed
    cases removal_iff.mpr hfailed with
    | wrongKind _ hfound hdiffers =>
      obtain ⟨halive, rfl⟩ := h.find?_iff.mp hfound
      exact ⟨hdiffers, _, halive⟩
  · rintro ⟨hdiffers, object, halive⟩
    exact removal_iff.mp (.wrongKind (h.not_null halive) (h.find?_iff.mpr ⟨halive, rfl⟩) hdiffers)

theorem toldBy (h : Records t events) (hroom : t.next < 2 ^ 64) : t.ToldBy events where
  counter := hroom
  distinct := h.sound.distinct
  nonnull _ := h.sound.ne_null
  get?_iff _ _ := h.get?_iff
  lost r kind hremoved := h.lost fun e halive => (h.gone r kind hremoved).2 e ((h.alive e).mpr halive)
  removes_iff _ _ := h.removes_iff
  null := remove_null t
  only _ _ := h.removes_only
  stale_iff _ _ := h.stale_iff
  wrongKind_iff _ _ _ := h.wrongKind_iff
  -- in a runtime over this table, a dead reference is fatal whatever is asked of it
  fatal rt hsame r hnonnull hdead := by
    subst hsame
    refine ⟨Answering.run_resolve_stale (Ref.isNull_eq_false_iff.mpr hnonnull) (h.lost hdead),
      fun kind => ?_⟩
    rw [Answering.run_deleteRef, h.stale_iff.mpr ⟨hnonnull, hdead⟩]
  fatal_kind rt hsame e kind halive hdiffers := by
    subst hsame
    rw [Answering.run_deleteRef, h.wrongKind_iff.mpr ⟨hdiffers, _, halive⟩]
  count := h.count

end Records

/-! ## Calls of the runtime -/

/-- The runtime makes references and takes them back, and touches its table in no other way. -/
theorem durable_used (before : List RefUse) :
    Durable fun rt => ∃ more, rt.refs = (used (more ++ before)).2 where
  made object kind := by
    rintro ⟨more, hsame⟩
    refine ⟨.insert object kind :: more, ?_⟩
    rw [List.cons_append, used_cons, ← hsame]
    rfl
  -- giving a reference back is one more use of the table
  returned {rt r kind refs} hremoved := by
    rintro ⟨more, hsame⟩
    refine ⟨.remove r kind :: more, ?_⟩
    rw [List.cons_append, used_cons, ← hsame, apply_remove_of_ok hremoved]
  beside _ _ _ h := h
  bound _ h := h
  -- every other step leaves the table alone
  changed hchange := by
    rintro ⟨more, hsame⟩
    exact ⟨more, hchange.calm.refs.trans hsame⟩
  launched {rt} thread args := by
    rintro ⟨more, hsame⟩
    refine ⟨more, Eq.trans ?_ hsame⟩
    rcases rt.launch_cases thread args with ⟨_, _, hcalm⟩ | ⟨_, _, hrefs, _⟩
    · exact hcalm.refs
    · exact hrefs
  attached {rt} thread := by
    rintro ⟨more, hsame⟩
    exact ⟨more, (rt.calm_attach thread).refs.trans hsame⟩
  destroyed {rt} := by
    rintro ⟨more, hsame⟩
    exact ⟨more, rt.destroy_spec.1.trans hsame⟩

/-! ## All of it -/

/-- The history so far goes into every later one. -/
theorem used_suffix (later before : List RefUse) : (used before).1 <:+ (used (later ++ before)).1 := by
  induction later with
  | nil => exact List.suffix_rfl
  | cons use later ih => exact ih.trans (List.suffix_cons _ _)

/-- **Stale references are caught.** As long as fewer than `2 ^ 64 - 1` references were made, the
history of a table tells what it answers, and what is in the history stays there. Whatever calls a
runtime answers, its table goes on being used so. -/
theorem stale_always_caught (uses : List RefUse) (hfew : uses.countP RefUse.inserts < 2 ^ 64 - 1) :
    (used uses).2.ToldBy (used uses).1 ∧
      (∀ later before, uses = later ++ before → (used before).1 <:+ (used uses).1) ∧
      ∀ thread request (rt : Runtime), rt.refs = (used uses).2 → ∃ more,
        ((answer thread request).run.run rt).2.refs = (used (more ++ uses)).2 := by
  have hrecords := records_used hfew
  refine ⟨hrecords.toldBy ?_, ?_, ?_⟩
  · rw [hrecords.counter, length_issued]
    omega
  · rintro later before rfl
    exact used_suffix later before
  · exact fun thread request rt hsame => leaves_answer (durable_used uses) ⟨[], hsame⟩

/-- A reference is given back twice, then null, then another one as what it is not, and a third one is
made. -/
def givenBackTwice : List RefUse :=
  [.insert (.str "c") .localRef, .remove ⟨2⟩ .localRef, .remove .null .localRef,
    .remove ⟨1⟩ .localRef, .remove ⟨1⟩ .localRef, .insert (.str "b") .globalRef,
    .insert (.str "a") .localRef]

theorem givenBackTwice_caught :
    givenBackTwice.countP RefUse.inserts < 2 ^ 64 - 1 ∧
      (used givenBackTwice).2.ToldBy (used givenBackTwice).1 ∧
      (used givenBackTwice).1 =
        [.made ⟨⟨3⟩, .localRef, .str "c"⟩, .refused ⟨2⟩ .localRef (.wrongKind .globalRef),
          .removed .null .localRef, .refused ⟨1⟩ .localRef .stale, .removed ⟨1⟩ .localRef,
          .made ⟨⟨2⟩, .globalRef, .str "b"⟩, .made ⟨⟨1⟩, .localRef, .str "a"⟩] := by
  have hfew : givenBackTwice.countP RefUse.inserts < 2 ^ 64 - 1 := by decide
  exact ⟨hfew, (stale_always_caught givenBackTwice hfew).1, by decide⟩

end RefTable

end GridBridge.Managed
