import GridBridge.Managed.Execute

/-!
# Grid: a map of maps

A grid keeps the contents of caches in stores, and instances know the numbers of the stores of their
caches. **`held`** reads this as what it stands for: contents by the names of instance and cache.
**`Separate`** is the invariant that no two caches share a store. The lemmas say what each change of a
grid does to this reading: starting an instance and opening a cache do nothing to it.
-/

namespace GridBridge.Managed

/-- The names of a cache: its instance's and its own. -/
structure Address where
  instanceName : Option String
  cacheName : Option String
  deriving DecidableEq, Repr

namespace Grid

variable {g g' : Grid} {a b : Address} {store : StoreId} {name : Option String} {i : GridInstance}

/-- The store of a cache that was opened before. -/
def storeAt? (g : Grid) (a : Address) : Option StoreId := g.storeOf? a.instanceName a.cacheName

/-- What a cache holds. One that was never opened holds nothing. -/
def held (g : Grid) (a : Address) : Contents := ((g.storeAt? a).map g.contents).getD ∅

/-- Each opened cache has a store, and no other cache has the same. -/
structure Separate (g : Grid) : Prop where
  inside : ∀ a store, g.storeAt? a = some store → store < g.stores.size
  apart : ∀ a b store, g.storeAt? a = some store → g.storeAt? b = some store → a = b

/-- An empty grid has no caches. -/
theorem separate_empty : Separate {} := ⟨nofun, nofun⟩

/-- A cache holds what is in its store. -/
theorem held_of_storeAt? (h : g.storeAt? a = some store) : g.held a = g.contents store := by
  rw [held, h]
  rfl

/-! ## Starting an instance -/

/-- One more instance is running then. -/
@[simp] theorem isRunning_start (g : Grid) (name other : Option String) (path : String) :
    (g.start name path).isRunning other = (decide (other = name) || g.isRunning other) := by
  unfold isRunning instance? start
  rw [List.lookup_cons]
  by_cases hsame : other = name
  · rw [beq_iff_eq.mpr hsame, decide_eq_true hsame]
    rfl
  · rw [beq_eq_false_iff_ne.mpr hsame, decide_eq_false hsame]
    rfl

/-- An instance that was not running has no caches, before and after. -/
theorem storeAt?_start (h : g.isRunning name = false) (path : String) (a : Address) :
    (g.start name path).storeAt? a = g.storeAt? a := by
  unfold storeAt? storeOf? instance? start
  rw [List.lookup_cons]
  cases hsame : a.instanceName == name with
  | false => rfl
  | true =>
    have hnone : g.instances.lookup a.instanceName = none := by
      rw [beq_iff_eq.mp hsame]
      exact Option.isNone_iff_eq_none.mp (Option.isSome_eq_false_iff.mp h)
    rw [hnone]
    rfl

/-- A new instance brings no cache with it, so none shares a store. -/
theorem Separate.start (h : g.Separate) (hstopped : g.isRunning name = false) (path : String) :
    (g.start name path).Separate where
  inside := by
    intro a store hknown
    rw [storeAt?_start hstopped] at hknown
    exact h.inside a store hknown
  apart := by
    intro a b store hknown hknown'
    rw [storeAt?_start hstopped] at hknown hknown'
    exact h.apart a b store hknown hknown'

/-- Starting an instance does nothing to what caches hold. -/
theorem held_start (hstopped : g.isRunning name = false) (path : String) :
    (g.start name path).held = g.held := by
  funext a
  unfold held
  rw [storeAt?_start hstopped]
  rfl

/-! ## Opening a cache -/

/-- What is under a key after the value under another one was replaced. -/
theorem lookup_map_replace {β : Type} (l : List (Option String × β)) (key name : Option String)
    (value : β) :
    (l.map fun (k, other) => if k = name then (k, value) else (k, other)).lookup key =
      if key = name then (l.lookup key).map fun _ => value else l.lookup key := by
  induction l with
  | nil => simp
  | cons entry rest ih =>
    obtain ⟨k, other⟩ := entry
    rw [List.map_cons, List.lookup_cons]
    by_cases hhere : key = k
    · subst hhere
      by_cases hsame : key = name <;> simp [hsame]
    · have hne : (key == k) = false := beq_eq_false_iff_ne.mpr hhere
      -- the entry keeps its key, whether its value is replaced or not
      have hne' : (key == (if k = name then (k, value) else (k, other)).1) = false := by
        split <;> exact hne
      dsimp only
      rw [hne', ih, List.lookup_cons, hne]

/-- An instance that is running is found. -/
theorem instance?_of_isRunning (h : g.isRunning name = true) : ∃ i, g.instance? name = some i :=
  Option.isSome_iff_exists.mp h

/-- A cache that is opened is found from then on, and nothing else has changed. -/
structure Opened (g : Grid) (a : Address) (store : StoreId) (g' : Grid) : Prop where
  separate : g'.Separate
  here : g'.storeAt? a = some store
  others : ∀ b, b ≠ a → g'.storeAt? b = g.storeAt? b
  before : ∀ store', g.storeAt? a = some store' → store' = store
  running : g'.isRunning = g.isRunning
  held : g'.held = g.held

/-- A grid whose instance has one cache more, which gets a store behind all others. -/
def withCache (g : Grid) (a : Address) (i : GridInstance) : Grid where
  instances := g.instances.map fun (key, other) =>
    if key = a.instanceName then (key, { i with caches := (a.cacheName, g.stores.size) :: i.caches })
    else (key, other)
  stores := g.stores.push ∅

/-- A cache that is known is found, and another one is set up. -/
theorem openCache_eq (g : Grid) (a : Address) (i : GridInstance) :
    g.openCache a.instanceName i a.cacheName =
      match i.caches.lookup a.cacheName with
      | some store => (store, g)
      | none => (g.stores.size, g.withCache a i) := rfl

/-- The same instances are running. -/
@[simp] theorem isRunning_withCache (g : Grid) (a : Address) (i : GridInstance) :
    (g.withCache a i).isRunning = g.isRunning := by
  funext name
  unfold isRunning instance? withCache
  rw [lookup_map_replace]
  split <;> simp

/-- Opening a cache starts no instance and ends none. -/
theorem isRunning_openCache (g : Grid) (instanceName : Option String) (i : GridInstance)
    (cacheName name : Option String) :
    (g.openCache instanceName i cacheName).2.isRunning name = g.isRunning name := by
  rw [openCache_eq g ⟨instanceName, cacheName⟩]
  split
  · rfl
  · rw [isRunning_withCache]

/-- The new store is found under its address, and the others under theirs. -/
theorem storeAt?_withCache (hfound : g.instance? a.instanceName = some i) (b : Address) :
    (g.withCache a i).storeAt? b = if b = a then some g.stores.size else g.storeAt? b := by
  unfold storeAt? storeOf? instance? withCache
  rw [lookup_map_replace]
  -- only this one instance has another list of caches now
  by_cases hsame : b.instanceName = a.instanceName
  · have hknown : g.instances.lookup b.instanceName = some i := by rw [hsame]; exact hfound
    rw [if_pos hsame, hknown]
    show ((a.cacheName, g.stores.size) :: i.caches).lookup b.cacheName = _
    rw [List.lookup_cons]
    by_cases hsame' : b.cacheName = a.cacheName
    · have hboth : b = a := by
        cases a
        cases b
        simp_all
      rw [if_pos hboth, beq_iff_eq.mpr hsame']
    · rw [if_neg fun hboth => hsame' (congrArg _ hboth), beq_eq_false_iff_ne.mpr hsame']
      rfl
  · rw [if_neg hsame, if_neg fun hboth => hsame (congrArg _ hboth)]

/-- A store that was never opened is empty, so one more empty store does not show. -/
theorem contents_withCache (g : Grid) (a : Address) (i : GridInstance) :
    (g.withCache a i).contents = g.contents := by
  funext store
  unfold contents withCache
  simp only [Array.getD_eq_getD_getElem?, Array.getElem?_push]
  split
  · rename_i hlast
    rw [hlast, Array.getElem?_eq_none (Nat.le_refl _)]
    rfl
  · rfl

/-- A cache that is set up holds nothing, which is what it held before. -/
theorem held_withCache (hfound : g.instance? a.instanceName = some i) (hunknown : g.storeAt? a = none) :
    (g.withCache a i).held = g.held := by
  funext b
  unfold held
  rw [storeAt?_withCache hfound, contents_withCache]
  split
  -- the store behind all others is read as empty before it is there, and is empty then
  · rename_i hsame
    subst hsame
    rw [hunknown]
    show g.contents g.stores.size = ∅
    unfold contents
    rw [Array.getD_eq_getD_getElem?, Array.getElem?_eq_none (Nat.le_refl _)]
    rfl
  · rfl

/-- A cache that was not known is opened by setting it up. -/
theorem opened_withCache (h : g.Separate) (hfound : g.instance? a.instanceName = some i)
    (hunknown : g.storeAt? a = none) : g.Opened a g.stores.size (g.withCache a i) where
  separate := by
    have hafter := storeAt?_withCache hfound
    constructor
    · intro b store hknown
      show store < (g.stores.push ∅).size
      rw [Array.size_push]
      rw [hafter] at hknown
      split at hknown
      · cases hknown
        exact Nat.lt_succ_self _
      · exact Nat.lt_succ_of_lt (h.inside b store hknown)
    -- the new store lies behind all others, so no other address has it
    · intro b c store hknown hknown'
      rw [hafter] at hknown hknown'
      split at hknown
      · rename_i hfirst
        split at hknown'
        · rename_i hsecond
          rw [hfirst, hsecond]
        · cases hknown
          exact absurd (h.inside c _ hknown') (Nat.lt_irrefl _)
      · split at hknown'
        · cases hknown'
          exact absurd (h.inside b _ hknown) (Nat.lt_irrefl _)
        · exact h.apart b c store hknown hknown'
  here := by rw [storeAt?_withCache hfound, if_pos rfl]
  others := by
    intro b hother
    rw [storeAt?_withCache hfound, if_neg hother]
  before := by
    intro store hknown
    rw [hunknown] at hknown
    cases hknown
  running := isRunning_withCache g a i
  held := held_withCache hfound hunknown

/-- The caches of an instance are looked up in its list. -/
theorem storeAt?_of_instance? (hfound : g.instance? a.instanceName = some i) :
    g.storeAt? a = i.caches.lookup a.cacheName := by
  unfold storeAt? storeOf?
  rw [hfound]
  rfl

/-- Whichever way it is opened, the cache is found from then on. -/
theorem opened_of_openCache (h : g.Separate) (hfound : g.instance? a.instanceName = some i)
    (hopened : g.openCache a.instanceName i a.cacheName = (store, g')) : g.Opened a store g' := by
  rw [openCache_eq, ← storeAt?_of_instance? hfound] at hopened
  cases hknown : g.storeAt? a with
  | none =>
    rw [hknown] at hopened
    cases hopened
    exact opened_withCache h hfound hknown
  -- a cache that is known is given out, and the grid stays
  | some store' =>
    rw [hknown] at hopened
    cases hopened
    exact ⟨h, hknown, fun _ _ => rfl, fun store' hknown' => Option.some.inj (hknown'.symm.trans hknown),
      rfl, rfl⟩

/-! ## Changing contents -/

/-- An operation on a store leaves instances and their caches alone. -/
theorem instances_execute {op : Protocol.Opcode} {request : List UInt8} {result : Int64}
    (hdone : g.execute op store request = .ok (g', result)) : g'.instances = g.instances := by
  unfold execute at hdone
  cases happlied : applyOp op (g.contents store) request with
  | error stop =>
    rw [happlied] at hdone
    cases hdone
  | ok after =>
    rw [happlied] at hdone
    cases hdone
    rfl

/-- Nor does one start an instance or end one. -/
theorem isRunning_execute {op : Protocol.Opcode} {request : List UInt8} {result : Int64}
    (hdone : g.execute op store request = .ok (g', result)) (name : Option String) :
    g'.isRunning name = g.isRunning name := by
  unfold isRunning instance?
  rw [instances_execute hdone]

/-- One store is written, and the others stay. -/
theorem contents_setContents (g : Grid) (hinside : store < g.stores.size) (contents : Contents)
    (other : StoreId) :
    (g.setContents store contents).contents other =
      if other = store then contents else g.contents other := by
  unfold Grid.contents setContents
  rw [Array.getD_eq_getD_getElem?, Array.getD_eq_getD_getElem?, Array.getElem?_setIfInBounds]
  by_cases hsame : other = store
  · rw [if_pos hsame, if_pos hsame.symm, if_pos hinside]
    rfl
  · rw [if_neg hsame, if_neg fun hsame' => hsame hsame'.symm]

/-- No store is added by it, and none moves. -/
theorem Separate.setContents (h : g.Separate) (store : StoreId) (contents : Contents) :
    (g.setContents store contents).Separate where
  inside := by
    intro a store' hknown
    show store' < (g.stores.setIfInBounds store contents).size
    rw [Array.size_setIfInBounds]
    exact h.inside a store' hknown
  apart := h.apart

/-- Changing what one cache holds leaves all others as they are. -/
theorem held_setContents (h : g.Separate) (hknown : g.storeAt? a = some store) (contents : Contents)
    (b : Address) :
    (g.setContents store contents).held b = if b = a then contents else g.held b := by
  have hsame : (g.setContents store contents).storeAt? b = g.storeAt? b := rfl
  unfold held
  rw [hsame]
  split
  · rename_i hhere
    rw [hhere, hknown]
    show (g.setContents store contents).contents store = contents
    rw [contents_setContents g (h.inside a store hknown), if_pos rfl]
  · rename_i helsewhere
    cases hother : g.storeAt? b with
    | none => rfl
    | some store' =>
      show (g.setContents store contents).contents store' = g.contents store'
      rw [contents_setContents g (h.inside a store hknown), if_neg]
      -- two addresses with one store would be one address
      intro hclash
      rw [hclash] at hother
      exact helsewhere (h.apart b a store hother hknown)

/-! ## Growth that does not show -/

/-- No cache or content was lost or changed, and what has come in addition holds nothing. -/
structure Unseen (g g' : Grid) : Prop where
  contents : g'.contents = g.contents
  known : ∀ a store, g.storeAt? a = some store → g'.storeAt? a = some store
  held : g'.held = g.held

/-- A grid that stays. -/
theorem Unseen.refl (g : Grid) : g.Unseen g := ⟨rfl, fun _ _ hknown => hknown, rfl⟩

/-- An instance that is started has no caches. -/
theorem unseen_start (hstopped : g.isRunning name = false) (path : String) :
    g.Unseen (g.start name path) where
  contents := rfl
  known a _ hknown := (storeAt?_start hstopped path a).trans hknown
  held := held_start hstopped path

/-- A cache that is opened is empty, or was there before. -/
theorem unseen_openCache {instanceName : Option String} (hfound : g.instance? instanceName = some i)
    (cacheName : Option String) : g.Unseen (g.openCache instanceName i cacheName).2 := by
  have hfound : g.instance? (⟨instanceName, cacheName⟩ : Address).instanceName = some i := hfound
  rw [openCache_eq g ⟨instanceName, cacheName⟩, ← storeAt?_of_instance? hfound]
  cases hunknown : g.storeAt? ⟨instanceName, cacheName⟩ with
  | some _ => exact .refl g
  | none =>
    refine ⟨contents_withCache .., fun b store hknown => ?_, held_withCache hfound hunknown⟩
    rw [storeAt?_withCache hfound, if_neg, hknown]
    rintro rfl
    rw [hunknown] at hknown
    cases hknown

end Grid

end GridBridge.Managed
