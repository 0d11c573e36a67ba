import GridBridge.Proofs.Refinement.Plain

/-!
# Data that matches the plain machine

What the loopback runtime holds stands for what the plain machine has: **`Matches`** says so of a grid,
tasks and the objects behind durable references. One lemma for each change of the plain machine gives
the change of the runtime that answers to it. Sessions and scripts do not occur here.
-/

namespace GridBridge.Refinement

open Protocol Seam Bridge Managed Relay Session

/-! ## Lists that match -/

section Lists

variable {α β : Type} {R : α → β → Prop} {l : List α} {l' : List β}

/-- In each place there is something in both lists, or in neither. -/
theorem getElem?_cases (h : List.Forall₂ R l l') (index : Nat) :
    (l[index]? = none ∧ l'[index]? = none) ∨
      ∃ a b, l[index]? = some a ∧ l'[index]? = some b ∧ R a b := by
  induction h generalizing index with
  | nil => exact .inl ⟨rfl, rfl⟩
  | cons hfirst _ ih =>
    cases index with
    | zero => exact .inr ⟨_, _, rfl, rfl, hfirst⟩
    | succ index => simpa using ih index

theorem forall₂_eraseIdx (h : List.Forall₂ R l l') (index : Nat) :
    List.Forall₂ R (l.eraseIdx index) (l'.eraseIdx index) := by
  rw [List.eraseIdx_eq_take_drop_succ, List.eraseIdx_eq_take_drop_succ]
  exact List.rel_append (List.forall₂_take _ h) (List.forall₂_drop _ h)

end Lists

/-! ## Calls -/

/-- The call that an update is issued as. -/
def Update.call : Update → CacheCall
  | .put key value => .put key value
  | .remove key => .remove key

theorem Update.supports_call (u : Update) : u.call.op.supports .inOutAsync = true := by
  cases u <;> rfl

/-- The call does to contents what the update says, and gives its result. -/
theorem Update.apply_call (u : Update) (contents : Contents) :
    u.call.apply contents = (u.apply contents, (u.result contents).toInt64) := by
  cases u with
  | put key value => rfl
  | remove key =>
    show (contents.erase key, if contents.contains key = true then 1 else 0) =
      (contents.erase key, UInt64.toInt64 (if contents.contains key = true then 1 else 0))
    split <;> rfl

/-- There are no more keys than numbers that a key can be. -/
theorem size_le (contents : Contents) : contents.size ≤ 2 ^ 32 := by
  rw [← Std.ExtTreeMap.length_keys]
  have hdistinct : (contents.keys.map fun key => key.toBitVec.toFin).Nodup := by
    refine Std.ExtTreeMap.nodup_keys.map ?_
    intro a b hsame
    exact Int32.toBitVec_inj.mp (BitVec.toFin_inj.mp hsame)
  simpa using hdistinct.length_le_card

/-- The count of bound keys comes through as it is. -/
theorem toNat_size (contents : Contents) :
    (Int64.ofNat contents.size).toUInt64.toNat = contents.size := by
  have hsmall := size_le contents
  rw [Int64.toUInt64_ofNat', UInt64.toNat_ofNat', Nat.mod_eq_of_lt (by omega)]

/-! ## Handles -/

/-- Open handles, newest first. -/
structure Handles where
  instances : List Instance := []
  caches : List Cache := []

variable {kept kept' : Multiset Ref} {owned owned' : List (Ref × Object)} {grid grid' : Grid}
  {tasks : List Managed.Task} {handles : Handles} {p : Plain}

/-- The handle of a running instance. -/
structure InstanceAt (kept : Multiset Ref) (owned : List (Ref × Object)) (grid : Grid) (i : Instance)
    (name : Option String) : Prop where
  kept : i.handle.target ∈ kept
  owned : (i.handle.target, .processor name) ∈ owned
  running : grid.isRunning name = true

/-- The handle of a cache that was opened. -/
structure CacheAt (kept : Multiset Ref) (owned : List (Ref × Object)) (grid : Grid) (c : Cache)
    (a : Address) : Prop where
  cls : c.handle.cls = .cache
  kept : c.handle.target ∈ kept
  store : ∃ store, (c.handle.target, .cache store) ∈ owned ∧ grid.storeAt? a = some store

/-- The task of an update that was issued. -/
def TaskOf (grid : Grid) (task : Managed.Task) (q : Queued) : Prop :=
  ∃ store, grid.storeAt? q.address = some store ∧
    task = q.update.call.task store (.callback .relay) (.ofNat64 q.id)

/-! ## Matching -/

structure Matches (kept : Multiset Ref) (grid : Grid) (tasks : List Managed.Task)
    (owned : List (Ref × Object)) (handles : Handles) (p : Plain) : Prop where
  separate : grid.Separate
  running : grid.isRunning = p.running
  /-- Only names that get through can be running. -/
  passes : ∀ name, p.running name = true → Passes name
  held : grid.held = p.contents
  instances : List.Forall₂ (InstanceAt kept owned grid) handles.instances p.instances
  caches : List.Forall₂ (CacheAt kept owned grid) handles.caches p.caches
  queue : List.Forall₂ (TaskOf grid) tasks p.queue

/-- The other grid has all instances and caches of this one, each cache with its store. -/
structure Extends (grid grid' : Grid) : Prop where
  running : ∀ name, grid.isRunning name = true → grid'.isRunning name = true
  stores : ∀ a store, grid.storeAt? a = some store → grid'.storeAt? a = some store

theorem Extends.refl (grid : Grid) : Extends grid grid := ⟨fun _ => id, fun _ _ => id⟩

namespace Matches

/-- Handles and tasks still mean the same when there is more. -/
theorem widen (h : Matches kept grid tasks owned handles p) (hmore : Extends grid grid')
    (hkept : kept ⊆ kept') (howned : owned ⊆ owned') :
    List.Forall₂ (InstanceAt kept' owned' grid') handles.instances p.instances ∧
      List.Forall₂ (CacheAt kept' owned' grid') handles.caches p.caches ∧
      List.Forall₂ (TaskOf grid') tasks p.queue := by
  refine ⟨h.instances.imp ?_, h.caches.imp ?_, h.queue.imp ?_⟩
  · intro i name hplace
    exact ⟨hkept hplace.kept, howned hplace.owned, hmore.running name hplace.running⟩
  · intro c a hplace
    obtain ⟨store, hmem, hknown⟩ := hplace.store
    exact ⟨hplace.cls, hkept hplace.kept, store, howned hmem, hmore.stores a store hknown⟩
  · intro task q ⟨store, hknown, hsame⟩
    exact ⟨store, hmore.stores _ store hknown, hsame⟩

/-- An instance is started under a name that was not running. -/
theorem started (h : Matches kept grid tasks owned handles p) {name : Option String}
    (hpasses : Passes name) (hstopped : grid.isRunning name = false) (path : String) {i : Instance} :
    Matches (i.handle.target ::ₘ kept) (grid.start name path) tasks
      ((i.handle.target, .processor name) :: owned)
      { handles with instances := i :: handles.instances }
      { p with
        running := fun other => decide (other = name) || p.running other
        instances := name :: p.instances } := by
  -- a new instance hides no store of another one, so every older cache still finds its own
  have hmore : Extends grid (grid.start name path) := by
    refine ⟨fun other hrunning => ?_, fun a store hknown => ?_⟩
    · rw [Grid.isRunning_start, hrunning, Bool.or_true]
    · rw [Grid.storeAt?_start hstopped]
      exact hknown
  obtain ⟨hinstances, hcaches, hqueue⟩ :=
    h.widen hmore (Multiset.subset_cons kept i.handle.target) (List.subset_cons_self _ owned)
  have hhere : InstanceAt (i.handle.target ::ₘ kept) ((i.handle.target, .processor name) :: owned)
      (grid.start name path) i name :=
    ⟨Multiset.mem_cons_self .., List.mem_cons_self .., by simp⟩
  refine ⟨h.separate.start hstopped path, ?_, ?_, ?_, .cons hhere hinstances, hcaches, hqueue⟩
  · funext other
    rw [Grid.isRunning_start, h.running]
  · intro other hrunning
    obtain hsame | hbefore := Bool.or_eq_true_iff.mp hrunning
    · rw [of_decide_eq_true hsame]
      exact hpasses
    · exact h.passes other hbefore
  · rw [Grid.held_start hstopped, h.held]

/-- A running instance is found. -/
theorem found (h : Matches kept grid tasks owned handles p) {name : Option String}
    (hrunning : grid.isRunning name = true) {i : Instance} :
    Matches (i.handle.target ::ₘ kept) grid tasks ((i.handle.target, .processor name) :: owned)
      { handles with instances := i :: handles.instances }
      { p with instances := name :: p.instances } := by
  obtain ⟨hinstances, hcaches, hqueue⟩ := h.widen (.refl grid)
    (Multiset.subset_cons kept i.handle.target) (List.subset_cons_self _ owned)
  have hhere : InstanceAt (i.handle.target ::ₘ kept) ((i.handle.target, .processor name) :: owned)
      grid i name := ⟨Multiset.mem_cons_self .., List.mem_cons_self .., hrunning⟩
  exact ⟨h.separate, h.running, h.passes, h.held, .cons hhere hinstances, hcaches, hqueue⟩

/-- A cache is looked up, opened empty where it was not open yet. -/
theorem opened (h : Matches kept grid tasks owned handles p) {a : Address} {store : StoreId}
    (hopened : grid.Opened a store grid') {c : Cache} (hcls : c.handle.cls = .cache) :
    Matches (c.handle.target ::ₘ kept) grid' tasks ((c.handle.target, .cache store) :: owned)
      { handles with caches := c :: handles.caches } { p with caches := a :: p.caches } := by
  -- the address may be new, but a store that was there is not replaced
  have hmore : Extends grid grid' := by
    refine ⟨fun name hrunning => ?_, fun b store' hknown => ?_⟩
    · rw [hopened.running]
      exact hrunning
    · by_cases hsame : b = a
      · subst hsame
        rw [hopened.before store' hknown]
        exact hopened.here
      · rw [hopened.others b hsame]
        exact hknown
  obtain ⟨hinstances, hcaches, hqueue⟩ :=
    h.widen hmore (Multiset.subset_cons kept c.handle.target) (List.subset_cons_self _ owned)
  have hhere : CacheAt (c.handle.target ::ₘ kept) ((c.handle.target, .cache store) :: owned) grid'
    c a :=
    ⟨hcls, Multiset.mem_cons_self .., store, List.mem_cons_self .., hopened.here⟩
  refine ⟨hopened.separate, ?_, h.passes, ?_, hinstances, .cons hhere hcaches, hqueue⟩
  · rw [hopened.running, h.running]
  · rw [hopened.held, h.held]

/-- The contents of one cache change. -/
theorem written (h : Matches kept grid tasks owned handles p) {a : Address} {store : StoreId}
    (hknown : grid.storeAt? a = some store) (contents : Contents) :
    Matches kept (grid.setContents store contents) tasks owned handles (p.write a contents) := by
  have hmore : Extends grid (grid.setContents store contents) := ⟨fun _ => id, fun _ _ => id⟩
  obtain ⟨hinstances, hcaches, hqueue⟩ := h.widen hmore (Multiset.Subset.refl _) (List.Subset.refl _)
  refine ⟨h.separate.setContents store contents, h.running, h.passes, ?_, hinstances, hcaches, hqueue⟩
  funext b
  rw [Grid.held_setContents h.separate hknown, h.held]
  rfl

/-- An update is issued. -/
theorem issued (h : Matches kept grid tasks owned handles p) {address : Address} {store : StoreId}
    (hknown : grid.storeAt? address = some store) (update : Update) (id next : CallId) :
    Matches kept grid (tasks ++ [update.call.task store (.callback .relay) (.ofNat64 id)]) owned
      handles { p with queue := p.queue ++ [{ address, update, id }], next } :=
  { h with queue := List.rel_append h.queue (.cons ⟨store, hknown, rfl⟩ .nil) }

/-- An issued update is taken off the queue. -/
theorem taken (h : Matches kept grid tasks owned handles p) (index : Nat) :
    Matches kept grid (tasks.eraseIdx index) owned handles
      { p with queue := p.queue.eraseIdx index } :=
  { h with queue := forall₂_eraseIdx h.queue index }

end Matches

end GridBridge.Refinement
