import GridBridge.Proofs.Managed.Deeds

/-!
# Calls that stay apart

Two calls are **`Apart`** if each is about a key and they are not about the same one. Calls on different
stores, and calls on one store that are apart, can be carried out in either order: the stores hold the
same in the end (`Deed.Apart.after_comm`), and neither call sees the other one (`Deed.Apart.result_after`).
So what a list of such calls leaves does not depend on its order (**`after_perm`**), nor does what comes
back of each (**`result_afterAll`**).
-/

namespace GridBridge.Managed

open Protocol

/-! ## On the contents of one store -/

namespace CacheCall

variable {call a b : CacheCall} {contents contents' : Contents} {key : Int32}

/-- The key that a call is about. The size is about all of them. -/
def key? : CacheCall → Option Int32
  | .put key _ | .remove key => some key
  | .size => none

/-- What a call leaves under its key. -/
def leaves : CacheCall → Option Int32
  | .put _ value => some value
  | .remove _ | .size => none

/-- A call changes what is bound to its key, and nothing else. -/
theorem getElem?_apply (habout : call.key? = some key) (contents : Contents) (other : Int32) :
    (call.apply contents).1[other]? = if key = other then call.leaves else contents[other]? := by
  cases call with
  | put key' value =>
    cases habout
    simp [apply, leaves, Std.ExtTreeMap.getElem?_insert]
  | remove key' =>
    cases habout
    simp [apply, leaves, Std.ExtTreeMap.getElem?_erase]
  | size => cases habout

/-- What comes back of a call depends on what is bound to its key only. -/
theorem result_congr (habout : call.key? = some key) (hsame : contents[key]? = contents'[key]?) :
    (call.apply contents).2 = (call.apply contents').2 := by
  cases call with
  | put key' value => rfl
  | remove key' =>
    cases habout
    simp only [apply, Std.ExtTreeMap.contains_eq_isSome_getElem?, hsame]
  | size => cases habout

/-- Each call is about a key, and they are not about the same one. -/
def Apart (a b : CacheCall) : Prop :=
  ∃ key key', a.key? = some key ∧ b.key? = some key' ∧ key ≠ key'

theorem Apart.symm (hapart : a.Apart b) : b.Apart a := by
  obtain ⟨key, key', habout, habout', hne⟩ := hapart
  exact ⟨key', key, habout', habout, hne.symm⟩

theorem Apart.apply_comm (hapart : a.Apart b) (contents : Contents) :
    (b.apply (a.apply contents).1).1 = (a.apply (b.apply contents).1).1 := by
  obtain ⟨key, key', habout, habout', hne⟩ := hapart
  apply Std.ExtTreeMap.ext_getElem?
  intro other
  simp only [getElem?_apply habout, getElem?_apply habout']
  by_cases hhere : key = other
  · rw [if_pos hhere, if_neg (hhere ▸ hne.symm), if_pos hhere]
  · rw [if_neg hhere, if_neg hhere]

theorem Apart.result_apply (hapart : a.Apart b) (contents : Contents) :
    (a.apply (b.apply contents).1).2 = (a.apply contents).2 := by
  obtain ⟨key, key', habout, habout', hne⟩ := hapart
  refine result_congr habout ?_
  rw [getElem?_apply habout', if_neg hne.symm]

end CacheCall

/-! ## On the stores of a grid -/

/-- A call on a store. -/
structure Deed where
  store : StoreId
  call : CacheCall
  deriving DecidableEq, Repr

namespace Grid

variable (g : Grid) {store other : StoreId}

/-- The grid after a call on one of its stores. -/
def after (deed : Deed) : Grid :=
  g.setContents deed.store (deed.call.apply (g.contents deed.store)).1

/-- What comes back of a call on one of its stores. -/
def result (deed : Deed) : Int64 := (deed.call.apply (g.contents deed.store)).2

/-- The grid after calls, one after the other. -/
def afterAll (deeds : List Deed) : Grid := deeds.foldl after g

theorem afterAll_append (deeds deeds' : List Deed) :
    g.afterAll (deeds ++ deeds') = (g.afterAll deeds).afterAll deeds' :=
  List.foldl_append

theorem contents_setContents_ne (hne : other ≠ store) (contents : Contents) :
    (g.setContents store contents).contents other = g.contents other := by
  unfold Grid.contents setContents
  rw [Array.getD_eq_getD_getElem?, Array.getD_eq_getD_getElem?,
    Array.getElem?_setIfInBounds_ne hne.symm]

theorem setContents_comm (hne : store ≠ other) (contents contents' : Contents) :
    (g.setContents store contents).setContents other contents' =
      (g.setContents other contents').setContents store contents := by
  unfold setContents
  rw [Array.setIfInBounds_comm _ _ hne]

/-- A store that is not there stays as it is. -/
theorem setContents_outside (houtside : ¬ store < g.stores.size) (contents : Contents) :
    g.setContents store contents = g := by
  unfold setContents
  rw [Array.setIfInBounds_eq_of_size_le (Nat.le_of_not_lt houtside)]

theorem setContents_twice (contents contents' : Contents) :
    (g.setContents store contents).setContents store contents' = g.setContents store contents' := by
  unfold setContents
  rw [Array.setIfInBounds_setIfInBounds]

end Grid

namespace Deed

variable {a b : Deed} {deeds deeds' : List Deed}

/-- The calls are on different stores, or apart. -/
def Apart (a b : Deed) : Prop := a.store = b.store → a.call.Apart b.call

instance : Std.Symm Apart := ⟨fun _ _ hapart hsame => (hapart hsame.symm).symm⟩

theorem Apart.result_after (hapart : a.Apart b) (g : Grid) : (g.after b).result a = g.result a := by
  unfold Grid.result Grid.after
  by_cases hsame : a.store = b.store
  · by_cases hinside : b.store < g.stores.size
    · rw [hsame, g.contents_setContents hinside, if_pos rfl]
      exact (hapart hsame).result_apply _
    · rw [g.setContents_outside hinside]
  · rw [g.contents_setContents_ne hsame]

theorem Apart.after_comm (hapart : a.Apart b) (g : Grid) :
    (g.after a).after b = (g.after b).after a := by
  unfold Grid.after
  by_cases hsame : a.store = b.store
  · rw [hsame]
    by_cases hinside : b.store < g.stores.size
    · rw [g.contents_setContents hinside, g.contents_setContents hinside, if_pos rfl, if_pos rfl,
        g.setContents_twice, g.setContents_twice, (hapart hsame).apply_comm]
    · simp only [g.setContents_outside hinside]
  · rw [g.contents_setContents_ne (Ne.symm hsame), g.contents_setContents_ne hsame,
      g.setContents_comm hsame]

/-- **What a call comes to** does not depend on calls that are apart from it. -/
theorem result_afterAll (hapart : ∀ b ∈ deeds, a.Apart b) (g : Grid) :
    (g.afterAll deeds).result a = g.result a := by
  induction deeds generalizing g with
  | nil => rfl
  | cons b rest ih =>
    obtain ⟨hfirst, hothers⟩ := List.forall_mem_cons.mp hapart
    exact (ih hothers (g.after b)).trans (hfirst.result_after g)

/-- **What calls leave** does not depend on their order, if they are apart. -/
theorem after_perm (hapart : deeds.Pairwise Apart) (hsame : deeds.Perm deeds') (g : Grid) :
    g.afterAll deeds = g.afterAll deeds' := by
  refine hsame.foldl_eq' (fun a hmem b hmem' g => ?_) g
  by_cases hone : a = b
  · rw [hone]
  · exact (hapart.forall hmem hmem' hone).after_comm g

end Deed

end GridBridge.Managed
