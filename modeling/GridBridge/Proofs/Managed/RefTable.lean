import GridBridge.Managed.RefTable
import Mathlib.Algebra.Order.Group.Multiset

/-!
# Reference table: tokens are fresh and each is given back once

While fewer than `2 ^ 64` numbers were used, every token that is handed out is new and not null
(**`RefTable.Sound`**). A table is read through **`RefTable.tokens`**, the live tokens of a kind, and
each operation of the table is one change of that multiset; how giving a token back can end is listed
by **`RefTable.Removal`**. Over time (**`RefTable.Since`**) a token keeps to the object that it was
handed out for (`Marks.since`), and a table that has come back to the tokens it had has come back to the
references it had (`Since.live_eq`).
-/

namespace GridBridge.Managed

open Protocol

namespace RefTable

variable {t t' : RefTable} {r : Ref} {kind other : RefKind} {object : Object}

/-- The live tokens of a kind. -/
def tokens (t : RefTable) (kind : RefKind) : Multiset Ref :=
  ((t.live.filter (·.kind = kind)).map (·.token) : List Ref)

/-- The tokens of a kind are those of its live references. -/
theorem mem_tokens : r ∈ t.tokens kind ↔ ∃ e ∈ t.live, e.kind = kind ∧ e.token = r := by
  simp [tokens, and_assoc]

/-- A table counts as many of a kind as there are tokens. -/
theorem count_eq_card (t : RefTable) (kind : RefKind) : t.count kind = (t.tokens kind).card := by
  simp [count, tokens, List.countP_eq_length_filter]

/-- What is found is live, and under this token. -/
theorem mem_of_find? {e : LiveRef} (h : t.find? r = some e) : e ∈ t.live ∧ e.token = r :=
  ⟨List.mem_of_find?_eq_some h, by simpa using List.find?_some h⟩

/-- Taking one reference out is not seen through any other. -/
theorem find?_erase (t : RefTable) (r other : Ref) :
    find? { t with live := t.live.filter (·.token != r) } other =
      if other = r then none else t.find? other := by
  show (t.live.filter (·.token != r)).find? (·.token == other) = _
  rw [List.find?_filter]
  split
  · rename_i hsame
    simp [hsame]
  · rename_i hdiffers
    refine congrArg (t.live.find? ·) (funext fun e => ?_)
    by_cases hhere : e.token = other
    · simp [hhere, hdiffers]
    · simp [hhere]

/-- Numbers have not come round, and every live token was handed out before. -/
structure Sound (t : RefTable) : Prop where
  positive : 0 < t.next
  bounded : t.next ≤ 2 ^ 64
  below : ∀ e ∈ t.live, 0 < e.token.bits.toNat ∧ e.token.bits.toNat < t.next
  distinct : (t.live.map (·.token)).Nodup

/-- While there is room the token that comes next is the counter itself. -/
theorem toNat_token (hroom : t.next < 2 ^ 64) : t.token.bits.toNat = t.next := by
  rw [token, UInt64.toNat_ofNat', Nat.mod_eq_of_lt hroom]

namespace Sound

/-- The next token is not null. -/
theorem token_not_null (h : Sound t) (hroom : t.next < 2 ^ 64) : t.token.isNull = false := by
  rw [Ref.isNull_eq_false_iff]
  intro hnull
  have hnat := toNat_token hroom
  have hpos := h.positive
  rw [hnull, show Ref.null.bits.toNat = 0 from rfl] at hnat
  omega

/-- A live token is not null. -/
theorem ne_null (h : Sound t) {e : LiveRef} (he : e ∈ t.live) : e.token ≠ .null := by
  have hpos := (h.below e he).1
  intro hnull
  rw [hnull] at hpos
  exact absurd hpos (by decide)

/-- No live token of any kind is null. -/
theorem not_null (h : Sound t) (hr : r ∈ t.tokens kind) : r.isNull = false := by
  obtain ⟨e, he, _, rfl⟩ := mem_tokens.mp hr
  exact Ref.isNull_eq_false_iff.mpr (h.ne_null he)

/-- The next token is not live. -/
theorem token_fresh (h : Sound t) (hroom : t.next < 2 ^ 64) : ∀ e ∈ t.live, e.token ≠ t.token := by
  intro e he heq
  have hlt := (h.below e he).2
  rw [heq, toNat_token hroom] at hlt
  exact Nat.lt_irrefl _ hlt

/-- A new reference keeps a table sound. -/
theorem insert (h : Sound t) (hroom : t.next < 2 ^ 64) (object : Object) (kind : RefKind) :
    Sound (t.insert object kind).2 where
  positive := Nat.succ_pos _
  bounded := hroom
  below := by
    intro e he
    rcases List.mem_cons.mp he with rfl | he
    · show 0 < t.token.bits.toNat ∧ t.token.bits.toNat < t.next + 1
      rw [toNat_token hroom]
      exact ⟨h.positive, Nat.lt_succ_self _⟩
    · obtain ⟨hpos, hlt⟩ := h.below e he
      exact ⟨hpos, Nat.lt_succ_of_lt hlt⟩
  distinct := by
    refine List.nodup_cons.mpr ⟨?_, h.distinct⟩
    intro hmem
    obtain ⟨e, he, heq⟩ := List.mem_map.mp hmem
    exact h.token_fresh hroom e he heq

/-- A live token leads to one entry. -/
theorem find?_eq (h : Sound t) {e : LiveRef} (he : e ∈ t.live) : t.find? e.token = some e := by
  have hfound : (t.find? e.token).isSome := List.find?_isSome.mpr ⟨e, he, by simp⟩
  obtain ⟨e', hfind⟩ := Option.isSome_iff_exists.mp hfound
  obtain ⟨he', htoken⟩ := mem_of_find? hfind
  have hsame := List.inj_on_of_nodup_map h.distinct he' he htoken
  rw [hfind, hsame]

/-- A live token leads to its object. -/
theorem get?_eq (h : Sound t) {e : LiveRef} (he : e ∈ t.live) :
    t.get? e.token = some e.object := by
  rw [get?, h.find?_eq he]
  rfl

/-- Some of the live references. -/
theorem fewer (h : Sound t) {live : List LiveRef} (hfewer : live.Sublist t.live) :
    Sound { t with live } where
  positive := h.positive
  bounded := h.bounded
  below e he := h.below e (hfewer.subset he)
  distinct := h.distinct.sublist (hfewer.map _)

/-- The table after a live reference was given back. -/
theorem erase (h : Sound t) (r : Ref) : Sound { t with live := t.live.filter (·.token != r) } :=
  h.fewer List.filter_sublist

/-- Numbers that were used up since. -/
theorem later (h : Sound t) {used : Nat} (hroom : t.next + used ≤ 2 ^ 64) :
    Sound { t with next := t.next + used } where
  positive := Nat.lt_of_lt_of_le h.positive (Nat.le_add_right ..)
  bounded := hroom
  below e he := ⟨(h.below e he).1, Nat.lt_of_lt_of_le (h.below e he).2 (Nat.le_add_right ..)⟩
  distinct := h.distinct

end Sound

/-! ## Changes of the live tokens -/

/-- A new reference adds its token to those of its kind. -/
theorem tokens_insert (t : RefTable) (object : Object) (kind other : RefKind) :
    (t.insert object kind).2.tokens other =
      t.tokens other + if kind = other then {t.token} else 0 := by
  show (((⟨t.token, kind, object⟩ :: t.live : List LiveRef).filter (·.kind = other)).map
    (·.token) : List Ref) = t.tokens other + _
  by_cases hkind : kind = other
  · rw [List.filter_cons_of_pos (by simpa using hkind), if_pos hkind, add_comm]
    rfl
  · rw [List.filter_cons_of_neg (by simpa using hkind), if_neg hkind, add_zero]
    rfl

/-- To remove null does nothing. -/
theorem remove_null (t : RefTable) (kind : RefKind) : t.remove .null kind = .ok t := rfl

/-- How it can end that a reference is given back. -/
inductive Removal (t : RefTable) (r : Ref) (kind : RefKind) : Except DeleteFault RefTable → Prop where
  | null (hnull : r.isNull = true) : Removal t r kind (.ok t)
  | taken {e : LiveRef} (hnonnull : r.isNull = false) (hfound : t.find? r = some e)
      (hsame : e.kind = kind) :
      Removal t r kind (.ok { t with live := t.live.filter (·.token != r) })
  | stale (hnonnull : r.isNull = false) (hlost : t.find? r = none) : Removal t r kind (.error .stale)
  | wrongKind {e : LiveRef} (hnonnull : r.isNull = false) (hfound : t.find? r = some e)
      (hdiffers : e.kind ≠ kind) : Removal t r kind (.error (.wrongKind e.kind))

/-- There are just these four ways for it to end. -/
theorem removal_iff {outcome : Except DeleteFault RefTable} :
    t.Removal r kind outcome ↔ t.remove r kind = outcome := by
  unfold remove
  constructor
  · intro hremoval
    cases hremoval with
    | null hnull => rw [if_pos hnull]
    | taken hnonnull hfound hsame => simp [hnonnull, hfound, hsame]
    | stale hnonnull hlost => simp [hnonnull, hlost]
    | wrongKind hnonnull hfound hdiffers => simp [hnonnull, hfound, hdiffers]
  · rintro rfl
    -- the other way round the ways are told apart as the program does: null, lost, of another kind
    cases hnull : r.isNull with
    | true => exact .null hnull
    | false =>
      simp only [Bool.false_eq_true, if_false]
      cases hfound : t.find? r with
      | none => exact .stale hnull hfound
      | some e =>
        by_cases hsame : e.kind = kind
        · simp only [hsame, if_true]
          exact .taken hnull hfound hsame
        · simp only [hsame, if_false]
          exact .wrongKind hnull hfound hsame

/-- Nothing that is given back brings a number back. -/
theorem next_remove (h : t.remove r kind = .ok t') : t'.next = t.next := by
  cases removal_iff.mpr h <;> rfl

/-- A live reference can be given back as what it is. -/
theorem remove_eq (h : Sound t) (hr : r ∈ t.tokens kind) :
    t.remove r kind = .ok { t with live := t.live.filter (·.token != r) } := by
  obtain ⟨e, he, hkind, rfl⟩ := mem_tokens.mp hr
  exact removal_iff.mp (.taken (h.not_null hr) (h.find?_eq he) hkind)

/-- Giving a reference back takes its token out, and no other. -/
theorem tokens_remove (h : Sound t) (hr : r ∈ t.tokens kind) (other : RefKind) :
    ({ t with live := t.live.filter (·.token != r) } : RefTable).tokens other =
      t.tokens other - if kind = other then {r} else 0 := by
  obtain ⟨e, he, hkind, rfl⟩ := mem_tokens.mp hr
  have hnodup : ∀ k, (t.tokens k).Nodup := fun k =>
    Multiset.coe_nodup.mpr (h.distinct.sublist (List.filter_sublist.map _))
  by_cases hsame : kind = other
  · subst hsame
    rw [if_pos rfl, Multiset.sub_singleton]
    -- neither side has a token twice, so they are compared by their members
    refine (Multiset.Nodup.ext ?_ ((hnodup kind).erase _)).mpr fun r => ?_
    · exact Multiset.coe_nodup.mpr ((h.erase e.token).distinct.sublist (List.filter_sublist.map _))
    -- no token is there twice, so to take one copy out is to take it out
    · rw [(hnodup kind).mem_erase_iff, mem_tokens, mem_tokens]
      constructor
      · rintro ⟨e', he', hk, rfl⟩
        obtain ⟨hmem, hne⟩ := List.mem_filter.mp he'
        exact ⟨by simpa using hne, e', hmem, hk, rfl⟩
      · rintro ⟨hne, e', he', hk, rfl⟩
        exact ⟨e', List.mem_filter.mpr ⟨he', by simpa using hne⟩, hk, rfl⟩
  · rw [if_neg hsame, tsub_zero]
    -- the one entry that is taken out is of the other kind
    have hfilter : (t.live.filter (·.token != e.token)).filter (·.kind = other) =
        t.live.filter (·.kind = other) := by
      rw [List.filter_filter]
      refine List.filter_congr fun e' he' => ?_
      by_cases hk : e'.kind = other
      · have hne : e'.token ≠ e.token := by
          intro heq
          have hsame' := List.inj_on_of_nodup_map h.distinct he' he heq
          rw [hsame', hkind] at hk
          exact hsame hk
        simp [hk, hne]
      · simp [hk]
    rw [tokens, hfilter]
    rfl

/-- With other references before and behind it, a reference is taken out of its place. -/
theorem Sound.remove_between {front back : List LiveRef} {e : LiveRef} (h : Sound t)
    (hlive : t.live = front ++ e :: back) :
    t.remove e.token e.kind = .ok { t with live := front ++ back } := by
  have hmem : e ∈ t.live := by simp [hlive]
  rw [remove_eq h (mem_tokens.mpr ⟨e, hmem, rfl, rfl⟩)]
  have hdistinct := h.distinct
  rw [hlive, List.map_append, List.map_cons, List.nodup_middle, List.nodup_cons] at hdistinct
  -- the others have other tokens, so the filter spares them
  have hothers : ∀ e' ∈ front ++ back, (e'.token != e.token) = true := by
    intro e' hmem'
    rw [bne_iff_ne]
    intro hsame
    rw [← List.map_append] at hdistinct
    exact hdistinct.1 (hsame ▸ List.mem_map_of_mem hmem')
  have hkept : t.live.filter (·.token != e.token) = front ++ back := by
    rw [hlive, List.filter_append, List.filter_cons_of_neg (by simp), ← List.filter_append]
    exact List.filter_eq_self.mpr hothers
  rw [hkept]

/-! ## How many are live -/

/-- A new reference is one more of its kind. -/
theorem count_insert (t : RefTable) (object : Object) (made kind : RefKind) :
    (t.insert object made).2.count kind = t.count kind + if made = kind then 1 else 0 := by
  rw [count_eq_card, count_eq_card, tokens_insert, Multiset.card_add]
  split <;> rfl

/-- A live reference that is given back is one less of its kind. -/
theorem count_erase (h : Sound t) {e : LiveRef} (hlive : e ∈ t.live) (kind : RefKind) :
    count { t with live := t.live.filter (·.token != e.token) } kind +
      (if e.kind = kind then 1 else 0) = t.count kind := by
  have hmem : e.token ∈ t.tokens e.kind := mem_tokens.mpr ⟨e, hlive, rfl, rfl⟩
  rw [count_eq_card, count_eq_card, tokens_remove h hmem]
  by_cases hsame : e.kind = kind
  · subst hsame
    rw [if_pos rfl, if_pos rfl, Multiset.sub_singleton, Multiset.card_erase_add_one hmem]
  · rw [if_neg hsame, if_neg hsame, tsub_zero, add_zero]

/-! ## Tables over time -/

variable {t'' : RefTable} {found : Option Object}

/-- The other table comes from this one by making references and giving references back. -/
inductive Since (t : RefTable) : RefTable → Prop where
  | refl : Since t t
  | made {t' : RefTable} (hbefore : Since t t') (hroom : t'.next < 2 ^ 64) (object : Object)
      (kind : RefKind) : Since t (t'.insert object kind).2
  | returned {t' : RefTable} (hbefore : Since t t') (r : Ref) :
      Since t { t' with live := t'.live.filter (·.token != r) }

namespace Since

/-- One stretch of time after another. -/
theorem trans (h : t.Since t') (h' : t'.Since t'') : t.Since t'' := by
  induction h' with
  | refl => exact h
  | made _ hroom object kind ih => exact ih.made hroom object kind
  | returned _ r ih => exact ih.returned r

/-- Numbers only grow. -/
theorem next_le (h : t.Since t') : t.next ≤ t'.next := by
  induction h with
  | refl => exact Nat.le_refl _
  | made _ _ _ _ ih => exact Nat.le_succ_of_le ih
  | returned _ _ ih => exact ih

/-- A table stays sound over time. -/
theorem sound (h : t.Since t') (hsound : t.Sound) : t'.Sound := by
  induction h with
  | refl => exact hsound
  | made _ hroom object kind ih => exact ih.insert hroom object kind
  | returned _ r ih => exact ih.erase r

/-- What is live now was made since, with a number of its own, or it was live then. -/
theorem split (h : t.Since t') : ∃ newer older, t'.live = newer ++ older ∧ older.Sublist t.live ∧
    ∀ e ∈ newer, t.next ≤ e.token.bits.toNat := by
  induction h with
  | refl => exact ⟨[], t.live, rfl, List.Sublist.refl _, List.forall_mem_nil _⟩
  | made hbefore hroom object kind ih =>
    obtain ⟨newer, older, hlive, hfewer, hlater⟩ := ih
    refine ⟨_ :: newer, older, congrArg (List.cons _) hlive, hfewer, ?_⟩
    refine List.forall_mem_cons.mpr ⟨?_, hlater⟩
    show _ ≤ (token _).bits.toNat
    rw [toNat_token hroom]
    exact hbefore.next_le
  | returned _ r ih =>
    obtain ⟨newer, older, hlive, hfewer, hlater⟩ := ih
    refine ⟨newer.filter (·.token != r), older.filter (·.token != r), ?_,
      List.filter_sublist.trans hfewer, fun e hmem => hlater e (List.mem_of_mem_filter hmem)⟩
    show List.filter _ _ = _
    rw [hlive, List.filter_append]

/-- A table with the same live tokens as before has the same references, down to their order. -/
theorem live_eq (h : t.Since t') (hsound : t.Sound) (hsame : ∀ kind, t'.tokens kind = t.tokens kind) :
    t'.live = t.live := by
  obtain ⟨newer, older, hlive, hfewer, hlater⟩ := h.split
  -- a token that was made since is none of those from before
  have hnone : newer = [] := by
    apply List.eq_nil_iff_forall_not_mem.mpr
    intro e hmem
    have hnow : e.token ∈ t'.tokens e.kind := mem_tokens.mpr ⟨e, by rw [hlive]; simp [hmem], rfl, rfl⟩
    rw [hsame] at hnow
    obtain ⟨e', hbefore, _, htoken⟩ := mem_tokens.mp hnow
    have hbelow := (hsound.below e' hbefore).2
    rw [htoken] at hbelow
    exact absurd (hlater e hmem) (Nat.not_le.mpr hbelow)
  -- so all are from before, and there are as many of them as there were
  have hsize (t : RefTable) :
      t.live.length = (t.tokens .localRef).card + (t.tokens .globalRef).card := by
    simp only [tokens, Multiset.coe_card, List.length_map]
    induction t.live with
    | nil => rfl
    | cons e rest ih => cases hkind : e.kind <;> simp [hkind, ih] <;> omega
  rw [hnone, List.nil_append] at hlive
  rw [hlive]
  refine hfewer.eq_of_length ?_
  rw [← hlive, hsize, hsize, hsame, hsame]

/-- A removal is a stretch of time. -/
theorem of_remove (h : t.remove r kind = .ok t') : t.Since t' := by
  cases removal_iff.mpr h with
  | null => exact .refl
  | taken => exact .returned .refl r

end Since

/-- The reference was handed out for this object, which it leads to as long as it is live; the null
reference was handed out for none. -/
def Marks (t : RefTable) (r : Ref) : Option Object → Prop
  | some object => r.isNull = false ∧ r.bits.toNat < t.next ∧
      ∀ e ∈ t.live, e.token = r → e.object = object
  | none => r = .null

/-- A later reference has another number. -/
theorem Marks.since (h : t.Marks r found) (hsince : t.Since t') : t'.Marks r found := by
  cases found with
  | none => exact h
  | some object =>
    induction hsince with
    | refl => exact h
    | made _ hroom object kind ih =>
      obtain ⟨hnonnull, hbelow, hleads⟩ := ih
      refine ⟨hnonnull, Nat.lt_succ_of_lt hbelow, List.forall_mem_cons.mpr ⟨?_, hleads⟩⟩
      rintro rfl
      rw [toNat_token hroom] at hbelow
      exact absurd hbelow (Nat.lt_irrefl _)
    | returned _ r ih =>
      obtain ⟨hnonnull, hbelow, hleads⟩ := ih
      exact ⟨hnonnull, hbelow, fun e hmem => hleads e (List.mem_of_mem_filter hmem)⟩

/-- A new reference marks its object. -/
theorem Sound.marks_token (h : t.Sound) (hroom : t.next < 2 ^ 64) (object : Object) (kind : RefKind) :
    (t.insert object kind).2.Marks t.token (some object) := by
  refine ⟨h.token_not_null hroom, ?_, List.forall_mem_cons.mpr ⟨fun _ => rfl, ?_⟩⟩
  · rw [toNat_token hroom]
    exact Nat.lt_succ_self _
  · exact fun e hmem hsame => absurd hsame (h.token_fresh hroom e hmem)

/-- A live reference marks the object that it leads to. -/
theorem Sound.marks_of_mem (h : t.Sound) (hmem : r ∈ t.tokens kind) :
    ∃ object, t.get? r = some object ∧ t.Marks r (some object) := by
  obtain ⟨e, hlive, _, rfl⟩ := mem_tokens.mp hmem
  refine ⟨e.object, h.get?_eq hlive, h.not_null hmem, (h.below e hlive).2, fun e' hlive' hsame => ?_⟩
  -- a second entry under the token would be the same one
  rw [List.inj_on_of_nodup_map h.distinct hlive' hlive hsame]

end RefTable

end GridBridge.Managed
