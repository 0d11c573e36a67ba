import GridBridge.Text.Scan

/-!
# Text: what the parts of a scan read

One lemma for each part a scan is built of, in the form in which a scan is worked out from the front
of a text to what it leaves.
-/

namespace GridBridge.Text.Scan

variable {α β : Type} {c : Char} {text word rest : List Char}

/-- One part behind another starts where the first one stopped. -/
@[simp] theorem bind_apply (x : Scan α) (f : α → Scan β) (text : List Char) :
    (x >>= f) text = (x text).bind fun (value, rest) => f value rest := rfl

/-- A value that is given reads nothing. -/
@[simp] theorem pure_apply (value : α) (text : List Char) :
    (pure value : Scan α) text = some (value, text) := rfl

/-- A value is reworked, with nothing more read. -/
@[simp] theorem map_apply (f : α → β) (x : Scan α) (text : List Char) :
    (f <$> x) text = (x text).map fun (value, rest) => (f value, rest) := by
  show (x text).bind _ = _
  cases x text <;> rfl

/-- A scan that is chosen before it starts. -/
@[simp] theorem ite_apply (p : Prop) [Decidable p] (x y : Scan α) (text : List Char) :
    (if p then x else y) text = if p then x text else y text := by
  split <;> rfl

/-- A value that may be missing reads nothing either. -/
@[simp] theorem lift_apply (x : Option α) (text : List Char) :
    (liftM x : Scan α) text = x.map fun value => (value, text) := by
  cases x <;> rfl

@[simp] theorem get_apply (text : List Char) :
    (get : Scan (List Char)) text = some (text, text) := rfl

/-- What comes next is shown and stays. -/
@[simp] theorem peek?_apply (text : List Char) : peek? text = some (text.head?, text) := rfl

@[simp] theorem atEnd_apply (text : List Char) : atEnd text = some (text.isEmpty, text) := rfl

@[simp] theorem next_cons (c : Char) (rest : List Char) : next (c :: rest) = some (c, rest) := rfl

@[simp] theorem require_true (text : List Char) : require true text = some ((), text) := rfl

/-- One character is taken if it is among these, and stays otherwise. -/
@[simp] theorem acceptOne_cons (these : List Char) (c : Char) (rest : List Char) :
    acceptOne these (c :: rest) =
      some (if these.contains c then (true, rest) else (false, c :: rest)) := rfl

/-- Another character is not taken. -/
theorem acceptOne_of_head?_ne (h : text.head? ≠ some c) :
    acceptOne [c] text = some (false, text) := by
  cases text with
  | nil => rfl
  | cons first more =>
    have hother : first ≠ c := by simpa using h
    simp [hother]

/-- A word in front is taken. -/
theorem accept_append (word rest : List Char) : accept word (word ++ rest) = some (true, rest) := by
  simp [accept]

/-- Where the word does not stand, nothing is taken. -/
theorem accept_of_not_starts (h : ¬ word <+: text) : accept word text = some (false, text) := by
  simp [accept, h]

/-- A word that must be there is read, and what is behind it is left. -/
theorem expect_append (word rest : List Char) : expect word (word ++ rest) = some ((), rest) := by
  simp [expect, accept_append]

@[simp] theorem expect_cons (c : Char) (rest : List Char) :
    expect [c] (c :: rest) = some ((), rest) := expect_append [c] rest

/-- Characters of a kind are read up to the first that is of another. -/
theorem span_append {kind : Char → Bool} (hall : ∀ c ∈ word, kind c = true)
    (hstop : ∀ c, rest.head? = some c → kind c = false) :
    span kind (word ++ rest) = some (word, rest) := by
  -- behind the word nothing more of the kind follows
  have hends : rest.takeWhile kind = [] ∧ rest.dropWhile kind = rest := by
    cases rest with
    | nil => exact ⟨rfl, rfl⟩
    | cons c more => simp [hstop c rfl]
  unfold span
  rw [List.takeWhile_append_of_pos hall, List.dropWhile_append_of_pos hall, hends.1, hends.2,
    List.append_nil]

/-! ## Repetitions -/

variable {step : Scan (Option α)} {item : α} {items : List α} {more : List Char}

/-- A repetition ends with the first step that has nothing to give. -/
theorem repeatedly_nil (hstops : step text = some (none, rest)) :
    repeatedly step text = some ([], rest) := by
  unfold repeatedly
  rw [repeatUpTo_succ, hstops]
  rfl

/-- More goes than needed do no harm. -/
theorem repeatUpTo_mono {limit limit' : Nat} (hle : limit ≤ limit')
    (hread : repeatUpTo step limit text = some (items, rest)) :
    repeatUpTo step limit' text = some (items, rest) := by
  -- by induction on the goes that were enough; the larger number has one for each of them
  induction limit generalizing limit' text items with
  | zero => cases hread
  | succ limit ih =>
    obtain ⟨n, rfl⟩ := Nat.exists_eq_add_of_le' (Nat.le_trans (Nat.succ_pos limit) hle)
    rw [repeatUpTo_succ] at hread ⊢
    cases hhere : step text with
    | none =>
      rw [hhere] at hread
      cases hread
    | some answer =>
      obtain ⟨answer, behind⟩ := answer
      rw [hhere] at hread
      cases answer with
      | none => exact hread
      | some item =>
        obtain ⟨⟨others, ends⟩, hlater, hsame⟩ := Option.map_eq_some_iff.mp hread
        cases hsame
        simp only [Option.bind_some, ih (Nat.le_of_succ_le_succ hle) hlater, Option.map_some]

/-- An item is read, and the repetition goes on behind it. -/
theorem repeatedly_cons (hhere : step text = some (some item, more))
    (hshorter : more.length < text.length) (hlater : repeatedly step more = some (items, rest)) :
    repeatedly step text = some (item :: items, rest) := by
  -- what is left is shorter, so it had goes enough
  have hothers := repeatUpTo_mono (Nat.succ_le_of_lt hshorter) hlater
  unfold repeatedly
  simp only [repeatUpTo_succ, hhere, Option.bind_some, hothers, Option.map_some]

end GridBridge.Text.Scan
