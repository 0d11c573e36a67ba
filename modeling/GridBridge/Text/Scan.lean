/-!
# Text: reading from the front

A `Scan` takes something off the front of a text, or finds that the text does not start with it.
`repeatedly_eq` says what a repetition reads when its step reads each item in turn.
-/

namespace GridBridge.Text

/-- Reads a value off the front of a text; `none` if the text does not start with one. -/
abbrev Scan (α : Type) := StateT (List Char) Option α

namespace Scan

variable {α : Type}

/-- The first character, which stays. -/
def peek? : Scan (Option Char) := fun text => some (text.head?, text)

def atEnd : Scan Bool := fun text => some (text.isEmpty, text)

/-- The first character. -/
def next : Scan Char
  | [] => none
  | c :: rest => some (c, rest)

/-- Goes on only if a condition holds. -/
def require (condition : Bool) : Scan Unit := if condition then pure () else failure

/-- Takes a word if the text starts with it, and says whether it did. -/
def accept (word : List Char) : Scan Bool := fun text =>
  if word.isPrefixOf text then some (true, text.drop word.length) else some (false, text)

/-- Takes a word that has to come. -/
def expect (word : List Char) : Scan Unit := do require (← accept word)

/-- Takes a character if it is one of these, and says whether it did. -/
def acceptOne (these : List Char) : Scan Bool
  | [] => some (false, [])
  | c :: rest => some (if these.contains c then (true, rest) else (false, c :: rest))

/-- Takes the characters up to the first that is not of a kind. -/
def span (kind : Char → Bool) : Scan (List Char) := fun text =>
  some (text.takeWhile kind, text.dropWhile kind)

/-- Takes that many characters. -/
def take (count : Nat) : Scan (List Char) := fun text =>
  if count ≤ text.length then some (text.take count, text.drop count) else none

/-- Repeats a step until it answers nothing, at most `limit` times. -/
def repeatUpTo (step : Scan (Option α)) : Nat → Scan (List α)
  | 0 => failure
  | limit + 1 => do
    match ← step with
    | none => return []
    | some item => return item :: (← repeatUpTo step limit)

/-- Repeats a step until it answers nothing. A step that answers takes at least one character, so
there are no more of them than characters. -/
def repeatedly (step : Scan (Option α)) : Scan (List α) := fun text =>
  repeatUpTo step (text.length + 1) text

/-- One go of a repetition. -/
theorem repeatUpTo_succ (step : Scan (Option α)) (limit : Nat) (text : List Char) :
    repeatUpTo step (limit + 1) text =
      (step text).bind fun (answer, rest) =>
        match answer with
        | none => some ([], rest)
        | some item =>
          (repeatUpTo step limit rest).map fun (items, rest) => (item :: items, rest) := by
  show (step text).bind _ = _
  congr 1
  funext ⟨answer, rest⟩
  cases answer with
  | none => rfl
  | some item =>
    show (repeatUpTo step limit rest).bind _ = (repeatUpTo step limit rest).map _
    cases repeatUpTo step limit rest <;> rfl

/-- Items that the step reads one by one, up to a stop that it takes for the end. -/
theorem repeatUpTo_eq {ι : Type} {step : Scan (Option α)} {write : ι → List Char} {value : ι → α}
    {stop rest : List Char} (items : List ι)
    (hreads : ∀ item ∈ items, ∀ more, step (write item ++ more) = some (some (value item), more))
    (hstops : step stop = some (none, rest)) (limit : Nat) (henough : items.length < limit) :
    repeatUpTo step limit (items.flatMap write ++ stop) = some (items.map value, rest) := by
  induction items generalizing limit with
  | nil =>
    obtain ⟨n, rfl⟩ : ∃ n, limit = n + 1 := ⟨limit - 1, by simp at henough; omega⟩
    rw [List.flatMap_nil, List.nil_append, repeatUpTo_succ, hstops]
    rfl
  | cons item items ih =>
    obtain ⟨n, rfl⟩ : ∃ n, limit = n + 1 := ⟨limit - 1, by simp at henough; omega⟩
    have hhere := hreads item (by simp) (items.flatMap write ++ stop)
    have hlater := ih (fun i h => hreads i (by simp [h])) n (by simp at henough; omega)
    rw [List.flatMap_cons, List.append_assoc, repeatUpTo_succ, hhere]
    simp only [Option.bind_some, hlater, Option.map_some, List.map_cons]

/-- As many items as there are can be read, since each is written with at least one character. -/
theorem repeatedly_eq {ι : Type} {step : Scan (Option α)} {write : ι → List Char} {value : ι → α}
    {stop rest : List Char} (items : List ι)
    (hreads : ∀ item ∈ items, ∀ more, step (write item ++ more) = some (some (value item), more))
    (hshown : ∀ item ∈ items, write item ≠ []) (hstops : step stop = some (none, rest)) :
    repeatedly step (items.flatMap write ++ stop) = some (items.map value, rest) := by
  refine repeatUpTo_eq items hreads hstops _ ?_
  have hbound : items.length ≤ (items.flatMap write).length := by
    clear hreads
    induction items with
    | nil => simp
    | cons item items ih =>
      have hhere := List.length_pos_iff.2 (hshown item (by simp))
      have hlater := ih fun i h => hshown i (by simp [h])
      simp only [List.flatMap_cons, List.length_append, List.length_cons]
      omega
  simp only [List.length_append]
  omega

/-- Reads a complete text. -/
def whole? (scan : Scan α) (text : String) : Option α :=
  match scan text.toList with
  | some (value, []) => some value
  | _ => none

end Scan

end GridBridge.Text
