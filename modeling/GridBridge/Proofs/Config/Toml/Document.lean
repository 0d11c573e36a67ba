import GridBridge.Config.Toml.Layout
import GridBridge.Proofs.Config.Toml.Quoted

/-!
# Config: lines of settings are read back

Each part of a written document is read up to the part that follows, and no further: a key up to the
sign behind it, a value up to the end of its line, the lines of a section up to the header of the
next one. So one lemma for each part says what is read and what is left (`value_write`,
`lineStep_line`, `sectionLines_text`), and the repetitions put them together (`assignments_write`,
`sections_text`).
-/

namespace GridBridge.Config.Toml

open Text Text.Scan

variable {c : Char} {key : String} {text rest : List Char}

/-! ## Blanks -/

/-- Text that starts with something other than a blank, a comment or the end of a line. -/
def Solid (text : List Char) : Prop :=
  ∀ c, text.head? = some c → isSpace c = false ∧ c ≠ '#' ∧ c ≠ '\n' ∧ c ≠ '\r'

/-- One character decides it. -/
theorem solid_cons (hother : isSpace c = false ∧ c ≠ '#' ∧ c ≠ '\n' ∧ c ≠ '\r') (rest : List Char) :
    Solid (c :: rest) := by
  rintro first ⟨rfl⟩
  exact hother

/-- Blanks are passed over, and no more than they. -/
theorem spaces_append (blanks : List Char) (hall : ∀ c ∈ blanks, isSpace c = true)
    (hstop : ∀ c, rest.head? = some c → isSpace c = false) :
    spaces (blanks ++ rest) = some ((), rest) := by
  simp [spaces, span_append hall hstop]

/-- Where no comment begins nothing is passed over. -/
theorem comment_of_ne (hnone : rest.head? ≠ some '#') : comment rest = some ((), rest) := by
  simp [comment, acceptOne_of_head?_ne hnone]

/-- Nor is a line ended by what is solid. -/
theorem newline?_of_solid (hsolid : Solid rest) : newline? rest = some (none, rest) := by
  cases rest with
  | nil => rfl
  | cons c rest =>
    obtain ⟨-, -, hline, hret⟩ := hsolid c rfl
    exact newline?_of_ne hline hret rest

/-- Blanks in front of something end there. -/
theorem trivia_append (blanks : List Char) (hall : ∀ c ∈ blanks, isSpace c = true)
    (hsolid : Solid rest) : trivia (blanks ++ rest) = some ((), rest) := by
  have hbehind : comment rest = some ((), rest) := comment_of_ne fun hfirst => (hsolid _ hfirst).2.1 rfl
  have hstop := spaces_append blanks hall fun c hfirst => (hsolid c hfirst).1
  simp [trivia, repeatedly, repeatUpTo_succ, hstop, hbehind, newline?_of_solid hsolid]

/-- In front of something solid there is nothing to pass over. -/
theorem trivia_solid (hsolid : Solid rest) : trivia rest = some ((), rest) :=
  trivia_append [] (by simp) hsolid

/-- The end of a line is passed over. -/
theorem trivia_newline (text : List Char) : trivia ('\n' :: text) = trivia text := by
  have hnone : spaces ('\n' :: text) = some ((), '\n' :: text) :=
    spaces_append [] (by simp) (by simp [isSpace])
  have hbehind : comment ('\n' :: text) = some ((), '\n' :: text) := comment_of_ne (by simp)
  simp only [trivia, repeatedly, bind_apply, List.length_cons, repeatUpTo_succ _ (text.length + 1),
    hnone, hbehind, newline?_newline, pure_apply, Option.bind_some, Option.map_some]
  cases repeatUpTo _ (text.length + 1) text <;> rfl

/-- It ends the line that is being read. -/
theorem lineEnd_newline (rest : List Char) : lineEnd ('\n' :: rest) = some ((), rest) := by
  have hnone : spaces ('\n' :: rest) = some ((), '\n' :: rest) :=
    spaces_append [] (by simp) (by simp [isSpace])
  have hbehind : comment ('\n' :: rest) = some ((), '\n' :: rest) := comment_of_ne (by simp)
  simp [lineEnd, hnone, hbehind, newline?_newline]

/-! ## Keys -/

/-- A name that needs no quotes. -/
def Bare (key : String) : Prop := key.toList ≠ [] ∧ key.toList.all isBare = true

instance (key : String) : Decidable (Bare key) := inferInstanceAs (Decidable (_ ∧ _))

/-- Names that need no quotes start like nothing else does. -/
theorem ne_of_isBare (hbare : isBare c = true) :
    isSpace c = false ∧ c ≠ '#' ∧ c ≠ '\n' ∧ c ≠ '\r' ∧ c ≠ '"' ∧ c ≠ '\'' ∧ c ≠ '[' ∧
      c ≠ '\uFEFF' := by
  refine ⟨Bool.eq_false_iff.mpr fun hspace => ?_, ?_, ?_, ?_, ?_, ?_, ?_, ?_⟩
  · obtain rfl | rfl : c = ' ' ∨ c = '\t' := by simpa [isSpace] using hspace
    all_goals exact absurd hbare (by decide)
  all_goals
    rintro rfl
    exact absurd hbare (by decide)

/-- A name has a first character, which needs no quotes either. -/
theorem Bare.exists_first (hbare : Bare key) :
    ∃ first more, key.toList = first :: more ∧ isBare first = true := by
  obtain ⟨hsomeChar, hall⟩ := hbare
  rw [List.all_eq_true] at hall
  cases hchars : key.toList with
  | nil => exact absurd hchars hsomeChar
  | cons first more => exact ⟨first, more, rfl, hall first (hchars ▸ List.mem_cons_self)⟩

/-- A name that needs no quotes is read up to the first character that would need some. -/
theorem name_bare (hbare : Bare key) (hstop : ∀ c, rest.head? = some c → isBare c = false) :
    name (key.toList ++ rest) = some (key, rest) := by
  obtain ⟨first, more, hchars, hstart⟩ := hbare.exists_first
  have hothers := ne_of_isBare hstart
  have hread := span_append (List.all_eq_true.mp hbare.2) hstop
  have hfirstEq : (key.toList ++ rest).head? = some first := by rw [hchars]; rfl
  have hfull : key.toList.isEmpty = false := by rw [hchars]; rfl
  simp only [name, bind_apply, peek?_apply, Option.bind_some, hfirstEq]
  simp [hread, hfull, hothers]

/-- A key of one name, with blanks behind it. -/
theorem dottedKey_bare (hbare : Bare key) (blanks : List Char)
    (hall : ∀ c ∈ blanks, isSpace c = true)
    (hstop : ∀ c, rest.head? = some c → isBare c = false ∧ isSpace c = false ∧ c ≠ '.') :
    dottedKey (key.toList ++ (blanks ++ rest)) = some (([], key), rest) := by
  obtain ⟨first, more, hchars, hstart⟩ := hbare.exists_first
  have hfront : spaces (key.toList ++ (blanks ++ rest)) =
      some ((), key.toList ++ (blanks ++ rest)) := by
    refine spaces_append [] (by simp) fun c hfirstEq => ?_
    rw [hchars] at hfirstEq
    cases hfirstEq
    exact (ne_of_isBare hstart).1
  -- a key ends where blanks begin or where the rest does
  have hends : ∀ c, (blanks ++ rest).head? = some c → isBare c = false := by
    intro c hfirstEq
    cases blanks with
    | nil => exact (hstop c hfirstEq).1
    | cons blank blanks =>
      cases hfirstEq
      refine Bool.eq_false_iff.mpr fun hbare => ?_
      have hspace := hall c List.mem_cons_self
      rw [(ne_of_isBare hbare).1] at hspace
      cases hspace
  have hread := name_bare hbare hends
  have hbehind := spaces_append blanks hall fun c hfirstEq => (hstop c hfirstEq).2.1
  -- no point follows, so the key has one name
  have hdot : acceptOne ['.'] rest = some (false, rest) :=
    acceptOne_of_head?_ne fun hfirstEq => (hstop _ hfirstEq).2.2 rfl
  simp [dottedKey, hfront, hread, hbehind, repeatedly, repeatUpTo_succ, hdot, maxDepth]

/-! ## Values -/

/-- What starts with no bracket is a single value. -/
theorem value_of_ne (depth : Nat) (hlist : text.head? ≠ some '[')
    (hrecord : text.head? ≠ some '\x7b') : value depth text = single text := by
  cases depth with
  | zero => rfl
  | succ depth =>
    simp [value, acceptOne_of_head?_ne hlist, acceptOne_of_head?_ne hrecord]

/-- A quoted text is read as the text that was quoted, whatever form was chosen for it. -/
theorem value_text (depth : Nat) (content : String) (hends : ∀ f : Form, rest.head? ≠ some f.mark) :
    value depth (write content ++ rest) = some (.text content, rest) := by
  have hread := quotedText_write content hends
  obtain ⟨f, hfirst⟩ := exists_mark_head? content rest
  rw [value_of_ne]
  · simp only [single, bind_apply, peek?_apply, Option.bind_some, hfirst]
    cases f <;> simp [Form.mark, hread]
  -- a quotation mark is neither bracket
  all_goals
    rw [hfirst]
    cases f <;> decide

/-- A word is read up to the end of its line. -/
theorem scalarText_word (hall : ∀ c ∈ text, endsWord c = false) (rest : List Char) :
    scalarText (text ++ '\n' :: rest) = some (text, '\n' :: rest) := by
  have hfirst : word (text ++ '\n' :: rest) = some (text, '\n' :: rest) :=
    span_append (by simpa using hall) (by simp [endsWord])
  simp [scalarText, hfirst, repeatedly, repeatUpTo_succ, isSpace]

/-- A value of one word up to the end of the line. -/
theorem value_word (depth : Nat) {more : List Char} (hall : ∀ d ∈ c :: more, endsWord d = false)
    (hdouble : c ≠ '"') (hquote : c ≠ '\'') (rest : List Char) :
    value depth (c :: more ++ '\n' :: rest) =
      (scalar? (c :: more)).map fun tree => (tree, '\n' :: rest) := by
  have htext := scalarText_word hall rest
  have hfirst := hall c List.mem_cons_self
  rw [value_of_ne]
  · simp only [List.cons_append] at htext ⊢
    simp [single, hdouble, hquote, htext]
  -- a bracket would have ended the word
  all_goals
    rintro ⟨rfl⟩
    exact absurd hfirst (by decide)

/-- A truth value is read as what it is. -/
theorem value_truth (depth : Nat) (truth : Bool) (rest : List Char) :
    value depth ((Item.truth truth).write ++ '\n' :: rest) =
      some (.truth truth, '\n' :: rest) := by
  cases truth with
  | true =>
    have hwritten : (Item.truth true).write = ['t', 'r', 'u', 'e'] := by decide
    rw [hwritten, value_word depth (by simp [endsWord]) (by decide) (by decide)]
    rfl
  | false =>
    have hwritten : (Item.truth false).write = ['f', 'a', 'l', 's', 'e'] := by decide
    rw [hwritten, value_word depth (by simp [endsWord]) (by decide) (by decide)]
    rfl

/-- What begins with no quotation mark begins with none of either form. -/
theorem head?_ne_mark (hother : c ≠ '"' ∧ c ≠ '\'') (rest : List Char) (f : Form) :
    (c :: rest).head? ≠ some f.mark := by
  rintro ⟨rfl⟩
  cases f <;> simp [Form.mark] at hother

/-! ## Lists -/

/-- The step of a list: an item and the comma behind it, if the list does not end. -/
def itemUpTo {α : Type} (close : Char) (item : Scan α) : Scan (Option α) := do
  trivia
  if ← acceptOne [close] then return none
  let one ← item
  trivia
  unless ← acceptOne [','] do require ((← peek?) == some close)
  return some one

/-- The items of a list are read as often as the step reads one. -/
theorem itemsUpTo_eq {α : Type} (close : Char) (item : Scan α) :
    itemsUpTo close item = repeatedly (itemUpTo close item) := rfl

section
variable {α : Type} {item : Scan α} {one : α} {behind : List Char}

/-- At the closing bracket the list ends. -/
theorem itemUpTo_close (hfront : trivia text = some ((), ']' :: rest)) :
    itemUpTo ']' item text = some (none, rest) := by
  simp [itemUpTo, hfront]

/-- An item with a comma behind it. -/
theorem itemUpTo_comma (hfront : trivia text = some ((), behind)) (hinside : behind.head? ≠ some ']')
    (hread : item behind = some (one, ',' :: rest)) :
    itemUpTo ']' item text = some (some one, rest) := by
  have hcomma := trivia_solid (solid_cons (c := ',') (by decide) rest)
  simp [itemUpTo, hfront, acceptOne_of_head?_ne hinside, hread, hcomma]

/-- In front of the closing bracket an item needs no comma. -/
theorem itemUpTo_last (hfront : trivia text = some ((), behind)) (hinside : behind.head? ≠ some ']')
    (hread : item behind = some (one, ']' :: rest)) :
    itemUpTo ']' item text = some (some one, ']' :: rest) := by
  have hclose := trivia_solid (solid_cons (c := ']') (by decide) rest)
  simp [itemUpTo, hfront, acceptOne_of_head?_ne hinside, hread, hclose]

end

/-- A list is what is read between its brackets. -/
theorem value_list {depth : Nat} {items : List Tree}
    (hread : repeatedly (itemUpTo ']' (value depth)) text = some (items, rest)) :
    value (depth + 1) ('[' :: text) = some (.list items, rest) := by
  simp [value, itemsUpTo_eq, hread]

/-- A quotation mark is solid. -/
theorem Form.solid_mark (f : Form) :
    isSpace f.mark = false ∧ f.mark ≠ '#' ∧ f.mark ≠ '\n' ∧ f.mark ≠ '\r' := by
  cases f <;> decide

/-- What ends each of some parts can be put in front of each of them. -/
theorem cons_flatMap_append {ι : Type} (c : Char) (part : ι → List Char) (items : List ι) :
    c :: items.flatMap (fun i => part i ++ [c]) = items.flatMap (fun i => c :: part i) ++ [c] := by
  induction items with
  | nil => rfl
  | cons i items ih => simp [List.flatMap_cons, ← ih]

/-- A quoted text is neither blank nor the end of a list. -/
theorem write_start (content : String) (more : List Char) :
    Solid (write content ++ more) ∧ (write content ++ more).head? ≠ some ']' := by
  obtain ⟨f, hfirst⟩ := exists_mark_head? content more
  constructor
  · intro c hstart
    rw [hfirst] at hstart
    cases hstart
    exact f.solid_mark
  · rw [hfirst]
    cases f <;> decide

/-- A list of texts, over one line or several. -/
theorem value_texts (depth : Nat) (values : List String) (rest : List Char) :
    value (depth + 1) ((Item.texts values).write ++ rest) =
      some ((Item.texts values).tree, rest) := by
  have hbracket : Solid (']' :: rest) := solid_cons (by decide) rest
  have hclose : itemUpTo ']' (value depth) (']' :: rest) = some (none, rest) :=
    itemUpTo_close (trivia_solid hbracket)
  match values with
  | [] => exact value_list (repeatedly_nil hclose)
  | [one] =>
    -- one text stands on the line of the brackets, with no comma
    have hread : value depth (write one ++ ']' :: rest) = some (.text one, ']' :: rest) :=
      value_text depth one (head?_ne_mark (by decide) rest)
    obtain ⟨hsolid, hother⟩ := write_start one (']' :: rest)
    have hfirst := itemUpTo_last (trivia_solid hsolid) hother hread
    have hshorter : (']' :: rest).length < (write one ++ ']' :: rest).length := by
      have hsomeChar : write one ≠ [] := fun hnone => by
        obtain ⟨f, hfirst⟩ := exists_mark_head? one []
        rw [hnone] at hfirst
        cases hfirst
      simpa using List.length_pos_iff.mpr hsomeChar
    have hlist := value_list (repeatedly_cons hfirst hshorter (repeatedly_nil hclose))
    simpa [Item.write, Item.tree] using hlist
  | one :: two :: values =>
    -- several stand on lines of their own, and each has a comma
    have hstop : itemUpTo ']' (value depth) ('\n' :: ']' :: rest) = some (none, rest) :=
      itemUpTo_close ((trivia_newline _).trans (trivia_solid hbracket))
    have hread (content : String) (more : List Char) :
        itemUpTo ']' (value depth) ('\n' :: (indent ++ write content ++ [',']) ++ more) =
          some (some (.text content), more) := by
      obtain ⟨hsolid, hother⟩ := write_start content (',' :: more)
      refine itemUpTo_comma ?_ hother (value_text depth content (head?_ne_mark (by decide) more))
      simp only [List.cons_append, List.append_assoc]
      exact (trivia_newline _).trans (trivia_append indent (by simp [indent, isSpace]) hsolid)
    have hlist := value_list (repeatedly_eq (one :: two :: values)
      (fun content _ more => hread content more) (by simp) hstop)
    have hlines := cons_flatMap_append '\n' (fun v => indent ++ write v ++ [','])
      (one :: two :: values)
    have hwritten : (Item.texts (one :: two :: values)).write ++ rest =
        '[' :: ((one :: two :: values).flatMap (fun v => '\n' :: (indent ++ write v ++ [','])) ++
          '\n' :: ']' :: rest) := by
      rw [List.append_cons _ '\n', ← hlines]
      simp [Item.write]
    rw [hwritten]
    exact hlist

/-- What an item is written as says what the item says. -/
theorem value_write (item : Item) (rest : List Char) :
    value maxDepth (item.write ++ '\n' :: rest) = some (item.tree, '\n' :: rest) := by
  cases item with
  | truth truth => exact value_truth maxDepth truth rest
  | text content => exact value_text maxDepth content (head?_ne_mark (by decide) rest)
  | texts values => exact value_texts (maxDepth - 1) values ('\n' :: rest)

/-! ## Lines -/

/-- What a line of settings assigns. -/
def assigned : String × Item → Assignment
  | (key, item) => { path := [], key, value := item.tree }

/-- A line of settings. -/
def line : String × Item → List Char
  | (key, item) => key.toList ++ " = ".toList ++ item.write ++ ['\n']

/-- No item begins with a blank. -/
theorem Item.space_ne_first (item : Item) (rest : List Char) (c : Char)
    (hfirst : (item.write ++ '\n' :: rest).head? = some c) : isSpace c = false := by
  cases item with
  | truth truth => cases truth <;> (cases hfirst; decide)
  | text content => exact ((write_start content _).1 c hfirst).1
  | texts values =>
    match values, hfirst with
    | [], rfl => decide
    | [_], rfl => decide
    | _ :: _ :: _, rfl => decide

/-- A line is read as what it assigns, up to its end. -/
theorem assignment_line (hbare : Bare key) (item : Item) (rest : List Char) :
    assignment spaces (value maxDepth) (line (key, item) ++ rest) =
      some (assigned (key, item), '\n' :: rest) := by
  have hnamed : dottedKey (key.toList ++ ([' '] ++ '=' :: ' ' :: (item.write ++ '\n' :: rest))) =
      some (([], key), '=' :: ' ' :: (item.write ++ '\n' :: rest)) :=
    dottedKey_bare hbare [' '] (by simp [isSpace]) (by rintro c ⟨rfl⟩; decide)
  have hfront : spaces ('=' :: ' ' :: (item.write ++ '\n' :: rest)) =
      some ((), '=' :: ' ' :: (item.write ++ '\n' :: rest)) :=
    spaces_append [] (by simp) (by rintro c ⟨rfl⟩; decide)
  have hbehind : spaces (' ' :: (item.write ++ '\n' :: rest)) =
      some ((), item.write ++ '\n' :: rest) :=
    spaces_append [' '] (by simp [isSpace]) (item.space_ne_first rest)
  -- key, equals sign and value, with one blank on each side of the sign
  have hwritten : line (key, item) ++ rest =
      key.toList ++ ([' '] ++ '=' :: ' ' :: (item.write ++ '\n' :: rest)) := by
    simp [line]
  rw [hwritten]
  simp only [assignment, bind_apply, hnamed, Option.bind_some, hfront, expect_cons, hbehind,
    value_write, pure_apply, assigned]

/-- The step of the lines up to a header or the end. -/
def lineStep : Scan (Option Assignment) := do
  trivia
  if (← atEnd) || (← peek?) == some '[' then return none
  let one ← assignment spaces (value maxDepth)
  lineEnd
  return some one

/-- The lines of settings are read as often as the step reads one. -/
theorem assignments_eq : assignments = repeatedly lineStep := rfl

/-- A line of settings is read with its end. -/
theorem lineStep_line (hbare : Bare key) (item : Item) (rest : List Char) :
    lineStep (line (key, item) ++ rest) = some (some (assigned (key, item)), rest) := by
  obtain ⟨first, more, hchars, hstart⟩ := hbare.exists_first
  have hothers := ne_of_isBare hstart
  have htext : line (key, item) ++ rest =
      first :: (more ++ " = ".toList ++ item.write ++ '\n' :: rest) := by
    simp [line, hchars]
  have hfront : trivia (line (key, item) ++ rest) = some ((), line (key, item) ++ rest) := by
    rw [htext]
    exact trivia_solid (solid_cons ⟨hothers.1, hothers.2.1, hothers.2.2.1, hothers.2.2.2.1⟩ _)
  have hfull : line (key, item) ≠ [] := by simp [line]
  have hhead : (line (key, item) ++ rest).head? = some first := by rw [htext]; rfl
  simp [lineStep, hfront, hfull, hhead, hothers, assignment_line hbare, lineEnd_newline]

/-- In front of a header the lines end. -/
theorem lineStep_header (rest : List Char) :
    lineStep ('\n' :: '[' :: rest) = some (none, '[' :: rest) := by
  have hfront : trivia ('\n' :: '[' :: rest) = some ((), '[' :: rest) :=
    (trivia_newline _).trans (trivia_solid (solid_cons (by decide) rest))
  simp [lineStep, hfront]

/-- The lines of some items are read as the items, up to where the lines end. -/
theorem assignments_write {items : Items} (hbare : ∀ item ∈ items, Bare item.1) {stop : List Char}
    (hstops : lineStep stop = some (none, rest)) :
    assignments (items.write ++ stop) = some (items.map assigned, rest) := by
  have hreads : ∀ item ∈ items, ∀ more,
      lineStep (line item ++ more) = some (some (assigned item), more) :=
    fun item hinside more => lineStep_line (hbare item hinside) item.2 more
  rw [assignments_eq]
  exact repeatedly_eq items hreads (fun item _ => by simp) hstops

/-! ## Sections -/

/-- A section as it is written, behind the empty line in front of it. -/
def sectionText : String × Items → List Char
  | (key, items) => '[' :: key.toList ++ [']', '\n'] ++ items.write

/-- What a section is read as. -/
def sectionOf : String × Items → Section
  | (key, items) => { path := [], key, repeated := false, body := items.map assigned }

/-- A section is read as its header and its lines, up to where the next one begins. -/
theorem sectionLines_text {items : Items} (hnamed : Bare key) (hbare : ∀ item ∈ items, Bare item.1)
    {stop : List Char} (hstops : lineStep stop = some (none, rest)) :
    sectionLines (sectionText (key, items) ++ stop) = some (sectionOf (key, items), rest) := by
  obtain ⟨first, more, hchars, hstart⟩ := hnamed.exists_first
  have hothers := ne_of_isBare hstart
  have hwritten : sectionText (key, items) ++ stop =
      '[' :: (key.toList ++ ([] ++ ']' :: '\n' :: (items.write ++ stop))) := by
    simp [sectionText]
  -- a second bracket would make it a list of tables
  have hsingle : acceptOne ['['] (key.toList ++ ([] ++ ']' :: '\n' :: (items.write ++ stop))) =
      some (false, key.toList ++ ([] ++ ']' :: '\n' :: (items.write ++ stop))) := by
    refine acceptOne_of_head?_ne ?_
    simp [hchars, hothers]
  have hname : dottedKey (key.toList ++ ([] ++ ']' :: '\n' :: (items.write ++ stop))) =
      some (([], key), ']' :: '\n' :: (items.write ++ stop)) :=
    dottedKey_bare hnamed [] (by simp) (by rintro c ⟨rfl⟩; decide)
  rw [hwritten]
  simp only [sectionLines, bind_apply, expect_cons, Option.bind_some, hsingle, hname,
    Bool.false_eq_true, if_false, lineEnd_newline, assignments_write hbare hstops, pure_apply,
    sectionOf]

/-- Lines end where a section starts, with the empty line in front of it. -/
theorem lineStep_sections (sections : List (String × Items)) :
    lineStep (sections.flatMap fun s => '\n' :: sectionText s) =
      some (none, (sections.flatMap fun s => '\n' :: sectionText s).drop 1) := by
  cases sections with
  | nil => rfl
  | cons s sections => exact lineStep_header _

/-- The step of the sections up to the end. -/
def sectionStep : Scan (Option Section) := do
  if ← atEnd then return none
  return some (← sectionLines)

/-- The sections, behind the empty line in front of the first. -/
theorem sections_text {sections : List (String × Items)}
    (hbare : ∀ s ∈ sections, Bare s.1 ∧ ∀ item ∈ s.2, Bare item.1) :
    repeatedly sectionStep ((sections.flatMap fun s => '\n' :: sectionText s).drop 1) =
      some (sections.map sectionOf, []) := by
  induction sections with
  | nil => exact repeatedly_nil rfl
  | cons s sections ih =>
    obtain ⟨hnamed, hinside⟩ := hbare s List.mem_cons_self
    have hlines := sectionLines_text hnamed hinside (lineStep_sections sections)
    have hhere : sectionStep (sectionText s ++ sections.flatMap fun s => '\n' :: sectionText s) =
        some (some (sectionOf s), (sections.flatMap fun s => '\n' :: sectionText s).drop 1) := by
      have hfull : sectionText s ≠ [] := by simp [sectionText]
      simp [sectionStep, hfull, hlines]
    -- a section takes some text, so the repetition goes on with less
    refine repeatedly_cons hhere ?_ (ih fun s hinside => hbare s (List.mem_cons_of_mem _ hinside))
    simp [sectionText]
    omega

end GridBridge.Config.Toml
