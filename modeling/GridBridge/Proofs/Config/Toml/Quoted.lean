import GridBridge.Config.Toml.Quoted
import GridBridge.Proofs.Text.Scan

/-!
# Config: quoted texts are read back

Inside of its quotes a text is spelled out character by character (`Spelled`): a character other
than a quote in a way that is read as that character and does not look like a delimiter (`Shows`),
and quotes as they are, as far as the form lets so many of them stand in a row. A delimiter is one
more than that, so it cannot begin inside of the text. It can begin early only in quotes that the
text ends in, and those are found behind it (`Spelled.reads`). **`quotedText_write`** is the round
trip, for every text and the form that is chosen for it.
-/

namespace GridBridge.Config.Toml

open Text Text.Scan

variable {f : Form} {c : Char} {text rest : List Char}

/-! ## Forms -/

namespace Form

/-- The delimiter is one mark more than may stand in a row. -/
theorem delimiter_eq (f : Form) : f.delimiter = List.replicate (f.freeMarks + 1) f.mark := by
  cases f <;> rfl

/-- On a single line one mark is the delimiter. -/
theorem delimiter_of_single (h : f.isMultiline = false) : f.delimiter = [f.mark] := by
  simp [delimiter, h]

/-- Escapes are for double quotes only. -/
theorem mark_of_hasEscapes (h : f.hasEscapes = true) : f.mark = '"' := by
  cases f <;> simp_all [hasEscapes, mark]

/-- A mark is a character that shows. -/
theorem isShown_mark (f : Form) : isShown f.mark = true := by cases f <;> decide

/-- A mark begins neither a line end nor an escape. -/
theorem mark_ne (f : Form) : f.mark ≠ '\n' ∧ f.mark ≠ '\r' ∧ f.mark ≠ '\\' := by
  cases f <;> decide

end Form

/-! ## Pieces -/

/-- No line ends with any other character. -/
theorem newline?_of_ne (h : c ≠ '\n') (h' : c ≠ '\r') (rest : List Char) :
    newline? (c :: rest) = some (none, c :: rest) := by
  have hfirst : ¬ ['\n'] <+: c :: rest := by simp [List.cons_prefix_cons, Ne.symm h]
  have hsecond : ¬ ['\r', '\n'] <+: c :: rest := by simp [List.cons_prefix_cons, Ne.symm h']
  simp [newline?, accept_of_not_starts hfirst, accept_of_not_starts hsecond]

/-- A line ends with a line feed alone. -/
theorem newline?_newline (rest : List Char) :
    newline? ('\n' :: rest) = some (some ['\n'], rest) := by
  have hfirst := accept_append ['\n'] rest
  rw [List.singleton_append] at hfirst
  simp [newline?, hfirst]

/-- The delimiter is no piece of the text. -/
theorem piece_delimiter (f : Form) (rest : List Char) :
    piece f (f.delimiter ++ rest) = some (none, rest) := by
  simp [piece, accept_append]

/-- The delimiter begins with its mark. -/
theorem not_starts_delimiter (h : c ≠ f.mark) (rest : List Char) : ¬ f.delimiter <+: c :: rest := by
  rw [f.delimiter_eq, List.replicate_succ, List.cons_prefix_cons]
  exact fun hfound => h hfound.1.symm

/-- A character that is shown stands for itself, where it starts neither an escape nor the
delimiter. -/
theorem piece_shown (hshown : isShown c = true) (hplain : f.hasEscapes = true → c ≠ '\\')
    (hinside : ¬ f.delimiter <+: c :: rest) : piece f (c :: rest) = some (some [c], rest) := by
  have hne : c ≠ '\n' ∧ c ≠ '\r' := by
    constructor <;> (rintro rfl; revert hshown; decide)
  have hstart : ¬ (f.hasEscapes = true ∧ c = '\\') := fun ⟨hescapes, hfirst⟩ => hplain hescapes hfirst
  simp [piece, accept_of_not_starts hinside, newline?_of_ne hne.1 hne.2, hstart, hshown]

/-- Over several lines a line end stands for itself. -/
theorem piece_newline (hlines : f.isMultiline = true) (rest : List Char) :
    piece f ('\n' :: rest) = some (some ['\n'], rest) := by
  have hinside := not_starts_delimiter (Ne.symm f.mark_ne.1) rest
  simp [piece, accept_of_not_starts hinside, newline?_newline, hlines]

/-- An escape that begins with a visible character stands for one character. -/
theorem piece_escape {first : Char} {code : List Char} (hescapes : f.hasEscapes = true)
    (hvisible : isSpace first = false ∧ first ≠ '\n' ∧ first ≠ '\r')
    (hreads : escape (first :: code ++ rest) = some (c, rest)) :
    piece f ('\\' :: first :: code ++ rest) = some (some [c], rest) := by
  have hinside := not_starts_delimiter (Ne.symm f.mark_ne.2.2) (first :: code ++ rest)
  have hline : endsLine (first :: code ++ rest) = false := by
    simp [endsLine, hvisible.1, List.isPrefixOf, Ne.symm hvisible.2.1, Ne.symm hvisible.2.2]
  have hafter : afterBackslash f (first :: code ++ rest) = some ([c], rest) := by
    simp only [List.cons_append] at hline hreads ⊢
    simp [afterBackslash, hline, hreads]
  have hhere := newline?_of_ne (by decide : '\\' ≠ '\n') (by decide) (first :: code ++ rest)
  simp only [List.cons_append] at hinside hafter hhere ⊢
  simp [piece, accept_of_not_starts hinside, hhere, hescapes, hafter]

/-! ## Characters -/

/-- What a character is written as inside of the quotes: it is read as that character, and it starts
neither like a delimiter nor like the end of a line. -/
structure Shows (f : Form) (c : Char) (written : List Char) : Prop where
  reads : ∀ more, piece f (written ++ more) = some (some [c], more)
  starts : ∃ first code, written = first :: code ∧ first ≠ f.mark ∧ first ≠ '\r' ∧
    (first = '\n' → c = '\n')

/-- A character that is no mark and starts no escape can stand for itself. -/
theorem Shows.self (hshown : isShown c = true) (hplain : f.hasEscapes = true → c ≠ '\\')
    (hother : c ≠ f.mark) : Shows f c [c] where
  reads more := piece_shown hshown hplain (not_starts_delimiter hother more)
  starts := by
    refine ⟨c, [], rfl, hother, ?_, id⟩
    rintro rfl
    revert hshown
    decide

/-- It does not look like a delimiter. -/
theorem Shows.newline (hlines : f.isMultiline = true) : Shows f '\n' ['\n'] where
  reads := piece_newline hlines
  starts := ⟨'\n', [], rfl, Ne.symm f.mark_ne.1, by decide, fun _ => rfl⟩

/-- Nor does an escape, which begins with a backslash. -/
theorem Shows.escape {first : Char} {code : List Char} (hescapes : f.hasEscapes = true)
    (hvisible : isSpace first = false ∧ first ≠ '\n' ∧ first ≠ '\r')
    (hreads : ∀ more, escape (first :: code ++ more) = some (c, more)) :
    Shows f c ('\\' :: first :: code) where
  reads more := piece_escape hescapes hvisible (hreads more)
  starts := ⟨'\\', first :: code, rfl, Ne.symm f.mark_ne.2.2, by decide, nofun⟩

/-- A digit is read as what it was written for. -/
theorem hexValue?_upperHexDigit : ∀ n < 16, hexValue? (upperHexDigit n) = some n := by decide

/-- Characters that do not show are controls. -/
theorem toNat_lt_of_hidden (hhidden : isShown c = false) : c.toNat < 128 := by
  by_cases hdelete : c = '\x7f'
  · subst hdelete
    decide
  · have hcontrol : ¬ ' ' ≤ c := by
      intro hvisible
      simp [isShown, hvisible, hdelete] at hhidden
    have hbelow : c.toNat < ' '.toNat := Char.not_le.mp hcontrol
    exact Nat.lt_trans hbelow (by decide)

/-- A control as a number of four digits. -/
theorem escape_number (hcontrol : c.toNat < 128) (rest : List Char) :
    escape ('u' :: ['0', '0', upperHexDigit (c.toNat / 16), upperHexDigit (c.toNat % 16)] ++ rest) =
      some (c, rest) := by
  have hzero : hexValue? '0' = some 0 := by decide
  have hhigh := hexValue?_upperHexDigit (c.toNat / 16) (by omega)
  have hlow := hexValue?_upperHexDigit (c.toNat % 16) (by omega)
  have hvalid : c.toNat < 55296 := by omega
  simp [escape, numbered, take, hzero, hhigh, hlow, Nat.div_add_mod, hvalid]

/-- A character other than a quote is read back in a form with escapes. -/
theorem shows_escaped (hescapes : f.hasEscapes = true) (hother : c ≠ '"') :
    Shows f c (escaped f c) := by
  have hmark := Form.mark_of_hasEscapes hescapes
  have hletter {code : Char} (hreads : ∀ more, Toml.escape (code :: more) = some (c, more))
      (hvisible : isSpace code = false ∧ code ≠ '\n' ∧ code ≠ '\r') : Shows f c ['\\', code] :=
    .escape hescapes hvisible hreads
  unfold escaped
  -- six characters have a letter or stand for themselves over several lines
  by_cases hback : c = '\x08'
  · subst hback
    exact hletter (fun _ => rfl) (by decide)
  by_cases htab : c = '\t'
  · subst htab
    exact hletter (fun _ => rfl) (by decide)
  by_cases hfeed : c = '\x0c'
  · subst hfeed
    exact hletter (fun _ => rfl) (by decide)
  by_cases hret : c = '\r'
  · subst hret
    exact hletter (fun _ => rfl) (by decide)
  by_cases hslash : c = '\\'
  · subst hslash
    exact hletter (fun _ => rfl) (by decide)
  by_cases hline : c = '\n'
  · subst hline
    cases hlines : f.isMultiline with
    | true => exact .newline hlines
    | false => exact hletter (fun _ => rfl) (by decide)
  rw [if_neg hback, if_neg htab, if_neg hfeed, if_neg hret, if_neg hslash, if_neg hline]
  cases hshown : isShown c with
  | true => exact .self hshown (fun _ => hslash) (hmark ▸ hother)
  | false =>
    exact .escape hescapes (by decide) (escape_number (toNat_lt_of_hidden hshown))

/-! ## Inside of the quotes -/

/-- What stands inside of the quotes for a text, behind `run` marks in a row. -/
inductive Spelled (f : Form) : Nat → List Char → List Char → Prop where
  | nil {run : Nat} : Spelled f run [] []
  | mark {run : Nat} {chars inner : List Char} (hfree : run < f.freeMarks)
      (hrest : Spelled f (run + 1) chars inner) : Spelled f run (f.mark :: chars) (f.mark :: inner)
  | char {run : Nat} {c : Char} {chars written inner : List Char} (hshows : Shows f c written)
      (hrest : Spelled f 0 chars inner) : Spelled f run (c :: chars) (written ++ inner)

variable {chars inner : List Char} {run : Nat}

/-- A text in a form with escapes. -/
theorem spelled_escapedText (hescapes : f.hasEscapes = true) (run : Nat) (chars : List Char) :
    Spelled f run chars (escapedText f run chars) := by
  have hmark := Form.mark_of_hasEscapes hescapes
  induction chars generalizing run with
  | nil => exact .nil
  | cons c chars ih =>
    unfold escapedText
    by_cases hquote : c = '"'
    · rw [if_pos hquote]
      -- a mark stands for itself as long as the row is not full, and is escaped then
      by_cases hfree : run < f.freeMarks
      · rw [if_pos hfree, hquote, ← hmark]
        exact .mark hfree (ih (run + 1))
      · rw [if_neg hfree, hquote]
        have hshows : Shows f '"' ['\\', '"'] := .escape hescapes (by decide) fun _ => rfl
        exact .char hshows (ih 0)
    · rw [if_neg hquote]
      exact .char (shows_escaped hescapes hquote) (ih 0)

/-- Counting marks in a row: the most so far, and those just now. -/
def countRun (mark : Char) : Nat × Nat → Char → Nat × Nat
  | (best, run), c => if c = mark then (max best (run + 1), run + 1) else (best, 0)

/-- The largest run so far is never forgotten. -/
theorem le_foldl_countRun (mark : Char) (counts : Nat × Nat) (chars : List Char) :
    counts.1 ≤ (chars.foldl (countRun mark) counts).1 := by
  induction chars generalizing counts with
  | nil => exact Nat.le_refl _
  | cons c chars ih =>
    refine Nat.le_trans ?_ (ih (countRun mark counts c))
    show counts.1 ≤ (if c = mark then (max counts.1 (counts.2 + 1), counts.2 + 1)
      else (counts.1, 0)).1
    split
    · exact Nat.le_max_left _ _
    · exact Nat.le_refl _

/-- A text in a form without escapes: it stands for itself if no marks in a row would end it. -/
theorem spelled_self (hliteral : f.hasEscapes = false) (best run : Nat) (chars : List Char)
    (hshown : ∀ c ∈ chars, isShown c = true ∨ c = '\n' ∧ f.isMultiline = true)
    (hfew : (chars.foldl (countRun f.mark) (best, run)).1 ≤ f.freeMarks) :
    Spelled f run chars chars := by
  induction chars generalizing best run with
  | nil => exact .nil
  | cons c chars ih =>
    have hlater := fun c hinside => hshown c (List.mem_cons_of_mem _ hinside)
    rw [List.foldl_cons] at hfew
    by_cases hmark : c = f.mark
    · rw [countRun, if_pos hmark] at hfew
      -- the row just now is no longer than the longest
      have hmost := Nat.le_trans (le_foldl_countRun f.mark _ chars) hfew
      rw [hmark]
      exact .mark (Nat.le_trans (Nat.le_max_right _ _) hmost) (ih _ _ hlater hfew)
    · rw [countRun, if_neg hmark] at hfew
      have hhere : Shows f c [c] := by
        obtain hvisible | ⟨rfl, hlines⟩ := hshown c List.mem_cons_self
        · exact .self hvisible (by simp [hliteral]) hmark
        · exact .newline hlines
      exact .char hhere (ih _ _ hlater hfew)

/-- Marks alone may stand in front of the delimiter. Where there is anything else, no delimiter
begins before it. -/
theorem Spelled.marks_or_inside (hspelled : Spelled f run chars inner) (hfew : run ≤ f.freeMarks) :
    (∃ k, run + k ≤ f.freeMarks ∧ chars = List.replicate k f.mark ∧
      inner = List.replicate k f.mark) ∨
    ∀ more, ¬ List.replicate (f.freeMarks + 1 - run) f.mark <+: inner ++ more := by
  induction hspelled with
  | nil => exact .inl ⟨0, hfew, rfl, rfl⟩
  | @mark run chars inner hfree hrest ih =>
    obtain ⟨k, hroom, rfl, rfl⟩ | hinside := ih hfree
    · exact .inl ⟨k + 1, by omega, rfl, rfl⟩
    · refine .inr fun more hfound => hinside more ?_
      rw [show f.freeMarks + 1 - run = f.freeMarks + 1 - (run + 1) + 1 by omega,
        List.replicate_succ, List.cons_append, List.cons_prefix_cons] at hfound
      exact hfound.2
  | @char run c chars written inner hshows hrest ih =>
    -- a character starts with something else than a mark, so no row of marks goes on here
    obtain ⟨first, code, rfl, hother, -⟩ := hshows.starts
    refine .inr fun more hfound => ?_
    rw [show f.freeMarks + 1 - run = f.freeMarks - run + 1 by omega, List.replicate_succ,
      List.cons_append, List.cons_append, List.cons_prefix_cons] at hfound
    exact hother hfound.1.symm

/-- The pieces up to the first delimiter. Marks at the end of the text are left over. -/
theorem Spelled.reads (hspelled : Spelled f run chars inner) (hfew : run ≤ f.freeMarks)
    (rest : List Char) :
    ∃ pieces k, chars = pieces.flatten ++ List.replicate k f.mark ∧ k ≤ f.freeMarks ∧
      repeatedly (piece f) (inner ++ (f.delimiter ++ rest)) =
        some (pieces, List.replicate k f.mark ++ rest) := by
  induction hspelled with
  | nil => exact ⟨[], 0, rfl, Nat.zero_le _, repeatedly_nil (piece_delimiter f rest)⟩
  | @mark run chars inner hfree hspelled ih =>
    obtain ⟨k, hroom, rfl, rfl⟩ | hinside := hspelled.marks_or_inside hfree
    · -- The delimiter is seen at once, and as many marks behind it as there are in front of it.
      have hmarks : f.mark :: List.replicate k f.mark ++ (f.delimiter ++ rest) =
          f.delimiter ++ (List.replicate (k + 1) f.mark ++ rest) := by
        rw [f.delimiter_eq, ← List.append_assoc, ← List.append_assoc, ← List.replicate_succ,
          List.replicate_append_replicate, List.replicate_append_replicate, Nat.add_comm]
      refine ⟨[], k + 1, rfl, by omega, repeatedly_nil ?_⟩
      rw [hmarks]
      exact piece_delimiter f _
    · obtain ⟨pieces, k, rfl, hmost, hread⟩ := ih hfree
      -- (inner ++ (f.delimiter ++ rest))) = :: with anything else in between, this mark is not yet
      -- part of the delimiter
      have hhere : piece f (f.mark :: (inner ++ (f.delimiter ++ rest))) =
          some (some [f.mark], inner ++ (f.delimiter ++ rest)) := by
        refine piece_shown f.isShown_mark (fun _ => f.mark_ne.2.2) fun hfound => ?_
        rw [f.delimiter_eq, List.replicate_succ, List.cons_prefix_cons] at hfound
        refine hinside _ (.trans ⟨List.replicate run f.mark, ?_⟩ hfound.2)
        rw [List.replicate_append_replicate]
        congr 1
        omega
      exact ⟨[f.mark] :: pieces, k, rfl, hmost, repeatedly_cons hhere (Nat.lt_succ_self _) hread⟩
  | @char run c chars written inner hshows hspelled ih =>
    obtain ⟨pieces, k, rfl, hmost, hread⟩ := ih (Nat.zero_le _)
    have hhere := hshows.reads (inner ++ (f.delimiter ++ rest))
    obtain ⟨first, code, rfl, -⟩ := hshows.starts
    rw [← List.append_assoc] at hhere
    refine ⟨[c] :: pieces, k, rfl, hmost, repeatedly_cons hhere ?_ hread⟩
    simp only [List.cons_append, List.append_assoc, List.length_cons, List.length_append]
    omega

/-- The marks that belong to the text, as far as there are any. -/
theorem lateMarks_replicate {k : Nat} (hfew : k ≤ f.freeMarks) (hends : rest.head? ≠ some f.mark) :
    lateMarks f (List.replicate k f.mark ++ rest) = some (List.replicate k f.mark, rest) := by
  have hstop := acceptOne_of_head?_ne hends
  unfold Form.freeMarks at hfew
  cases hlines : f.isMultiline with
  | false =>
    rw [hlines] at hfew
    obtain rfl : k = 0 := by simpa using hfew
    simp [lateMarks, hlines]
  | true =>
    rw [hlines] at hfew
    -- no more than two may be left over
    obtain rfl | rfl | rfl : k = 0 ∨ k = 1 ∨ k = 2 := by simp at hfew; omega
    all_goals simp [lateMarks, hlines, hstop, List.replicate]

/-- A text without line ends does not start with one in its quotes. -/
theorem Spelled.newline?_eq_none (hspelled : Spelled f run chars inner) (hline : '\n' ∉ chars)
    (rest : List Char) :
    newline? (inner ++ (f.delimiter ++ rest)) = some (none, inner ++ (f.delimiter ++ rest)) := by
  cases hspelled with
  | nil =>
    rw [f.delimiter_eq, List.replicate_succ]
    exact newline?_of_ne f.mark_ne.1 f.mark_ne.2.1 _
  | mark => exact newline?_of_ne f.mark_ne.1 f.mark_ne.2.1 _
  | char hshows hspelled =>
    obtain ⟨first, code, rfl, -, hret, hstarts⟩ := hshows.starts
    refine newline?_of_ne (fun hfirstLine => hline ?_) hret _
    rw [hstarts hfirstLine]
    exact List.mem_cons_self

/-- A text is read from behind its opening delimiter, where an end of line stands in front of it if
it has several lines. -/
theorem body_spelled (hspelled : Spelled f 0 text inner)
    (hsingle : f.isMultiline = false → '\n' ∉ text) (hends : rest.head? ≠ some f.mark) :
    body f ((if text.contains '\n' then ['\n'] else []) ++ (inner ++ (f.delimiter ++ rest))) =
      some (text, rest) := by
  obtain ⟨pieces, k, hwhole, hfew, hread⟩ := hspelled.reads (Nat.zero_le _) rest
  have hlate := lateMarks_replicate hfew hends
  -- a line end right behind the delimiter is dropped, so one is written where the text might begin
  -- with one
  by_cases hline : '\n' ∈ text
  · have hlines : f.isMultiline = true := by
      cases hone : f.isMultiline with
      | false => exact absurd hline (hsingle hone)
      | true => rfl
    simp [body, hlines, hline, newline?_newline, hread, hlate, ← hwhole]
  · have hfirst := hspelled.newline?_eq_none hline rest
    have hstart : (if text.contains '\n' then ['\n'] else []) = [] := by simp [hline]
    rw [hstart, List.nil_append]
    cases hlines : f.isMultiline <;>
      simp only [body, hlines, bind_apply, Option.bind_some, Bool.false_eq_true, if_false,
        if_true, hfirst, hread, hlate, ← hwhole, pure_apply]

/-! ## Quoted texts -/

/-- The form shows in the opening delimiter, where that of a single line does not look like that of
several. -/
theorem openedForm_delimiter (f : Form)
    (hsingle : f.isMultiline = false → ¬ [f.mark, f.mark] <+: rest) :
    openedForm (f.delimiter ++ rest) = some (f, rest) := by
  -- A delimiter of the other mark is out of the question.
  have hother {g : Form} (hne : f.mark ≠ g.mark) : ¬ g.delimiter <+: f.delimiter ++ rest := by
    rw [f.delimiter_eq, List.replicate_succ]
    exact not_starts_delimiter hne _
  have hhere := accept_append f.delimiter rest
  cases f with
  | basicLines => simp [openedForm, hhere]
  | literalLines =>
    have hbasic := accept_of_not_starts (hother (g := .basicLines) (by decide))
    simp [openedForm, hbasic, hhere]
  | basic =>
    have hlines : ¬ Form.basicLines.delimiter <+: Form.basic.delimiter ++ rest := by
      intro hfound
      exact hsingle rfl ((List.cons_prefix_cons.mp hfound).2)
    have hliteral := accept_of_not_starts (hother (g := .literalLines) (by decide))
    simp [openedForm, accept_of_not_starts hlines, hliteral, hhere]
  | literal =>
    have hlines : ¬ Form.literalLines.delimiter <+: Form.literal.delimiter ++ rest := by
      intro hfound
      exact hsingle rfl ((List.cons_prefix_cons.mp hfound).2)
    have hbasicLines := accept_of_not_starts (hother (g := .basicLines) (by decide))
    have hbasic := accept_of_not_starts (hother (g := .basic) (by decide))
    simp [openedForm, hbasicLines, hbasic, accept_of_not_starts hlines, expect_append]

/-- Without any mark no run is counted. -/
theorem foldl_countRun_of_not_mem {mark : Char} (hnone : mark ∉ text) (best run : Nat) :
    (text.foldl (countRun mark) (best, run)).1 = best := by
  induction text generalizing run with
  | nil => rfl
  | cons c text ih =>
    have hother : c ≠ mark := fun hsame => hnone (hsame ▸ List.mem_cons_self)
    rw [List.foldl_cons, countRun, if_neg hother]
    exact ih (fun hlater => hnone (List.mem_cons_of_mem _ hlater)) 0

/-- The chosen form goes over one line only where the text does, and does without escapes only where
nothing needs one. -/
theorem Form.of_fits (text : List Char) :
    ((Form.of text).isMultiline = false → '\n' ∉ text) ∧
    ((Form.of text).hasEscapes = false →
      text.any needsEscape = false ∧
        (text.foldl (countRun (Form.of text).mark) (0, 0)).1 ≤ (Form.of text).freeMarks) := by
  unfold Form.of
  dsimp only
  -- one case for each form, in the order in which they are tried
  split
  · rename_i hfits
    simp only [Bool.and_eq_true, Bool.not_eq_true', List.contains_eq_mem,
      decide_eq_false_iff_not] at hfits
    exact ⟨fun _ => hfits.2, nofun⟩
  split
  · rename_i hfits
    simp only [Bool.and_eq_true, Bool.not_eq_true', List.contains_eq_mem,
      decide_eq_false_iff_not] at hfits
    refine ⟨fun _ => hfits.2, fun _ => ⟨hfits.1.1, ?_⟩⟩
    exact Nat.le_of_eq (foldl_countRun_of_not_mem hfits.1.2 0 0)
  split
  · exact ⟨nofun, nofun⟩
  split
  · rename_i hfits
    simp only [Bool.and_eq_true, Bool.not_eq_true', decide_eq_true_eq] at hfits
    exact ⟨nofun, fun _ => hfits⟩
  split
  · exact ⟨nofun, nofun⟩
  · rename_i hline
    exact ⟨fun _ => by simpa using hline, nofun⟩

/-- What is written of a text lies between delimiters of its form. -/
theorem write_eq (text : String) :
    ∃ inner, Spelled (Form.of text.toList) 0 text.toList inner ∧
      write text = (Form.of text.toList).delimiter ++
        ((if text.toList.contains '\n' then ['\n'] else []) ++
          (inner ++ (Form.of text.toList).delimiter)) := by
  obtain ⟨hsingle, hliteral⟩ := Form.of_fits text.toList
  unfold write
  dsimp only
  cases hescapes : (Form.of text.toList).hasEscapes with
  | true =>
    exact ⟨_, spelled_escapedText hescapes 0 _, by simp only [if_true, List.append_assoc]⟩
  | false =>
    obtain ⟨hplain, hfew⟩ := hliteral hescapes
    refine ⟨_, spelled_self hescapes 0 0 _ (fun c hinside => ?_) hfew,
      by simp only [Bool.false_eq_true, if_false, List.append_assoc]⟩
    -- a form without escapes was chosen only if nothing needs one
    have hunescaped : c ≠ '\n' → isShown c = true := by
      simpa [needsEscape] using List.any_eq_false.mp hplain c hinside
    by_cases hline : c = '\n'
    · cases hlines : (Form.of text.toList).isMultiline with
      | true => exact .inr ⟨hline, rfl⟩
      | false => exact absurd (hline ▸ hinside) (hsingle hlines)
    · exact .inl (hunescaped hline)

/-- The opening delimiter of a text of one line does not look like that of several lines. -/
theorem Spelled.not_tripled (hspelled : Spelled f 0 text inner) (hone : f.isMultiline = false)
    (hends : rest.head? ≠ some f.mark) : ¬ [f.mark, f.mark] <+: inner ++ (f.delimiter ++ rest) := by
  intro hfound
  have hmarks := hspelled.marks_or_inside (Nat.zero_le _)
  simp only [Form.freeMarks, hone, Bool.false_eq_true, if_false] at hmarks
  obtain ⟨k, hnone, -, rfl⟩ | hinside := hmarks
  · obtain rfl : k = 0 := by omega
    rw [Form.delimiter_of_single hone] at hfound
    have hbehind : [f.mark] <+: rest := (List.cons_prefix_cons.mp hfound).2
    obtain ⟨more, rfl⟩ := hbehind
    exact hends rfl
  · exact hinside _ (.trans ⟨[f.mark], rfl⟩ hfound)

/-- **A quoted text is read back.** No quote may follow, since it might belong to the text. -/
theorem quotedText_write (text : String) {rest : List Char}
    (hends : ∀ f : Form, rest.head? ≠ some f.mark) :
    quotedText (write text ++ rest) = some (text, rest) := by
  obtain ⟨inner, hspelled, hwritten⟩ := write_eq text
  obtain ⟨hsingle, -⟩ := Form.of_fits text.toList
  rw [hwritten]
  generalize Form.of text.toList = f at *
  have hinside := body_spelled hspelled hsingle (hends f)
  -- the opening delimiter is not taken for a longer one
  have htripled : f.isMultiline = false → ¬ [f.mark, f.mark] <+:
      (if text.toList.contains '\n' then ['\n'] else []) ++ (inner ++ (f.delimiter ++ rest)) := by
    intro hone
    have hstart : (if text.toList.contains '\n' then ['\n'] else []) = [] := by
      simpa using hsingle hone
    rw [hstart, List.nil_append]
    exact hspelled.not_tripled hone (hends f)
  simp only [List.append_assoc, quotedText, bind_apply, openedForm_delimiter f htripled,
    Option.bind_some, hinside, pure_apply, String.ofList_toList]

/-- A quoted text starts with a quote. -/
theorem exists_mark_head? (text : String) (rest : List Char) :
    ∃ f : Form, (write text ++ rest).head? = some f.mark := by
  obtain ⟨inner, -, hwritten⟩ := write_eq text
  refine ⟨Form.of text.toList, ?_⟩
  rw [hwritten, Form.delimiter_eq, List.replicate_succ]
  rfl

end GridBridge.Config.Toml
