import GridBridge.Proofs.Seam.Trace

/-!
# Watches: a script past a runtime that fails in band

A **`Watch`** follows a script past any runtime that fails in band, and writes down whether a managed
method was called with an exception pending (`early`), and whether reading a class or a string raised
(`misread`). `wp_watch` is the one rule of the contract `watching`.
-/

namespace GridBridge.Seam

open Protocol

/-! ## What is watched -/

namespace Call

/-- Calls of managed methods. -/
@[simp] def isManaged : Call → Bool
  | .callStatic .. | .callObject .. | .callInt .. | .callLong .. | .callVoid .. => true
  | _ => false

/-- Calls that read an object without a managed method. -/
@[simp] def reads : Call → Bool
  | .getObjectClass _ | .getString _ => true
  | _ => false

/-- Calls of this accessor. -/
@[simp] def calls (accessor : MethodId) : Call → Nat
  | .callObject _ method _ => if method = accessor then 1 else 0
  | _ => 0

end Call

/-- What happened on a thread so far. -/
structure Watch where
  pending : Bool := false
  /-- A managed method was called with an exception pending. -/
  early : Bool := false
  /-- Reading a class or a string raised. -/
  misread : Bool := false
  /-- Calls of the message accessor. -/
  messages : Nat := 0
  /-- All calls. -/
  length : Nat := 0
  deriving DecidableEq, Repr

namespace Watch

/-- One call more, after which `pending` says whether an exception is pending. -/
def note (w : Watch) (message : MethodId) (request : Call) (pending : Bool) : Watch where
  pending := pending
  early := w.early || (request.isManaged && w.pending)
  misread := w.misread || (request.reads && !w.pending && pending)
  messages := w.messages + request.calls message
  length := w.length + 1

/-- From `w` to `w'` these things were written down. -/
structure Goes (w w' : Watch) (early misread : Bool) (messages length : Nat) : Prop where
  early : w'.early = (w.early || early)
  misread : w'.misread = (w.misread || misread)
  messages : w'.messages = w.messages + messages
  length : w'.length ≤ w.length + length

variable {w w' w'' : Watch} {early early' misread misread' : Bool} {m m' n n' : Nat}

theorem Goes.rfl : w.Goes w false false 0 0 := by
  constructor <;> simp

theorem Goes.trans (h : w.Goes w' early misread m n) (h' : w'.Goes w'' early' misread' m' n') :
    w.Goes w'' (early || early') (misread || misread') (m + m') (n + n') where
  early := by rw [h'.early, h.early, Bool.or_assoc]
  misread := by rw [h'.misread, h.misread, Bool.or_assoc]
  messages := by rw [h'.messages, h.messages, Nat.add_assoc]
  length := by
    have := h.length
    have := h'.length
    omega

theorem Goes.mono (h : w.Goes w' early misread m n) (hle : n ≤ n') :
    w.Goes w' early misread m n' :=
  ⟨h.early, h.misread, h.messages, by have := h.length; omega⟩

theorem goes_note (w : Watch) (message : MethodId) (request : Call) (p : Bool) :
    w.Goes (w.note message request p) (request.isManaged && w.pending)
      (request.reads && !w.pending && p) (request.calls message) 1 :=
  ⟨Eq.refl _, Eq.refl _, Eq.refl _, Nat.le_refl _⟩

end Watch

/-- Any call may be made, and any answer within the failure contract may come back. -/
def watching (message : MethodId) : Contract Watch where
  takes _ _ := True
  answers w request reply w' :=
    ∃ p, InBand w.pending request reply p ∧ w' = w.note message request p

/-- An answer with nothing pending. -/
theorem Contract.Run.quiet {message : MethodId} {w w' : Watch} {request : Call} {reply : request.Reply}
    {events : List Script.Event} (hleaves : request.leaves w.pending false)
    (htruthful : request.truthful reply w.pending)
    (hrest : (watching message).Run (w.note message request false) events w') :
    (watching message).Run w (.called request reply :: events) w' :=
  .called ⟨false, ⟨hleaves, htruthful, nofun, nofun⟩, rfl⟩ hrest

/-- An answer with an exception pending. -/
theorem Contract.Run.raised {message : MethodId} {w w' : Watch} {request : Call} {reply : request.Reply}
    {events : List Script.Event} (hleaves : request.leaves w.pending true)
    (htruthful : request.truthful reply w.pending)
    (hnoLocal : request = .exceptionOccurred ∨ request.newLocal reply = .null)
    (hnoGlobal : request.newGlobal reply = .null)
    (hrest : (watching message).Run (w.note message request true) events w') :
    (watching message).Run w (.called request reply :: events) w' :=
  .called ⟨true, ⟨hleaves, htruthful, fun _ h => hnoLocal.resolve_left h, fun _ => hnoGlobal⟩, rfl⟩
    hrest

namespace Script

variable {message : MethodId} {w : Watch}

theorem wp_watch {request : Call} {Q : request.Reply → Watch → Prop}
    (h : ∀ reply w', InBand w.pending request reply w'.pending →
      w.Goes w' (request.isManaged && w.pending) (request.reads && !w.pending && w'.pending)
        (request.calls message) 1 → Q reply w') :
    (ask request).wp (watching message) Q w := by
  refine wp_ask.mpr ⟨trivial, ?_⟩
  intro reply w' hanswers
  obtain ⟨p, hinBand, rfl⟩ := hanswers
  exact h reply _ hinBand (w.goes_note message request p)

/-- A misread stays on the books. -/
theorem wp_misread {α : Type} {x : Script α} (h : w.misread = true) :
    x.wp (watching message) (fun _ w' => w'.misread = true) w := by
  induction x generalizing w with
  | done value => exact h
  | call request next ih =>
    refine ⟨trivial, ?_⟩
    intro reply w' hanswers
    obtain ⟨p, _, rfl⟩ := hanswers
    exact ih reply (by rw [Watch.note, h, Bool.true_or])
  | report fault next ih => exact ih h

end Script

end GridBridge.Seam
