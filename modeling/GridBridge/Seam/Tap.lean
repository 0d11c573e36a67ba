import GridBridge.Seam.Transcript

/-!
# Seam: taps

A tap sits between a script and its runtime. It can write down what crosses the seam, answer chosen
calls in place of the runtime, and hold asynchronous calls back so that they are completed by hand.
-/

namespace GridBridge.Seam

open Protocol

/-- An answer to be given in place of the runtime. -/
structure Substitute where
  /-- The kind of call it stands in for. -/
  call : String
  /-- Calls of this kind that still go through first. -/
  skip : Nat := 0
  /-- How often it is used; `none` for ever. -/
  times : Option Nat := some 1
  /-- Leave a missing class of this name pending. -/
  raises : Option String := none
  /-- The number to answer with. -/
  number : Int := 0
  /-- The text to answer with. -/
  text : Option String := none
  /-- Complete the asynchronous call with this first. -/
  completes : Option Completion := none
  deriving DecidableEq, Repr

/-- An asynchronous call that was held back. -/
structure HeldCall where
  callback : Word
  data : Word
  /-- A completion for it has been passed on. -/
  completed : Bool := false
  deriving DecidableEq, Repr

structure Tap where
  tracing : Bool := false
  /-- What crossed the seam, newest first. -/
  lines : List String := []
  substitutes : List Substitute := []
  /-- Asynchronous calls are held back. -/
  holding : Bool := false
  held : List HeldCall := []
  deriving DecidableEq, Repr

namespace Substitute

/-- What is left of it after one use. -/
def used? (s : Substitute) : Option Substitute :=
  match s.times with
  | none => some s
  | some times => if times ≤ 1 then none else some { s with times := some (times - 1) }

/-- What it answers to a call: the number or text it was given, cut to the width of the answer, and
null or nothing else. The number of a method identifies one unless it is zero. -/
def reply (s : Substitute) : (request : Call) → request.Reply
  | .launch _ => .error (Int32.ofInt s.number)
  | .attach => .error (Int32.ofInt s.number)
  | .destroy => ()
  | .findClass _ => Ref.null
  | .getMethodId .. => if s.number = 0 then none else some ⟨UInt64.ofInt s.number⟩
  | .getObjectClass _ => Ref.null
  | .newString _ => Ref.null
  | .getString _ => s.text
  | .callStatic .. => Ref.null
  | .callObject .. => Ref.null
  | .callInt .. => Int32.ofInt s.number
  | .callLong .. => Int64.ofInt s.number
  | .callVoid .. => ()
  | .exceptionCheck => s.number != 0
  | .exceptionOccurred => Ref.null
  | .exceptionDescribe => ()
  | .exceptionClear => ()
  | .newGlobalRef _ => Ref.null
  | .deleteGlobalRef _ => ()
  | .deleteLocalRef _ => ()
  | .registerNatives .. => Int32.ofInt s.number

/-- The number that it states where a call is written down with one. It is not cut to any width. -/
def stated? (s : Substitute) : Call → Option Int
  | .getMethodId .. | .callInt .. | .callLong .. | .callVoid .. | .registerNatives .. =>
    some s.number
  | _ => none

/-- The first substitute for a kind of call decides: while it skips, the call goes through; else it
is used. What is left of the list comes with it. -/
def choose (call : String) : List Substitute → Option Substitute × List Substitute
  | [] => (none, [])
  | s :: rest =>
    if s.call ≠ call then
      let (chosen, left) := choose call rest
      (chosen, s :: left)
    else if s.skip > 0 then (none, { s with skip := s.skip - 1 } :: rest)
    else (some s, s.used?.toList ++ rest)

end Substitute

namespace Tap

/-- Writes a line down while tracing. -/
def trace (t : Tap) (line : String) : Tap :=
  if t.tracing then { t with lines := line :: t.lines } else t

/-- Some held call has had no completion passed on. -/
def awaitsCompletion (t : Tap) : Bool := t.held.any (!·.completed)

/-- Notes that a completion for a held call was passed on. -/
def markCompleted (t : Tap) (index : Nat) : Tap :=
  { t with held := t.held.modify index fun call => { call with completed := true } }

end Tap

/-- Whether a call is made on an attached thread, where an exception can be left pending. -/
def Call.onThread : Call → Bool
  | .launch _ | .attach | .destroy => false
  | _ => true

/-- Whether a substitute's exception is left pending by a call. Reading a text out only ever answers
with a text or with none. -/
def Call.canRaise : Call → Bool
  | .getString _ => false
  | request => request.onThread

/-- The callback and data of an asynchronous operation call. -/
def Call.asyncTarget? : Call → Option (Word × Word)
  | .callVoid _ _ _ [_, _, _, .long callback, .long data] => some (callback, data)
  | _ => none

end GridBridge.Seam
