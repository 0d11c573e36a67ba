import GridBridge.Error
import GridBridge.Seam.Call

/-!
# Seam: scripts of calls

A bridge operation is a script: a tree that asks the runtime one call at a time, goes on with
whatever it answers, and ends in a value. Any runtime can play a script (`Script.run`), and
`Script.Follows` says which sequences of calls and answers a script can go through, whatever the
runtime does.
-/

namespace GridBridge.Seam

/-- Calls to make, faults to report to the error callback, and a value at the end. -/
inductive Script (α : Type) where
  | done (value : α)
  | call (request : Call) (next : request.Reply → Script α)
  | report (fault : ManagedFault) (next : Script α)

namespace Script

variable {α β : Type}

/-- Goes on with another script where this one ends. -/
def bind : Script α → (α → Script β) → Script β
  | .done value, f => f value
  | .call request next, f => .call request fun reply => (next reply).bind f
  | .report fault next, f => .report fault (next.bind f)

instance : Monad Script where
  pure := .done
  bind := .bind

@[simp] theorem pure_eq (value : α) : (pure value : Script α) = .done value := rfl

@[simp] theorem done_bind (value : α) (f : α → Script β) :
    ((Script.done value : Script α) >>= f) = f value := rfl

@[simp] theorem call_bind (request : Call) (next : request.Reply → Script α) (f : α → Script β) :
    (Script.call request next >>= f) = .call request fun reply => next reply >>= f := rfl

@[simp] theorem report_bind (fault : ManagedFault) (next : Script α) (f : α → Script β) :
    (Script.report fault next >>= f) = .report fault (next >>= f) := rfl

theorem bind_done (s : Script α) : (s >>= Script.done) = s := by
  induction s with
  | done value => rfl
  | call request next ih => simp [ih]
  | report fault next ih => simp [ih]

theorem bind_assoc {γ : Type} (s : Script α) (f : α → Script β) (g : β → Script γ) :
    ((s >>= f) >>= g) = (s >>= fun value => f value >>= g) := by
  induction s with
  | done value => rfl
  | call request next ih => simp [ih]
  | report fault next ih => simp [ih]

instance : LawfulMonad Script :=
  LawfulMonad.mk' Script bind_done (fun _ _ => rfl) bind_assoc

/-- The script of one call. -/
def ask (request : Call) : Script request.Reply := .call request .done

/-- Tells the error callback of a fault. -/
def tell (fault : ManagedFault) : Script Unit := .report fault (.done ())

/-- Plays a script against a runtime: `answer` answers its calls, `reported` takes its reports. -/
def run {m : Type → Type} [Monad m] (answer : (request : Call) → m request.Reply)
    (reported : ManagedFault → m Unit) : Script α → m α
  | .done value => pure value
  | .call request next => do
    let reply ← answer request
    (next reply).run answer reported
  | .report fault next => do
    reported fault
    next.run answer reported

/-! ## What a script can go through -/

/-- One thing that happened while a script was played. -/
inductive Event where
  | called (request : Call) (reply : request.Reply)
  | reported (fault : ManagedFault)

/-- The script can go through these events and end in this value. The answers are arbitrary. -/
inductive Follows : Script α → List Event → α → Prop where
  | done (value : α) : Follows (.done value) [] value
  | call {request : Call} {next : request.Reply → Script α} {events : List Event} {value : α}
      (reply : request.Reply) (hrest : Follows (next reply) events value) :
      Follows (.call request next) (.called request reply :: events) value
  | report {fault : ManagedFault} {next : Script α} {events : List Event} {value : α}
      (hrest : Follows next events value) :
      Follows (.report fault next) (.reported fault :: events) value

end Script

/-- A script that may end in an error of the bridge. -/
abbrev Operation := ExceptT BridgeError Script

end GridBridge.Seam
