import GridBridge.Proofs.Seam.Ledger
import Mathlib.Algebra.Order.Sub.Basic

/-!
# Traces: references counted over events

What a ledger says can be counted from the events themselves: the references that came with answers,
those that were given back, and what was registered and destroyed. `Kept.locals_add` and its likes
say that a ledger that was kept to the rules agrees with the counts.
-/

namespace GridBridge.Seam

open Protocol

namespace Script

/-! ## Counting -/

namespace Event

def newLocal : Event → Ref
  | .called request reply => request.newLocal reply
  | .reported _ => .null

def newGlobal : Event → Ref
  | .called request reply => request.newGlobal reply
  | .reported _ => .null

def lostLocal : Event → Ref
  | .called request _ => request.lostLocal
  | .reported _ => .null

def lostGlobal : Event → Ref
  | .called request _ => request.lostGlobal
  | .reported _ => .null

/-- Native methods that were registered with success. -/
def registration? : Event → Option (Ref × List NativeMethod)
  | .called (.registerNatives cls methods) status =>
    if status = Status.ok then some (cls, methods) else none
  | _ => none

def isLaunch : Event → Bool
  | .called (.launch _) (.ok _) => true
  | _ => false

def isDestroy : Event → Bool
  | .called .destroy _ => true
  | _ => false

end Event

/-- The local references that came with answers, each as often as it came. -/
def localsOut (events : List Event) : Multiset Ref := (events.map fun e => held e.newLocal).sum

/-- The local references that were given back, each as often as it was. -/
def localsBack (events : List Event) : Multiset Ref := (events.map fun e => held e.lostLocal).sum

/-- The global references that came with answers, each as often as it came. -/
def globalsOut (events : List Event) : Multiset Ref := (events.map fun e => held e.newGlobal).sum

/-- The global references that were given back, each as often as it was. -/
def globalsBack (events : List Event) : Multiset Ref := (events.map fun e => held e.lostGlobal).sum

/-- What was registered with success, oldest first. -/
def registrations (events : List Event) : List (Ref × List NativeMethod) :=
  events.filterMap (·.registration?)

/-- How often a runtime was launched with success. -/
def launches (events : List Event) : Nat := events.countP (·.isLaunch)

/-- How often the runtime was destroyed. -/
def destroys (events : List Event) : Nat := events.countP (·.isDestroy)

/-- A reference leads to a class: it was found under the name of the class, or it is a durable
reference to what another such reference leads to. -/
inductive ClassOf (events : List Event) : Ref → String → Prop where
  | found {r : Ref} {name : String} (hmem : .called (.findClass name) r ∈ events)
      (hnonNull : r.isNull = false) : ClassOf events r name
  | shared {obj r : Ref} {name : String} (hof : ClassOf events obj name)
      (hmem : .called (.newGlobalRef obj) r ∈ events) (hnonNull : r.isNull = false) :
      ClassOf events r name

/-! ## Answers within the failure contract -/

/-- Every answer is within the failure contract, from `p` pending at first to `p'` at last. -/
inductive InBandRun : Bool → List Event → Bool → Prop where
  | done (p : Bool) : InBandRun p [] p
  | called {p p' p'' : Bool} {request : Call} {reply : request.Reply} {events : List Event}
      (hinBand : InBand p request reply p') (hrest : InBandRun p' events p'') :
      InBandRun p (.called request reply :: events) p''
  | reported {p p' : Bool} {fault : ManagedFault} {events : List Event}
      (hrest : InBandRun p events p') : InBandRun p (.reported fault :: events) p'

/-- The lenient rules count on nothing but the failure contract. -/
theorem InBandRun.run {p p' : Bool} {events : List Event} (h : InBandRun p events p') {ℓ : Ledger}
    (hp : ℓ.pending = p) : ∃ ℓ', (rules False).Run ℓ events ℓ' := by
  induction h generalizing ℓ with
  | done p => exact ⟨ℓ, .done ℓ⟩
  | @called p p' _ request reply _ hinBand hrest ih =>
    subst hp
    obtain ⟨ℓ', hrun⟩ := @ih (ℓ.record request reply p') rfl
    exact ⟨ℓ', .called ⟨_, hinBand, False.elim, rfl⟩ hrun⟩
  | reported hrest ih =>
    obtain ⟨ℓ', hrun⟩ := ih hp
    exact ⟨ℓ', .reported hrun⟩

/-! ## The ledger agrees with the counts -/

section Kept

variable {strict : Prop} {ℓ ℓ' : Ledger} {events : List Event}

/-- One event more: what it takes away was held, so that nothing is cut off. -/
theorem add_back {before gain loss after back out : Multiset Ref} (hlost : loss ≤ before + gain)
    (hrest : after + back = before + gain - loss + out) :
    after + (loss + back) = before + (gain + out) := by
  rw [add_left_comm, hrest, ← add_assoc, add_tsub_cancel_of_le hlost, add_assoc]

/-- What was held and what came is what was given back and what is held. -/
theorem locals_add_localsBack (h : (rules strict).Kept ℓ events ℓ') :
    ℓ'.locals + localsBack events = ℓ.locals + localsOut events := by
  induction h with
  | done ℓ => rfl
  | called htakes hanswers _ ih =>
    obtain ⟨p, _, _, rfl⟩ := hanswers
    exact add_back (htakes.2.2.1.trans (Multiset.le_add_right _ _)) ih
  | reported _ ih => simpa [localsBack, localsOut, Event.newLocal, Event.lostLocal] using ih

theorem globals_add_globalsBack (h : (rules strict).Kept ℓ events ℓ') :
    ℓ'.globals + globalsBack events = ℓ.globals + globalsOut events := by
  induction h with
  | done ℓ => rfl
  | called htakes hanswers _ ih =>
    obtain ⟨p, _, _, rfl⟩ := hanswers
    exact add_back (htakes.2.2.2.1.trans (Multiset.le_add_right _ _)) ih
  | reported _ ih => simpa [globalsBack, globalsOut, Event.newGlobal, Event.lostGlobal] using ih

theorem registered_eq (h : (rules strict).Kept ℓ events ℓ') :
    ℓ'.registered = ℓ.registered ++ registrations events := by
  induction h with
  | done ℓ => simp [registrations]
  | @called ℓ ℓ' ℓ'' request reply events _ hanswers _ ih =>
    obtain ⟨p, _, _, rfl⟩ := hanswers
    have hrecord : (ℓ.record request reply p).registered =
        Ledger.note ℓ.registered request reply := rfl
    have hnote : Ledger.note ℓ.registered request reply =
        ℓ.registered ++ ((Event.called request reply).registration?).toList := by
      cases request <;> simp [Event.registration?]
      split <;> simp
    rw [ih, hrecord, hnote, List.append_assoc, registrations, registrations]
    cases hr : (Event.called request reply).registration? <;> simp [hr]
  | reported _ ih => simpa [registrations, Event.registration?] using ih

theorem launches_eq (h : (rules strict).Kept ℓ events ℓ') :
    ℓ'.launches = ℓ.launches + launches events := by
  induction h with
  | done ℓ => rfl
  | @called ℓ ℓ' ℓ'' request reply events _ hanswers _ ih =>
    obtain ⟨p, _, _, rfl⟩ := hanswers
    have hrecord : (ℓ.record request reply p).launches =
        ℓ.launches + if (Event.called request reply).isLaunch then 1 else 0 := by
      cases request with
      | launch args => cases reply <;> rfl
      | _ => rfl
    rw [ih, hrecord, launches, launches, List.countP_cons]
    omega
  | reported _ ih => simpa [launches, Event.isLaunch] using ih

theorem destroys_eq (h : (rules strict).Kept ℓ events ℓ') :
    ℓ'.destroys = ℓ.destroys + destroys events := by
  induction h with
  | done ℓ => rfl
  | @called ℓ ℓ' ℓ'' request reply events _ hanswers _ ih =>
    obtain ⟨p, _, _, rfl⟩ := hanswers
    have hrecord : (ℓ.record request reply p).destroys =
        ℓ.destroys + if (Event.called request reply).isDestroy then 1 else 0 := by
      cases request <;> rfl
    rw [ih, hrecord, destroys, destroys, List.countP_cons]
    omega
  | reported _ ih => simpa [destroys, Event.isDestroy] using ih

/-- Every class that the ledger knows a reference to is one that the events led to. -/
theorem classOf_of_kept (h : (rules strict).Kept ℓ events ℓ') {all : List Event}
    (hall : events ⊆ all) (hknown : ∀ c ∈ ℓ.classes, ClassOf all c.1 c.2) :
    ∀ c ∈ ℓ'.classes, ClassOf all c.1 c.2 := by
  induction h with
  | done ℓ => exact hknown
  | @called ℓ ℓ' ℓ'' request reply events _ hanswers _ ih =>
    obtain ⟨_, _, _, rfl⟩ := hanswers
    obtain ⟨hevent, hrest⟩ := List.cons_subset.mp hall
    refine ih hrest fun c hc => ?_
    cases request with
    -- only a class that was found, or a durable reference to one, adds to what is known
    | findClass name =>
      have hc : c ∈ Ledger.learn ℓ.classes (.findClass name) reply := hc
      rw [Ledger.learn] at hc
      split at hc
      · exact hknown c hc
      · rename_i hnull
        rcases List.mem_cons.mp hc with rfl | hc
        · exact .found hevent (by simpa using hnull)
        · exact hknown c hc
    | newGlobalRef obj =>
      have hc : c ∈ Ledger.learn ℓ.classes (.newGlobalRef obj) reply := hc
      rw [Ledger.learn] at hc
      split at hc
      · exact hknown c hc
      · rename_i hnull
        rcases List.mem_append.mp hc with hc | hc
        · obtain ⟨known, hmem, rfl⟩ := List.mem_map.mp hc
          obtain ⟨hmem, hobj⟩ := List.mem_filter.mp hmem
          have hof := hknown known hmem
          rw [of_decide_eq_true hobj] at hof
          exact .shared hof hevent (by simpa using hnull)
        · exact hknown c hc
    | _ => exact hknown c hc
  | reported _ ih => exact ih (List.cons_subset.mp hall).2 hknown

end Kept

end Script

end GridBridge.Seam
