import GridBridge.Bridge.Context
import GridBridge.Proofs.Bridge.Faults
import GridBridge.Proofs.Bridge.Resolution
import GridBridge.Proofs.Seam.Trace

/-!
# Starting: all or nothing

`Context.start` has three ends (`wp_start`): bound descriptors with their eight durable references, a
launch that was refused and left nothing, or a runtime that was taken down again with every reference
given back. `start_all_or_nothing` says the same of the calls themselves, for every runtime whose
answers are within the failure contract.
-/

namespace GridBridge.Bridge

open Protocol Seam Seam.Script Descriptors

variable {strict : Prop} {ℓ ℓ₀ : Ledger}

namespace Context

/-- A failed start is described, and the runtime destroyed. -/
theorem wp_abortStart {code : Status} {what : String} {classGetName throwableToString : Option MethodId}
    {Q : BridgeError → Ledger → Prop} (hup : ℓ.destroys = 0)
    (hname : strict → ∀ id, classGetName = some id → Ledger.Denotes id false)
    (htext : strict → ∀ id, throwableToString = some id → Ledger.Denotes id false)
    (hQ : ∀ e p, (strict → p = false) → Q e { ℓ with destroys := 1, pending := p }) :
    (abortStart code what classGetName throwableToString).wp (rules strict) Q ℓ := by
  unfold abortStart
  refine wp_bind.mpr (wp_describeStartupFault hup hname htext ?_)
  rintro ⟨className, message⟩ p hp
  refine wp_bind.mpr (wp_destroy hup ?_)
  intro p' hp'
  exact hQ _ p' (clear_of_clear hp hp')

/-- The three ends of a start. -/
theorem wp_start (args : LaunchArgs) (hup : ℓ₀.destroys = 0) (hclear : strict → ℓ₀.pending = false)
    {Q : Descriptors → Ledger → Prop} {E : BridgeError → Ledger → Prop}
    (hok : ∀ d classes p, d.Bound strict classes → (strict → p = false) →
      (strict → ℓ₀.launches = 0 → ℓ₀.vacant = true) → Q d { ℓ₀ with
        globals := ℓ₀.globals + d.classes
        classes
        registered := ℓ₀.registered ++ [(d.interopUtils, [completionMethod])]
        launches := ℓ₀.launches + 1
        pending := p })
    (hrefused : ∀ e p, (strict → p = false) → E e { ℓ₀ with pending := p })
    (haborted : ∀ e classes p, (strict → p = false) →
      (strict → ℓ₀.launches = 0 → ℓ₀.vacant = true) →
      E e { ℓ₀ with classes, launches := ℓ₀.launches + 1, destroys := 1, pending := p }) :
    Operation.wp (rules strict) (start args) Q E ℓ₀ := by
  unfold start
  refine Operation.wp_lift_bind.mpr (wp_launch hup ?_ ?_)
  · intro p hp hvacant
    refine Operation.wp_lift_bind.mpr (wp_attach hup ?_ ?_)
    · intro p' hp' _
      have hclear' : strict → p' = false := clear_of_clear (clear_of_clear hclear hp) hp'
      refine Operation.wp_lift_bind.mpr ?_
      refine wp_resolve ?_ ?_ ?_ ?_
      · exact hup
      · exact hclear'
      · intro d classes p hbound hp
        refine Operation.wp_lift_bind.mpr ?_
        have hutils : d.interopUtils ∈ d.classes := by simp [Descriptors.classes]
        refine wp_registerNatives hup ?_ hp ?_ ?_
        · exact Ledger.holds_of_globals (Multiset.mem_add.mpr (.inr hutils))
        · exact fun _ => ⟨ClassName.interopUtils, hbound.known _ (by simp [Descriptors.named])⟩
        · intro status p' hregistered
          -- registration is the last step that can fail, and the only one after which the
          -- descriptors have to be given back
          by_cases hstatus : status = Status.ok
          · rw [if_pos hstatus]
            have hdone := hok d classes p' hbound (fun hs => hregistered hs hstatus) hvacant
            rw [Ledger.note, if_pos hstatus]
            exact hdone
          · rw [if_neg hstatus]
            refine Operation.wp_lift_bind.mpr ?_
            refine Descriptors.wp_release hup hbound.nonNull rfl ?_
            refine Operation.wp_lift_bind.mpr ?_
            refine wp_abortStart hup ?_ ?_ ?_
            · rintro hs _ ⟨⟩
              exact hbound.denotes hs ClassName.cls Method.getName (by simp [looked])
            · rintro hs _ ⟨⟩
              exact hbound.denotes hs ClassName.throwable Method.toString (by simp [looked])
            · intro e p'' hp''
              rw [Ledger.note, if_neg hstatus]
              exact haborted e classes p'' hp'' hvacant
      · intro failure classes p hdescribes
        refine Operation.wp_lift_bind.mpr ?_
        refine wp_abortStart hup (fun hs => (hdescribes hs).1) (fun hs => (hdescribes hs).2) ?_
        intro e p' hp'
        exact haborted e classes p' hp' hvacant
    · intro code p' hp' _
      refine Operation.wp_lift_bind.mpr (wp_destroy hup ?_)
      intro p'' hp''
      have hclear' : strict → p' = false := clear_of_clear (clear_of_clear hclear hp) hp'
      exact haborted _ _ p'' (clear_of_clear hclear' hp'') hvacant
  · intro code p hp
    exact hrefused _ p (clear_of_clear hclear hp)

/-- A launch that is refused is the only call of a start. -/
theorem events_of_refused {args : LaunchArgs} {events : List Event}
    {outcome : Except BridgeError Descriptors}
    (hfollows : (start args).run.Follows events outcome) :
    ∃ reply rest, events = .called (.launch args) reply :: rest ∧
      (∀ code, reply = .error code → rest = [] ∧ ∃ e, outcome = .error e) := by
  cases hfollows with
  | call reply hrest =>
    refine ⟨reply, _, rfl, ?_⟩
    rintro code rfl
    cases hrest with
    | done value => exact ⟨rfl, _, rfl⟩

/-- **A start is all or nothing.** Whatever a runtime answers within the failure contract:

* no reference is used or given back that was not handed out and is still held at that point, and
  nothing is called once the runtime was destroyed;
* every local reference is given back as often as it was handed out;
* if the start succeeds, exactly the eight class references of the descriptors are held, each leading
  to its class, the completion entry was registered once and the runtime was not destroyed;
* if it fails, every global reference is given back as often as it was handed out, and the runtime
  was destroyed exactly once, unless the launch itself was refused and was the only call. -/
theorem start_all_or_nothing {args : LaunchArgs} {events : List Event}
    {outcome : Except BridgeError Descriptors} {p p' : Bool}
    (hfollows : (start args).run.Follows events outcome) (hinBand : InBandRun p events p') :
    (∀ before request reply after, events = before ++ .called request reply :: after →
      destroys before = 0 ∧
      (∀ r ∈ request.uses, r = .null ∨ r ∈ localsOut before - localsBack before ∨
        r ∈ globalsOut before - globalsBack before) ∧
      held request.lostLocal ≤ localsOut before - localsBack before ∧
      held request.lostGlobal ≤ globalsOut before - globalsBack before) ∧
    localsOut events = localsBack events ∧
    match outcome with
    | .ok d =>
      globalsOut events - globalsBack events = d.classes ∧ d.classes.length = 8 ∧
        (∀ c ∈ d.named, ClassOf events c.1 c.2) ∧
        registrations events = [(d.interopUtils, [completionMethod])] ∧ destroys events = 0
    | .error _ =>
      globalsOut events = globalsBack events ∧
        ∃ reply rest, events = .called (.launch args) reply :: rest ∧
          match reply with
          | .ok () => destroys events = 1
          | .error _ => rest = [] := by
  -- the ledger starts empty, whatever is pending
  let ℓ₀ : Ledger := { pending := p }
  obtain ⟨ℓ', hrun⟩ := hinBand.run (show ℓ₀.pending = p from rfl)
  have hstart : Operation.wp (rules False) (start args)
      (fun d ℓ => ℓ.locals = 0 ∧ ℓ.globals = d.classes ∧ d.Bound False ℓ.classes ∧
        ℓ.registered = [(d.interopUtils, [completionMethod])] ∧ ℓ.destroys = 0)
      (fun _ ℓ => ℓ.locals = 0 ∧ ℓ.globals = 0 ∧ ℓ.destroys = ℓ.launches ∧ ℓ.launches ≤ 1) ℓ₀ := by
    refine wp_start args rfl False.elim ?_ ?_ ?_
    · intro d classes p hbound _ _
      exact ⟨rfl, zero_add _, hbound, rfl, rfl⟩
    · intro e p _
      exact ⟨rfl, rfl, rfl, Nat.zero_le _⟩
    · intro e classes p _ _
      exact ⟨rfl, rfl, rfl, Nat.le_refl _⟩
  obtain ⟨hended, hkept⟩ := wp_follows hstart hfollows hrun
  -- what is held at any point is what was handed out and not given back
  have hlive : ∀ {before mid}, (rules False).Kept ℓ₀ before mid →
      mid.locals = localsOut before - localsBack before ∧
        mid.globals = globalsOut before - globalsBack before := by
    intro before mid hmid
    have hl := locals_add_localsBack hmid
    have hg := globals_add_globalsBack hmid
    rw [show ℓ₀.locals = 0 from rfl, zero_add] at hl
    rw [show ℓ₀.globals = 0 from rfl, zero_add] at hg
    exact ⟨by rw [← hl, add_tsub_cancel_right], by rw [← hg, add_tsub_cancel_right]⟩
  -- no local reference is left on either path
  have hlocals : ℓ'.locals = 0 := by
    cases outcome with
    | ok d => exact hended.1
    | error e => exact hended.1
  have hdestroys : ℓ'.destroys = destroys events := (destroys_eq hkept).trans (zero_add _)
  refine ⟨?_, ?_, ?_⟩
  · rintro before request reply after rfl
    obtain ⟨mid, hmid, hup, huses, hlostLocal, hlostGlobal, _⟩ := hkept.taken
    obtain ⟨hl, hg⟩ := hlive hmid
    rw [hl] at hlostLocal
    rw [hg] at hlostGlobal
    refine ⟨?_, ?_, hlostLocal, hlostGlobal⟩
    · rw [← hup, destroys_eq hmid]
      exact (zero_add _).symm
    · intro r hr
      rcases huses r hr with hnull | hmem | hmem
      · exact .inl hnull
      · exact .inr (.inl (hl ▸ hmem))
      · exact .inr (.inr (hg ▸ hmem))
  · have hl := locals_add_localsBack hkept
    rw [hlocals, zero_add] at hl
    exact (hl.trans (zero_add _)).symm
  · cases outcome with
    | ok d =>
      obtain ⟨_, hglobals, hbound, hregistered, hzero⟩ := hended
      refine ⟨(hlive hkept).2.symm.trans hglobals, rfl, ?_, ?_, hdestroys.symm.trans hzero⟩
      · intro c hc
        exact classOf_of_kept hkept (List.Subset.refl _) nofun c (hbound.known c hc)
      · rw [← hregistered, registered_eq hkept]
        rfl
    | error e =>
      obtain ⟨_, hglobals, hlaunches, hone⟩ := hended
      obtain ⟨reply, rest, hevents, hrefused⟩ := events_of_refused hfollows
      have hg := globals_add_globalsBack hkept
      rw [hglobals, zero_add] at hg
      refine ⟨(hg.trans (zero_add _)).symm, reply, rest, hevents, ?_⟩
      cases reply with
      | error code => exact (hrefused code rfl).1
      | ok _ =>
        have hcount := launches_eq hkept
        have hfirst : launches events = launches rest + 1 := by
          rw [hevents]
          exact List.countP_cons_of_pos rfl
        have hnone : ℓ₀.launches = 0 := rfl
        show destroys events = 1
        omega

/-- Arguments of a launch without any option. -/
def plainArgs : LaunchArgs := { version := runtimeVersion, options := [], ignoreUnrecognized := false }

/-- A start that finds its first class and makes the reference to it durable, and then lacks the first
method. The exception that this leaves cannot be described yet. -/
def firstMethodMissing : List Event := [
  .called (.launch plainArgs) (.ok ()),
  .called .attach (.ok ()),
  .called (.findClass ClassName.throwable) ⟨1⟩,
  .called (.newGlobalRef ⟨1⟩) ⟨2⟩,
  .called (.deleteLocalRef ⟨1⟩) (),
  .called (.getMethodId ⟨2⟩ Method.toString) none,
  .called (.deleteGlobalRef ⟨2⟩) (),
  .called .exceptionCheck true,
  .called .exceptionOccurred ⟨3⟩,
  .called .exceptionClear (),
  .called (.deleteLocalRef ⟨3⟩) (),
  .called .destroy ()]

theorem firstMethodMissing_leaves_nothing :
    (∃ e, (start plainArgs).run.Follows firstMethodMissing (.error e)) ∧
      InBandRun false firstMethodMissing false ∧
      localsOut firstMethodMissing = localsBack firstMethodMissing ∧
      globalsOut firstMethodMissing = globalsBack firstMethodMissing ∧
      destroys firstMethodMissing = 1 := by
  have hfollows : ∃ e, (start plainArgs).run.Follows firstMethodMissing (.error e) :=
    ⟨_, .call _ (.call _ (.call _ (.call _ (.call _ (.call _ (.call _ (.call _ (.call _ (.call _
      (.call _ (.call _ (.done _))))))))))))⟩
  have hquiet : ∀ {p : Bool} {request : Call} {reply : request.Reply},
      request.leaves p false → request.truthful reply p → InBand p request reply false :=
    fun hleaves htruthful => ⟨hleaves, htruthful, nofun, nofun⟩
  have hband : InBandRun false firstMethodMissing false :=
    .called (hquiet id trivial) <| .called (hquiet id trivial) <|
    .called (hquiet trivial trivial) <| .called (hquiet trivial trivial) <|
    .called (hquiet rfl trivial) <|
    -- the method is missing, and its exception stays until it is cleared
    .called ⟨trivial, trivial, fun _ _ => rfl, fun _ => rfl⟩ <|
    .called ⟨rfl, trivial, fun _ _ => rfl, fun _ => rfl⟩ <|
    .called ⟨rfl, rfl, fun _ _ => rfl, fun _ => rfl⟩ <|
    .called ⟨rfl, trivial, fun _ h => absurd rfl h, fun _ => rfl⟩ <|
    .called (hquiet rfl trivial) <| .called (hquiet rfl trivial) <|
    .called (hquiet id trivial) <| .done false
  refine ⟨hfollows, hband, ?_⟩
  obtain ⟨e, hfollows⟩ := hfollows
  obtain ⟨_, hlocals, hglobals, reply, rest, hevents, hended⟩ :=
    start_all_or_nothing hfollows hband
  obtain rfl : reply = .ok () := by
    unfold firstMethodMissing at hevents
    injection hevents with hlaunch
    injection hlaunch with _ hreply
    exact hreply.symm
  exact ⟨hlocals, hglobals, hended⟩

end Context

end GridBridge.Bridge
