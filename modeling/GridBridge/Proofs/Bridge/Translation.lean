import GridBridge.Proofs.Bridge.Faults
import GridBridge.Proofs.Seam.Watch

/-!
# Translation: when taking a fault leaves the thread clean

The accessors that read an exception can raise themselves. `takeFault` looks for a new exception
after each managed call, but not after a class or a string was read. So it comes out clean exactly
when no such read raised: `takeFault_clean_iff` says this for every runtime that fails in band, and
`misread_spoils_takeFault` shows a run in which both things go wrong.
-/

namespace GridBridge.Bridge

open Protocol Seam Seam.Script

variable {message : MethodId} {w : Watch}

/-! ## Reading -/

/-- Reading a string leaves an exception only where the read itself raised. -/
theorem watch_takeString {str : Ref} (hclear : w.pending = false) :
    (takeString str).wp (watching message) (fun _ w' => w.Goes w' false w'.pending 0 2) w := by
  unfold takeString
  cases hnull : str.isNull with
  | true =>
    show w.Goes w false w.pending 0 2
    rw [hclear]
    exact Watch.Goes.rfl.mono (by omega)
  | false =>
    refine wp_bind.mpr (wp_watch ?_)
    intro text w₁ _ hread
    refine wp_bind.mpr (wp_watch ?_)
    intro _ w₂ hinBand hdeleted
    have hsame : w₂.pending = w₁.pending := hinBand.leaves
    simpa [hclear, hsame] using hread.trans hdeleted

theorem watch_takeStringOrClear {str : Ref} :
    (takeStringOrClear str).wp (watching message) (fun _ w' => w.Goes w' false w'.pending 0 3) w := by
  unfold takeStringOrClear
  refine wp_bind.mpr (wp_watch ?_)
  intro raised w₁ hinBand hchecked
  have hsame : w₁.pending = w.pending := hinBand.leaves
  -- within the contract the check tells the truth
  have htold : raised = w.pending := hinBand.truthful
  have hchecked : w.Goes w₁ false false 0 1 := by
    simpa using hchecked
  cases raised with
  | true =>
    refine wp_bind.mpr (wp_watch ?_)
    intro _ w₂ hinBand hcleared
    have hclear : w₂.pending = false := hinBand.leaves
    have hboth := hchecked.trans hcleared
    simpa [hclear] using hboth.mono (show 1 + 1 ≤ 3 by omega)
  | false =>
    refine wp_mono (watch_takeString (hsame.trans htold.symm)) ?_
    intro text w₂ hread
    simpa using hchecked.trans hread

/-- Reading a class name leaves an exception only where the class or the name could not be read. -/
theorem watch_classNameOf {getName : MethodId} {obj : Ref} (hother : getName ≠ message)
    (hclear : w.pending = false) :
    (classNameOf getName obj).wp (watching message) (fun _ w' => w.Goes w' false w'.pending 0 6)
      w := by
  unfold classNameOf
  refine wp_bind.mpr (wp_watch ?_)
  intro cls w₁ hinBand hread
  have hread : w.Goes w₁ false w₁.pending 0 1 := by simpa [hclear] using hread
  cases hnull : cls.isNull with
  | true => exact hread.mono (by omega)
  | false =>
    -- a class did come back, so nothing was raised
    have hclear₁ : w₁.pending = false :=
      clear_of_object (fun hraised => hinBand.noLocal hraised nofun) hnull
    rw [hclear₁] at hread
    refine wp_bind.mpr (wp_watch ?_)
    intro name w₂ _ hcalled
    have hcalled : w₁.Goes w₂ false false 0 1 := by simpa [hclear₁, hother] using hcalled
    refine wp_bind.mpr (wp_watch ?_)
    intro _ w₃ _ hdeleted
    have hdeleted : w₂.Goes w₃ false false 0 1 := by simpa using hdeleted
    refine wp_mono watch_takeStringOrClear ?_
    intro text w₄ htaken
    have hall := ((hread.trans hcalled).trans hdeleted).trans htaken
    simpa using hall

/-! ## Taking a fault -/

/-- What one look leaves. Where a class or a name was misread (`q`), the message accessor was called
too early. -/
def Looked (w : Watch) : Attempt → Watch → Prop
  | .read _, w' => ∃ q, w.Goes w' q (q || w'.pending) 1 14
  | .raised _, w' => ∃ q, w.Goes w' q q 1 12

/-- An exception that is held is read in at most twelve calls, one of them of the message accessor. -/
theorem watch_readHeld {d : Descriptors} (hother : d.classGetName ≠ d.throwableGetMessage) (err : Ref)
    {w₁ : Watch} (hstart : w.Goes w₁ false false 0 2) :
    (readHeld d err).wp (watching d.throwableGetMessage) (Looked w) w₁ := by
  unfold readHeld readMessage
  refine wp_bind.mpr (wp_watch ?_)
  intro _ w₂ hinBand hcleared
  have hclear : w₂.pending = false := hinBand.leaves
  have hcleared : w₁.Goes w₂ false false 0 1 := by simpa using hcleared
  refine wp_bind.mpr (wp_mono (watch_classNameOf hother hclear) ?_)
  intro className w₃ hnamed
  refine wp_bind.mpr (wp_watch ?_)
  intro message w₄ _ hcalled
  have hcalled : w₃.Goes w₄ w₃.pending false 1 1 := by simpa using hcalled
  refine wp_bind.mpr (wp_watch ?_)
  intro _ w₅ hinBand₅ hdeleted
  have hdeleted : w₄.Goes w₅ false false 0 1 := by simpa using hdeleted
  refine wp_bind.mpr (wp_watch ?_)
  intro raised w₆ hinBand₆ hchecked
  have hchecked : w₅.Goes w₆ false false 0 1 := by simpa using hchecked
  have hsame : w₆.pending = w₅.pending := hinBand₆.leaves
  have htold : raised = w₅.pending := hinBand₆.truthful
  have hall := ((((hstart.trans hcleared).trans hnamed).trans hcalled).trans hdeleted).trans hchecked
  simp only [Bool.false_or, Bool.or_false] at hall
  cases raised with
  | true => exact ⟨w₃.pending, hall⟩
  | false =>
    refine wp_bind.mpr (wp_mono (watch_takeString (hsame.trans htold.symm)) ?_)
    intro text w₇ htaken
    have hlast := hall.trans htaken
    exact ⟨w₃.pending, by simpa using hlast⟩

theorem watch_takeFaultOnce {d : Descriptors} {describe : Bool}
    (hother : d.classGetName ≠ d.throwableGetMessage) :
    (takeFaultOnce d describe).wp (watching d.throwableGetMessage) (Looked w) w := by
  rw [takeFaultOnce_eq]
  refine wp_bind.mpr (wp_watch ?_)
  intro err w₁ _ hoccurred
  have hoccurred : w.Goes w₁ false false 0 1 := by simpa using hoccurred
  cases describe with
  | false => exact watch_readHeld hother err (hoccurred.mono (by omega))
  | true =>
    refine wp_bind.mpr (wp_watch ?_)
    intro _ w₂ _ hdescribed
    have hdescribed : w₁.Goes w₂ false false 0 1 := by simpa using hdescribed
    exact watch_readHeld hother err (hoccurred.trans hdescribed)

/-- Any number of looks, by induction on what is left of them. -/
theorem watch_takeFaultWithin {d : Descriptors} {describe : Bool} {attempts : Nat}
    {firstClass : Option (Option String)} (hother : d.classGetName ≠ d.throwableGetMessage) :
    (takeFaultWithin d describe attempts firstClass).wp (watching d.throwableGetMessage)
      (fun _ w' => ∃ q m, m ≤ attempts ∧ w.Goes w' q (q || w'.pending) m (12 * attempts + 2)) w := by
  induction attempts generalizing w firstClass with
  -- the last resort only clears
  | zero =>
    unfold takeFaultWithin
    refine wp_bind.mpr (wp_watch ?_)
    intro _ w₁ hinBand hcleared
    have hclear : w₁.pending = false := hinBand.leaves
    refine ⟨false, 0, Nat.le_refl 0, ?_⟩
    simpa [hclear] using hcleared.mono (show 1 ≤ 2 by omega)
  | succ attempts ih =>
    unfold takeFaultWithin
    refine wp_bind.mpr (wp_mono (watch_takeFaultOnce hother) ?_)
    intro attempt w₁ honce
    cases attempt with
    | read fault =>
      obtain ⟨q, honce⟩ := honce
      exact ⟨q, 1, by omega, honce.mono (by omega)⟩
    | raised className =>
      obtain ⟨q, honce⟩ := honce
      refine wp_mono ih ?_
      intro fault w₂ hrest
      -- misread now or later, and one attempt more
      obtain ⟨q', m, hfew, hrest⟩ := hrest
      have hall := (honce.trans hrest).mono (show _ ≤ 12 * (attempts + 1) + 2 by omega)
      refine ⟨q || q', 1 + m, by omega, ?_⟩
      simpa [Bool.or_assoc, Bool.or_left_comm] using hall

theorem watch_takeFault {d : Descriptors} {describe : Bool}
    (hother : d.classGetName ≠ d.throwableGetMessage) :
    (takeFault d describe).wp (watching d.throwableGetMessage)
      (fun _ w' => ∃ q m, m ≤ maxFaultAttempts ∧ w.Goes w' q (q || w'.pending) m 27) w := by
  unfold takeFault
  refine wp_bind.mpr (wp_watch ?_)
  intro pending w₁ hinBand hchecked
  have hchecked : w.Goes w₁ false false 0 1 := by simpa using hchecked
  have hsame : w₁.pending = w.pending := hinBand.leaves
  have htold : pending = w.pending := hinBand.truthful
  cases pending with
  | true =>
    -- what is pending is read in two attempts of twelve calls each
    refine wp_mono (watch_takeFaultWithin hother) ?_
    intro fault w₂ hrest
    obtain ⟨q, m, hfew, hrest⟩ := hrest
    refine ⟨q, m, hfew, ?_⟩
    simpa using (hchecked.trans hrest).mono (show _ ≤ 27 by decide)
  | false =>
    refine ⟨false, 0, by decide, ?_⟩
    have hclear : w₁.pending = false := hsame.trans htold.symm
    simpa [hclear] using hchecked.mono (show 1 ≤ 27 by omega)

/-! ## The exact condition -/

/-- Whatever fails in band, and however often in a row: taking the fault ends after at most 27 calls,
at most `maxFaultAttempts` of them of the message accessor, and it ends with nothing pending and
without a managed method called too early exactly when no read of a class or a string raised. -/
theorem takeFault_clean_iff {d : Descriptors} {describe pending : Bool} {events : List Event}
    {fault : ManagedFault} (hother : d.classGetName ≠ d.throwableGetMessage)
    (hfollows : (takeFault d describe).Follows events fault)
    (hrun : (watching d.throwableGetMessage).Run { pending } events w) :
    w.messages ≤ maxFaultAttempts ∧ w.length ≤ 27 ∧
      (w.pending = false ∧ w.early = false ↔ w.misread = false) := by
  obtain ⟨q, m, hfew, hgoes⟩ := (wp_follows (watch_takeFault hother) hfollows hrun).1
  have hmessages := hgoes.messages
  have hlength := hgoes.length
  refine ⟨by simpa [hmessages] using hfew, by simpa using hlength, ?_⟩
  rw [hgoes.early, hgoes.misread]
  cases q <;> simp

/-- Descriptors as a fresh runtime numbers them. -/
def numbered : Descriptors where
  throwable := ⟨2⟩
  throwableToString := ⟨1⟩
  throwableGetMessage := ⟨2⟩
  cls := ⟨4⟩
  classGetName := ⟨3⟩
  ignition := ⟨6⟩
  ignitionIgnite := ⟨4⟩
  ignitionEx := ⟨8⟩
  ignitionExStart := ⟨5⟩
  interopUtils := ⟨10⟩
  interopUtilsInterop := ⟨6⟩
  interopUtilsAsyncCallback := ⟨7⟩
  interopProcessor := ⟨12⟩
  interopProcessorCache := ⟨8⟩
  interopTarget := ⟨14⟩
  interopTargetInOp := ⟨9⟩
  interopTargetInOutOp := ⟨10⟩
  interopTargetInOutOpAsync := ⟨11⟩
  interopCache := ⟨16⟩

/-- The class cannot be read and the message accessor is called all the same; what comes of that is
read in its place, and its message cannot be read. -/
def bothMisread : List Event := [
  .called .exceptionCheck true,
  .called .exceptionOccurred ⟨17⟩,
  .called .exceptionClear (),
  .called (.getObjectClass ⟨17⟩) .null,
  .called (.callObject ⟨17⟩ ⟨2⟩ []) .null,
  .called (.deleteLocalRef ⟨17⟩) (),
  .called .exceptionCheck true,
  .called .exceptionOccurred ⟨18⟩,
  .called .exceptionClear (),
  .called (.getObjectClass ⟨18⟩) ⟨19⟩,
  .called (.callObject ⟨19⟩ ⟨3⟩ []) ⟨20⟩,
  .called (.deleteLocalRef ⟨19⟩) (),
  .called .exceptionCheck false,
  .called (.getString ⟨20⟩) (some "Fault"),
  .called (.deleteLocalRef ⟨20⟩) (),
  .called (.callObject ⟨18⟩ ⟨2⟩ []) ⟨21⟩,
  .called (.deleteLocalRef ⟨18⟩) (),
  .called .exceptionCheck false,
  .called (.getString ⟨21⟩) none,
  .called (.deleteLocalRef ⟨21⟩) ()]

/-- A managed method is called with an exception pending, and one is pending at the end. -/
theorem misread_spoils_takeFault : ∃ (fault : ManagedFault) (w : Watch),
    (takeFault numbered false).Follows bothMisread fault ∧
    (watching ⟨2⟩).Run { pending := true } bothMisread w ∧
    w.pending = true ∧ w.early = true := by
  have hrun : (watching ⟨2⟩).Run { pending := true } bothMisread
      { pending := true, early := true, misread := true, messages := 2, length := 20 } :=
    .raised rfl rfl (.inr rfl) rfl <| .raised rfl trivial (.inl rfl) rfl <|
    .quiet rfl trivial <|
    -- the class cannot be read, and what this raised is still there at the next call
    .raised trivial trivial (.inr rfl) rfl <| .raised trivial trivial (.inr rfl) rfl <|
    .raised rfl trivial (.inr rfl) rfl <| .raised rfl rfl (.inr rfl) rfl <|
    .raised rfl trivial (.inl rfl) rfl <| .quiet rfl trivial <|
    .quiet trivial trivial <| .quiet trivial trivial <| .quiet rfl trivial <|
    .quiet rfl rfl <| .quiet trivial trivial <| .quiet rfl trivial <|
    .quiet trivial trivial <| .quiet rfl trivial <| .quiet rfl rfl <|
    -- the message cannot be read, and nothing looks for what this raised
    .raised trivial trivial (.inr rfl) rfl <| .raised rfl trivial (.inr rfl) rfl <| .done _
  exact ⟨_, _, .call _ (.call _ (.call _ (.call _ (.call _ (.call _ (.call _ (.call _ (.call _
    (.call _ (.call _ (.call _ (.call _ (.call _ (.call _ (.call _ (.call _ (.call _ (.call _
    (.call _ (.done _)))))))))))))))))))), hrun, rfl, rfl⟩

end GridBridge.Bridge
