import EinkLab.CaptureSession.Basic

/-!
# The session's steps, read backwards

For each action, in which phase of the capture thread's call or for which release it is taken, and
what it leads to.
-/

namespace EinkLab.CaptureSession

open Transition

variable {s u : State} {a : Action} {evs : List Event}

/-- The outcome of an action, in a state that allows it. -/
inductive StepOf (s : State) : Action → State → List Event → Prop
  | configure (settings : CaptureSettings) (hphase : s.capture = .idle) :
    StepOf s (.configure settings) (s.configure settings) []
  | readAdmissionState (now : TimePoint) (admissionState : AdmissionState)
      (hphase : s.capture = .configured now) :
    StepOf s (.readAdmissionState admissionState)
      { s with capture := .stateRead now admissionState } []
  | takeOpportunity (now : TimePoint) (admissionState : AdmissionState)
      (hphase : s.capture = .stateRead now admissionState) :
    StepOf s .takeOpportunity (s.takeOpportunity now admissionState).1
      (s.takeOpportunity now admissionState).2
  | readPool (c : Admitted) (hphase : s.capture = .admitted c) :
    StepOf s .readPool
      { s with capture := .poolRead c s.snapshotPool.busyCount s.snapshotPool.capacity } []
  | observe (c : Admitted) (poolBusy poolCapacity : Nat)
      (hphase : s.capture = .poolRead c poolBusy poolCapacity) :
    StepOf s .observe (s.observe c poolBusy poolCapacity).1 (s.observe c poolBusy poolCapacity).2
  | sourceCopy (c : Admitted) (converted : Bool) (hphase : s.capture = .attempted c) :
    StepOf s (.sourceCopy converted) (s.sourceCopy c converted).1 (s.sourceCopy c converted).2
  | tryCopy (c : Admitted) (sourceUsable : Bool) (hphase : s.capture = .sourced c) :
    StepOf s (.tryCopy sourceUsable) (s.tryCopy c sourceUsable) []
  | finishCopy (c : Admitted) (x : Snapshot) (drawn : Bool) (hphase : s.capture = .copying c x) :
    StepOf s (.finishCopy drawn) (s.finishCopy c x drawn) []
  | recordCopied (c : Admitted) (x : Snapshot) (hphase : s.capture = .copied c x) :
    StepOf s .recordOutcome (s.recordCopied c x).1 (s.recordCopied c x).2
  | recordFailed (c : Admitted) (dropped : Bool) (hphase : s.capture = .copyFailed c dropped) :
    StepOf s .recordOutcome (s.recordFailed c dropped).1 (s.recordFailed c dropped).2
  | releaseSlot (x : Snapshot) (hlease : x ∈ s.leases) :
    StepOf s (.releaseSlot x) (s.releaseSlot x) []
  | notifyRelease (x : Snapshot) (now : TimePoint) (hreturned : x ∈ s.returned) :
    StepOf s (.notifyRelease x now) (s.notifyRelease x now).1 (s.notifyRelease x now).2
  | requestComposite (obligation : Nat) (accepted : Bool) (hmem : obligation ∈ s.requesting) :
    StepOf s (.requestComposite obligation accepted) (s.requestComposite obligation accepted) []
  | cancelFailed (obligation : Nat) (hmem : obligation ∈ s.failed) :
    StepOf s (.cancelFailed obligation) (s.cancelFailed obligation).1 (s.cancelFailed obligation).2
  | cancel : StepOf s .cancel { s with policy := s.policy.cancel } [.cancelled]

theorem step_cases (hs : s.step a = some (u, evs)) : StepOf s a u evs := by
  have hsome : ∀ {r : State} {es : List Event}, some (r, es) = some (u, evs) →
      StepOf s a r es → StepOf s a u evs :=
    fun hr => System.result_of_some (P := StepOf s a) hr
  cases a with
  | configure settings =>
    simp only [State.step] at hs
    split at hs
    · next hphase => exact hsome hs (.configure settings hphase)
    · cases hs
  | readAdmissionState admissionState =>
    simp only [State.step] at hs
    split at hs
    · next now hphase => exact hsome hs (.readAdmissionState now admissionState hphase)
    · cases hs
  | takeOpportunity =>
    simp only [State.step] at hs
    split at hs
    · next now admissionState hphase => exact hsome hs (.takeOpportunity now admissionState hphase)
    · cases hs
  | readPool =>
    simp only [State.step] at hs
    split at hs
    · next c hphase => exact hsome hs (.readPool c hphase)
    · cases hs
  | observe =>
    simp only [State.step] at hs
    split at hs
    · next c poolBusy poolCapacity hphase =>
      exact hsome hs (.observe c poolBusy poolCapacity hphase)
    · cases hs
  | sourceCopy converted =>
    simp only [State.step] at hs
    split at hs
    · next c hphase => exact hsome hs (.sourceCopy c converted hphase)
    · cases hs
  | tryCopy sourceUsable =>
    simp only [State.step] at hs
    split at hs
    · next c hphase => exact hsome hs (.tryCopy c sourceUsable hphase)
    · cases hs
  | finishCopy drawn =>
    simp only [State.step] at hs
    split at hs
    · next c x hphase => exact hsome hs (.finishCopy c x drawn hphase)
    · cases hs
  | recordOutcome =>
    simp only [State.step] at hs
    split at hs
    · next c x hphase => exact hsome hs (.recordCopied c x hphase)
    · next c dropped hphase => exact hsome hs (.recordFailed c dropped hphase)
    · cases hs
  | releaseSlot x =>
    simp only [State.step] at hs
    split_ifs at hs with hlease
    exact hsome hs (.releaseSlot x hlease)
  | notifyRelease x now =>
    simp only [State.step] at hs
    split_ifs at hs with hreturned
    exact hsome hs (.notifyRelease x now hreturned)
  | requestComposite obligation accepted =>
    simp only [State.step] at hs
    split_ifs at hs with hmem
    exact hsome hs (.requestComposite obligation accepted hmem)
  | cancelFailed obligation =>
    simp only [State.step] at hs
    split_ifs at hs with hmem
    exact hsome hs (.cancelFailed obligation hmem)
  | cancel => exact hsome hs .cancel

end EinkLab.CaptureSession
