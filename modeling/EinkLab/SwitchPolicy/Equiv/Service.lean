import EinkLab.SwitchPolicy.Equiv.Spacing

/-!
# The service keeps the discipline

Whatever the handlers meet, the calls they make on the policy are a run that keeps the discipline,
as long as the clock does not go back (`service_run`): `queued` is called by `fire` alone, right
after its `take`, with the time of that `take`.
-/

namespace EinkLab.SwitchPolicy

open Transition

variable {calls : List Call} {log : List Event} {w w' : Worker}

/-! ### Calls with times -/

def Call.time : Call → Option Int
  | .observe _ now | .configure _ now | .take now | .queued now => some now
  | .reset => none

def Call.IsQueued : Call → Prop
  | .queued _ => True
  | _ => False

/-- The clock after a call. -/
theorem clock_of_step {call : Call} {evs : List Event} (h : system.step w call = some (w', evs)) :
    w'.clock = call.time.getD w.clock := by
  cases call with
  | observe next now =>
    obtain ⟨_, -, heq⟩ := Option.map_eq_some_iff.mp h
    rw [← (Prod.mk.inj heq).1]
    rfl
  | configure value now =>
    obtain ⟨_, -, heq⟩ := Option.map_eq_some_iff.mp h
    rw [← (Prod.mk.inj heq).1]
    rfl
  | reset =>
    rw [← (Prod.mk.inj (Option.some.inj h)).1]
    rfl
  | take now =>
    rw [← (Prod.mk.inj (Option.some.inj h)).1]
    rfl
  | queued now =>
    rw [← (Prod.mk.inj (Option.some.inj h)).1]
    rfl

/-- Calls whose times do not go back, none of them `queued`, keep the discipline. -/
theorem keeps_of_times (h : system.Run System.anyAction w calls log w')
    (hplain : ∀ call ∈ calls, ¬call.IsQueued)
    (htimes : (w.clock :: calls.filterMap Call.time).Pairwise (· ≤ ·)) :
    system.Run Keeps w calls log w' ∧ w'.clock ∈ w.clock :: calls.filterMap Call.time := by
  induction h with
  | nil => exact ⟨.nil, by simp⟩
  | @snoc calls log t call u evs hrun _ hs ih =>
    rw [List.filterMap_append, ← List.cons_append] at htimes ⊢
    obtain ⟨hbefore, -, hafter⟩ := List.pairwise_append.mp htimes
    obtain ⟨hkeeps, hclock⟩ := ih (fun c hc => hplain c (List.mem_append_left _ hc)) hbefore
    have hcall : Keeps t call := by
      have hle (now : Int) (hnow : call.time = some now) : t.clock ≤ now :=
        hafter t.clock hclock now (by simp [hnow])
      cases call with
      | observe next now => exact hle now rfl
      | configure value now => exact hle now rfl
      | reset => trivial
      | take now => exact hle now rfl
      | queued now => exact (hplain (.queued now) (by simp) trivial).elim
    refine ⟨hkeeps.snoc hcall hs, ?_⟩
    rw [clock_of_step hs]
    cases htime : call.time with
    | none => exact List.mem_append_left _ hclock
    | some now => exact List.mem_append_right _ (by simp [htime])

/-! ### The handlers -/

def Foreground.times : Foreground → List Int
  | .inactive | .failed => []
  | .package _ now | .failedAfter _ now => [now]

def Handler.times : Handler → List Int
  | .screen | .stop | .fireInactive => []
  | .observe foreground => foreground.times
  | .fire foreground now _ => foreground.times ++ [now]
  | .start _ now none => [now]
  | .start _ now (some foreground) => now :: foreground.times

/-- The clock does not go back. -/
def Clocked (w : Worker) (handler : Handler) : Prop :=
  (w.clock :: handler.times).Pairwise (· ≤ ·)

theorem Foreground.calls_times (foreground : Foreground) :
    foreground.calls.filterMap Call.time = foreground.times := by
  cases foreground <;> rfl

theorem Foreground.calls_plain (foreground : Foreground) :
    ∀ call ∈ foreground.calls, ¬call.IsQueued := by
  cases foreground <;> simp [Foreground.calls, Call.IsQueued]

/-- `fire` reports a refresh that it took. -/
theorem keeps_fire {foreground : Foreground} {now : Int} {accepted : Bool}
    (hclocked : Clocked w (.fire foreground now accepted))
    (h : system.Run System.anyAction w ((Handler.fire foreground now accepted).calls w) log w') :
    system.Run Keeps w ((Handler.fire foreground now accepted).calls w) log w' := by
  have hplain : ∀ call ∈ foreground.calls ++ [Call.take now], ¬call.IsQueued := by
    intro call hcall
    rcases List.mem_append.mp hcall with hcall | hcall
    · exact foreground.calls_plain call hcall
    · rw [List.mem_singleton.mp hcall]
      exact id
  have htimes : (foreground.calls ++ [Call.take now]).filterMap Call.time =
      (Handler.fire foreground now accepted).times := by
    rw [List.filterMap_append, foreground.calls_times]
    rfl
  cases hexec : system.exec System.anyAction w foreground.calls with
  | none =>
    simp only [Handler.calls, hexec] at h ⊢
    refine (keeps_of_times h foreground.calls_plain (hclocked.sublist ?_)).1
    rw [foreground.calls_times]
    exact (List.sublist_append_left _ _).cons_cons _
  | some r =>
    obtain ⟨w₁, log₁⟩ := r
    simp only [Handler.calls, hexec] at h ⊢
    split at h
    · next htaken =>
      rw [if_pos htaken]
      rw [Bool.and_eq_true] at htaken
      have hcalls : foreground.calls ++ [Call.take now, Call.queued now] =
          (foreground.calls ++ [Call.take now]) ++ [Call.queued now] := by simp
      rw [hcalls] at h ⊢
      obtain ⟨log₂, w₂, evs, hrun, -, hs, rfl⟩ := h.of_snoc
      refine (keeps_of_times hrun hplain (by rw [htimes]; exact hclocked)).1.snoc ?_ hs
      -- the state before the `take` is the one that `fire` asked
      obtain ⟨_, w₃, _, hrun', -, htake, -⟩ := hrun.of_snoc
      obtain ⟨-, rfl⟩ := hrun'.unique (System.Run.of_exec hexec)
      rw [← (Prod.mk.inj (Option.some.inj htake)).1]
      exact if_pos htaken.1
    · next hrefused =>
      rw [if_neg hrefused]
      exact (keeps_of_times h hplain (by rw [htimes]; exact hclocked)).1

/-- Every handler. -/
theorem keeps_handler {handler : Handler} (hclocked : Clocked w handler)
    (h : system.Run System.anyAction w (handler.calls w) log w') :
    system.Run Keeps w (handler.calls w) log w' := by
  cases handler with
  | screen => exact (keeps_of_times h (by simp [Handler.calls, Call.IsQueued]) hclocked).1
  | stop => exact (keeps_of_times h (by simp [Handler.calls, Call.IsQueued]) hclocked).1
  | fireInactive => exact (keeps_of_times h (by simp [Handler.calls, Call.IsQueued]) hclocked).1
  | observe foreground =>
    refine (keeps_of_times h foreground.calls_plain ?_).1
    rw [Handler.calls, foreground.calls_times]
    exact hclocked
  | fire foreground now accepted => exact keeps_fire hclocked h
  | start delay now registered =>
    cases registered with
    | none => exact (keeps_of_times h (by simp [Handler.calls, Call.IsQueued]) hclocked).1
    | some foreground =>
      refine (keeps_of_times h ?_ ?_).1
      · exact List.forall_mem_cons.mpr ⟨id, foreground.calls_plain⟩
      · have htimes : (Handler.calls w (.start delay now (some foreground))).filterMap Call.time =
            now :: foreground.times := by
          rw [← foreground.calls_times]
          rfl
        rw [htimes]
        exact hclocked

/-- A run of the service is a run of the policy that keeps the discipline. -/
theorem service_run {handlers : List Handler} (h : service.Run Clocked w handlers log w') :
    ∃ calls, system.Run Keeps w calls log w' := by
  refine h.induct (fun _ log w' => ∃ calls, system.Run Keeps w calls log w') ⟨[], .nil⟩ ?_
  intro handlers log w₁ handler w₂ evs ⟨calls, hrun⟩ hclocked hs
  exact ⟨_, hrun.trans (keeps_handler hclocked (System.Run.of_exec hs))⟩

/-- So what is right about the policy's events is right about the service's. -/
theorem sound_of_service_run {ownPackage : String} {delay cooldown : Int} {handlers : List Handler}
    (h : service.Run Clocked (start ownPackage delay cooldown) handlers log w) :
    Sound ownPackage delay cooldown log w := by
  obtain ⟨calls, hrun⟩ := service_run h
  exact sound_of_run hrun

end EinkLab.SwitchPolicy
