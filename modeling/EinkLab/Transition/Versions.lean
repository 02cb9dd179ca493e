import EinkLab.Transition.Run

/-!
# Version numbers of changing content

A counter answers each content it is shown with a number: the same number as long as the content
stays, and a new one when it changes or when the counter was told to forget.  `Versioned` is what
the log of such a counter satisfies.  Equal numbers mean equal content anywhere in the log
(`Versioned.eq_of_version`); for successive answers the converse holds as well, unless the counter
was told to forget in between (`Versioned.successive`).
-/

namespace EinkLab.Transition.Versions

variable {κ : Type*}

inductive Event (κ : Type*)
  | answered (content : κ) (version : Nat)
  | forgot

def Event.IsAnswer : Event κ → Prop
  | .answered _ _ => True
  | .forgot => False

/-- The next answer to a content. -/
def answer [DecidableEq κ] (last : Option κ) (version : Nat) (content : κ) : Nat :=
  if last = some content then version else version + 1

/-- A counter of contents is a counter of what stands for them. -/
theorem answer_map {κ' : Type*} [DecidableEq κ] [DecidableEq κ'] {f : κ → κ'}
    (hf : ∀ a b, f a = f b → a = b) (last : Option κ) (version : Nat) (content : κ) :
    answer (last.map f) version (f content) = answer last version content := by
  have hiff : last.map f = some (f content) ↔ last = some content := by
    cases last with
    | none => simp
    | some a => simpa using ⟨fun heq => hf a content heq, fun heq => congrArg f heq⟩
  unfold answer
  simp only [hiff]

/-- What is known of the log of a counter whose last content is `last` and whose number is
`version`. -/
structure Versioned (log : List (Event κ)) (last : Option κ) (version : Nat) : Prop where
  /-- A content that is remembered was the last answer, and nothing was forgotten since. -/
  remembered : ∀ content, last = some content → ∃ pre, log = pre ++ [.answered content version]
  forgotten : last = none → log = [] ∨ ∃ pre, log = pre ++ [.forgot]
  pos : ∀ content v, .answered content v ∈ log → 0 < v
  version_le : ∀ content v, .answered content v ∈ log → v ≤ version
  eq_of_version : ∀ content content' v, .answered content v ∈ log → .answered content' v ∈ log →
    content = content'
  /-- Two answers, and none between them. -/
  successive : ∀ pre content v mid content' v' post,
    log = pre ++ .answered content v :: mid ++ .answered content' v' :: post →
      (∀ e ∈ mid, ¬e.IsAnswer) → (v = v' ↔ mid = [] ∧ content = content')

theorem versioned_nil (version : Nat) : Versioned ([] : List (Event κ)) none version where
  remembered := fun _ h => nomatch h
  forgotten := fun _ => Or.inl rfl
  pos := fun _ _ h => absurd h List.not_mem_nil
  version_le := fun _ _ h => absurd h List.not_mem_nil
  eq_of_version := fun _ _ _ h => absurd h List.not_mem_nil
  successive := fun pre _ _ _ _ _ _ h => by simp at h

variable {log : List (Event κ)} {last : Option κ} {version : Nat}

/-- Forgetting ends the comparison with the last content. -/
theorem Versioned.forget (h : Versioned log last version) :
    Versioned (log ++ [.forgot]) none version where
  remembered := fun _ hno => nomatch hno
  forgotten := fun _ => Or.inr ⟨log, rfl⟩
  pos := fun content v hmem => h.pos content v (by simpa using hmem)
  version_le := fun content v hmem => h.version_le content v (by simpa using hmem)
  eq_of_version := fun content content' v hmem hmem' =>
    h.eq_of_version content content' v (by simpa using hmem) (by simpa using hmem')
  successive := by
    intro pre content v mid content' v' post hlog hmid
    rcases append_singleton_eq_append_cons hlog with ⟨-, -, hno⟩ | ⟨post', -, hlog⟩
    · cases hno
    · exact h.successive pre content v mid content' v' post' hlog hmid

/-- The number of a remembered content belongs to it alone. -/
theorem Versioned.content_of_version (h : Versioned log (some content) version) {content' : κ}
    (hmem : .answered content' version ∈ log) : content' = content := by
  obtain ⟨pre, rfl⟩ := h.remembered content rfl
  exact h.eq_of_version content' content version hmem (by simp)

theorem Versioned.answer_le [DecidableEq κ] (h : Versioned log last version) (content : κ) {c : κ}
    {v : Nat} (hmem : .answered c v ∈ log) : v ≤ answer last version content := by
  have hle := h.version_le c v hmem
  unfold answer
  split
  · exact hle
  · omega

/-- No answer is `0`: a content that is remembered was answered, and the numbers count up. -/
theorem Versioned.answer_pos [DecidableEq κ] (h : Versioned log last version) (content : κ) :
    0 < answer last version content := by
  unfold answer
  split
  · next hlast =>
    obtain ⟨pre, hanswered⟩ := h.remembered content hlast
    exact h.pos content version (by simp [hanswered])
  · exact Nat.succ_pos version

/-- A number that was given before is given again to the same content only. -/
theorem Versioned.content_of_answer [DecidableEq κ] (h : Versioned log last version) {content c : κ}
    (hmem : .answered c (answer last version content) ∈ log) : c = content := by
  unfold answer at hmem
  split at hmem
  · next hlast =>
    subst hlast
    exact h.content_of_version hmem
  · have hle := h.version_le _ _ hmem
    omega

/-- What follows the last answer of a log. -/
theorem Versioned.last_of_append (h : Versioned log last version) {pre mid : List (Event κ)}
    {content : κ} {v : Nat} (hlog : log = pre ++ .answered content v :: mid)
    (hmid : ∀ e ∈ mid, ¬e.IsAnswer) :
    (mid = [] → last = some content ∧ v = version) ∧ (mid ≠ [] → last = none) := by
  cases hlast : last with
  | none =>
    refine ⟨fun hnil => ?_, fun _ => rfl⟩
    rcases h.forgotten hlast with hempty | ⟨pre', hforgot⟩
    · simp [hempty] at hlog
    · rw [hforgot, hnil] at hlog
      exact nomatch (List.append_inj' hlog rfl).2
  | some c =>
    obtain ⟨pre', hanswered⟩ := h.remembered c hlast
    rw [hlog] at hanswered
    rcases List.eq_nil_or_concat mid with rfl | ⟨mid', e, rfl⟩
    · have hlast' := List.head_eq_of_cons_eq (List.append_inj' hanswered rfl).2
      cases hlast'
      exact ⟨fun _ => ⟨rfl, rfl⟩, fun hno => absurd rfl hno⟩
    · have happend : (pre ++ .answered content v :: mid') ++ [e] = pre' ++
        [.answered c version] := by
        simpa using hanswered
      have he := List.head_eq_of_cons_eq (List.append_inj' happend rfl).2
      exact absurd (he ▸ trivial) (hmid e (by simp))

/-- One more answer. -/
theorem Versioned.answered [DecidableEq κ] (h : Versioned log last version) (content : κ) :
    Versioned (log ++ [.answered content (answer last version content)]) (some content)
      (answer last version content) where
  remembered := fun c hc => ⟨log, by rw [Option.some_inj.mp hc]⟩
  forgotten := fun hno => nomatch hno
  pos := by
    intro c v hmem
    rcases List.mem_append.mp hmem with hmem | hmem
    · exact h.pos c v hmem
    · cases List.mem_singleton.mp hmem
      exact h.answer_pos content
  version_le := by
    intro c v hmem
    rcases List.mem_append.mp hmem with hmem | hmem
    · exact h.answer_le content hmem
    · cases List.mem_singleton.mp hmem
      exact Nat.le_refl _
  eq_of_version := by
    intro c c' v hmem hmem'
    rcases List.mem_append.mp hmem with hmem | hmem
    · rcases List.mem_append.mp hmem' with hmem' | hmem'
      · exact h.eq_of_version c c' v hmem hmem'
      · cases List.mem_singleton.mp hmem'
        exact h.content_of_answer hmem
    · cases List.mem_singleton.mp hmem
      rcases List.mem_append.mp hmem' with hmem' | hmem'
      · exact (h.content_of_answer hmem').symm
      · cases List.mem_singleton.mp hmem'
        rfl
  successive := by
    intro pre c v mid c' v' post hlog hmid
    rcases append_singleton_eq_append_cons hlog with ⟨-, hpre, hevent⟩ | ⟨post', -, hlog⟩
    · -- the new answer is the second one: compare it with what the counter remembers
      obtain ⟨rfl, rfl⟩ := Event.answered.inj hevent
      obtain ⟨hnil, hcons⟩ := h.last_of_append hpre.symm hmid
      have hmem : .answered c v ∈ log := by simp [← hpre]
      by_cases hempty : mid = []
      · obtain ⟨hlast, rfl⟩ := hnil hempty
        unfold answer
        rw [hlast]
        by_cases hsame : c = c'
        · simp [hsame, hempty]
        · simp [hsame]
      · have hle := h.version_le c v hmem
        unfold answer
        rw [hcons hempty]
        simp only [hempty, false_and, iff_false, reduceCtorEq, if_false]
        omega
    · exact h.successive pre c v mid c' v' post' hlog hmid

end EinkLab.Transition.Versions
