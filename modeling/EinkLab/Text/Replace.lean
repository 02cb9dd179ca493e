import EinkLab.Text.Utf8

/-!
# Counting and replacing a part

`occurrences` and `replaceAll` go over a text from left to right and find parts that do not overlap,
as `bytes.count` and `bytes.replace` do.  A part that occurs once splits the text
(`replaceAll_of_once`).
-/

namespace EinkLab.Text

variable {α : Type} [DecidableEq α]

/-- `text.count(part)` -/
def occurrences (part : List α) : List α → Nat
  | [] => 0
  | a :: text =>
    if part.isPrefixOf (a :: text) then 1 + occurrences part (text.drop (part.length - 1))
    else occurrences part text
termination_by text => text.length
decreasing_by
  all_goals
    simp only [List.length_drop, List.length_cons]
    omega

/-- `text.replace(part, by)` -/
def replaceAll (part by_ : List α) : List α → List α
  | [] => []
  | a :: text =>
    if part.isPrefixOf (a :: text) then by_ ++ replaceAll part by_ (text.drop (part.length - 1))
    else a :: replaceAll part by_ text
termination_by text => text.length
decreasing_by
  all_goals
    simp only [List.length_drop, List.length_cons]
    omega

/-- Nothing longer than the text occurs in it. -/
theorem occurrences_of_short {part text : List α} (h : text.length < part.length) :
    occurrences part text = 0 := by
  fun_induction occurrences part text with
  | case1 => rfl
  | case2 a text hprefix ih =>
    have := (List.isPrefixOf_iff_prefix.mp hprefix).length_le
    omega
  | case3 a text hprefix ih =>
    rw [List.length_cons] at h
    exact ih (by omega)

theorem occurrences_self {part : List α} (hpart : part ≠ []) : occurrences part part = 1 := by
  obtain ⟨a, part, rfl⟩ := List.exists_cons_of_ne_nil hpart
  have hprefix : (a :: part).isPrefixOf (a :: part) :=
    List.isPrefixOf_iff_prefix.mpr (List.prefix_refl _)
  have hdrop : part.drop ((a :: part).length - 1) = [] := List.drop_length
  rw [occurrences, if_pos hprefix, hdrop, occurrences]

/-- A part that does not occur is not replaced. -/
theorem replaceAll_of_none {part by_ text : List α} (h : occurrences part text = 0) :
    replaceAll part by_ text = text := by
  fun_induction replaceAll part by_ text with
  | case1 => rfl
  | case2 a text hprefix ih =>
    rw [occurrences, if_pos hprefix] at h
    omega
  | case3 a text hprefix ih =>
    rw [occurrences, if_neg hprefix] at h
    rw [ih h]

/-- A part that occurs once stands between two others. -/
theorem replaceAll_of_once {part text : List α} (hpart : part ≠ [])
    (h : occurrences part text = 1) (by_ : List α) :
    ∃ pre post, text = pre ++ (part ++ post) ∧
      replaceAll part by_ text = pre ++ (by_ ++ post) := by
  fun_induction replaceAll part by_ text with
  | case1 =>
    rw [occurrences] at h
    cases h
  | case2 a text hprefix ih =>
    rw [occurrences, if_pos hprefix] at h
    obtain ⟨post, hpost⟩ := List.isPrefixOf_iff_prefix.mp hprefix
    obtain ⟨b, part', rfl⟩ := List.exists_cons_of_ne_nil hpart
    have htext : text = part' ++ post := (List.cons.inj hpost).2.symm
    have hdrop : text.drop ((b :: part').length - 1) = post := by
      rw [htext]
      exact List.drop_left' rfl
    rw [hdrop] at h ⊢
    refine ⟨[], post, hpost.symm, ?_⟩
    rw [replaceAll_of_none (by omega)]
    rfl
  | case3 a text hprefix ih =>
    rw [occurrences, if_neg hprefix] at h
    obtain ⟨pre, post, htext, hreplace⟩ := ih h
    exact ⟨a :: pre, post, by rw [htext]; rfl, by rw [hreplace]; rfl⟩

end EinkLab.Text
