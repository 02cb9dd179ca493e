import EinkLab.FrontLight.Validator

/-!
# The numbers of Python and of C

A number that `strtod` reads has no underscore, and without underscores it reads what `float` reads.
-/

namespace EinkLab.FrontLight

open Text

/-! ### Decimal numbers -/

theorem unsignedDouble_of_unsignedDecimal {text : List Char} {value : ℚ}
    (h : unsignedDecimal text = some value) : unsignedDouble text = some value := by
  unfold unsignedDouble
  simp only
  split
  · next x text =>
    split
    · next hx =>
      -- after a zero the decimal number has neither a digit nor a mark to go on with
      exfalso
      have hzero : decimalDigit '0' = some 0 := by decide
      have hnone : decimalDigit x = none ∧ x ≠ '.' ∧ x ≠ 'e' ∧ x ≠ 'E' := by
        rcases hx with rfl | rfl <;> decide
      have hpointed : pointed 10 decimalDigit ('0' :: x :: text) = some (0, x :: text) := by
        unfold pointed
        simp [hzero, hnone]
      rw [unsignedDecimal, hpointed, Option.bind_some] at h
      simp [exponent, hnone] at h
    · exact h
  · exact h

/-- The digits and the point have no underscore. -/
theorem underscore_of_pointed {base : Nat} {digit : Char → Option Nat} {text rest : List Char}
    {value : ℚ} (hdigit : digit '_' = none) (h : pointed base digit text = some (value, rest))
    (hmem : '_' ∈ text) : '_' ∈ rest := by
  have htake : ∀ t : List Char, '_' ∉ t.takeWhile fun c => (digit c).isSome := by
    intro t ht
    have hsome := List.mem_takeWhile_imp ht
    rw [hdigit] at hsome
    exact absurd hsome (by decide)
  have hdrop : ∀ t : List Char, '_' ∈ t → '_' ∈ t.dropWhile fun c => (digit c).isSome := by
    intro t ht
    rw [← List.takeWhile_append_dropWhile (p := fun c => (digit c).isSome) (l := t)] at ht
    exact (List.mem_append.mp ht).resolve_left (htake t)
  have hwhole := hdrop text hmem
  unfold pointed at h
  simp only at h
  split at h
  · next fraction heq =>
    rw [heq] at hwhole
    split at h
    · exact absurd h (by simp)
    · rw [← (Prod.mk.inj (Option.some_inj.mp h)).2]
      exact hdrop fraction ((List.mem_cons.mp hwhole).resolve_left (by decide))
  · split at h
    · exact absurd h (by simp)
    · rw [← (Prod.mk.inj (Option.some_inj.mp h)).2]
      exact hwhole

/-- An exponent has no underscore. -/
theorem underscore_notMem_of_exponent {lower upper : Char} {text : List Char} {e : Int}
    (hlower : lower ≠ '_') (hupper : upper ≠ '_') (h : exponent lower upper text = some e) :
    '_' ∉ text := by
  have hint : ∀ {t : List Char} {n : Int}, decimalInt t = some n → '_' ∉ t := by
    intro t n hn hmem
    rcases decimalInt_chars hn '_' hmem with hd | hd <;> exact absurd hd (by decide)
  unfold exponent at h
  split at h
  · exact List.not_mem_nil
  · next mark text =>
    split at h
    · next hmark =>
      have hne : '_' ≠ mark := by
        rintro rfl
        exact hmark.elim (fun heq => hlower heq.symm) fun heq => hupper heq.symm
      rw [List.mem_cons, not_or]
      refine ⟨hne, ?_⟩
      split at h
      · next digits =>
        obtain ⟨_, hmap, -⟩ := Option.map_eq_some_iff.mp h
        obtain ⟨n, hn, -⟩ := Option.bind_eq_some_iff.mp hmap
        intro hmem
        have hdigit := decimalNat_chars hn '_' ((List.mem_cons.mp hmem).resolve_left (by decide))
        exact absurd hdigit (by decide)
      · exact hint h
    · exact absurd h (by simp)

/-- No number of `strtod` has an underscore. -/
theorem underscore_notMem_of_unsignedDouble {text : List Char} {value : ℚ}
    (h : unsignedDouble text = some value) : '_' ∉ text := by
  have hread : ∀ {base : Nat} {digit : Char → Option Nat} {lower upper : Char} {t : List Char}
      (scale : ℚ → Int → ℚ), digit '_' = none → lower ≠ '_' → upper ≠ '_' →
      ((pointed base digit t).bind fun p => (exponent lower upper p.2).map (scale p.1)) =
        some value →
      '_' ∉ t := by
    intro base digit lower upper t scale hdigit hlower hupper hbind hmem
    obtain ⟨⟨v, rest⟩, hpointed, hexponent⟩ := Option.bind_eq_some_iff.mp hbind
    obtain ⟨e, he, -⟩ := Option.map_eq_some_iff.mp hexponent
    exact underscore_notMem_of_exponent hlower hupper he
      (underscore_of_pointed hdigit hpointed hmem)
  unfold unsignedDouble at h
  simp only at h
  split at h
  · next x text =>
    split at h
    · next hx =>
      have hrest := hread (fun v e => v * 2 ^ e) (by decide) (by decide) (by decide) h
      rw [List.mem_cons, List.mem_cons, not_or, not_or]
      refine ⟨by decide, ?_, hrest⟩
      rintro rfl
      exact absurd hx (by decide)
    · exact hread (fun v e => v * 10 ^ e) (by decide) (by decide) (by decide) h
  · exact hread (fun v e => v * 10 ^ e) (by decide) (by decide) (by decide) h

/-! ### Powers -/

theorem parseDouble_anyRange : parseDouble anyRange = strtod := by
  funext value
  show (strtod value).filter anyRange = strtod value
  cases strtod value <;> rfl

theorem parseDouble_of_pythonFloat {text : List Char} {value : ℚ} (hascii : IsAscii text)
    (hunderscore : '_' ∉ text) (h : pythonFloat text = some value) :
    parseDouble anyRange (trim text) = some value := by
  rw [pythonFloat, numberText_eq_some hascii fun hmem => hunderscore (mem_of_mem_trim hmem),
    Option.bind_some] at h
  obtain ⟨v, hv, hvalue⟩ := Option.map_eq_some_iff.mp h
  have hne : trim text ≠ [] := by
    intro hnil
    rw [hnil] at hv
    have hnone : unsignedDecimal (signed []).2 = none := by decide
    exact absurd (hnone.symm.trans hv) (by simp)
  rw [parseDouble_anyRange, strtod, if_neg hne, dropWhile_trim]
  have hdouble := unsignedDouble_of_unsignedDecimal hv
  exact Option.map_eq_some_iff.mpr ⟨v, hdouble, hvalue⟩

theorem underscore_notMem_of_parseDouble {inRange : ℚ → Bool} {text : List Char} {value : ℚ}
    (h : parseDouble inRange text = some value) : '_' ∉ text := by
  have hread := (Option.filter_eq_some_iff.mp h).1
  unfold strtod at hread
  split at hread
  · next hnil =>
    rw [hnil]
    exact List.not_mem_nil
  · intro hmem
    obtain ⟨v, hv, -⟩ := Option.map_eq_some_iff.mp hread
    have hnot := underscore_notMem_of_unsignedDouble hv
    have hdrop : '_' ∈ text.dropWhile isSpace := by
      rw [← List.takeWhile_append_dropWhile (p := isSpace) (l := text)] at hmem
      refine (List.mem_append.mp hmem).resolve_left fun htake => ?_
      exact absurd (List.mem_takeWhile_imp htake) (by decide)
    split at hnot
    · next rest heq =>
      rw [heq] at hdrop
      exact hnot ((List.mem_cons.mp hdrop).resolve_left (by decide))
    · next rest heq =>
      rw [heq] at hdrop
      exact hnot ((List.mem_cons.mp hdrop).resolve_left (by decide))
    · exact hnot hdrop

/-- At the end of a line nothing is left to trim. -/
theorem parseDouble_trim {inRange : ℚ → Bool} {value : List Char}
    (hlast : ∀ c ∈ value.getLast?, isSpace c = false) :
    parseDouble inRange (trim value) = parseDouble inRange value := by
  by_cases hnil : value = []
  · rw [hnil]
    rfl
  · have hlast' := hlast (value.getLast hnil) (List.getLast?_eq_getLast_of_ne_nil hnil)
    have hmem := mem_trim (List.getLast_mem hnil) hlast'
    have hne : trim value ≠ [] := List.ne_nil_of_mem hmem
    have hdrop : trim value = value.dropWhile isSpace := by
      rw [trim, List.rdropWhile_eq_self_iff]
      intro hne'
      have hsuffix := List.dropWhile_suffix isSpace (l := value)
      rw [hsuffix.getLast hne', hlast']
      decide
    rw [parseDouble, parseDouble, strtod, strtod, if_neg hne, if_neg hnil, dropWhile_trim, hdrop]

end EinkLab.FrontLight
