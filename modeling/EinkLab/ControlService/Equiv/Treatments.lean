import EinkLab.ControlService.Panel
import EinkLab.Transition.Stamps

/-!
# The configuration words

What a transaction does to the three words of the treatments: `perform_treats` for a call about one
of them, `perform_of_asked_none` for the others.  A word changes with its value only, and then takes
its next stamp; the reply tells the value that the word has afterwards.
-/

namespace EinkLab.ControlService

open Binder LowerEngine Transition Stamps

variable {D : Type} {api : Parcels D} {c : Pipeline.Settings} {s s' : Controls}

namespace Treatment

/-- How many bits of a word the value takes. -/
def bits : Treatment → Nat
  | gray => 2
  | _ => 1

theorem bits_lt (k : Treatment) : k.bits < 64 := by
  cases k <;> decide

/-- At least so many changes are told apart. -/
theorem le_stamps (k : Treatment) : 2 ^ 62 ≤ stamps k.bits := by
  cases k <;> decide

theorem and_one_ne_zero_iff (w : UInt64) : w &&& 1 ≠ 0 ↔ Stamps.value 1 w = 1 := by
  have hand : (w &&& 1).toNat = Stamps.value 1 w := toNat_and_mask rfl
  have hlt : Stamps.value 1 w < 2 := Nat.mod_lt _ (by decide)
  rw [Ne, ← UInt64.toNat_inj, hand]
  show ¬ Stamps.value 1 w = 0 ↔ _
  omega

/-- The value is what the lowest bits hold. -/
theorem value_eq (k : Treatment) (w : UInt64) : k.value w = (Stamps.value k.bits w : Nat) := by
  have hbit : (if w &&& 1 ≠ 0 then 1 else 0 : Int) = (Stamps.value 1 w : Nat) := by
    have hlt : Stamps.value 1 w < 2 := Nat.mod_lt _ (by decide)
    by_cases hone : w &&& 1 ≠ 0
    · rw [if_pos hone, (and_one_ne_zero_iff w).mp hone]
      rfl
    · rw [if_neg hone]
      have hne : Stamps.value 1 w ≠ 1 := fun h => hone ((and_one_ne_zero_iff w).mpr h)
      omega
  have henabled : (if decide (w &&& 1 ≠ 0) = true then 1 else 0 : Int) =
    (Stamps.value 1 w : Nat) := by
    simpa only [decide_eq_true_eq] using hbit
  cases k with
  | quality => exact henabled
  | vivid => exact henabled
  | gray =>
    have hmask : (w &&& 3).toNat = Stamps.value 2 w := toNat_and_mask rfl
    exact congrArg Int.ofNat hmask

end Treatment

/-- A word that takes a value has it, and the next stamp unless it had it before. -/
theorem revise_spec {bits : Nat} {mask v : UInt64} (hbits : bits < 64)
    (hmask : mask.toNat + 1 = 2 ^ bits) (hv : v.toNat < 2 ^ bits) (w : UInt64) :
    Stamps.value bits (revise mask v w) = v.toNat ∧
      (revise mask v w = w ∨ (Stamps.value bits w ≠ v.toNat ∧
        stamp bits (revise mask v w) = (stamp bits w + 1) % stamps bits)) := by
  unfold revise
  by_cases heq : w &&& mask = v
  · rw [if_pos heq]
    refine ⟨?_, Or.inl rfl⟩
    rw [← toNat_and_mask hmask, heq]
  · rw [if_neg heq]
    refine ⟨value_change hbits hmask hv, Or.inr ⟨?_, stamp_change hbits hmask hv⟩⟩
    rw [← toNat_and_mask hmask]
    exact fun h => heq (UInt64.toNat_inj.mp h)

/-! ### A call -/

/-- A request about a treatment is carried out: its word has the value that was asked for, or its
own if none was, and it is the same word unless its value has changed. -/
structure Treats (k : Treatment) (request : Int) (s s' : Controls) : Prop where
  value : k.value (k.word s') = if request = -1 then k.value (k.word s) else request
  word : k.word s' = k.word s ∨ (k.value (k.word s') ≠ k.value (k.word s) ∧
    stamp k.bits (k.word s') = (stamp k.bits (k.word s) + 1) % stamps k.bits)
  others : ∀ k' ≠ k, k'.word s' = k'.word s

theorem Treats.of_ask {k : Treatment} : Treats k (-1) s s where
  value := (if_pos rfl).symm
  word := Or.inl rfl
  others _ _ := rfl

/-- What comes after it leaves the words alone. -/
theorem Treats.of_words {s'' : Controls} {k : Treatment} {request : Int} (h : Treats k request s s')
    (hwords : ∀ k : Treatment, k.word s'' = k.word s') : Treats k request s s'' := by
  refine ⟨?_, ?_, fun k' hne => (hwords k').trans (h.others k' hne)⟩
  · rw [hwords]
    exact h.value
  · rw [hwords]
    exact h.word

/-- A request that asks for no value. -/
theorem Treats.word_of_ask {k : Treatment} (h : Treats k (-1) s s') (k' : Treatment) :
    k'.word s' = k'.word s := by
  by_cases hk : k' = k
  · obtain rfl := hk
    -- the value is the same, and the word changes only with its value
    exact h.word.resolve_right fun h' => h'.1 (h.value.trans (if_pos rfl))
  · exact h.others k' hk

/-- A word that was revised. -/
theorem Treats.of_revise {k : Treatment} (mask : UInt64) {v : UInt64} {request : Int}
    (hmask : mask.toNat + 1 = 2 ^ k.bits) (hv : v.toNat < 2 ^ k.bits) (hrequest : request = v.toNat)
    (hword : k.word s' = revise mask v (k.word s)) (hothers : ∀ k' ≠ k, k'.word s' = k'.word s) :
    Treats k request s s' := by
  obtain ⟨hvalue, hrevised⟩ := revise_spec k.bits_lt hmask hv (k.word s)
  rw [← hword] at hvalue hrevised
  have hasked : k.value (k.word s') = request := by
    rw [k.value_eq, hvalue, hrequest]
  refine ⟨?_, hrevised.imp_right fun ⟨hne, hstamp⟩ => ⟨?_, hstamp⟩, hothers⟩
  · rw [if_neg (by omega), hasked]
  · rw [k.value_eq, k.value_eq, hvalue]
    exact fun h => hne (Int.ofNat.inj h).symm

theorem refreshDisplay_of_passed {caller : Caller} {isInterface : Bool}
    (h : ¬ (!caller.refreshDisplay || !isInterface) = true) : caller.refreshDisplay = true := by
  simp only [Bool.or_eq_true, Bool.not_eq_true', not_or, Bool.not_eq_false] at h
  exact h.1

theorem in_range_of_passed {sound : Bool} {avail : Nat} {request limit : Int}
    (h : ¬ (!sound || decide (avail ≠ 0) || decide (request < -1) ||
      decide (request > limit)) = true) :
    -1 ≤ request ∧ request ≤ limit := by
  simp only [Bool.or_eq_true, decide_eq_true_eq, not_or, not_lt] at h
  exact ⟨h.1.2, h.2⟩

/-- A request about a treatment comes from a caller that may refresh the display, and is in
range. -/
theorem readCall_asked {caller : Caller} {code : Nat} {data : api.Parcel} {reply : Bool}
    {call : Call}
    {k : Treatment} {request : Int} (h : readCall api caller code data reply = .ok call)
    (hasked : Treatment.asked call = some (k, request)) :
    caller.refreshDisplay = true ∧ -1 ≤ request ∧ request ≤ k.limit := by
  unfold readCall at h
  dsimp only at h
  split_ifs at h
  all_goals try cases h
  all_goals cases hasked
  · next hcaller _ hrange => exact ⟨refreshDisplay_of_passed hcaller, in_range_of_passed hrange⟩
  · next hcaller _ _ _ hrange => exact ⟨refreshDisplay_of_passed hcaller, in_range_of_passed hrange⟩
  · next hcaller _ _ _ hrange => exact ⟨refreshDisplay_of_passed hcaller, in_range_of_passed hrange⟩

theorem toNat_bit_lt (enabled : Bool) : (bit enabled).toNat < 2 ^ 1 := by
  cases enabled <;> decide

theorem toNat_bit {request : Int} (h : request = 0 ∨ request = 1) :
    request = (bit (request = 1)).toNat := by
  rcases h with rfl | rfl <;> rfl

theorem configureColorQuality_treats {p : EinkDeviceProfile} (hcolor : p.hasColorCfa = true)
    {enabled : Int} (hrange : -1 ≤ enabled ∧ enabled ≤ 1) :
    Treats .quality enabled s (s.configureColorQuality p enabled).2 ∧
      (s.configureColorQuality p enabled).1 =
        Treatment.quality.value (s.configureColorQuality p enabled).2.qualityConfig := by
  have hnot : ¬ (!p.hasColorCfa) = true := by simp [hcolor]
  unfold Controls.configureColorQuality
  rw [if_neg hnot]
  refine ⟨?_, rfl⟩
  show Treats _ _ s (if enabled = 0 ∨ enabled = 1 then _ else s)
  by_cases hset : enabled = 0 ∨ enabled = 1
  · rw [if_pos hset]
    refine Treats.of_revise 1 rfl (toNat_bit_lt _) (toNat_bit hset) ?_ ?_
    · exact if_neg hnot
    · rintro (_ | _ | _) hne
      · exact absurd rfl hne
      · rfl
      · rfl
  · rw [if_neg hset]
    obtain rfl : enabled = -1 := by omega
    exact Treats.of_ask

/-- A treatment that has the value asked for already. -/
theorem Treats.of_same {k : Treatment} {request : Int}
    (h : request = -1 ∨ request = k.value (k.word s)) : Treats k request s s := by
  refine ⟨?_, Or.inl rfl, fun _ _ => rfl⟩
  rcases h with rfl | rfl
  · exact (if_pos rfl).symm
  · exact (ite_self _).symm

theorem configureGrayPreference_treats (hcolor : c.profile.hasColorCfa = true) (world : World)
    {requested : Int} (hrange : -1 ≤ requested ∧ requested ≤ 2) :
    Treats .gray requested s (s.configureGrayPreference c world requested).2 ∧
      (s.configureGrayPreference c world requested).1.mode =
        Treatment.gray.value (s.configureGrayPreference c world requested).2.grayConfig := by
  have hnot : ¬ (!c.profile.hasColorCfa) = true := by simp [hcolor]
  have hvalid : ¬ (requested ≠ -1 ∧ (!isGrayPreference requested) = true) := by
    simp only [isGrayPreference, Bool.not_eq_true', Bool.and_eq_false_iff, decide_eq_false_iff_not]
    omega
  unfold Controls.configureGrayPreference
  rw [if_neg hnot, if_neg hvalid]
  dsimp only
  by_cases hsame : requested = -1 ∨ requested = getGrayPreference s.grayConfig
  · rw [if_pos hsame]
    exact ⟨Treats.of_same hsame, rfl⟩
  · rw [if_neg hsame]
    have htreats : Treats .gray requested s
        { s with grayConfig := setGrayPreference c.profile requested s.grayConfig } := by
      have hnonneg : 0 ≤ requested := by omega
      have hsmall : requested.toNat < 2 ^ 2 := by omega
      have hnat : (UInt64.ofNat requested.toNat).toNat = requested.toNat :=
        UInt64.toNat_ofNat_of_lt' (hsmall.trans (by decide))
      have hvalue : (UInt64.ofNat requested.toNat).toNat < 2 ^ 2 := by
        rw [hnat]
        exact hsmall
      refine Treats.of_revise 3 rfl hvalue ?_ ?_ ?_
      · rw [hnat]
        omega
      · have hgray : ¬ (!isGrayPreference requested) = true := fun h => hvalid ⟨by omega, h⟩
        show setGrayPreference c.profile requested s.grayConfig = _
        unfold setGrayPreference
        rw [if_neg hnot, if_neg hgray]
        rfl
      · rintro (_ | _ | _) hne
        · rfl
        · exact absurd rfl hne
        · rfl
    -- the refresh that follows has no part in the words
    refine ⟨htreats.of_words fun k => by cases k <;> rfl, ?_⟩
    exact (htreats.value.trans (if_neg fun h => hsame (Or.inl h))).symm

theorem configureVividColor_treats (hcolor : c.profile.hasColorCfa = true) (world : World)
    {requested : Int} (hrange : -1 ≤ requested ∧ requested ≤ 1) :
    Treats .vivid requested s (s.configureVividColor c world requested).2 ∧
      (s.configureVividColor c world requested).1.mode =
        Treatment.vivid.value (s.configureVividColor c world requested).2.vividConfig := by
  have hnot : ¬ (!c.profile.hasColorCfa) = true := by simp [hcolor]
  have hvalid : ¬ (requested ≠ -1 ∧ (requested < 0 ∨ requested > 1)) := by omega
  unfold Controls.configureVividColor
  rw [if_neg hnot, if_neg hvalid]
  dsimp only
  by_cases hsame : requested = -1 ∨
      requested = if getVividColorEnabled s.vividConfig = true then 1 else 0
  · rw [if_pos hsame]
    exact ⟨Treats.of_same hsame, rfl⟩
  · rw [if_neg hsame]
    have htreats : Treats .vivid requested s
        { s with vividConfig := setVividColorEnabled c.profile (requested = 1) s.vividConfig } := by
      refine Treats.of_revise 1 rfl (toNat_bit_lt _) (toNat_bit ?_) ?_ ?_
      · omega
      · exact if_neg hnot
      · rintro (_ | _ | _) hne
        · rfl
        · rfl
        · exact absurd rfl hne
    refine ⟨htreats.of_words fun k => by cases k <;> rfl, ?_⟩
    exact (htreats.value.trans (if_neg fun h => hsame (Or.inl h))).symm

theorem modeItems_eq (result : Controls.GrayPreferenceResult) :
    ∃ rest, (modeItems result : List (Item D)) = .noException :: .int32 result.mode :: rest :=
    ⟨_, rfl⟩

/-- A request about a treatment, once it is read: it is carried out, and the reply tells its
value. -/
theorem perform_treats (hcolor : c.profile.hasColorCfa = true) (world : World) {call : Call}
    {k : Treatment} {request : Int} (hasked : Treatment.asked call = some (k, request))
    (hrange : -1 ≤ request ∧ request ≤ k.limit) :
    Treats k request s (perform c world s call : Performed D).controls ∧
      ∃ rest, (perform c world s call : Performed D).reply =
        .noException :: .int32 (k.value (k.word (perform c world s call : Performed D).controls)) ::
          rest := by
  cases call with
  | frontLight => cases hasked
  | fullRefresh => cases hasked
  | colorCleanup => cases hasked
  | fullWaveformRefresh => cases hasked
  | colorQuality enabled =>
    obtain ⟨rfl, rfl⟩ := Prod.mk.inj (Option.some.inj hasked)
    obtain ⟨htreats, hstate⟩ := configureColorQuality_treats (s := s) hcolor hrange
    refine ⟨htreats, [], ?_⟩
    show [Item.noException, .int32 (s.configureColorQuality c.profile enabled).1] = _
    rw [hstate]
    rfl
  | grayPreference requested =>
    obtain ⟨rfl, rfl⟩ := Prod.mk.inj (Option.some.inj hasked)
    obtain ⟨htreats, hmode⟩ := configureGrayPreference_treats (s := s) hcolor world hrange
    obtain ⟨rest, hreply⟩ := modeItems_eq (D := D) (s.configureGrayPreference c world requested).1
    refine ⟨htreats, rest, hreply.trans ?_⟩
    rw [hmode]
    rfl
  | vividColor requested =>
    obtain ⟨rfl, rfl⟩ := Prod.mk.inj (Option.some.inj hasked)
    obtain ⟨htreats, hmode⟩ := configureVividColor_treats (s := s) hcolor world hrange
    obtain ⟨rest, hreply⟩ := modeItems_eq (D := D) (s.configureVividColor c world requested).1
    refine ⟨htreats, rest, hreply.trans ?_⟩
    rw [hmode]
    rfl

/-- The other calls leave the treatments alone. -/
theorem perform_of_asked_none (world : World) {call : Call} (hasked : Treatment.asked call = none)
    (k : Treatment) : k.word (perform c world s call : Performed D).controls = k.word s := by
  cases call with
  | colorQuality => cases hasked
  | grayPreference => cases hasked
  | vividColor => cases hasked
  | frontLight => cases k <;> rfl
  | fullRefresh => cases k <;> rfl
  | colorCleanup => cases k <;> rfl
  | fullWaveformRefresh => cases k <;> rfl

/-! ### A transaction -/

/-- A transaction about a treatment that was carried out. -/
structure Turned (s s' : Controls) (e : Served D) (k : Treatment) (request : Int) : Prop where
  asked : Treatment.asked e.call = some (k, request)
  told : e.told = some (k, k.value (k.word s'))
  caller : e.caller.refreshDisplay = true
  range : -1 ≤ request ∧ request ≤ k.limit
  treats : Treats k request s s'

/-- What a step of the endpoint does to the words. -/
theorem step_treatments (hcolor : c.profile.hasColorCfa = true) {a : Action api.Parcel}
    {evs : List (Served D)} (hstep : step api c s a = some (s', evs)) :
    ((∀ k : Treatment, k.word s' = k.word s) ∧ ∀ e ∈ evs, Treatment.asked e.call = none) ∨
      ∃ e k request, evs = [e] ∧ Turned s s' e k request := by
  cases a with
  | session pipeline =>
    obtain ⟨rfl, rfl⟩ := Prod.mk.inj (Option.some.inj hstep)
    refine Or.inl ⟨fun k => ?_, fun e he => absurd he List.not_mem_nil⟩
    cases k <;> rfl
  | onTransact world caller code data reply =>
    obtain ⟨rfl, rfl⟩ := Prod.mk.inj (Option.some.inj hstep)
    unfold onTransact
    cases hread : readCall api caller code data reply with
    | error status => exact Or.inl ⟨fun _ => rfl, fun e he => absurd he List.not_mem_nil⟩
    | ok call =>
      dsimp only [Option.toList]
      cases hasked : Treatment.asked call with
      | none =>
        refine Or.inl ⟨perform_of_asked_none world hasked, fun e he => ?_⟩
        rw [List.mem_singleton.mp he]
        exact hasked
      | some ask =>
        obtain ⟨k, request⟩ := ask
        obtain ⟨hcaller, hrange⟩ := readCall_asked hread hasked
        obtain ⟨htreats, rest, hreply⟩ := perform_treats (D := D)
          (s := s) hcolor world hasked hrange
        refine Or.inr ⟨_, k, request, rfl, hasked, ?_, hcaller, hrange, htreats⟩
        unfold Served.told
        dsimp only
        rw [hasked, hreply]
        rfl

end EinkLab.ControlService
