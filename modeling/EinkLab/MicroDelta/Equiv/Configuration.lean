import EinkLab.MicroDelta.Equiv.Hold
import Mathlib.Algebra.Group.Int.Defs
import Mathlib.Algebra.Group.Nat.Defs

/-!
# The material move limit

`material_move_pixels` is an unsigned number that is compared as an `int`.  Below 2³¹ the identical
delta is never promoted and a larger limit promotes no more; from 2³¹ on every follow-up is promoted
(`equivalence_respects_iff`).
-/

namespace EinkLab.MicroDelta

open Transition System

variable {c : MicroDeltaConfig} {p : MicroDeltaPolicy} {d : GrayscaleDelta} {limit limit' : UInt32}
  {before after width height : Int32} {now : TimePoint} {s : Signature}

/-! ### The limit as an `int` -/

theorem toInt_toInt32_of_lt (h : limit.toNat < 2 ^ 31) : limit.toInt32.toInt = limit.toNat := by
  have hcond := BitVec.toInt_eq_toNat_cond limit.toBitVec
  rw [if_pos (by simpa using (by omega : 2 * limit.toNat < 2 ^ 32))] at hcond
  exact hcond

theorem toInt_toInt32_of_le (h : 2 ^ 31 ≤ limit.toNat) : limit.toInt32.toInt < 0 := by
  have hcond := BitVec.toInt_eq_toNat_cond limit.toBitVec
  have hlt := limit.toNat_lt
  rw [if_neg (by simpa using (by omega : 2 ^ 32 ≤ 2 * limit.toNat))] at hcond
  have heq : limit.toInt32.toInt = (limit.toNat : Int) - (2 ^ 32 : Nat) := hcond
  omega

theorem withinLimit_self (h : limit.toNat < 2 ^ 31) (x : Int32) : withinLimit limit x x = true := by
  simp [withinLimit, toInt_toInt32_of_lt h]

theorem withinLimit_of_le (h : 2 ^ 31 ≤ limit.toNat) (before after : Int32) :
    withinLimit limit before after = false := by
  have hneg := toInt_toInt32_of_le h
  simp only [withinLimit, decide_eq_false_iff_not]
  omega

theorem withinLimit_mono (hle : limit ≤ limit') (h : limit'.toNat < 2 ^ 31)
    (hwithin : withinLimit limit before after = true) : withinLimit limit' before after = true := by
  have hnat : limit.toNat ≤ limit'.toNat := hle
  simp only [withinLimit, decide_eq_true_eq, toInt_toInt32_of_lt h,
    toInt_toInt32_of_lt (Nat.lt_of_le_of_lt hnat h)] at hwithin ⊢
  omega

theorem edgeMovedMaterially_self (h : limit.toNat < 2 ^ 31) (d : GrayscaleDelta) :
    edgeMovedMaterially d d limit = false := by
  simp [edgeMovedMaterially, withinLimit_self h]

theorem edgeMovedMaterially_of_le (h : 2 ^ 31 ≤ limit.toNat) (d d' : GrayscaleDelta) :
    edgeMovedMaterially d d' limit = true := by
  simp [edgeMovedMaterially, withinLimit_of_le h]

theorem edgeMovedMaterially_mono {d' : GrayscaleDelta} (hle : limit ≤ limit')
    (h : limit'.toNat < 2 ^ 31) (hmoved : edgeMovedMaterially d d' limit = false) :
    edgeMovedMaterially d d' limit' = false := by
  simp only [edgeMovedMaterially, Bool.or_eq_false_iff, Bool.not_eq_false'] at hmoved ⊢
  obtain ⟨⟨⟨hleft, htop⟩, hright⟩, hbottom⟩ := hmoved
  exact ⟨⟨⟨withinLimit_mono hle h hleft, withinLimit_mono hle h htop⟩,
    withinLimit_mono hle h hright⟩, withinLimit_mono hle h hbottom⟩

/-! ### Equivalence -/

/-- A micro delta has an area. -/
theorem intersects_self_of_isMicro (h : c.isMicro d width height = true) : intersects d d =
    true := by
  unfold MicroDeltaConfig.isMicro at h
  split at h
  · exact absurd h Bool.false_ne_true
  · dsimp only at h
    split at h
    · exact absurd h Bool.false_ne_true
    · next hbox =>
      simp only [not_or] at hbox
      have hx : d.left < d.right := Int32.lt_iff_toInt_lt.mpr (by omega)
      have hy : d.top < d.bottom := Int32.lt_iff_toInt_lt.mpr (by omega)
      simp [intersects, hx, hy]

theorem isEquivalent_self (h : c.isMicro s.delta s.width s.height = true)
    (hlimit : c.materialMovePixels.toNat < 2 ^ 31) :
    c.isEquivalent s s.delta s.width s.height = true := by
  simp [MicroDeltaConfig.isEquivalent, h, intersects_self_of_isMicro h,
    edgeMovedMaterially_self hlimit]

theorem isEquivalent_of_le (hlimit : 2 ^ 31 ≤ c.materialMovePixels.toNat) (s : Signature)
    (d : GrayscaleDelta) (width height : Int32) : c.isEquivalent s d width height = false := by
  simp [MicroDeltaConfig.isEquivalent, edgeMovedMaterially_of_le hlimit]

theorem isMicro_materialMovePixels (c : MicroDeltaConfig) (pixels : UInt32) (d : GrayscaleDelta)
    (width height : Int32) :
    { c with materialMovePixels := pixels }.isMicro d width height = c.isMicro d width height :=
  rfl

theorem isEquivalent_mono {pixels : UInt32} (hle : c.materialMovePixels ≤ pixels)
    (hlimit : pixels.toNat < 2 ^ 31) (h : c.isEquivalent s d width height = true) :
    { c with materialMovePixels := pixels }.isEquivalent s d width height = true := by
  simp only [MicroDeltaConfig.isEquivalent, Bool.and_eq_true, Bool.not_eq_true',
    isMicro_materialMovePixels] at h ⊢
  exact ⟨h.1, edgeMovedMaterially_mono hle hlimit h.2⟩

/-! ### Promotion -/

/-- A micro delta is promoted exactly where a signature is left that it is not equivalent to. -/
theorem evaluate_eq_submitPromoted_iff :
    (p.evaluate (some d) width height now).1 = .submitPromoted ↔
      p.config.isMicro d width height = true ∧
        ∃ s ∈ (p.clearExpiredRepeat now).signature,
          p.config.isEquivalent s d width height = false := by
  simp only [MicroDeltaPolicy.evaluate, clearExpiredRepeat_config]
  split
  · next hbroad =>
    rw [Bool.not_eq_true'] at hbroad
    simp [MicroDeltaPolicy.bypass, hbroad]
  · next hmicro =>
    rw [Bool.not_eq_true', Bool.not_eq_false] at hmicro
    unfold MicroDeltaPolicy.evaluateMicro
    split
    · next hnone => simp [hnone]
    · next s hsome =>
      rw [hsome, clearExpiredRepeat_config]
      cases hequiv : p.config.isEquivalent s d width height with
      | false => simp [hmicro, hequiv]
      | true =>
        simp only [Bool.not_true, Bool.false_eq_true, if_false]
        split
        · simp [hequiv]
        · simp [hequiv]

/-- Before the guard expires the signature stays. -/
theorem clearExpiredRepeat_of_current
    (h : p.repeatGuard = true → ∀ deadline ∈ p.deadline, now < deadline) :
    p.clearExpiredRepeat now = p := by
  rcases clearExpiredRepeat_cases p now with heq | ⟨deadline, hdeadline, hguard, hle, -⟩
  · exact heq
  · exact absurd hle (Int.not_le.mpr (h hguard deadline hdeadline))

/-! ### The law -/

/-- A policy that some run reaches, with `c` as its configuration. -/
def Reached (c : MicroDeltaConfig) (p : MicroDeltaPolicy) : Prop :=
  p.config = c ∧ ∃ initial calls log w,
    system.Run anyAction ⟨.create initial, none, none, 0⟩ calls log w ∧ w.policy = p

/-- The identical micro delta, while it is held or before its guard expires, is not promoted. -/
def IdenticalKept (c : MicroDeltaConfig) : Prop :=
  ∀ (p : MicroDeltaPolicy) (now : TimePoint), Reached c p → ∀ s ∈ p.signature,
    c.isMicro s.delta s.width s.height = true → p.deferred = true ∨ p.repeatGuard = true →
      (p.repeatGuard = true → ∀ deadline ∈ p.deadline, now < deadline) →
        (p.evaluate (some s.delta) s.width s.height now).1 ≠ .submitPromoted

/-- What is held or suppressed is not promoted under the larger limit. -/
def EnlargingKept (c : MicroDeltaConfig) (pixels : UInt32) : Prop :=
  ∀ (p : MicroDeltaPolicy) (delta : Option GrayscaleDelta) (width height : Int32) (now : TimePoint),
    Reached c p →
      (p.evaluate delta width height now).1 = .held ∨
        (p.evaluate delta width height now).1 = .repeatSuppressed →
      ({ p with config := { c with materialMovePixels := pixels } }.evaluate
        delta width height now).1 ≠ .submitPromoted

theorem identicalKept_of_lt (hlimit : c.materialMovePixels.toNat < 2 ^ 31) : IdenticalKept c := by
  rintro p now ⟨rfl, -⟩ s hs hmicro - hcurrent hpromoted
  obtain ⟨-, s', hs', hequiv⟩ := evaluate_eq_submitPromoted_iff.mp hpromoted
  rw [clearExpiredRepeat_of_current hcurrent] at hs'
  obtain rfl := Option.some.inj (hs.symm.trans hs')
  rw [isEquivalent_self hmicro hlimit] at hequiv
  cases hequiv

theorem clearExpiredRepeat_signature_with (p : MicroDeltaPolicy) (config : MicroDeltaConfig)
    (now : TimePoint) :
    ({ p with config := config }.clearExpiredRepeat now).signature =
      (p.clearExpiredRepeat now).signature := by
  unfold MicroDeltaPolicy.clearExpiredRepeat
  dsimp only
  split
  · rfl
  · split
    · rfl
    · rfl

theorem enlargingKept_of_lt {pixels : UInt32} (hle : c.materialMovePixels ≤ pixels)
    (hlimit : pixels.toNat < 2 ^ 31 ∨ 2 ^ 31 ≤ c.materialMovePixels.toNat) :
    EnlargingKept c pixels := by
  rintro p delta width height now ⟨rfl, -⟩ hkept hpromoted
  cases delta with
  | none => simp [MicroDeltaPolicy.evaluate, MicroDeltaPolicy.bypass] at hpromoted
  | some d =>
    obtain ⟨hmicro, s, hs, hequiv⟩ := evaluate_eq_submitPromoted_iff.mp hpromoted
    rw [clearExpiredRepeat_signature_with] at hs
    -- under the smaller limit the delta is equivalent to the signature that is left
    have hequiv' : p.config.isEquivalent s d width height = true := by
      by_contra hno
      have hpromoted' : (p.evaluate (some d) width height now).1 = .submitPromoted :=
        evaluate_eq_submitPromoted_iff.mpr ⟨hmicro, s, hs, by simpa using hno⟩
      rw [hpromoted'] at hkept
      simp at hkept
    rcases hlimit with hlimit | hlimit
    · rw [isEquivalent_mono hle hlimit hequiv'] at hequiv
      cases hequiv
    · rw [isEquivalent_of_le hlimit] at hequiv'
      cases hequiv'

/-- One changed pixel in the outermost row of a large frame. -/
def edgeDot : MicroChromeEdge → GrayscaleDelta
  | .top => ⟨1, 1, 0, 1000000, 500, 0, 501, 1⟩
  | .bottom => dot

/-- It is micro under every configuration. -/
theorem isMicro_edgeDot (hc : c.isValid = true) :
    c.isMicro (edgeDot c.chromeEdge) 1000 1000 = true := by
  simp only [MicroDeltaConfig.isValid, Bool.and_eq_true, decide_eq_true_eq, ge_iff_le] at hc
  have hchanged : (1 : UInt32) ≤ c.changedPpm :=
    UInt32.le_trans (by decide) (by simp_all : (100 : UInt32) ≤ c.changedPpm)
  have hbox : (1 : UInt32) ≤ c.boundingBoxPpm :=
    UInt32.le_trans (by decide) (by simp_all : (100 : UInt32) ≤ c.boundingBoxPpm)
  have hedge : (1000 : UInt32) ≤ c.edgeBandPpm :=
    UInt32.le_trans (by decide) (by simp_all : (10000 : UInt32) ≤ c.edgeBandPpm)
  cases hchrome : c.chromeEdge with
  | top =>
    have hvalue : c.isMicro (edgeDot .top) 1000 1000 =
        (1 ≤ c.changedPpm && 1 ≤ c.boundingBoxPpm && 1000 ≤ c.edgeBandPpm) := by
      unfold MicroDeltaConfig.isMicro
      rw [hchrome]
      rfl
    simp [hvalue, hchanged, hbox, hedge]
  | bottom =>
    have hvalue : c.isMicro (edgeDot .bottom) 1000 1000 =
        (1 ≤ c.changedPpm && 1 ≤ c.boundingBoxPpm && 1000 ≤ c.edgeBandPpm) := by
      unfold MicroDeltaConfig.isMicro
      rw [hchrome]
      rfl
    simp [hvalue, hchanged, hbox, hedge]

/-- The policy that holds that pixel. -/
def holding (c : MicroDeltaConfig) : MicroDeltaPolicy where
  config := c
  signature := some ⟨edgeDot c.chromeEdge, 1000, 1000⟩
  deadline := some (0 + milliseconds c.settle)
  deferred := true
  diagnostics.held := 0 + 1

theorem evaluate_create (hc : c.isValid = true) :
    (MicroDeltaPolicy.create c).evaluate (some (edgeDot c.chromeEdge)) 1000 1000 0 =
      (.held, holding c) := by
  simp [MicroDeltaPolicy.create, hc, MicroDeltaPolicy.evaluate, MicroDeltaPolicy.clearExpiredRepeat,
    MicroDeltaPolicy.evaluateMicro, isMicro_edgeDot hc, holding]

theorem reached_holding (hc : c.isValid = true) : Reached c (holding c) := by
  have hstep : system.Run anyAction ⟨.create c, none, none, 0⟩
      [.evaluate (some (edgeDot c.chromeEdge)) 1000 1000 0] _ _ := Run.single trivial rfl
  exact ⟨rfl, c, _, _, _, hstep, congrArg Prod.snd (evaluate_create hc)⟩

/-- From 2³¹ on the pixel is promoted when it comes again. -/
theorem evaluate_holding_of_le {config : MicroDeltaConfig}
    (hmicro : config.isMicro (edgeDot c.chromeEdge) 1000 1000 = true)
    (hlimit : 2 ^ 31 ≤ config.materialMovePixels.toNat) :
    ({ holding c with config := config }.evaluate (some (edgeDot c.chromeEdge)) 1000 1000 0).1 =
      .submitPromoted :=
  evaluate_eq_submitPromoted_iff.mpr
    ⟨hmicro, ⟨edgeDot c.chromeEdge, 1000, 1000⟩, rfl, isEquivalent_of_le hlimit _ _ _ _⟩

/-- Below 2³¹ it is held again. -/
theorem evaluate_holding_of_lt (hc : c.isValid = true)
    (hlimit : c.materialMovePixels.toNat < 2 ^ 31) :
    ((holding c).evaluate (some (edgeDot c.chromeEdge)) 1000 1000 0).1 = .held := by
  have hmicro := isMicro_edgeDot hc
  have hequiv := isEquivalent_self (s := ⟨edgeDot c.chromeEdge, 1000, 1000⟩) hmicro hlimit
  simp [MicroDeltaPolicy.evaluate, MicroDeltaPolicy.clearExpiredRepeat, holding, hmicro,
    MicroDeltaPolicy.evaluateMicro, hequiv]

theorem identicalKept_iff (hc : c.isValid = true) :
    IdenticalKept c ↔ c.materialMovePixels.toNat < 2 ^ 31 := by
  refine ⟨?_, identicalKept_of_lt⟩
  intro hkept
  by_contra hlarge
  exact hkept (holding c) 0 (reached_holding hc) ⟨edgeDot c.chromeEdge, 1000, 1000⟩ rfl
    (isMicro_edgeDot hc) (Or.inl rfl) (fun hno => by cases hno)
    (evaluate_holding_of_le (isMicro_edgeDot hc) (Nat.not_lt.mp hlarge))

theorem enlargingKept_iff (hc : c.isValid = true) {pixels : UInt32}
    (hle : c.materialMovePixels ≤ pixels) :
    EnlargingKept c pixels ↔ pixels.toNat < 2 ^ 31 ∨ 2 ^ 31 ≤ c.materialMovePixels.toNat := by
  refine ⟨?_, enlargingKept_of_lt hle⟩
  intro hkept
  by_contra hlarge
  obtain ⟨hlarge, hsmall⟩ := not_or.mp hlarge
  have hmicro : { c with materialMovePixels := pixels }.isMicro (edgeDot c.chromeEdge) 1000 1000 =
      true := (isMicro_materialMovePixels c pixels _ _ _).trans (isMicro_edgeDot hc)
  exact hkept (holding c) (some (edgeDot c.chromeEdge)) 1000 1000 0 (reached_holding hc)
    (Or.inl (evaluate_holding_of_lt hc (Nat.not_le.mp hsmall)))
    (evaluate_holding_of_le hmicro (Nat.not_lt.mp hlarge))

/-- **When equivalence respects the limit**: the identical delta is never promoted if and only if
the limit is below 2³¹, and enlarging the limit promotes no more if and only if it stays below 2³¹
(or was not below it, where every follow-up is promoted anyhow). -/
theorem equivalence_respects_iff (hc : c.isValid = true) {pixels : UInt32}
    (hle : c.materialMovePixels ≤ pixels) :
    (IdenticalKept c ↔ c.materialMovePixels.toNat < 2 ^ 31) ∧
      (EnlargingKept c pixels ↔ pixels.toNat < 2 ^ 31 ∨ 2 ^ 31 ≤ c.materialMovePixels.toNat) :=
  ⟨identicalKept_iff hc, enlargingKept_iff hc hle⟩

theorem equivalence_respects_iff_default : IdenticalKept {} ∧ EnlargingKept {} 64 := by
  have hboth := equivalence_respects_iff (c := {}) (by decide) (by decide : (32 : UInt32) ≤ 64)
  exact ⟨hboth.1.mpr (by decide), hboth.2.mpr (by decide)⟩

theorem not_forall_equivalence_respects :
    ¬∀ (c : MicroDeltaConfig) (pixels : UInt32), c.isValid = true → c.materialMovePixels ≤ pixels →
      IdenticalKept c ∧ EnlargingKept c pixels := by
  intro h
  have hkept := (h { materialMovePixels := 2147483648 } 2147483648 (by decide) (by decide)).1
  have hlimit := (identicalKept_iff (by decide)).mp hkept
  exact absurd hlimit (by decide)

end EinkLab.MicroDelta
