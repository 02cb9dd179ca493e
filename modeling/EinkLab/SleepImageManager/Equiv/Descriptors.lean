import EinkLab.SleepImageManager.Descriptors

/-!
# The descriptor ledger of the sleep-image manager

Every descriptor obtained should be closed once, or be held by one candidate of the retained catalog
or of a posted message (`Holdings.Balanced`).  Each method is given the descriptors its caller names
and accounts for them to the end; what is left over are the descriptors it lost.

There are two places that lose one.  If the gray plane of a round cannot be duplicated, the
transport of its alpha plane, which has been received already, is not closed; and if the alpha plane
of a copy cannot be duplicated, the gray duplicate that the same expression has made belongs to no
candidate yet, and `closeAll` does not reach it.  Besides, a descriptor that
`SharedMemory.fromFileDescriptor` detaches and then refuses is lost in that call.
`descriptor_ledger_iff` is that nothing else is.
-/

namespace EinkLab.SleepImageManager

open Transition

/-! ### What loses a descriptor -/

def Transport.usable (t : Transport) (bytes : Int) : Bool :=
  t.opening = .opened bytes && t.duplicates

def Transport.detached (t : Transport) : Bool := t.opening = .refused true

/-- Both planes of a round can be duplicated. -/
def Entry.usable (e : Entry) : Bool :=
  e.validMetadata && e.grayTransport.any (·.usable (panelBytesFor e.width e.height * 4)) &&
    e.alphaTransport.any (·.usable (panelBytesFor e.width e.height))

/-- A round that fails with a descriptor nobody closes: the alpha transport where the gray plane
fails, or a transport that was detached before it was refused. -/
def Entry.loses (e : Entry) : Bool :=
  e.validMetadata &&
    if e.grayTransport.any (·.usable (panelBytesFor e.width e.height * 4)) then
      e.alphaTransport.any (·.detached)
    else e.grayTransport.any (·.detached) || e.alphaTransport.isSome

/-- The first round that fails loses a descriptor. -/
def LosesIn (entries : List Entry) : Prop :=
  ∃ pre e post, entries = pre ++ e :: post ∧ (∀ x ∈ pre, x.usable = true) ∧ e.loses = true

def ProviderCallback.Loses (d : ProviderCallback) : Prop :=
  d.fromProvider = true ∧ d.validHeader = true ∧ d.result = RESULT_OK ∧ LosesIn d.entries

/-- The first duplication that fails is that of an alpha plane. -/
def Copies.Loses (copies : Copies) (first count : Nat) : Prop :=
  ∃ i, i < count ∧ (∀ j < i, copies (first + j) = (true, true)) ∧ copies (first + i) = (true, false)

namespace Holdings

def Loses (s : Holdings) : Action → Prop
  | .onTransact d => d.Loses
  | .handleProviderCallback m copies _ =>
    ∃ msg posted, s.posted = msg :: posted ∧ installs m msg = true ∧
      copies.Loses 0 msg.candidates.length
  | .renewEpoch copies _ => copies.Loses 0 s.retained.length
  | .dropCatalog => False

def Careful (s : Holdings) (a : Action) : Prop := ¬ s.Loses a

/-- What the posted messages and the retained catalog hold. -/
def held (s : Holdings) : List Nat :=
  s.posted.flatMap (fun msg => descriptors msg.candidates) ++ descriptors s.retained

/-- Every descriptor obtained is closed once and not held, or not closed and held once. -/
def Balanced (s : Holdings) : Prop := s.handles.Accounts s.held

end Holdings

theorem losesIn_cons_of_not_usable {e : Entry} {entries : List Entry} (h : e.usable = false) :
    LosesIn (e :: entries) ↔ e.loses = true := by
  constructor
  · rintro ⟨pre, x, post, heq, hpre, hloses⟩
    cases pre with
    | nil =>
      obtain ⟨rfl, -⟩ := List.cons.inj heq
      exact hloses
    | cons y pre =>
      obtain ⟨rfl, -⟩ := List.cons.inj heq
      have husable := hpre e (by simp)
      rw [h] at husable
      cases husable
  · exact fun hloses => ⟨[], e, entries, rfl, fun x hx => absurd hx List.not_mem_nil, hloses⟩

theorem losesIn_cons_of_usable {e : Entry} {entries : List Entry} (h : e.usable = true)
    (hloses : e.loses = false) : LosesIn entries ↔ LosesIn (e :: entries) := by
  constructor
  · rintro ⟨pre, x, post, rfl, hpre, hx⟩
    refine ⟨e :: pre, x, post, rfl, ?_, hx⟩
    rintro y (_ | ⟨_, hy⟩)
    · exact h
    · exact hpre y hy
  · rintro ⟨pre, x, post, heq, hpre, hx⟩
    cases pre with
    | nil =>
      obtain ⟨rfl, -⟩ := List.cons.inj heq
      rw [hloses] at hx
      cases hx
    | cons y pre =>
      obtain ⟨-, rfl⟩ := List.cons.inj heq
      exact ⟨pre, x, post, rfl, fun z hz => hpre z (List.mem_cons_of_mem y hz), hx⟩

/-! ### Duplications -/

section

variable {h h' : Handles} {held : List Nat}

theorem descriptors_append (catalog catalog' : List HeldCandidate) :
    descriptors (catalog ++ catalog') = descriptors catalog ++ descriptors catalog' :=
  List.flatMap_append

/-- The descriptor of a received transport. -/
def received (transport : Option (Nat × Transport)) : List Nat := (transport.map Prod.fst).toList

theorem accounts_readFileDescriptor (ha : h.Accounts held) (transport : Option Transport) :
    (readFileDescriptor h transport).2.Accounts
        (received (readFileDescriptor h transport).1 ++ held) ∧
      (readFileDescriptor h transport).1.map Prod.snd = transport := by
  cases transport with
  | none => exact ⟨ha, rfl⟩
  | some t => exact ⟨ha.obtain, rfl⟩

/-- The transport is exchanged for its duplicate, or it is closed, unless it was detached. -/
theorem accounts_duplicate (bytes : Int) {transport : Option (Nat × Transport)}
    (ha : h.Accounts (received transport ++ held)) :
    (∃ fd h', duplicateValidatedSharedMemory h transport bytes = (some fd, h') ∧
        (transport.map Prod.snd).any (·.usable bytes) = true ∧ h'.Accounts (fd :: held)) ∨
      ∃ lost h', duplicateValidatedSharedMemory h transport bytes = (none, h') ∧
        (transport.map Prod.snd).any (·.usable bytes) = false ∧ h'.Accounts (lost ++ held) ∧
        (lost = [] ↔ (transport.map Prod.snd).any (·.detached) = false) := by
  unfold duplicateValidatedSharedMemory
  cases transport with
  | none => exact Or.inr ⟨[], h, rfl, rfl, ha, iff_of_true rfl rfl⟩
  | some received =>
    obtain ⟨fd, opening, duplicates⟩ := received
    have hclosed : (h.close fd).Accounts held := ha.close
    cases opening with
    | refused detached =>
      right
      cases detached with
      | false => exact ⟨[], h.close fd, rfl, rfl, hclosed, iff_of_true rfl rfl⟩
      | true => exact ⟨[fd], h, rfl, rfl, ha, iff_of_false nofun nofun⟩
    | opened size =>
      by_cases hsize : size = bytes
      · subst hsize
        cases duplicates with
        | false =>
          right
          refine ⟨[], h.close fd, by simp, by simp [Transport.usable], hclosed, ?_⟩
          exact iff_of_true rfl rfl
        | true =>
          left
          refine ⟨h.obtain.1, h.obtain.2.close fd, by simp, by simp [Transport.usable], ?_⟩
          have hobtained : h.obtain.2.Accounts (h.obtain.1 :: fd :: held) := ha.obtain
          exact (hobtained.perm (List.Perm.swap fd _ held)).close
      · right
        refine ⟨[], h.close fd, by simp [hsize], ?_, hclosed, iff_of_true rfl rfl⟩
        simp [Transport.usable, hsize]

/-! ### The rounds of a callback -/

/-- A round ends with a candidate, or its descriptors are closed but for those it loses. -/
theorem accounts_readCandidate (ha : h.Accounts held) (e : Entry) :
    (∃ c h', readCandidate h e = (.ok c, h') ∧ e.usable = true ∧
        h'.Accounts (descriptors [c] ++ held)) ∨
      ∃ fdFailure lost h', readCandidate h e = (.error fdFailure, h') ∧ e.usable = false ∧
        h'.Accounts (lost ++ held) ∧ (lost = [] ↔ e.loses = false) := by
  unfold readCandidate Entry.usable Entry.loses
  cases hvalid : e.validMetadata with
  | false =>
    exact Or.inr ⟨false, [], h, rfl, rfl, ha, iff_of_true rfl rfl⟩
  | true =>
    simp only [Bool.not_true, Bool.false_eq_true, ↓reduceIte, Bool.true_and]
    obtain ⟨hgray, hgrayTransport⟩ := accounts_readFileDescriptor ha e.grayTransport
    generalize readFileDescriptor h e.grayTransport = gray at hgray hgrayTransport ⊢
    obtain ⟨grayTransport, h₁⟩ := gray
    obtain ⟨halpha, halphaTransport⟩ := accounts_readFileDescriptor hgray e.alphaTransport
    generalize readFileDescriptor h₁ e.alphaTransport = alpha at halpha halphaTransport ⊢
    obtain ⟨alphaTransport, h₂⟩ := alpha
    dsimp only at hgray hgrayTransport halpha halphaTransport ⊢
    rw [← hgrayTransport, ← halphaTransport]
    -- the gray transport is handed over first
    have hboth : h₂.Accounts (received grayTransport ++ (received alphaTransport ++ held)) := by
      refine halpha.perm ?_
      rw [← List.append_assoc, ← List.append_assoc]
      exact List.perm_append_comm.append_right held
    rcases accounts_duplicate (panelBytesFor e.width e.height * 4) hboth with
      ⟨grayFd, h₃, heq, husable, hkept⟩ | ⟨lost, h₃, heq, husable, hkept, hlost⟩
    · have hnext : h₃.Accounts (received alphaTransport ++ (grayFd :: held)) :=
        hkept.perm List.perm_middle.symm
      rw [heq, husable]
      dsimp only
      rcases accounts_duplicate (panelBytesFor e.width e.height) hnext with
        ⟨alphaFd, h₄, heq, husable, hkept⟩ | ⟨lost, h₄, heq, husable, hkept, hlost⟩
      · rw [heq, husable]
        exact Or.inl ⟨_, h₄, rfl, rfl, hkept.perm (List.Perm.swap grayFd alphaFd held)⟩
      · -- the gray duplicate is closed when the alpha one fails
        rw [heq, husable]
        exact Or.inr ⟨true, lost, h₄.close grayFd, rfl, rfl, (hkept.perm List.perm_middle).close,
          hlost⟩
    · -- the alpha transport has been received, and nobody closes it
      rw [heq, husable]
      refine Or.inr ⟨true, lost ++ received alphaTransport, h₃, rfl, rfl, ?_, ?_⟩
      · rwa [List.append_assoc]
      · rw [List.append_eq_nil_iff, hlost]
        cases alphaTransport with
        | none => simp [received]
        | some transport => simp [received]

/-- The loop ends with the candidates it has read, or its descriptors are closed or held by them but
for those that a round has lost. -/
theorem accounts_readCandidates (candidates : List HeldCandidate) (entries : List Entry)
    (ha : h.Accounts (descriptors candidates ++ held)) :
    ∃ thrown candidates' lost h', readCandidates h candidates entries = (thrown, candidates', h') ∧
      h'.Accounts (descriptors candidates' ++ (lost ++ held)) ∧
      (lost = [] ↔ ¬ LosesIn entries) ∧ (thrown = none → lost = []) := by
  induction entries generalizing h candidates with
  | nil =>
    refine ⟨none, candidates, [], h, rfl, ha, iff_of_true rfl ?_, fun _ => rfl⟩
    rintro ⟨pre, e, post, heq, -⟩
    simp at heq
  | cons e entries ih =>
    unfold readCandidates
    rcases accounts_readCandidate ha e with ⟨c, h', heq, husable, hkept⟩ |
      ⟨fdFailure, lost, h', heq, husable, hkept, hlost⟩
    · rw [heq]
      have hread : h'.Accounts (descriptors (candidates ++ [c]) ++ held) := by
        refine hkept.perm ?_
        rw [descriptors_append, ← List.append_assoc]
        exact List.perm_append_comm.append_right held
      obtain ⟨thrown, candidates', lost, h'', heq', hkept', hlost, hnone⟩ :=
        ih (candidates ++ [c]) hread
      refine ⟨thrown, candidates', lost, h'', heq', hkept', hlost.trans (not_congr ?_), hnone⟩
      -- a usable entry loses nothing: both of its transports were opened
      have hnot : e.loses = false := by
        unfold Entry.usable at husable
        unfold Entry.loses
        simp only [Bool.and_eq_true] at husable
        obtain ⟨⟨-, hgray⟩, halpha⟩ := husable
        rw [hgray, if_pos rfl]
        cases htransport : e.alphaTransport with
        | none => simp
        | some t =>
          rw [htransport] at halpha
          simp only [Option.any_some, Transport.usable, Bool.and_eq_true,
            decide_eq_true_eq] at halpha
          simp [Transport.detached, halpha.1]
      exact losesIn_cons_of_usable husable hnot
    · rw [heq]
      refine ⟨some fdFailure, candidates, lost, h', rfl, ?_, ?_, nofun⟩
      · refine hkept.perm ?_
        rw [← List.append_assoc, ← List.append_assoc]
        exact List.perm_append_comm.append_right held
      · rw [hlost, losesIn_cons_of_not_usable husable, Bool.not_eq_true]

/-- What `onTransact` posts holds what it has not closed or lost. -/
theorem accounts_onTransact (ha : h.Accounts held) (d : ProviderCallback) :
    ∃ message lost h', onTransact h d = (message, h') ∧
      h'.Accounts (message.toList.flatMap (fun msg => descriptors msg.candidates) ++
        (lost ++ held)) ∧
      (lost = [] ↔ ¬ d.Loses) := by
  unfold onTransact
  by_cases hprovider : d.fromProvider = true
  swap
  · rw [if_pos (by simpa using hprovider)]
    exact ⟨none, [], h, rfl, ha, iff_of_true rfl fun hloses => hprovider hloses.1⟩
  rw [if_neg (by simpa using hprovider)]
  by_cases hheader : d.validHeader = true
  swap
  · rw [if_pos (by simpa using hheader)]
    exact ⟨some _, [], h, rfl, ha, iff_of_true rfl fun hloses => hheader hloses.2.1⟩
  rw [if_neg (by simpa using hheader)]
  -- the loop, which only an `ok` result enters
  have hloop : ∃ thrown candidates lost h',
      (if d.result = ProviderCallback.RESULT_OK then readCandidates h [] d.entries
        else (none, [], h)) = (thrown, candidates, h') ∧
      h'.Accounts (descriptors candidates ++ (lost ++ held)) ∧ (lost = [] ↔ ¬ d.Loses) := by
    by_cases hresult : d.result = ProviderCallback.RESULT_OK
    · rw [if_pos hresult]
      obtain ⟨thrown, candidates, lost, h', heq, hkept, hlost, -⟩ :=
        accounts_readCandidates [] d.entries ha
      refine ⟨thrown, candidates, lost, h', heq, hkept, hlost.trans (not_congr ?_)⟩
      exact ⟨fun hloses => ⟨hprovider, hheader, hresult, hloses⟩, fun hloses => hloses.2.2.2⟩
    · rw [if_neg hresult]
      exact ⟨none, [], [], h, rfl, ha, iff_of_true rfl fun hloses => hresult hloses.2.2.1⟩
  obtain ⟨thrown, candidates, lost, h', heq, hkept, hlost⟩ := hloop
  rw [heq]
  cases thrown with
  | some fdFailure => exact ⟨some _, lost, _, rfl, hkept.closeAll, hlost⟩
  | none =>
    dsimp only
    split_ifs
    · exact ⟨some _, lost, _, rfl, hkept.closeAll, hlost⟩
    · refine ⟨some _, lost, h', rfl, ?_, hlost⟩
      rwa [Option.toList_some, List.flatMap_singleton]

/-! ### The copies of the retained catalog -/

theorem losesCopies_succ {copies : Copies} {first count : Nat} :
    copies.Loses first (count + 1) ↔ copies first = (true, false) ∨
      (copies first = (true, true) ∧ copies.Loses (first + 1) count) := by
  constructor
  · rintro ⟨i, hi, hbefore, hfails⟩
    cases i with
    | zero => exact Or.inl hfails
    | succ i =>
      refine Or.inr ⟨hbefore 0 (Nat.succ_pos i), i, Nat.lt_of_succ_lt_succ hi, fun j hj => ?_, ?_⟩
      · rw [Nat.add_assoc, Nat.add_comm 1 j]
        exact hbefore (j + 1) (Nat.succ_lt_succ hj)
      · rwa [Nat.add_assoc, Nat.add_comm 1 i]
  · rintro (hfails | ⟨hfirst, i, hi, hbefore, hfails⟩)
    · exact ⟨0, Nat.succ_pos count, fun j hj => absurd hj (Nat.not_lt_zero j), hfails⟩
    · refine ⟨i + 1, Nat.succ_lt_succ hi, fun j hj => ?_, ?_⟩
      · cases j with
        | zero => exact hfirst
        | succ j =>
          rw [← Nat.add_assoc, Nat.add_right_comm]
          exact hbefore j (Nat.lt_of_succ_lt_succ hj)
      · rwa [← Nat.add_assoc, Nat.add_right_comm]

theorem accounts_copyCandidates (copies : Copies) (index : Nat) (copy catalog : List HeldCandidate)
    (ha : h.Accounts (descriptors copy ++ held)) :
    ∃ publication lost h', copyCandidates copies h index copy catalog = (publication, h') ∧
      h'.Accounts (descriptors (publication.getD []) ++ (lost ++ held)) ∧
      (lost = [] ↔ ¬ copies.Loses index catalog.length) := by
  induction catalog generalizing h index copy with
  | nil =>
    refine ⟨some copy, [], h, rfl, ha, iff_of_true rfl ?_⟩
    rintro ⟨i, hi, -⟩
    exact absurd hi (Nat.not_lt_zero i)
  | cons c catalog ih =>
    unfold copyCandidates
    rw [List.length_cons, losesCopies_succ]
    rcases hcopies : copies index with ⟨gray, alpha⟩
    cases gray with
    | false => exact ⟨none, [], _, rfl, ha.closeAll, iff_of_true rfl (by simp)⟩
    | true =>
      have hgray := ha.obtain
      cases alpha with
      | false =>
        -- the gray duplicate belongs to no candidate yet
        refine ⟨none, [h.obtain.1], _, rfl, ?_, iff_of_false nofun (by simp)⟩
        exact (hgray.perm List.perm_middle.symm).closeAll
      | true =>
        have halpha := hgray.obtain
        have hcopied : h.obtain.2.obtain.2.Accounts
            (descriptors (copy ++ [⟨h.obtain.1, h.obtain.2.obtain.1, c.candidate⟩]) ++ held) := by
          refine halpha.perm ?_
          rw [descriptors_append, List.append_assoc]
          refine (List.Perm.swap _ _ _).trans ?_
          exact List.perm_append_comm_assoc [_, _] (descriptors copy) held
        obtain ⟨publication, lost, h', heq, hkept, hlost⟩ := ih (index + 1) _ hcopied
        exact ⟨publication, lost, h', heq, hkept, by simpa using hlost⟩

/-- A copy is closed on every path. -/
theorem accounts_publishCopy {publication : Option (List HeldCandidate)}
    (ha : h.Accounts (descriptors (publication.getD []) ++ held)) (pick : Nat) :
    (publishCopy h publication pick).Accounts held := by
  unfold publishCopy
  cases publication with
  | none => exact ha
  | some catalog =>
    dsimp only
    split
    · exact ha.closeAll
    · exact ha.closeAll

end

/-! ### Steps and runs -/

namespace Holdings

variable {s t : Holdings} {a : Action} {rest : List Nat}

theorem step_accounts (ha : s.handles.Accounts (s.held ++ rest)) (hs : s.step a = some t) :
    ∃ lost, t.handles.Accounts (t.held ++ (lost ++ rest)) ∧ (lost = [] ↔ ¬ s.Loses a) := by
  cases a with
  | onTransact d =>
    obtain ⟨message, lost, h', heq, hkept, hlost⟩ := accounts_onTransact ha d
    have hposted : { s with handles := h', posted := s.posted ++ message.toList } = t := by
      simpa only [step, heq, Option.some_inj] using hs
    rw [← hposted]
    refine ⟨lost, ?_, hlost⟩
    refine hkept.perm (List.perm_iff_count.mpr fun x => ?_)
    simp only [held, List.flatMap_append, List.count_append]
    omega
  | handleProviderCallback m copies pick =>
    unfold step at hs
    cases hposted : s.posted with
    | nil =>
      rw [hposted] at hs
      cases hs
    | cons msg posted =>
      rw [hposted] at hs
      obtain rfl := Option.some.inj hs
      have hloses : s.Loses (.handleProviderCallback m copies pick) ↔
          installs m msg = true ∧ copies.Loses 0 msg.candidates.length := by
        constructor
        · rintro ⟨msg', posted', heq, hloses⟩
          rw [hposted] at heq
          obtain ⟨rfl, -⟩ := List.cons.inj heq
          exact hloses
        · exact fun hloses => ⟨msg, posted, hposted, hloses⟩
      rw [hloses]
      unfold held at ha
      rw [hposted] at ha
      unfold Holdings.handleProviderCallback
      cases hinstalls : installs m msg with
      | false =>
        refine ⟨[], ?_, iff_of_true rfl fun hloses => Bool.false_ne_true hloses.1⟩
        have hclosed : s.handles.Accounts (descriptors msg.candidates ++
            (posted.flatMap (fun msg => descriptors msg.candidates) ++ descriptors s.retained ++
              rest)) := by
          rwa [List.flatMap_cons, List.append_assoc, List.append_assoc,
            ← List.append_assoc (posted.flatMap _)] at ha
        exact hclosed.closeAll
      | true =>
        have hnone : s.handles.Accounts (descriptors [] ++ ((msg :: posted).flatMap
            (fun msg => descriptors msg.candidates) ++ descriptors s.retained ++ rest)) := ha
        obtain ⟨publication, lost, h', heq, hkept, hlost⟩ :=
          accounts_copyCandidates copies 0 [] msg.candidates hnone
        refine ⟨lost, ?_, by simpa using hlost⟩
        -- both ends of the publication close the copy, and the previous catalog is closed last
        have hpublished : (if m.sleepImageMode = .keepLastScreen then
            closeAll h' (publication.getD []) else publishCopy h' publication pick).Accounts
              (descriptors s.retained ++ (posted.flatMap (fun msg => descriptors msg.candidates) ++
                descriptors msg.candidates ++ (lost ++ rest))) := by
          have hrest : h'.Accounts (descriptors (publication.getD []) ++ (descriptors s.retained ++
              (posted.flatMap (fun msg => descriptors msg.candidates) ++
                descriptors msg.candidates ++ (lost ++ rest)))) := by
            refine hkept.perm (List.perm_iff_count.mpr fun x => ?_)
            simp only [List.flatMap_cons, List.count_append]
            omega
          split_ifs
          · exact hrest.closeAll
          · exact accounts_publishCopy hrest pick
        have hcopy : copyRetainedCatalog copies s.handles msg.candidates = (publication, h') := heq
        simp only [Bool.not_true, Bool.false_eq_true, ↓reduceIte, hcopy]
        exact hpublished.closeAll
  | renewEpoch copies pick =>
    have hnone : s.handles.Accounts (descriptors [] ++ (s.held ++ rest)) := ha
    obtain ⟨publication, lost, h', heq, hkept, hlost⟩ :=
      accounts_copyCandidates copies 0 [] s.retained hnone
    obtain rfl := Option.some.inj hs
    refine ⟨lost, ?_, hlost⟩
    have hcopy : copyRetainedCatalog copies s.handles s.retained = (publication, h') := heq
    have hclosed := accounts_publishCopy hkept pick
    unfold Holdings.renewEpoch
    rw [hcopy]
    exact hclosed.perm (List.perm_append_comm_assoc lost s.held rest)
  | dropCatalog =>
    obtain rfl := Option.some.inj hs
    refine ⟨[], ?_, iff_of_true rfl id⟩
    have hclosed : s.handles.Accounts (descriptors s.retained ++
        (s.posted.flatMap (fun msg => descriptors msg.candidates) ++ rest)) := by
      refine ha.perm ?_
      unfold held
      rw [List.append_assoc]
      exact List.perm_append_comm_assoc _ _ rest
    unfold Holdings.dropCatalog held
    rw [show descriptors [] = [] from rfl, List.append_nil]
    exact hclosed.closeAll

/-- A run leaves what its steps have lost, and it has lost something if a step has. -/
theorem accounts_of_run {as : List Action} {log : List Unit}
    (h : system.Run System.anyAction {} as log s) :
    ∃ lost, s.handles.Accounts (s.held ++ lost) ∧
      (lost = [] ↔ system.Run Careful {} as log s) := by
  induction h with
  | nil => exact ⟨[], Handles.accounts_init, iff_of_true rfl .nil⟩
  | @snoc as log t a u evs hrun _ hs ih =>
    obtain ⟨rest, hrest, hcareful⟩ := ih
    obtain ⟨u', hstep, heq⟩ := Option.map_eq_some_iff.mp hs
    obtain ⟨rfl, rfl⟩ := Prod.mk.inj heq
    obtain ⟨lost, hlost, hloses⟩ := step_accounts hrest hstep
    refine ⟨lost ++ rest, hlost, ?_⟩
    rw [List.append_eq_nil_iff, hloses, hcareful]
    constructor
    · exact fun ⟨hnot, hrun⟩ => hrun.snoc hnot hs
    · intro hall
      obtain ⟨log', t', evs', hrun', hnot, hs', hlog⟩ := hall.of_snoc
      obtain ⟨rfl, rfl⟩ := hrun.unique hrun'
      exact ⟨hnot, hrun'⟩

end Holdings

/-- The descriptors are balanced after a run exactly if no operation of it lost one. -/
theorem descriptor_ledger_iff {as : List Holdings.Action} {log : List Unit} {s : Holdings}
    (h : Holdings.system.Run System.anyAction {} as log s) :
    s.Balanced ↔ Holdings.system.Run Holdings.Careful {} as log s := by
  obtain ⟨lost, haccounts, hcareful⟩ := Holdings.accounts_of_run h
  exact (Handles.accounts_append_iff haccounts).trans hcareful

/-! ### A catalog that is kept, and descriptors that are lost -/

/-- One image, whose gray plane can be duplicated or not. -/
def singleImage (duplicates : Bool) : ProviderCallback where
  fromProvider := true
  interfaceToken := true
  version := 5
  generation := 1
  storeGeneration := 1
  result := 0
  reason := 0
  count := 1
  entry _ := ⟨1, 1, 2480, 1860, some ⟨.opened 18451200, duplicates⟩, some ⟨.opened 4612800, true⟩⟩
  dataAvail := 0

/-- The manager that asked for it. -/
def requesting : Manager where
  requestGeneration := 1
  requestInFlight := true

def retainedImage : List HeldCandidate := [⟨2, 3, ⟨2480, 1860, true, true⟩⟩]

/-- The callback has been read; `0` and `1` are the transports, `2` and `3` their duplicates. -/
def receivedImage : Holdings where
  handles := ⟨4, [1, 0]⟩
  posted := [⟨1, 1, 0, retainedImage, true, false⟩]

/-- The catalog has been retained, and its copy `4`, `5` published and closed. -/
def installedImage : Holdings where
  handles := ⟨6, [5, 4, 1, 0]⟩
  retained := retainedImage

theorem run_received :
    Holdings.system.Run Holdings.Careful {} [.onTransact (singleImage true)] [] receivedImage := by
  refine .single ?_ rfl
  rintro ⟨-, -, -, hloses⟩
  obtain ⟨pre, e, post, heq, -, -⟩ := (losesIn_cons_of_usable rfl rfl).mpr hloses
  simp at heq

/-- A callback whose image is retained and published. -/
theorem descriptor_ledger_of_installed : ∃ as, Holdings.system.Run System.anyAction {} as []
    installedImage ∧ installedImage.Balanced := by
  have hcareful : Holdings.system.Run Holdings.Careful {} [.onTransact (singleImage true),
      .handleProviderCallback requesting (fun _ => (true, true)) 0] [] installedImage := by
    refine run_received.snoc ?_ rfl
    rintro ⟨msg, posted, -, -, i, -, -, hfails⟩
    cases hfails
  have hrun : Holdings.system.Run System.anyAction {} _ [] installedImage :=
    hcareful.mono fun _ _ _ => trivial
  exact ⟨_, hrun, (descriptor_ledger_iff hrun).mpr hcareful⟩

/-- The alpha transport of an image whose gray plane cannot be duplicated stays open, and so does
the gray duplicate of a copy whose alpha plane cannot be duplicated. -/
theorem descriptors_leaked :
    (∃ s, Holdings.system.Run System.anyAction {} [.onTransact (singleImage false)] [] s ∧
      1 < s.handles.obtained ∧ 1 ∉ s.handles.closed ∧ 1 ∉ s.held ∧ ¬ s.Balanced) ∧
    ∃ s, Holdings.system.Run System.anyAction {} [.onTransact (singleImage true),
        .handleProviderCallback requesting (fun _ => (true, false)) 0] [] s ∧
      4 < s.handles.obtained ∧ 4 ∉ s.handles.closed ∧ 4 ∉ s.held ∧ ¬ s.Balanced := by
  constructor
  · refine ⟨⟨⟨2, [0]⟩, [.invalid 1 true], []⟩, .single trivial rfl, by decide, by decide,
      by decide, fun hbalanced => ?_⟩
    have hcount := hbalanced 1
    revert hcount
    decide
  · have hrun : Holdings.system.Run System.anyAction {} _ [] receivedImage :=
      run_received.mono fun _ _ _ => trivial
    refine ⟨⟨⟨5, [1, 0]⟩, [], retainedImage⟩, hrun.snoc trivial rfl, by decide, by decide,
      by decide, fun hbalanced => ?_⟩
    have hcount := hbalanced 4
    revert hcount
    decide

end EinkLab.SleepImageManager
