import Tendwire.Installation.Resets

/-!
# Agreement on the installation key

Loads and offline resets interleave freely and may crash anywhere. Until a reset completes, the
stored key is the same or gone, and no load mints another one.
-/

namespace Tendwire

open Concurrency Program Pool FileOperation

abbrev IdentityPool :=
  Pool DataDirectory FileOperation Answer IdentityCall IdentityAnswer

abbrev IdentityEvent := Event IdentityCall Chance

variable {digest : Bytes → Bytes}

/-- What a call relies on and promises, in view of the directory that it was started in. -/
def identityDiscipline (digest : Bytes → Bytes) : Discipline (identityWorkshop digest) where
  rely
    | .load => LoadSteps digest
    | .reset _ => ResetSteps
  promise
    | .load => fun d₀ op d d' _ => LoadPromise digest d₀ op d d'
    | .reset _ => fun _ op d d' ending => ResetPromise digest op d d' ending
  post
    | .load => fun _ d o => (∀ a, o = some a → ∃ f, d .key = some f ∧ a = .key f.content) ∧
        (o = none → ¬Coherent digest d)
    | .reset _ => fun _ d o => o = none ∨ (o = some .wasReset ∧ ∀ name, d name = none)
  beside k l := k.isLoad = l.isLoad
  refl
    | .load, d => LoadSteps.refl d
    | .reset _, d => ResetSteps.refl d
  trans
    | .load, _, _, _ => LoadSteps.trans
    | .reset _, _, _, _ => ResetSteps.trans
  symm _ _ := Eq.symm
  admitted ks k h l hl := by
    have := List.all_eq_true.mp h l hl
    simpa using this
  kept k l d₀ op d d' ending hbeside hpromise := by
    cases k with
    | load =>
      cases l with
      | load => exact hpromise.steps
      | reset => cases hbeside
    | reset =>
      cases l with
      | load => cases hbeside
      | reset => exact hpromise.steps

lemma safe_identityCall (call : IdentityCall) (d : DataDirectory) :
    ((identityDiscipline digest).terms call d).Safe ((identityDiscipline digest).post call d)
      ((identityWorkshop digest).program call) d := by
  cases call with
  | load =>
    refine safe_loadOrCreateInstallationKey.map fun t o ho => ⟨fun a ha => ?_, fun hnone => ?_⟩
    · obtain ⟨key, rfl, rfl⟩ := Option.map_eq_some_iff.mp ha
      obtain ⟨f, hf, rfl⟩ := ho.1 key rfl
      exact ⟨f, hf, rfl⟩
    · exact ho.2 (Option.map_eq_none_iff.mp hnone)
  | reset acknowledged =>
    refine (safe_resetInstallationKey acknowledged).map fun t o ho => ?_
    cases o with
    | none => exact .inl rfl
    | some a => exact .inr ⟨rfl, ho rfl⟩

/-! ### Runs -/

/-- The pool before call `n`, where the directory starts as `d`. -/
def identityPoolAt (digest : Bytes → Bytes) (d : DataDirectory) (calls : ℕ → IdentityEvent)
    (n : ℕ) : IdentityPool :=
  (Pool.machine (identityWorkshop digest)).stateAt ⟨d, [], 0⟩ calls n

def identityReportAt (digest : Bytes → Bytes) (d : DataDirectory) (calls : ℕ → IdentityEvent)
    (n : ℕ) : Report FileOperation IdentityCall IdentityAnswer :=
  (Pool.machine (identityWorkshop digest)).answerAt ⟨d, [], 0⟩ calls n

def Loaded (report : Report FileOperation IdentityCall IdentityAnswer) (key : Bytes) : Prop :=
  ∃ id, report.outcome? = some (id, .load, some (.key key))

def LoadFailed (report : Report FileOperation IdentityCall IdentityAnswer) (id : ℕ) : Prop :=
  report.outcome? = some (id, .load, none)

def ResetCompleted (report : Report FileOperation IdentityCall IdentityAnswer) : Prop :=
  ∃ id acknowledged, report.outcome? = some (id, .reset acknowledged, some .wasReset)

/-- A load draws the bytes of a new key. -/
def Mints (report : Report FileOperation IdentityCall IdentityAnswer) : Prop :=
  ∃ id size outcome, report = .performed id .load (.randomBytes size) outcome

section Run

variable {d : DataDirectory} {calls : ℕ → IdentityEvent} {n : ℕ} {old : DataDirectory}
  {w : IdentityPool} {e : IdentityEvent}

lemma orderly_identityPoolAt (n : ℕ) :
    (identityDiscipline digest).Orderly (identityPoolAt digest d calls n) := by
  refine Transition.Machine.stateAt_invariant (M := Pool.machine (identityWorkshop digest)) ?_
    (fun w e hw => hw.step safe_identityCall e) n
  exact ⟨nofun, nofun, List.nodup_nil, nofun⟩

/-- The key of `old` is stored, or it is gone and no load can mint another one. -/
def StillKept (digest : Bytes → Bytes) (old d : DataDirectory) : Prop :=
  (∃ f, old .key = some f ∧ d .key = some f) ∨ (d .key = none ∧ ¬Coherent digest d)

lemma StillKept.load {d' : DataDirectory} (h : StillKept digest old d)
    (hsteps : LoadSteps digest d d') : StillKept digest old d' := by
  rcases h with ⟨f, hold, hf⟩ | ⟨hnone, hd⟩
  · exact .inl ⟨f, hold, hsteps.persists _ _ hf⟩
  · rw [hsteps.untouched hd]
    exact .inr ⟨hnone, hd⟩

lemma StillKept.reset {d' : DataDirectory} {op : FileOperation} {ending : Option Bool}
    (h : StillKept digest old d) (hpromise : ResetPromise digest op d d' ending)
    (hending : ending ≠ some true) : StillKept digest old d' := by
  cases hpromise with
  | keep => exact h
  | marker _ hd =>
    rcases h with ⟨f, hold, hf⟩ | ⟨-, hbroken⟩
    · refine .inl ⟨f, hold, ?_⟩
      rwa [Function.update_of_ne (by decide : InstallationFile.key ≠ .marker)]
    · exact absurd hd hbroken
  | key _ hmarker hs =>
    have hgone : Function.update d .key none .key = none := Function.update_self _ _ _
    have hother : ∀ other, other ≠ .key → Function.update d .key none other = d other :=
      fun other hne => Function.update_of_ne hne _ _
    have hsentinel := (hother .sentinel nofun).trans hs
    exact .inr ⟨hgone, not_coherent_of_sentinel hsentinel (.inr (.inr hgone))⟩
  | sentinel => exact absurd rfl hending

/-- Until a reset completes, the key is kept. -/
lemma StillKept.step (hw : (identityDiscipline digest).Orderly w)
    (h : StillKept digest old w.shared)
    (hreset : ¬ResetCompleted (w.step (identityWorkshop digest) e).2) :
    StillKept digest old (w.step (identityWorkshop digest) e).1.shared := by
  obtain he := stepped (W := identityWorkshop digest) (w := w) e
  generalize (w.step _ e).1 = w', (w.step _ e).2 = r at he hreset
  cases he with
  | idle => exact h
  | start => exact h
  | ended => exact h
  | crashed => exact h
  | performed id c t i next ht hp =>
    obtain ⟨hpromise, hrest⟩ := hw.performs ht hp c
    rw [shared_proceed]
    cases hk : t.kind with
    | load =>
      rw [hk] at hpromise
      exact h.load hpromise.steps
    | reset acknowledged =>
      rw [hk] at hpromise hrest hreset
      refine h.reset hpromise fun hending => hreset ?_
      obtain ⟨a, ha⟩ := outcome?_of_ending? hending
      obtain ho | ⟨ho, -⟩ := hrest.outcome ha
      · cases ho
      · cases ho
        exact ⟨id, acknowledged, by rw [ha]; rfl⟩

/-- What a successful load answers is the stored key. -/
lemma stored_of_loaded (hw : (identityDiscipline digest).Orderly w) {key : Bytes}
    (h : Loaded (w.step (identityWorkshop digest) e).2 key) :
    ∃ f, (w.step (identityWorkshop digest) e).1.shared .key = some f ∧ f.content = key := by
  obtain ⟨id, hout⟩ := h
  obtain ⟨t, -, -, hpost⟩ := hw.outcome e hout
  obtain ⟨f, hf, hkey⟩ := hpost.1 _ rfl
  cases hkey
  exact ⟨f, hf, rfl⟩

lemma not_resetCompleted_of_loaded {report : Report FileOperation IdentityCall IdentityAnswer}
    {key : Bytes} (h : Loaded report key) : ¬ResetCompleted report := by
  rintro ⟨id, acknowledged, hout⟩
  obtain ⟨id', hout'⟩ := h
  rw [hout] at hout'
  cases hout'

/-- While the key of `old` is kept, whatever is loaded is that key. -/
lemma StillKept.loaded (hw : (identityDiscipline digest).Orderly w)
    (h : StillKept digest old w.shared) {key : Bytes}
    (hloaded : Loaded (w.step (identityWorkshop digest) e).2 key) :
    ∃ f, old .key = some f ∧ f.content = key := by
  obtain ⟨f, hf, hkey⟩ := stored_of_loaded hw hloaded
  rcases h.step hw (not_resetCompleted_of_loaded hloaded) with ⟨g, hold, hg⟩ | ⟨hnone, -⟩
  · rw [hf] at hg
    cases hg
    exact ⟨f, hold, hkey⟩
  · rw [hf] at hnone
    cases hnone

lemma stillKept_until {i : ℕ} (hin : i ≤ n)
    (h : StillKept digest old (identityPoolAt digest d calls i).shared)
    (hreset : ∀ m, i ≤ m → m < n → ¬ResetCompleted (identityReportAt digest d calls m)) :
    StillKept digest old (identityPoolAt digest d calls n).shared := by
  induction n, hin using Nat.le_induction with
  | base => exact h
  | succ n hle ih =>
    have hkept := ih fun m hm hmn => hreset m hm (Nat.lt_succ_of_lt hmn)
    exact hkept.step (orderly_identityPoolAt n) (hreset n hle (Nat.lt_succ_self n))

/-! ### No new key -/

/-- The loads that run were started while the key of `old` was kept. -/
def StartedKept (digest : Bytes → Bytes) (old : DataDirectory) (w : IdentityPool) : Prop :=
  ∀ x ∈ w.threads, x.2.kind = .load → StillKept digest old x.2.origin

lemma StartedKept.step (h : StartedKept digest old w) (hkept : StillKept digest old w.shared) :
    StartedKept digest old (w.step (identityWorkshop digest) e).1 := by
  obtain he := stepped (W := identityWorkshop digest) (w := w) e
  generalize (w.step _ e).1 = w', (w.step _ e).2 = r at he
  cases he with
  | idle => exact h
  | start k =>
    intro x hx hload
    rcases List.mem_cons.mp hx with rfl | hx
    · exact hkept
    · exact h x hx hload
  | ended => exact fun x hx => h x (mem_remove hx).1
  | crashed => exact fun x hx => h x (mem_remove hx).1
  | performed id c t i next ht hp =>
    intro x hx hload
    obtain ⟨hx, -⟩ | ⟨u, hu, rfl⟩ := mem_proceed hx
    · exact h x hx hload
    · exact h (id, u) hu hload

/-- A load draws random bytes for a first start only. -/
lemma draws_of_mints (hw : (identityDiscipline digest).Orderly w)
    (h : Mints (w.step (identityWorkshop digest) e).2) :
    ∃ x ∈ w.threads, x.2.kind = .load ∧ x.2.origin .key = none ∧ Coherent digest x.2.origin := by
  obtain ⟨id, size, o, hr⟩ := h
  obtain he := stepped (W := identityWorkshop digest) (w := w) e
  generalize (w.step _ e).1 = w', (w.step _ e).2 = r at he hr
  cases he with
  | idle => cases hr
  | start => cases hr
  | ended => cases hr
  | crashed => cases hr
  | performed id' c t i next ht hp =>
    obtain ⟨rfl, hkind, rfl, -⟩ := Report.performed.inj hr
    obtain ⟨hpromise, -⟩ := hw.performs ht hp c
    rw [hkind] at hpromise
    exact ⟨(id', t), ht, hkind, hpromise.draws size rfl⟩

lemma StillKept.not_draws (h : StillKept digest old d) (hnone : d .key = none) :
    ¬Coherent digest d := by
  rcases h with ⟨f, -, hf⟩ | ⟨-, hd⟩
  · rw [hnone] at hf
    cases hf
  · exact hd

/-- Loads that were started while the key was kept mint no other one. -/
lemma StartedKept.not_mints (h : StartedKept digest old w)
    (hw : (identityDiscipline digest).Orderly w) :
    ¬Mints (w.step (identityWorkshop digest) e).2 := by
  intro hmints
  obtain ⟨x, hx, hkind, hnone, hcoherent⟩ := draws_of_mints hw hmints
  exact (h x hx hkind).not_draws hnone hcoherent

lemma startedKept_until {i : ℕ} (hin : i ≤ n)
    (h : StillKept digest old (identityPoolAt digest d calls i).shared)
    (hstarted : StartedKept digest old (identityPoolAt digest d calls i))
    (hreset : ∀ m, i ≤ m → m < n → ¬ResetCompleted (identityReportAt digest d calls m)) :
    StartedKept digest old (identityPoolAt digest d calls n) := by
  induction n, hin using Nat.le_induction with
  | base => exact hstarted
  | succ n hle ih =>
    have hbefore : ∀ m, i ≤ m → m < n → ¬ResetCompleted (identityReportAt digest d calls m) :=
      fun m hm hmn => hreset m hm (Nat.lt_succ_of_lt hmn)
    exact (ih hbefore).step (stillKept_until hle h hbefore)

/-! ### No failure -/

/-- Next to a load, a coherent directory stays coherent. -/
lemma coherent_next_to_load (hw : (identityDiscipline digest).Orderly w)
    {x : ℕ × Thread DataDirectory FileOperation Answer IdentityCall IdentityAnswer}
    (hx : x ∈ w.threads) (hload : x.2.kind = .load) (h : Coherent digest w.shared) :
    Coherent digest (w.step (identityWorkshop digest) e).1.shared := by
  obtain he := stepped (W := identityWorkshop digest) (w := w) e
  generalize (w.step _ e).1 = w', (w.step _ e).2 = r at he
  cases he with
  | idle => exact h
  | start => exact h
  | ended => exact h
  | crashed => exact h
  | performed id c t i next ht hp =>
    obtain ⟨hpromise, -⟩ := hw.performs ht hp c
    rw [shared_proceed]
    have hkind : t.kind = .load := by
      by_cases hid : id = x.1
      · subst hid
        rw [hw.eq_of_mem ht hx]
        exact hload
      · have hbeside : t.kind.isLoad = x.2.kind.isLoad := hw.beside _ ht _ hx hid
        rw [hload] at hbeside
        cases hk : t.kind with
        | load => rfl
        | reset =>
          rw [hk] at hbeside
          cases hbeside
    rw [hkind] at hpromise
    exact hpromise.steps.coherent h

/-- As long as this program runs, it is a load of a coherent directory. -/
def LoadsCoherent (digest : Bytes → Bytes) (id : ℕ) (w : IdentityPool) : Prop :=
  id < w.next ∧ ∀ x ∈ w.threads, x.1 = id → x.2.kind = .load ∧ Coherent digest w.shared

lemma LoadsCoherent.step {id : ℕ} (h : LoadsCoherent digest id w)
    (hw : (identityDiscipline digest).Orderly w) :
    LoadsCoherent digest id (w.step (identityWorkshop digest) e).1 := by
  have hcoherent : ∀ x ∈ w.threads, x.1 = id →
      Coherent digest (w.step (identityWorkshop digest) e).1.shared :=
    fun x hx hid => coherent_next_to_load hw hx (h.2 x hx hid).1 (h.2 x hx hid).2
  obtain he := stepped (W := identityWorkshop digest) (w := w) e
  generalize (w.step _ e).1 = w', (w.step _ e).2 = r at he hcoherent
  cases he with
  | idle => exact h
  | start k =>
    refine ⟨Nat.lt_succ_of_lt h.1, fun x hx hid => ?_⟩
    rcases List.mem_cons.mp hx with rfl | hx
    · exact absurd h.1 (Nat.not_lt.mpr (Nat.le_of_eq hid))
    · exact h.2 x hx hid
  | ended => exact ⟨h.1, fun x hx => h.2 x (mem_remove hx).1⟩
  | crashed => exact ⟨h.1, fun x hx => h.2 x (mem_remove hx).1⟩
  | performed id' c t i next ht hp =>
    refine ⟨?_, fun x hx hid => ?_⟩
    · unfold Pool.proceed
      split <;> exact h.1
    · obtain ⟨hx, -⟩ | ⟨u, hu, rfl⟩ := mem_proceed hx
      · exact ⟨(h.2 x hx hid).1, hcoherent x hx hid⟩
      · exact ⟨(h.2 (id', u) hu hid).1, hcoherent (id', u) hu hid⟩

lemma LoadsCoherent.not_loadFailed {id : ℕ} (h : LoadsCoherent digest id w)
    (hw : (identityDiscipline digest).Orderly w) :
    ¬LoadFailed (w.step (identityWorkshop digest) e).2 id := by
  intro hfailed
  obtain ⟨t, ht, hkind, hpost⟩ := hw.outcome e hfailed
  exact hpost.2 rfl (coherent_next_to_load hw ht hkind (h.2 _ ht rfl).2)

lemma loadsCoherent_until {i id : ℕ} (hin : i ≤ n)
    (h : LoadsCoherent digest id (identityPoolAt digest d calls i)) :
    LoadsCoherent digest id (identityPoolAt digest d calls n) := by
  induction n, hin using Nat.le_induction with
  | base => exact h
  | succ n hle ih => exact ih.step (orderly_identityPoolAt n)

/-! ### Starts -/

/-- A program that starts runs beside kinds that it is admitted with. -/
lemma of_started {id : ℕ} {k : IdentityCall}
    (h : (w.step (identityWorkshop digest) e).2 = .started id k) :
    (∀ x ∈ w.threads, x.2.kind.isLoad = k.isLoad) ∧ id = w.next ∧
      (w.step (identityWorkshop digest) e).1 = { w with
        threads := (w.next, ⟨k, w.shared, (identityWorkshop digest).program k⟩) :: w.threads
        next := w.next + 1 } := by
  obtain he := stepped (W := identityWorkshop digest) (w := w) e
  generalize (w.step _ e).1 = w', (w.step _ e).2 = r at he h
  cases he with
  | idle => cases h
  | ended => cases h
  | performed => cases h
  | crashed => cases h
  | start k' hadmits =>
    cases h
    refine ⟨fun x hx => ?_, rfl, rfl⟩
    exact (identityDiscipline digest).admitted _ _ hadmits _ (List.mem_map.mpr ⟨x, hx, rfl⟩)

/-- A load that starts in a coherent directory. -/
lemma loadsCoherent_of_started (hw : (identityDiscipline digest).Orderly w) {id : ℕ}
    (hstart : (w.step (identityWorkshop digest) e).2 = .started id .load)
    (h : Coherent digest w.shared) :
    LoadsCoherent digest id (w.step (identityWorkshop digest) e).1 := by
  obtain ⟨-, rfl, hstep⟩ := of_started hstart
  rw [hstep]
  refine ⟨Nat.lt_succ_self _, fun x hx hid => ?_⟩
  rcases List.mem_cons.mp hx with rfl | hx
  · exact ⟨rfl, h⟩
  · exact absurd hid (Nat.ne_of_lt (hw.below x hx))

/-- While a reset starts, no load runs. -/
lemma startedKept_of_started {id : ℕ} {acknowledged : Bool}
    (hstart : (w.step (identityWorkshop digest) e).2 = .started id (.reset acknowledged)) :
    StartedKept digest old w := by
  intro x hx hload
  have halone := (of_started hstart).1 x hx
  rw [hload] at halone
  cases halone

/-- What there is to lose, is the key or the rest of an interrupted reset. -/
lemma stillKept_self {name : InstallationFile} (h : d name ≠ none) : StillKept digest d d := by
  cases hkey : d .key with
  | some f => exact .inl ⟨f, hkey, hkey⟩
  | none =>
    refine .inr ⟨hkey, ?_⟩
    obtain ⟨f, hf⟩ := Option.ne_none_iff_exists'.mp h
    cases name with
    | key =>
      rw [hkey] at hf
      cases hf
    | marker => exact not_coherent_of_gap hkey hf
    | sentinel => exact not_coherent_of_sentinel hf (.inr (.inr hkey))

end Run

/-- Across every interleaving of loads and offline resets, with crashes anywhere. -/
structure IdentityAgreement (digest : Bytes → Bytes) (d : DataDirectory)
    (calls : ℕ → IdentityEvent) : Prop where
  /-- Loads with no completed reset in between answer the same key. -/
  sameKey : ∀ i j key key', i < j →
    (∀ m, i < m → m < j → ¬ResetCompleted (identityReportAt digest d calls m)) →
    Loaded (identityReportAt digest d calls i) key →
    Loaded (identityReportAt digest d calls j) key' → key = key'
  /-- After a reset that was interrupted, a load answers the old key, and no key is minted. -/
  interrupted : ∀ i j n id acknowledged name, i < j → j < n →
    identityReportAt digest d calls i = .started id (.reset acknowledged) →
    identityReportAt digest d calls j = .crashed id (.reset acknowledged) →
    (identityPoolAt digest d calls i).shared name ≠ none →
    (∀ m, i < m → m < n → ¬ResetCompleted (identityReportAt digest d calls m)) →
    ¬Mints (identityReportAt digest d calls n) ∧
      ∀ key, Loaded (identityReportAt digest d calls n) key →
        ∃ f, (identityPoolAt digest d calls i).shared .key = some f ∧ f.content = key
  /-- A load that starts in an absent or coherent directory does not fail. -/
  neverFails : ∀ i n id, i < n →
    identityReportAt digest d calls i = .started id .load →
    Coherent digest (identityPoolAt digest d calls i).shared →
    ¬LoadFailed (identityReportAt digest d calls n) id

lemma coherent_absent : Coherent digest fun _ => none := ⟨nofun, nofun, nofun⟩

theorem identityAgreement (d : DataDirectory) (calls : ℕ → IdentityEvent) :
    IdentityAgreement digest d calls := by
  constructor
  · intro i j key key' hij hreset hi hj
    have hw : ∀ n, (identityDiscipline digest).Orderly (identityPoolAt digest d calls n) :=
      orderly_identityPoolAt
    obtain ⟨f, hf, hkey⟩ := stored_of_loaded (hw i) hi
    change (identityPoolAt digest d calls (i + 1)).shared .key = some f at hf
    have hself : StillKept digest (identityPoolAt digest d calls (i + 1)).shared
        (identityPoolAt digest d calls (i + 1)).shared := .inl ⟨f, hf, hf⟩
    have hkept := stillKept_until (Nat.succ_le_of_lt hij) hself fun m hm => hreset m hm
    obtain ⟨g, hg, hkey'⟩ := hkept.loaded (hw j) hj
    rw [hf] at hg
    cases hg
    exact hkey.symm.trans hkey'
  · intro i j n id acknowledged name hij hjn hstart _ hname hreset
    have hw : ∀ n, (identityDiscipline digest).Orderly (identityPoolAt digest d calls n) :=
      orderly_identityPoolAt
    have hin : i ≤ n := Nat.le_of_lt (Nat.lt_trans hij hjn)
    have hpending : ∀ m, i ≤ m → m < n →
        ¬ResetCompleted (identityReportAt digest d calls m) := by
      intro m hm hmn
      rcases Nat.eq_or_lt_of_le hm with rfl | hm
      · rintro ⟨_, _, hout⟩
        rw [hstart] at hout
        cases hout
      · exact hreset m hm hmn
    have hkept : StillKept digest _ _ := stillKept_self hname
    have hstarted := startedKept_until hin hkept (startedKept_of_started hstart) hpending
    exact ⟨hstarted.not_mints (hw n),
      fun key hkey => (stillKept_until hin hkept hpending).loaded (hw n) hkey⟩
  · intro i n id hin hstart hcoherent
    have hw : ∀ n, (identityDiscipline digest).Orderly (identityPoolAt digest d calls n) :=
      orderly_identityPoolAt
    have hload := loadsCoherent_of_started (hw i) hstart hcoherent
    exact (loadsCoherent_until hin hload).not_loadFailed (hw n)

end Tendwire
