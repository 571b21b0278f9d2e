import Tendwire.Attention.Planner
import Tendwire.Transition.Schedule

/-!
# The attention lifecycle along every run

What the store keeps of a family agrees with its lifecycle: the open row, the jobs of each
generation and the ranks they told.
-/

namespace Tendwire

open Transition AttentionStore

variable {R : AttentionRules} {s s' : AttentionStore} {c : AttentionCall} {t : Int}
  {f g : AttentionFamily} {l l' : AttentionLifecycle} {job : AttentionJob}

def AttentionJob.isCreated (generation : Nat) (job : AttentionJob) : Bool :=
  job.key.generation == generation && job.key.eventType == "attention_created"

def AttentionJob.isEscalation (generation : Nat) (job : AttentionJob) : Bool :=
  job.key.generation == generation && job.key.eventType == "attention_escalated"

/-- The severity rank that a job tells. -/
def AttentionJob.rank (R : AttentionRules) (job : AttentionJob) : Nat :=
  attentionSeverityRank R job.attention.payload.severity

/-- What the store keeps of a family with a lifecycle. -/
structure FamilySound (R : AttentionRules) (s : AttentionStore) (f : AttentionFamily)
    (l : AttentionLifecycle) : Prop where
  familyKey : l.familyKey = f
  current : l.lifecycleStatus = .opened ↔ l.currentAttentionId.isSome
  missing : l.missingObservationCount = 0 ↔ l.firstMissingAt = none
  home : ∀ i ∈ l.currentAttentionId, i.family R = f
  openRow : ∀ i : AttentionIdentity, i.family R = f → (s.OpenRow i ↔ l.currentAttentionId = some i)
  generation : 1 ≤ l.generation
  jobs : ∀ job ∈ s.jobsOf f, 1 ≤ job.key.generation ∧ job.key.generation ≤ l.generation
  created : ∀ n, (s.jobsOf f).countP (·.isCreated n) = if 1 ≤ n ∧ n ≤ l.generation then 1 else 0
  escalations : ∀ n, (((s.jobsOf f).filter (·.isEscalation n)).map (·.rank R)).Pairwise (· < ·)
  notified : ∀ job ∈ s.jobsOf f, job.key.generation = l.generation →
    job.rank R ≤ l.maxNotifiedSeverityRank

/-- What the store keeps of a family without an open episode before generation `n`. -/
structure FamilyQuiet (R : AttentionRules) (s : AttentionStore) (f : AttentionFamily) (n : Nat) :
    Prop where
  openRow : ∀ i : AttentionIdentity, i.family R = f → ¬s.OpenRow i
  generation : 1 ≤ n
  jobs : ∀ job ∈ s.jobsOf f, 1 ≤ job.key.generation ∧ job.key.generation < n
  created : ∀ m, (s.jobsOf f).countP (·.isCreated m) = if 1 ≤ m ∧ m < n then 1 else 0
  escalations : ∀ m, (((s.jobsOf f).filter (·.isEscalation m)).map (·.rank R)).Pairwise (· < ·)

structure AttentionStore.Sound (R : AttentionRules) (s : AttentionStore) : Prop where
  fresh : ∀ f, s.lifecycles.lookup f = none → FamilyQuiet R s f 1
  live : ∀ f l, s.lifecycles.lookup f = some l → FamilySound R s f l

lemma sound_empty (R : AttentionRules) : (AttentionStore.empty).Sound R where
  fresh f _ :=
    { openRow := by
        rintro i - ⟨row, hrow, -⟩
        cases hrow
      generation := le_rfl
      jobs := by simp [empty, jobsOf]
      created := by
        intro m
        rw [if_neg (by omega)]
        rfl
      escalations := fun m => List.Pairwise.nil }
  live f l h := by cases h

lemma FamilySound.congr (h : SameFamily R f s s') (hs : FamilySound R s f l) :
    FamilySound R s' f l where
  familyKey := hs.familyKey
  current := hs.current
  missing := hs.missing
  home := hs.home
  openRow i hi := (openRow_congr (h.items i hi)).trans (hs.openRow i hi)
  generation := hs.generation
  jobs := by
    rw [h.jobs]
    exact hs.jobs
  created := by
    rw [h.jobs]
    exact hs.created
  escalations := by
    rw [h.jobs]
    exact hs.escalations
  notified := by
    rw [h.jobs]
    exact hs.notified

lemma FamilyQuiet.congr {n : Nat} (h : SameFamily R f s s') (hs : FamilyQuiet R s f n) :
    FamilyQuiet R s' f n where
  openRow i hi hrow := hs.openRow i hi ((openRow_congr (h.items i hi)).mp hrow)
  generation := hs.generation
  jobs := by
    rw [h.jobs]
    exact hs.jobs
  created := by
    rw [h.jobs]
    exact hs.created
  escalations := by
    rw [h.jobs]
    exact hs.escalations

/-- A resolved family is quiet until its next generation. -/
lemma FamilySound.quiet (hs : FamilySound R s f l) (hresolved : l.lifecycleStatus = .resolved) :
    FamilyQuiet R s f (l.generation + 1) where
  openRow i hi hrow := by
    have hcurrent : l.lifecycleStatus = .opened :=
      hs.current.mpr (Option.isSome_iff_exists.mpr ⟨i, (hs.openRow i hi).mp hrow⟩)
    rw [hresolved] at hcurrent
    cases hcurrent
  generation := Nat.succ_pos _
  jobs job hjob := (hs.jobs job hjob).imp_right Nat.lt_succ_of_le
  created m := by
    rw [hs.created m]
    exact if_congr (by omega) rfl rfl
  escalations := hs.escalations

/-! ### One family -/

/-- An iteration rests, or it writes the next lifecycle and projects the transition. -/
theorem applyFamily_cases (R : AttentionRules) (c : AttentionCall) (t : Int) (s : AttentionStore)
    (f : AttentionFamily) :
    let tr := planAttentionTransition R (s.lifecycles.lookup f) (c.observation R t f)
    tr = .noOp (s.lifecycles.lookup f) ∧ s.applyFamily R c t f = s ∨
      ∃ l, tr.action ≠ .noOp ∧ tr.nextState = some l ∧ s.applyFamily R c t f =
        ({ s with lifecycles := s.lifecycles.insert f l } : AttentionStore).project R c t l tr := by
  have hrest : ∀ tr, tr = AttentionTransition.noOp (s.lifecycles.lookup f) →
      planAttentionTransition R (s.lifecycles.lookup f) (c.observation R t f) = tr →
      s.applyFamily R c t f = s := by
    rintro tr rfl htr
    unfold applyFamily
    dsimp only
    rw [htr]
    split
    · rfl
    · exact if_pos rfl
  have hwrite : ∀ tr l, planAttentionTransition R (s.lifecycles.lookup f) (c.observation R t f) = tr →
      tr.nextState = some l → tr.action ≠ .noOp →
      (∀ l', s.lifecycles.lookup f = some l' → l'.lastAcceptedAt < t) →
      ∃ l, tr.action ≠ .noOp ∧ tr.nextState = some l ∧ s.applyFamily R c t f =
        ({ s with lifecycles := s.lifecycles.insert f l } : AttentionStore).project R c t l tr := by
    intro tr l htr hnext haction hguard
    refine ⟨l, haction, hnext, ?_⟩
    unfold applyFamily
    dsimp only
    rw [htr, hnext]
    dsimp only
    rw [if_neg haction, if_pos]
    cases hstate : s.lifecycles.lookup f with
    | none => rfl
    | some l' => exact decide_eq_true (hguard l' hstate)
  dsimp only
  generalize htr : planAttentionTransition R (s.lifecycles.lookup f) (c.observation R t f) = tr
  have hplanned := planned R (s.lifecycles.lookup f) (c.observation R t f)
  rw [htr] at hplanned
  cases hplanned with
  | late => exact .inl ⟨rfl, hrest _ rfl htr⟩
  | idle => exact .inl ⟨rfl, hrest _ rfl htr⟩
  | first signal _ hstate =>
    refine .inr (hwrite _ _ htr rfl nofun fun l' hl' => ?_)
    rw [hstate] at hl'
    cases hl'
  | reopens l signal _ hstate hlt =>
    refine .inr (hwrite _ _ htr rfl nofun fun l' hl' => ?_)
    obtain rfl := Option.some.inj (hstate.symm.trans hl')
    exact hlt
  | continues l signal _ hstate hlt =>
    refine .inr (hwrite _ _ htr rfl ?_ fun l' hl' => ?_)
    · unfold AttentionObservation.continues
      dsimp only
      split <;> nofun
    · obtain rfl := Option.some.inj (hstate.symm.trans hl')
      exact hlt
  | misses l _ hstate hlt =>
    refine .inr (hwrite _ _ htr rfl ?_ fun l' hl' => ?_)
    · unfold AttentionObservation.misses
      dsimp only
      split
      · nofun
      · split <;> nofun
    · obtain rfl := Option.some.inj (hstate.symm.trans hl')
      exact hlt

/-- The lifecycle of the family after its iteration is the planned one. -/
lemma lookup_applyFamily (R : AttentionRules) (c : AttentionCall) (t : Int) (s : AttentionStore)
    (f : AttentionFamily) : (s.applyFamily R c t f).lifecycles.lookup f =
      (planAttentionTransition R (s.lifecycles.lookup f) (c.observation R t f)).nextState := by
  rcases applyFamily_cases R c t s f with ⟨htr, heq⟩ | ⟨l, -, hnext, heq⟩
  · rw [heq, htr]
    rfl
  · rw [heq, hnext, lifecycles_project]
    exact AList.lookup_insert _

/-- What a transition of a family names belongs to the family. -/
structure TransitionHome (R : AttentionRules) (f : AttentionFamily) (tr : AttentionTransition) :
    Prop where
  familyKey : ∀ l ∈ tr.nextState, l.familyKey = f
  superseded : ∀ i ∈ tr.supersededAttentionId, i.family R = f
  signal : ∀ item ∈ tr.upsertSignal, (item.attentionId f.hostId).family R = f
  resolve : ∀ i ∈ tr.resolveAttentionId, i.family R = f

lemma transitionHome (hs : s.Sound R) (c : AttentionCall) (t : Int) (f : AttentionFamily) :
    TransitionHome R f
      (planAttentionTransition R (s.lifecycles.lookup f) (c.observation R t f)) := by
  generalize htr : planAttentionTransition R (s.lifecycles.lookup f) (c.observation R t f) = tr
  have hplanned := planned R (s.lifecycles.lookup f) (c.observation R t f)
  rw [htr] at hplanned
  cases hplanned with
  | late | idle =>
    exact ⟨fun l hl => (hs.live f l hl).familyKey, nofun, nofun, nofun⟩
  | first signal hsignal | reopens _ signal hsignal =>
    refine ⟨fun l hl => ?_, nofun, fun item hitem => ?_, nofun⟩
    · cases hl
      rfl
    · cases hitem
      exact family_attentionId hsignal
  | continues l signal hsignal hstate =>
    have hl := hs.live f l hstate
    refine ⟨fun l' hl' => ?_, fun i hi => ?_, fun item hitem => ?_, nofun⟩
    · cases hl'
      exact hl.familyKey
    · unfold AttentionObservation.continues at hi
      dsimp only at hi
      split at hi
      · exact hl.home i hi
      · cases hi
    · cases hitem
      exact family_attentionId hsignal
  | misses l _ hstate =>
    have hl := hs.live f l hstate
    refine ⟨fun l' hl' => ?_, nofun, nofun, fun i hi => ?_⟩
    · cases hl'
      exact hl.familyKey
    · unfold AttentionObservation.misses at hi
      dsimp only at hi
      split at hi
      · exact hl.home i hi
      · cases hi

lemma jobsOf_append (hjobs : s'.jobs = s.jobs ++ [job]) :
    s'.jobsOf f = s.jobsOf f ++ if job.key.familyKey = f then [job] else [] := by
  unfold jobsOf
  rw [hjobs, List.filter_append]
  by_cases h : job.key.familyKey = f <;> simp [h]

/-- The iteration of a family leaves what is kept of every other. -/
lemma sameFamily_applyFamily (hs : s.Sound R) (hne : g ≠ f) :
    SameFamily R g s (s.applyFamily R c t f) := by
  rcases applyFamily_cases R c t s f with ⟨-, heq⟩ | ⟨l, -, hnext, heq⟩
  · rw [heq]
    exact .refl s
  · have hhome := transitionHome hs c t f
    rw [heq]
    have hkey : l.familyKey = f := hhome.familyKey l hnext
    refine ⟨?_, fun i hi => ?_, ?_⟩
    · rw [lifecycles_project]
      exact AList.lookup_insert_ne hne
    · subst hi
      refine items_project_of_ne (fun hi => ?_) (fun item hitem hi => ?_) (fun hi => ?_)
      · exact hne (hhome.superseded i hi)
      · rw [hkey] at hi
        exact hne (hi ▸ hhome.signal item hitem)
      · exact hne (hhome.resolve i hi)
    · rcases jobs_project with ⟨hjobs, -⟩ | ⟨d, -, item, -, row, -, hjobs⟩
      · unfold jobsOf
        rw [hjobs]
      · rw [jobsOf_append hjobs, if_neg, List.append_nil]
        · rfl
        · rw [hkey]
          exact hne.symm

/-- The transition wrote the lifecycle of the family. -/
def AttentionStore.written (R : AttentionRules) (s : AttentionStore) (c : AttentionCall) (t : Int)
    (f : AttentionFamily) (l : AttentionLifecycle) (tr : AttentionTransition) : AttentionStore :=
  ({ s with lifecycles := s.lifecycles.insert f l } : AttentionStore).project R c t l tr

lemma openRow_written {tr : AttentionTransition} {i : AttentionIdentity} :
    (s.written R c t f l tr).OpenRow i ↔ tr.resolveAttentionId ≠ some i ∧
      (tr.upsertSignal.map (fun item => item.attentionId l.familyKey.hostId) = some i ∨
        tr.supersededAttentionId ≠ some i ∧ s.OpenRow i) := openRow_project

lemma jobsOf_written (tr : AttentionTransition) (hkey : l.familyKey = f) :
    (s.written R c t f l tr).jobsOf f = s.jobsOf f ∧
      (∀ d ∈ tr.delivery, ∀ item ∈ tr.upsertSignal, ∃ job ∈ s.jobsOf f,
        job.key = ⟨f, l.generation, d.eventType, d.stage⟩) ∨
    ∃ d ∈ tr.delivery, ∃ item ∈ tr.upsertSignal, ∃ row : AttentionItemRow, row.payload = item ∧
      (s.written R c t f l tr).jobsOf f =
        s.jobsOf f ++ [⟨⟨f, l.generation, d.eventType, d.stage⟩, row, t⟩] := by
  subst hkey
  rcases @jobs_project R { s with lifecycles := s.lifecycles.insert l.familyKey l } c t l tr with ⟨hjobs, hold⟩ | ⟨d, hd, item, hitem, row, hrow, hjobs⟩
  · refine .inl ⟨by unfold jobsOf; exact congrArg _ hjobs, fun d hd item hitem => ?_⟩
    obtain ⟨job, hjob, heq⟩ := hold d hd item hitem
    refine ⟨job, List.mem_filter.mpr ⟨hjob, ?_⟩, heq⟩
    simp [heq]
  · refine .inr ⟨d, hd, item, hitem, row, hrow, ?_⟩
    exact (jobsOf_append hjobs).trans (by rw [if_pos rfl]; rfl)

/-- A new episode starts with one creation and one open row. -/
lemma sound_opens {signal : AttentionSignal} {n : Nat} (hq : FamilyQuiet R s f n)
    (hsignal : c.selected R f = some signal)
    (hl : ((c.observation R t f).opens R signal n).nextState = some l) :
    FamilySound R (s.written R c t f l ((c.observation R t f).opens R signal n)) f l := by
  have hkey : l.familyKey = f := by
    cases hl
    rfl
  have hgeneration : l.generation = n := by
    cases hl
    rfl
  have hcurrent : l.currentAttentionId = some (signal.attentionId f.hostId) := by
    cases hl
    rfl
  have hrank : l.maxNotifiedSeverityRank = attentionSeverityRank R signal.severity := by
    cases hl
    rfl
  have hjobs : ∃ row : AttentionItemRow, row.payload = signal ∧
      (s.written R c t f l ((c.observation R t f).opens R signal n)).jobsOf f =
        s.jobsOf f ++ [⟨⟨f, n, "attention_created", "initial"⟩, row, t⟩] := by
    rcases jobsOf_written ((c.observation R t f).opens R signal n) hkey with
      ⟨-, hold⟩ | ⟨d, hd, item, hitem, row, hrow, hjobs⟩
    · obtain ⟨job, hjob, heq⟩ := hold .created rfl signal rfl
      have hlt := (hq.jobs job hjob).2
      rw [heq, hgeneration] at hlt
      exact absurd hlt (lt_irrefl n)
    · cases hd
      cases hitem
      rw [hgeneration] at hjobs
      exact ⟨row, hrow, hjobs⟩
  obtain ⟨row, hrow, hjobs⟩ := hjobs
  exact {
    familyKey := hkey
    current := by
      cases hl
      simp
    missing := by
      cases hl
      simp
    home := fun i hi => by
      rw [hcurrent] at hi
      cases hi
      exact family_attentionId hsignal
    openRow := fun i hi => by
      have hquiet := hq.openRow i hi
      rw [openRow_written, hkey, hcurrent]
      simp [hquiet, AttentionObservation.opens]
    generation := hgeneration ▸ hq.generation
    jobs := fun job hjob => by
      rw [hjobs, List.mem_append, List.mem_singleton] at hjob
      rcases hjob with hjob | rfl
      · have hbound := hq.jobs job hjob
        omega
      · exact ⟨hq.generation, hgeneration.ge⟩
    created := fun m => by
      have hpos := hq.generation
      rw [hjobs, List.countP_append, hq.created m, hgeneration]
      have hnew : [(⟨⟨f, n, "attention_created", "initial"⟩, row, t⟩ : AttentionJob)].countP
          (·.isCreated m) = if n = m then 1 else 0 := by
        simp [List.countP_cons, AttentionJob.isCreated]
      rw [hnew]
      split_ifs <;> omega
    escalations := fun m => by
      rw [hjobs, List.filter_append, List.filter_singleton]
      simpa [AttentionJob.isEscalation] using hq.escalations m
    notified := fun job hjob hjobgen => by
      rw [hjobs, List.mem_append, List.mem_singleton] at hjob
      rcases hjob with hjob | rfl
      · have hbound := hq.jobs job hjob
        omega
      · unfold AttentionJob.rank
        rw [hrow, hrank] }

/-- A signal of an open episode escalates above all that was told, or tells nothing. -/
lemma sound_continues {signal : AttentionSignal} {l₀ : AttentionLifecycle}
    (hs : FamilySound R s f l₀) (hsignal : c.selected R f = some signal)
    (hl : ((c.observation R t f).continues R l₀ signal).nextState = some l) :
    FamilySound R (s.written R c t f l ((c.observation R t f).continues R l₀ signal)) f l := by
  have hkey : l.familyKey = f := by
    cases hl
    exact hs.familyKey
  have hgeneration : l.generation = l₀.generation := by
    cases hl
    rfl
  have hcurrent : l.currentAttentionId = some (signal.attentionId f.hostId) := by
    cases hl
    rfl
  have hrank : l.maxNotifiedSeverityRank =
      max l₀.maxNotifiedSeverityRank (attentionSeverityRank R signal.severity) := by
    cases hl
    rfl
  have hjobs : (s.written R c t f l ((c.observation R t f).continues R l₀ signal)).jobsOf f =
        s.jobsOf f ∨
      l₀.maxNotifiedSeverityRank < attentionSeverityRank R signal.severity ∧
      ∃ (stage : String) (row : AttentionItemRow), row.payload = signal ∧
        (s.written R c t f l ((c.observation R t f).continues R l₀ signal)).jobsOf f =
          s.jobsOf f ++ [⟨⟨f, l₀.generation, "attention_escalated", stage⟩, row, t⟩] := by
    rcases jobsOf_written ((c.observation R t f).continues R l₀ signal) hkey with
      ⟨hsame, -⟩ | ⟨d, hd, item, hitem, row, hrow, hjobs⟩
    · exact .inl hsame
    · cases hitem
      unfold AttentionObservation.continues at hd
      dsimp only at hd
      split at hd
      · next hlt =>
        cases hd
        rw [hgeneration] at hjobs
        exact .inr ⟨of_decide_eq_true hlt, _, row, hrow, hjobs⟩
      · cases hd
  have hmem : ∀ job ∈ (s.written R c t f l ((c.observation R t f).continues R l₀ signal)).jobsOf f,
      job ∈ s.jobsOf f ∨
        job.key.generation = l₀.generation ∧ job.rank R = attentionSeverityRank R signal.severity := by
    intro job hjob
    rcases hjobs with hjobs | ⟨-, stage, row, hrow, hjobs⟩
    · exact .inl (hjobs ▸ hjob)
    · rw [hjobs, List.mem_append, List.mem_singleton] at hjob
      refine hjob.imp_right ?_
      rintro rfl
      exact ⟨rfl, by unfold AttentionJob.rank; rw [hrow]⟩
  exact {
    familyKey := hkey
    current := by
      cases hl
      simp
    missing := by
      cases hl
      simp
    home := fun i hi => by
      rw [hcurrent] at hi
      cases hi
      exact family_attentionId hsignal
    openRow := fun i hi => by
      rw [openRow_written, hkey, hcurrent, hs.openRow i hi]
      have hupsert : ((c.observation R t f).continues R l₀ signal).upsertSignal = some signal := rfl
      have hresolve : ((c.observation R t f).continues R l₀ signal).resolveAttentionId = none := rfl
      have hsuperseded : ((c.observation R t f).continues R l₀ signal).supersededAttentionId =
        if l₀.currentAttentionId != some (signal.attentionId f.hostId) then l₀.currentAttentionId
        else none := rfl
      rw [hupsert, hresolve, hsuperseded, Option.map_some]
      by_cases hsame : l₀.currentAttentionId = some (signal.attentionId f.hostId)
      · simp [hsame]
      · simp [hsame]
    generation := hgeneration ▸ hs.generation
    jobs := fun job hjob => by
      rcases hmem job hjob with hold | ⟨hnew, -⟩
      · exact hgeneration ▸ hs.jobs job hold
      · have hpos := hs.generation
        omega
    created := fun m => by
      rw [hgeneration, ← hs.created m]
      rcases hjobs with hjobs | ⟨-, stage, row, -, hjobs⟩
      · rw [hjobs]
      · rw [hjobs, List.countP_append]
        simp [AttentionJob.isCreated]
    escalations := fun m => by
      rcases hjobs with hjobs | ⟨hlt, stage, row, hrow, hjobs⟩
      · rw [hjobs]
        exact hs.escalations m
      · rw [hjobs, List.filter_append, List.map_append, List.pairwise_append]
        refine ⟨hs.escalations m, (List.pairwise_singleton _ _).sublist
          (List.filter_sublist.map _), fun a ha b hb => ?_⟩
        obtain ⟨old, hold, rfl⟩ := List.mem_map.mp ha
        obtain ⟨new, hnew, rfl⟩ := List.mem_map.mp hb
        obtain ⟨hold, holdm⟩ := List.mem_filter.mp hold
        obtain ⟨hnew, hnewm⟩ := List.mem_filter.mp hnew
        obtain rfl := List.mem_singleton.mp hnew
        simp only [AttentionJob.isEscalation, Bool.and_eq_true, beq_iff_eq] at holdm hnewm
        have hle := hs.notified old hold (holdm.1.trans hnewm.1.symm)
        have hnewrank : AttentionJob.rank R ⟨⟨f, l₀.generation, "attention_escalated", stage⟩, row, t⟩ =
            attentionSeverityRank R signal.severity := by
          unfold AttentionJob.rank
          rw [hrow]
        omega
    notified := fun job hjob hjobgen => by
      rw [hrank]
      rcases hmem job hjob with hold | ⟨-, hnew⟩
      · exact (hs.notified job hold (hjobgen.trans hgeneration)).trans (le_max_left _ _)
      · exact hnew ▸ le_max_right _ _ }

/-- A miss tells nothing, and closes the open row only when it resolves the episode. -/
lemma sound_misses {l₀ : AttentionLifecycle} (hs : FamilySound R s f l₀)
    (hopened : l₀.lifecycleStatus = .opened)
    (hl : ((c.observation R t f).misses l₀).nextState = some l) :
    FamilySound R (s.written R c t f l ((c.observation R t f).misses l₀)) f l := by
  have hkey : l.familyKey = f := by
    cases hl
    exact hs.familyKey
  have hgeneration : l.generation = l₀.generation := by
    cases hl
    rfl
  have hrank : l.maxNotifiedSeverityRank = l₀.maxNotifiedSeverityRank := by
    cases hl
    rfl
  have hjobs : (s.written R c t f l ((c.observation R t f).misses l₀)).jobsOf f = s.jobsOf f := by
    rcases jobsOf_written ((c.observation R t f).misses l₀) hkey with ⟨hsame, -⟩ | ⟨d, hd, -⟩
    · exact hsame
    · cases hd
  have hclosed : ((c.observation R t f).misses l₀).resolveAttentionId = none ∧
        l.lifecycleStatus = .opened ∧ l.currentAttentionId = l₀.currentAttentionId ∨
      ((c.observation R t f).misses l₀).resolveAttentionId = l₀.currentAttentionId ∧
        l.lifecycleStatus = .resolved ∧ l.currentAttentionId = none := by
    cases hl
    unfold AttentionObservation.misses
    dsimp only
    split
    · exact .inr ⟨rfl, rfl, rfl⟩
    · exact .inl ⟨rfl, rfl, rfl⟩
  have hrow : ∀ i : AttentionIdentity, (s.written R c t f l ((c.observation R t f).misses l₀)).OpenRow i ↔
      ((c.observation R t f).misses l₀).resolveAttentionId ≠ some i ∧ s.OpenRow i := by
    intro i
    rw [openRow_written]
    simp [AttentionObservation.misses]
  exact {
    familyKey := hkey
    current := by
      rcases hclosed with ⟨-, hstatus, hcurrent⟩ | ⟨-, hstatus, hcurrent⟩
      · rw [hstatus, hcurrent, ← hs.current, hopened]
      · simp [hstatus, hcurrent]
    missing := by
      cases hl
      simp
    home := fun i hi => by
      rcases hclosed with ⟨-, -, hcurrent⟩ | ⟨-, -, hcurrent⟩
      · exact hs.home i (hcurrent ▸ hi)
      · rw [hcurrent] at hi
        cases hi
    openRow := fun i hi => by
      rw [hrow, hs.openRow i hi]
      rcases hclosed with ⟨hresolve, -, hcurrent⟩ | ⟨hresolve, -, hcurrent⟩
      · rw [hresolve, hcurrent]
        simp
      · rw [hresolve, hcurrent]
        simp
    generation := hgeneration ▸ hs.generation
    jobs := by
      rw [hjobs, hgeneration]
      exact hs.jobs
    created := by
      rw [hjobs, hgeneration]
      exact hs.created
    escalations := by
      rw [hjobs]
      exact hs.escalations
    notified := by
      rw [hjobs, hgeneration, hrank]
      exact hs.notified }

/-- An iteration keeps the store sound. -/
theorem sound_applyFamily (hs : s.Sound R) : (s.applyFamily R c t f).Sound R := by
  have hother : ∀ g, g ≠ f → SameFamily R g s (s.applyFamily R c t f) :=
    fun g hne => sameFamily_applyFamily hs hne
  have hself : (∀ l, (s.applyFamily R c t f).lifecycles.lookup f = some l →
      FamilySound R (s.applyFamily R c t f) f l) ∧
      ((s.applyFamily R c t f).lifecycles.lookup f = none →
        FamilyQuiet R (s.applyFamily R c t f) f 1) := by
    rcases applyFamily_cases R c t s f with ⟨-, heq⟩ | ⟨l, haction, hnext, heq⟩
    · rw [heq]
      exact ⟨hs.live f, hs.fresh f⟩
    · have hlookup : (s.applyFamily R c t f).lifecycles.lookup f = some l :=
        (lookup_applyFamily R c t s f).trans hnext
      rw [hlookup]
      refine ⟨fun l' hl' => ?_, nofun⟩
      cases hl'
      rw [heq]
      change FamilySound R (s.written R c t f l _) f l
      generalize htr : planAttentionTransition R (s.lifecycles.lookup f) (c.observation R t f) = tr
        at haction hnext ⊢
      have hplanned := planned R (s.lifecycles.lookup f) (c.observation R t f)
      rw [htr] at hplanned
      cases hplanned with
      | late | idle => exact absurd rfl haction
      | first signal hsignal hstate => exact sound_opens (hs.fresh f hstate) hsignal hnext
      | reopens l₀ signal hsignal hstate _ hresolved =>
        exact sound_opens ((hs.live f l₀ hstate).quiet hresolved) hsignal hnext
      | continues l₀ signal hsignal hstate =>
        exact sound_continues (hs.live f l₀ hstate) hsignal hnext
      | misses l₀ _ hstate _ hopened => exact sound_misses (hs.live f l₀ hstate) hopened hnext
  refine ⟨fun g hg => ?_, fun g l hl => ?_⟩
  · by_cases hgf : g = f
    · subst hgf
      exact hself.2 hg
    · exact (hs.fresh g ((hother g hgf).lifecycle ▸ hg)).congr (hother g hgf)
  · by_cases hgf : g = f
    · subst hgf
      exact hself.1 l hl
    · exact (hs.live g l ((hother g hgf).lifecycle ▸ hl)).congr (hother g hgf)

end Tendwire
