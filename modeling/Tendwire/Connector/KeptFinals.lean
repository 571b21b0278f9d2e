import Tendwire.Connector.Identity

/-!
# Kept finals

After a transaction that ensured the root of a current final, the root is there and every other
root of the turn is settled, unless the root was superseded with another payload before: such a
root is neither reactivated nor replaced.
-/

namespace Tendwire.Connector

open Transition

def OutboxRow.RootOf (hostId turnId : String) (r : OutboxRow) : Prop :=
  ∃ revision, r.deliveryKey = .revision ⟨hostId, turnId, revision⟩

/-- The step ensures a root of the turn. -/
def TurnStep.ensures (hostId turnId : String) : TurnStep → Bool
  | .ensure h revision _ => h == hostId && revision.turnId == turnId
  | .write .. => false

namespace Store

variable {s s' s'' : Store} {hostId turnId : String} {revision : ContentRevision} {now : Int}

/-- What is promised of a final once its root was ensured. -/
structure RootKept (s : Store) (hostId : String) (revision : ContentRevision) : Prop where
  root : ∃ i r, s.outbox.get? i = some r ∧ r.hostId = hostId ∧ r.connector = turnFinalName ∧
    r.deliveryKey = .revision ⟨hostId, revision.turnId, revision⟩ ∧
    r.deliveryKind.isRoot = true ∧ r.status ≠ .superseded
  others : ∀ i r, s.outbox.get? i = some r → r.hostId = hostId →
    r.turnId = some revision.turnId → r.deliveryKind = .finalReady →
    r.deliveryKey ≠ .revision ⟨hostId, revision.turnId, revision⟩ → r.status.terminal = true

/-- A final that has to reach its consumer. -/
structure Deliverable (s : Store) (hostId : String) (revision : ContentRevision) : Prop where
  current : (s.finalReadyPayload hostId revision.turnId revision false).isSome = true
  live : s.finalRevisionIsInternalAutomation hostId revision.turnId revision = false
  unacknowledged : s.hasAcknowledgedTombstone hostId turnFinalName
    (.revision ⟨hostId, revision.turnId, revision⟩) = false
  undelivered : s.hasSourceLessDelivery hostId revision.turnId revision = false

lemma deliverable_iff {revision : ContentRevision} : s.Deliverable hostId revision ↔
    (s.finalReadyPayload hostId revision.turnId revision false).isSome = true ∧
      s.finalRevisionIsInternalAutomation hostId revision.turnId revision = false ∧
      s.hasAcknowledgedTombstone hostId turnFinalName
        (.revision ⟨hostId, revision.turnId, revision⟩) = false ∧
      s.hasSourceLessDelivery hostId revision.turnId revision = false := by
  constructor
  · intro h
    exact ⟨h.current, h.live, h.unacknowledged, h.undelivered⟩
  · rintro ⟨hcurrent, hlive, hunacknowledged, hundelivered⟩
    exact ⟨hcurrent, hlive, hunacknowledged, hundelivered⟩

/-- The root is superseded, and stored with another payload than it would get now. -/
def rootStranded (s : Store) (hostId : String) (revision : ContentRevision) : Bool :=
  (s.rootByKey? hostId (.revision ⟨hostId, revision.turnId, revision⟩)).any fun e =>
    e.2.status == .superseded &&
      (s.finalReadyPayload hostId revision.turnId revision true).any (e.2.payload != .final ·)

/-! ### Roots of a turn -/

lemma rootOf_of_key {r : OutboxRow} (h : r.WellKeyed) (hkind : r.deliveryKind.isRoot = true)
    (hhost : r.hostId = hostId) (hturn : r.turnId = some turnId) : r.RootOf hostId turnId := by
  have hfits := h.fits
  cases hkey : r.deliveryKey with
  | revision identity =>
    obtain ⟨-, ht, -, hh, -⟩ := h.root identity hkey
    refine ⟨identity.contentRevision, ?_⟩
    rw [← hhost, hh, ← Option.some.inj (ht.symm.trans hturn)]
    exact hkey
  | job name token k =>
    rw [hkey] at hfits
    cases hk : r.deliveryKind <;> simp_all [DeliveryKind.fits, DeliveryKind.isRoot]
  | other key =>
    rw [hkey] at hfits
    cases hk : r.deliveryKind <;> simp_all [DeliveryKind.fits, DeliveryKind.isRoot]

lemma Keyed.not_job_of_root (h : s.Keyed) {i : Nat} {r : OutboxRow} {q : Nat → Bool}
    (hr : s.outbox.get? i = some r) (hroot : r.RootOf hostId turnId) : s.isJobOf q i = false := by
  unfold isJobOf
  rw [Relational.Table.any_eq_false_iff]
  intro k j hj
  by_contra hc
  simp only [Bool.not_eq_false, Bool.and_eq_true, beq_iff_eq] at hc
  have hkey := (h.job k j i hj hc.2).2 r hr
  obtain ⟨rev, hrev⟩ := hroot
  rw [hrev] at hkey
  cases hkey

/-- The roots of a turn are the same rows in both stores. -/
def SameRoots (hostId turnId : String) (s s' : Store) : Prop :=
  ∀ i r, r.RootOf hostId turnId → (s'.outbox.get? i = some r ↔ s.outbox.get? i = some r)

lemma SameRoots.refl (s : Store) : SameRoots hostId turnId s s := fun _ _ _ => Iff.rfl

lemma SameRoots.trans (h : SameRoots hostId turnId s s') (h' : SameRoots hostId turnId s' s'') :
    SameRoots hostId turnId s s'' :=
  fun i r hr => (h' i r hr).trans (h i r hr)

lemma SameRoots.symm (h : SameRoots hostId turnId s s') : SameRoots hostId turnId s' s :=
  fun i r hr => (h i r hr).symm

lemma SameRoots.of_eq (h : s'.outbox = s.outbox) : SameRoots hostId turnId s s' := by
  intro i r _
  rw [h]

lemma sameRoots_updateOutbox {p : Nat → OutboxRow → Bool} {f : OutboxState → OutboxState}
    (hp : ∀ i r, s.outbox.get? i = some r → r.RootOf hostId turnId → p i r = false) :
    SameRoots hostId turnId s (s.updateOutbox p f) := by
  intro i r hroot
  rw [outbox_updateOutbox]
  constructor
  · intro h
    obtain ⟨r₀, hr₀, hr⟩ := Option.map_eq_some_iff.mp h
    have hroot₀ : r₀.RootOf hostId turnId := by
      obtain ⟨rev, hrev⟩ := hroot
      refine ⟨rev, hrev ▸ ?_⟩
      rw [← hr]
      split <;> rfl
    rw [hp i r₀ hr₀ hroot₀] at hr
    rw [← hr]
    exact hr₀
  · intro h
    rw [h, Option.map_some, hp i r h hroot]
    rfl

lemma sameRoots_deleteOutbox {p : Nat → OutboxRow → Bool}
    (hp : ∀ i r, s.outbox.get? i = some r → r.RootOf hostId turnId → p i r = false)
    (h : s.deleteOutbox p = .ok s') : SameRoots hostId turnId s s' := by
  obtain ⟨-, rfl⟩ := deleteOutbox_spec h
  intro i r hroot
  change (s.outbox.deleteWhere p).get? i = _ ↔ _
  rw [Relational.Constrained.get?_deleteWhere, Option.filter_eq_some_iff]
  constructor
  · exact fun h => h.1
  · intro hr
    simp [hr, hp i r hr hroot]

lemma sameRoots_insertOutboxOrIgnore {r : OutboxRow} (hr : ¬r.RootOf hostId turnId)
    (h : s.insertOutboxOrIgnore r = .ok s') : SameRoots hostId turnId s s' := by
  rcases insertOutboxOrIgnore_cases h with ⟨rfl, -⟩ | ⟨-, h⟩
  · exact SameRoots.refl _
  · obtain ⟨t, rfl, -, hget⟩ := insertOutbox_spec h
    intro i r' hroot
    change t.get? i = _ ↔ _
    rw [hget]
    split
    · next hi =>
      constructor
      · intro h
        rw [Option.some.inj h] at hr
        exact absurd hroot hr
      · intro h
        have hlt : i < s.outbox.table.next := Relational.Table.get?_lt_next h
        omega
    · exact Iff.rfl

/-! ### Ensuring the root of another turn -/

lemma sameRoots_supersedeStale {h : String} {other : ContentRevision} (hk : s.Keyed)
    (hne : ¬(h = hostId ∧ other.turnId = turnId)) :
    SameRoots hostId turnId s (s.supersedeStaleFinalWork h other.turnId other now) := by
  unfold supersedeStaleFinalWork supersedeRows
  refine SameRoots.trans (SameRoots.of_eq ?_) (sameRoots_updateOutbox ?_)
  · rfl
  · intro i r hr hroot
    change s.outbox.get? i = some r at hr
    have hjob : s.isJobOf (s.stalePlan h other.turnId other) i = false :=
      hk.not_job_of_root hr hroot
    obtain ⟨rev, hrev⟩ := hroot
    obtain ⟨-, ht, -, hh, -⟩ := (hk.row i r hr).root _ hrev
    have hstale : s.staleRoot h other.turnId other i = false := by
      unfold staleRoot
      rw [hr, Option.any_some]
      by_contra hc
      simp only [Bool.not_eq_false, Bool.and_eq_true, beq_iff_eq] at hc
      obtain ⟨⟨⟨⟨⟨hhost, -⟩, hturn⟩, -⟩, -⟩, -⟩ := hc
      refine hne ⟨hhost.symm.trans hh, ?_⟩
      exact Option.some.inj (hturn.symm.trans ht)
    simp [hstale, hjob]

lemma sameRoots_deletePlansOfRevision {h t : String} {other : ContentRevision} (hk : s.Keyed)
    (hdel : s.deletePlansOfRevision h t other = .ok s') : SameRoots hostId turnId s s' := by
  obtain ⟨s₃, hs₃, hdel⟩ := bind_eq_ok.mp hdel
  obtain ⟨-, rfl⟩ := deletePlans_spec hs₃
  refine SameRoots.trans (SameRoots.of_eq ?_) (sameRoots_deleteOutbox ?_ hdel)
  · rfl
  · intro i r hr hroot
    change s.outbox.get? i = some r at hr
    exact hk.not_job_of_root hr hroot

lemma sameRoots_reactivates {h : String} {other : ContentRevision} {payload : FinalPayload}
    (hk : s.Keyed) (hid : payload.finalIdentity = ⟨h, other.turnId, other⟩)
    (hne : ¬(h = hostId ∧ other.turnId = turnId))
    (hre : ReactivatesTo s h other.turnId other payload now s') :
    SameRoots hostId turnId s s' := by
  rcases hre with ⟨j, row, hroot, -, hre⟩ | ⟨rfl, -⟩
  · obtain ⟨s₁, hs₁, hre⟩ := bind_eq_ok.mp hre
    obtain rfl := Except.ok.inj hre
    have hdel : SameRoots hostId turnId s s₁ := sameRoots_deletePlansOfRevision hk hs₁
    have hattempts : SameRoots hostId turnId s₁
        (s₁.deleteDeliveries fun _ d => d.outboxId == some j) := SameRoots.of_eq rfl
    refine (hdel.trans hattempts).trans (sameRoots_updateOutbox ?_)
    intro i r hr hown
    change s₁.outbox.get? i = some r at hr
    by_contra hc
    obtain rfl : i = j := by simpa using hc
    have hrow := (hdel i r hown).mp hr
    obtain ⟨hget, -, -, hkey⟩ := rootByKey?_spec hroot
    rw [hget] at hrow
    obtain ⟨rev, hrev⟩ := hown
    rw [← Option.some.inj hrow, hkey, hid] at hrev
    have hidentity := DeliveryKey.revision.inj hrev
    exact hne ⟨congrArg FinalIdentity.hostId hidentity, congrArg FinalIdentity.turnId hidentity⟩
  · exact SameRoots.refl _

lemma finalIdentity_eq {payload : FinalPayload} {unroutable : Bool}
    (h : s.finalReadyPayload hostId revision.turnId revision unroutable = some payload) :
    payload.finalIdentity = ⟨hostId, revision.turnId, revision⟩ := by
  obtain ⟨canonical, -, -, -, -, -, -, -, hturn, hid⟩ := finalReadyPayload_spec h
  rw [hid, hturn]

lemma sameRoots_ensure {h : String} {other : ContentRevision} {id : Option Nat} (hk : s.Keyed)
    (hne : ¬(h = hostId ∧ other.turnId = turnId))
    (hens : s.ensureFinalReadyAnchor h other.turnId other now = .ok (s', id)) :
    SameRoots hostId turnId s s' := by
  rcases ensureFinalReadyAnchor_cases hens with ⟨-, rfl⟩ | ⟨payload, hp, hens⟩
  · exact SameRoots.refl _
  · rcases hens with ⟨-, -, rfl⟩ | ⟨-, -, rfl⟩ | ⟨s₁, hs₁, hens⟩
    · exact SameRoots.refl _
    · refine SameRoots.of_eq ?_
      unfold discardAcknowledgedFinalReplay
      split
      · rfl
      · dsimp only
        split <;> rfl
    · have hid := finalIdentity_eq hp
      have hk₁ : s₁.Keyed := hk.evolves (evolves_reactivates hs₁)
      have hnew : ¬(s.newRoot h other.turnId other payload now).RootOf hostId turnId := by
        rintro ⟨rev, hrev⟩
        change DeliveryKey.revision payload.finalIdentity = _ at hrev
        rw [hid] at hrev
        have hidentity := DeliveryKey.revision.inj hrev
        exact hne ⟨congrArg FinalIdentity.hostId hidentity,
          congrArg FinalIdentity.turnId hidentity⟩
      exact ((sameRoots_reactivates hk hid hne hs₁).trans (sameRoots_supersedeStale hk₁ hne)).trans
        (sameRoots_insertOutboxOrIgnore hnew hens)

/-- What is kept of a final depends on the roots of its turn only. -/
theorem RootKept.of_sameRoots (hk' : s'.Keyed) (hs : SameRoots hostId revision.turnId s s')
    (h : s.RootKept hostId revision) : s'.RootKept hostId revision := by
  constructor
  · obtain ⟨i, r, hr, hhost, hconn, hkey, hkind, hstatus⟩ := h.root
    exact ⟨i, r, (hs i r ⟨revision, hkey⟩).mpr hr, hhost, hconn, hkey, hkind, hstatus⟩
  · intro i r hr hhost hturn hkind hkey
    have hroot := rootOf_of_key (hk'.row i r hr) (by rw [hkind]; rfl) hhost hturn
    exact h.others i r ((hs i r hroot).mp hr) hhost hturn hkind hkey

/-! ### Ensuring the root itself -/

/-- Superseding what older revisions left does not touch the root of the revision. -/
lemma get?_supersedeStale {i : Nat} {r : OutboxRow} (hk : s.Keyed)
    (hr : s.outbox.get? i = some r)
    (hkey : r.deliveryKey = .revision ⟨hostId, revision.turnId, revision⟩) :
    (s.supersedeStaleFinalWork hostId revision.turnId revision now).outbox.get? i = some r := by
  have hjob : s.isJobOf (s.stalePlan hostId revision.turnId revision) i = false :=
    hk.not_job_of_root hr ⟨revision, hkey⟩
  obtain ⟨-, -, hrev, -, -⟩ := (hk.row i r hr).root _ hkey
  have hstale : s.staleRoot hostId revision.turnId revision i = false := by
    simp [staleRoot, hr, hrev]
  unfold supersedeStaleFinalWork supersedeRows
  rw [outbox_updateOutbox]
  change (s.outbox.get? i).map _ = _
  rw [hr]
  simp [hstale, hjob]

/-- Superseding settles every other root of the turn. -/
lemma settled_supersedeStale {i : Nat} {r : OutboxRow} (hk : s.Keyed)
    (hr : (s.supersedeStaleFinalWork hostId revision.turnId revision now).outbox.get? i = some r)
    (hhost : r.hostId = hostId) (hturn : r.turnId = some revision.turnId)
    (hkind : r.deliveryKind = .finalReady)
    (hkey : r.deliveryKey ≠ .revision ⟨hostId, revision.turnId, revision⟩) :
    r.status.terminal = true := by
  unfold supersedeStaleFinalWork supersedeRows at hr
  rw [outbox_updateOutbox] at hr
  obtain ⟨r₀, hr₀, hr⟩ := Option.map_eq_some_iff.mp hr
  change s.outbox.get? i = some r₀ at hr₀
  split at hr
  · rw [← hr]
    rfl
  · next hp =>
    subst hr
    have hroot := rootOf_of_key (hk.row i r₀ hr₀) (by rw [hkind]; rfl) hhost hturn
    obtain ⟨rev, hrev⟩ := hroot
    obtain ⟨hconn, -, hcontent, -, -⟩ := (hk.row i r₀ hr₀).root _ hrev
    have hne : rev ≠ revision := fun heq => hkey (heq ▸ hrev)
    have hstale : s.staleRoot hostId revision.turnId revision i = r₀.status.supersedable := by
      simp [staleRoot, hr₀, hhost, hturn, hconn, hcontent, hkind, hne, DeliveryKind.isRoot]
    simp only [hstale] at hp
    cases hstatus : r₀.status <;> simp_all [OutboxStatus.supersedable, OutboxStatus.terminal]

lemma rootByKey?_eq_none {key : DeliveryKey} (h : s.rootByKey? hostId key = none) {i : Nat}
    {r : OutboxRow} (hr : s.outbox.get? i = some r) (hhost : r.hostId = hostId)
    (hconn : r.connector = turnFinalName) : r.deliveryKey ≠ key := by
  intro hkey
  have hfalse := Relational.Table.first?_eq_none h hr
  simp [hhost, hconn, hkey] at hfalse

/-- A root is the only row with its key. -/
lemma eq_of_rootKey {i j : Nat} {r r' : OutboxRow} {identity : FinalIdentity} (hk : s.Keyed)
    (hr : s.outbox.get? i = some r) (hr' : s.outbox.get? j = some r')
    (hkey : r.deliveryKey = .revision identity) (hkey' : r'.deliveryKey = .revision identity) :
    i = j := by
  obtain ⟨hc, -, -, hh, -⟩ := (hk.row i r hr).root identity hkey
  obtain ⟨hc', -, -, hh', -⟩ := (hk.row j r' hr').root identity hkey'
  refine s.outbox.eq_of_key (k := fun r => some (r.hostId, r.connector, r.deliveryKey))
    (by simp [outboxSchema]) hr hr' (v := (identity.hostId, turnFinalName, .revision identity)) ?_ ?_
  · simp [hc, hh, hkey]
  · simp [hc', hh', hkey']

lemma rootStart_ne_superseded (payload : FinalPayload) :
    (s.rootStart hostId turnId revision payload now).status ≠ .superseded := by
  unfold rootStart
  split <;> simp

lemma get?_setOutbox_self {i : Nat} {r : OutboxRow} {f : OutboxState → OutboxState}
    (hr : s.outbox.get? i = some r) : (s.setOutbox i f).outbox.get? i = some (r.mapState f) := by
  rw [outbox_setOutbox, hr, Option.map_some, if_pos rfl]

/-- The reactivated root. -/
lemma reactivateFinalRoot_root {i : Nat} {row : OutboxRow} {priv : OutboxPrivate}
    {latest : Option Nat} {start : RootStart} {payload : FinalPayload} (hk : s.Keyed)
    (hrow : s.outbox.get? i = some row) (hroot : row.RootOf hostId turnId)
    (h : s.reactivateFinalRoot hostId turnId revision i priv latest start payload now = .ok s') :
    ∃ r, s'.outbox.get? i = some r ∧ r.toOutboxKey = row.toOutboxKey ∧ r.status = start.status ∧
      r.deliveryKind = start.deliveryKind := by
  obtain ⟨s₁, hs₁, h⟩ := bind_eq_ok.mp h
  obtain rfl := Except.ok.inj h
  have hrow₁ : s₁.outbox.get? i = some row :=
    (sameRoots_deletePlansOfRevision hk hs₁ i row hroot).mpr hrow
  exact ⟨_, get?_setOutbox_self hrow₁, rfl, rfl, rfl⟩

lemma rootKept_iff_root (hk : s.Keyed) (hk' : s'.Keyed) {row : OutboxRow}
    (hkey : row.deliveryKey = .revision ⟨hostId, revision.turnId, revision⟩)
    (h : (s.supersedeStaleFinalWork hostId revision.turnId revision now).insertOutboxOrIgnore row =
      .ok s') {i : Nat} {r : OutboxRow} (hr : s'.outbox.get? i = some r)
    (hrkey : r.deliveryKey = .revision ⟨hostId, revision.turnId, revision⟩) :
    s'.RootKept hostId revision ↔ r.status ≠ .superseded := by
  constructor
  · intro hkept hstatus
    obtain ⟨j, r', hr', -, -, hkey', -, hne⟩ := hkept.root
    obtain rfl := eq_of_rootKey hk' hr' hr hkey' hrkey
    rw [hr] at hr'
    rw [← Option.some.inj hr'] at hne
    exact hne hstatus
  · intro hstatus
    obtain ⟨hconn, -, -, hhost, -⟩ := (hk'.row i r hr).root _ hrkey
    have hfits := (hk'.row i r hr).fits
    rw [hrkey] at hfits
    refine ⟨⟨i, r, hr, hhost, hconn, hrkey, DeliveryKind.isRoot_of_fits hfits, hstatus⟩, ?_⟩
    intro j e he hehost heturn hekind hekey
    rcases insertOutboxOrIgnore_cases h with ⟨rfl, -⟩ | ⟨-, h⟩
    · exact settled_supersedeStale hk he hehost heturn hekind hekey
    · obtain ⟨t, rfl, -, hget⟩ := insertOutbox_spec h
      change t.get? j = _ at he
      rw [hget] at he
      split at he
      · rw [← Option.some.inj he] at hekey
        exact absurd hkey hekey
      · exact settled_supersedeStale hk he hehost heturn hekind hekey

lemma finalReadyPayload_unroutable {payload : FinalPayload}
    (h : s.finalReadyPayload hostId turnId revision false = some payload) :
    s.finalReadyPayload hostId turnId revision true = some payload := by
  obtain ⟨canonical, hcanonical, h⟩ := Option.bind_eq_some_iff.mp h
  obtain ⟨turn, hturn, h⟩ := Option.bind_eq_some_iff.mp h
  obtain ⟨row, hrow, h⟩ := Option.bind_eq_some_iff.mp h
  obtain ⟨u, hcurrent, h⟩ := Option.bind_eq_some_iff.mp h
  obtain ⟨_, -, h⟩ := Option.bind_eq_some_iff.mp h
  refine Option.bind_eq_some_iff.mpr ⟨canonical, hcanonical, ?_⟩
  refine Option.bind_eq_some_iff.mpr ⟨turn, hturn, ?_⟩
  refine Option.bind_eq_some_iff.mpr ⟨row, hrow, ?_⟩
  refine Option.bind_eq_some_iff.mpr ⟨u, hcurrent, ?_⟩
  exact Option.bind_eq_some_iff.mpr ⟨(), by simp, h⟩

lemma key_of_clash {a b : OutboxRow} (h : outboxSchema.clash a b = true) :
    a.hostId = b.hostId ∧ a.connector = b.connector ∧ a.deliveryKey = b.deliveryKey := by
  simpa [Relational.Schema.clash, outboxSchema] using h

/-- Without a root, a new one is stored. -/
lemma inserted_of_no_root {payload : FinalPayload}
    (hroot : s.rootByKey? hostId (.revision ⟨hostId, revision.turnId, revision⟩) = none)
    (hid : payload.finalIdentity = ⟨hostId, revision.turnId, revision⟩)
    (h : (s.supersedeStaleFinalWork hostId revision.turnId revision now).insertOutboxOrIgnore
      (s.newRoot hostId revision.turnId revision payload now) = .ok s') :
    ∃ i, s'.outbox.get? i = some (s.newRoot hostId revision.turnId revision payload now) := by
  rcases insertOutboxOrIgnore_cases h with ⟨-, i, r, hr, hclash⟩ | ⟨-, h⟩
  · obtain ⟨hhost, hconn, hkey⟩ := key_of_clash hclash
    unfold supersedeStaleFinalWork supersedeRows at hr
    rw [outbox_updateOutbox] at hr
    obtain ⟨r₀, hr₀, hr⟩ := Option.map_eq_some_iff.mp hr
    have hsame : r.toOutboxKey = r₀.toOutboxKey := by
      rw [← hr]
      split <;> rfl
    have hno := rootByKey?_eq_none hroot hr₀
      ((congrArg OutboxKey.hostId hsame).symm.trans hhost)
      ((congrArg OutboxKey.connector hsame).symm.trans hconn)
    refine absurd ((congrArg OutboxKey.deliveryKey hsame).symm.trans (hkey.trans ?_)) hno
    exact congrArg DeliveryKey.revision hid
  · obtain ⟨t, rfl, -, hget⟩ := insertOutbox_spec h
    refine ⟨_, (hget _).trans (if_pos rfl)⟩

/-- What a transaction that ensures a root keeps. -/
theorem rootKept_ensure {id : Option Nat} (hk : s.Keyed) (hd : s.Deliverable hostId revision)
    (h : s.ensureFinalReadyAnchor hostId revision.turnId revision now = .ok (s', id)) :
    s'.RootKept hostId revision ↔ s.rootStranded hostId revision = false := by
  have hk' : s'.Keyed := hk.evolves (evolves_ensure h)
  obtain ⟨payload, hcurrent⟩ := Option.isSome_iff_exists.mp hd.current
  have hpayload := finalReadyPayload_unroutable hcurrent
  have hid := finalIdentity_eq hpayload
  rcases ensureFinalReadyAnchor_cases h with ⟨hnone, -⟩ | ⟨payload', hpayload', h⟩
  · rw [hpayload] at hnone
    cases hnone
  · rw [hpayload] at hpayload'
    obtain rfl := Option.some.inj hpayload'
    rw [hid] at h
    rcases h with ⟨-, hsource, -⟩ | ⟨-, htombstone, -⟩ | ⟨s₁, hs₁, h⟩
    · rw [hd.undelivered] at hsource
      cases hsource
    · rw [hd.unacknowledged] at htombstone
      cases htombstone
    · have hk₁ : s₁.Keyed := hk.evolves (evolves_reactivates hs₁)
      have hnewkey : (s.newRoot hostId revision.turnId revision payload now).deliveryKey =
          .revision ⟨hostId, revision.turnId, revision⟩ := congrArg DeliveryKey.revision hid
      -- a root with the key survives the superseding and keeps the new row out
      have hkept : ∀ i r, s₁.outbox.get? i = some r →
          r.deliveryKey = .revision ⟨hostId, revision.turnId, revision⟩ →
          (s'.RootKept hostId revision ↔ r.status ≠ .superseded) := by
        intro i r hr hkey
        have ht : (s₁.supersedeStaleFinalWork hostId revision.turnId revision now).outbox.get? i =
            some r := get?_supersedeStale hk₁ hr hkey
        refine rootKept_iff_root (i := i) hk₁ hk' hnewkey h ?_ hkey
        rcases insertOutboxOrIgnore_cases h with ⟨rfl, -⟩ | ⟨-, h⟩
        · exact ht
        · obtain ⟨t, rfl, -, hget⟩ := insertOutbox_spec h
          have hlt := Relational.Table.get?_lt_next ht
          change t.get? i = _
          rw [hget, if_neg (Nat.ne_of_lt hlt)]
          exact ht
      unfold rootStranded
      rcases hs₁ with ⟨i, row, hroot, hre, hs₁⟩ | ⟨rfl, hno⟩
      · rw [hid] at hroot
        obtain ⟨hrow, -, -, hkey⟩ := rootByKey?_spec hroot
        obtain ⟨r, hr, hsame, hstatus, -⟩ := reactivateFinalRoot_root hk hrow ⟨revision, hkey⟩ hs₁
        have hrkey := (congrArg OutboxKey.deliveryKey hsame).trans hkey
        rw [hkept i r hr hrkey, hstatus, hroot, hpayload]
        have hsame : row.payload = .final payload := by
          simp only [rootReactivates, Bool.and_eq_true, beq_iff_eq] at hre
          exact hre.2
        simp [hsame, rootStart_ne_superseded]
      · rw [hid] at hno
        cases hroot : s₁.rootByKey? hostId (.revision ⟨hostId, revision.turnId, revision⟩) with
        | none =>
          simp only [Option.any_none, iff_true]
          obtain ⟨i, hi⟩ := inserted_of_no_root hroot hid h
          exact (rootKept_iff_root hk₁ hk' hnewkey h hi hnewkey).mpr (rootStart_ne_superseded payload)
        | some e =>
          obtain ⟨i, row⟩ := e
          obtain ⟨hrow, -, -, hkey⟩ := rootByKey?_spec hroot
          rw [hkept i row hrow hkey, hpayload]
          have hre := hno i row hroot
          by_cases hstatus : row.status = .superseded
          · simp_all [rootReactivates]
          · simp [hstatus]

/-! ### Runs with retention -/

/-- What retention may do: it deletes rows, and it rewrites plans, attempts and turns. -/
structure Retained (s s' : Store) : Prop where
  outbox : ∀ i r, s'.outbox.get? i = some r → s.outbox.get? i = some r
  next : s'.outbox.table.next = s.outbox.table.next
  jobs : ∀ k j, s'.jobs.get? k = some j → s.jobs.get? k = some j

lemma Retained.evolves (h : Retained s s') : Evolves s s' := by
  refine ⟨Nat.le_of_eq h.next.symm, ?_, ?_⟩
  · exact fun i r hr => .inl ⟨r, h.outbox i r hr, .refl r⟩
  · exact fun k j o hj ho => .inl ⟨k, j, h.jobs k j hj, ho⟩

/-- The stores that calls and retention lead to. -/
inductive Reachable (supersessions : Relational.Constrained supersessionSchema) : Store → Prop
  | initial : Reachable supersessions (initial supersessions)
  | call {s : Store} (h : Reachable supersessions s) (c : Call) :
      Reachable supersessions (s.step c).1
  | retention {s s' : Store} (h : Reachable supersessions s) (hr : Retained s s') :
      Reachable supersessions s'

theorem Reachable.keyed {supersessions : Relational.Constrained supersessionSchema}
    (h : Reachable supersessions s) : s.Keyed := by
  induction h with
  | initial => exact keyed_initial supersessions
  | call _ c ih => exact ih.evolves (respects_evolves.step _ c)
  | retention _ hr ih => exact ih.evolves hr.evolves

lemma sameRoots_turnSteps {steps : List TurnStep} (hk : s.Keyed)
    (hother : ∀ step ∈ steps, step.ensures hostId turnId = false)
    (h : steps.foldlM applyTurnStep s = .ok s') : SameRoots hostId turnId s s' := by
  refine (foldlM_invariant (P := fun t => t.Keyed ∧ SameRoots hostId turnId s t) ?_
    ⟨hk, SameRoots.refl s⟩ h).2
  intro t step t' hmem ⟨hkt, hsame⟩ hstep
  refine ⟨hkt.evolves (respects_evolves.turnStep hstep), hsame.trans ?_⟩
  have hne := hother step hmem
  cases step with
  | write turns revisions =>
    obtain rfl := Except.ok.inj hstep
    exact SameRoots.of_eq rfl
  | ensure h revision now =>
    obtain ⟨x, hx, rfl⟩ := map_eq_ok.mp hstep
    have hother : ¬(h = hostId ∧ revision.turnId = turnId) := by
      simpa [TurnStep.ensures] using hne
    exact sameRoots_ensure hkt hother hx

/-- After a turn transaction that ensured the root of a deliverable final, the final is kept
exactly when its root had not been superseded with another payload. -/
theorem rootKept_iff {supersessions : Relational.Constrained supersessionSchema}
    {before after : List TurnStep} {s₀ : Store} (hs : Reachable supersessions s)
    (hbefore : before.foldlM applyTurnStep s = .ok s₀) (hd : s₀.Deliverable hostId revision)
    (hafter : ∀ step ∈ after, step.ensures hostId revision.turnId = false)
    (h : (TurnStep.ensure hostId revision now :: after).foldlM applyTurnStep s₀ = .ok s') :
    s'.RootKept hostId revision ↔ s₀.rootStranded hostId revision = false := by
  have hk₀ : s₀.Keyed := hs.keyed.evolves (respects_evolves.turnSteps hbefore)
  rw [List.foldlM_cons] at h
  obtain ⟨s₁, hs₁, h⟩ := bind_eq_ok.mp h
  obtain ⟨x, hx, rfl⟩ := map_eq_ok.mp hs₁
  have hk₁ : x.1.Keyed := hk₀.evolves (evolves_ensure hx)
  have hk' : s'.Keyed := hk₁.evolves (respects_evolves.turnSteps h)
  have hsame := sameRoots_turnSteps hk₁ hafter h
  rw [← rootKept_ensure hk₀ hd hx]
  exact ⟨RootKept.of_sameRoots hk₁ hsame.symm, RootKept.of_sameRoots hk' hsame⟩

theorem rootKept_of_firstFinal : ∃ s' : Store,
    [TurnStep.ensure "host" (sampleRevision "a") 0].foldlM applyTurnStep
      { initial .empty with
        turns := sampleTurns "worker"
        revisions := sampleRevisions "a" } = .ok s' ∧
      s'.RootKept "host" (sampleRevision "a") := by
  obtain ⟨s', h⟩ := exists_of_isOk (x := [TurnStep.ensure "host" (sampleRevision "a") 0].foldlM
    applyTurnStep
      { initial .empty with
        turns := sampleTurns "worker"
        revisions := sampleRevisions "a" }) (by decide +kernel)
  have hs : Reachable .empty (initial .empty) := .initial
  have hbefore : [TurnStep.write (sampleTurns "worker") (sampleRevisions "a")].foldlM applyTurnStep
      (initial .empty) = .ok { initial .empty with
        turns := sampleTurns "worker"
        revisions := sampleRevisions "a" } := rfl
  have hkept := rootKept_iff hs hbefore
    (deliverable_iff.mpr (by decide +kernel)) (by simp) h
  exact ⟨s', h, hkept.mpr (by decide +kernel)⟩

/-- The final goes from `a` to `b` and back while the turn moves to another worker. -/
theorem not_rootKept_of_movedWorker :
    ¬∀ (s s₀ s' : Store) (before after : List TurnStep) (hostId : String)
      (revision : ContentRevision) (now : Int), Reachable .empty s →
      before.foldlM applyTurnStep s = .ok s₀ → s₀.Deliverable hostId revision →
      (∀ step ∈ after, step.ensures hostId revision.turnId = false) →
      (TurnStep.ensure hostId revision now :: after).foldlM applyTurnStep s₀ = .ok s' →
      s'.RootKept hostId revision := by
  intro hclaim
  let s := (initial .empty).run [.refreshTurns (sampleRefresh "worker-1" "a" 0),
    .refreshTurns (sampleRefresh "worker-1" "b" 1)]
  let s₀ : Store := { s with turns := sampleTurns "worker-2", revisions := sampleRevisions "a" }
  obtain ⟨s', h⟩ := exists_of_isOk (x := [TurnStep.ensure "host" (sampleRevision "a") 2].foldlM
    applyTurnStep s₀) (by decide +kernel)
  have hkept := hclaim s s₀ s' [.write (sampleTurns "worker-2") (sampleRevisions "a")] [] "host"
    (sampleRevision "a") 2 (.call (.call .initial _) _) rfl
    (deliverable_iff.mpr (by decide +kernel)) (by simp) h
  have hall : (([TurnStep.ensure "host" (sampleRevision "a") 2].foldlM
      applyTurnStep s₀).toOption.any fun t => t.outbox.table.any fun _ r =>
        r.status != .superseded) = false := by decide +kernel
  rw [h] at hall
  have hsuperseded : (s'.outbox.table.any fun _ r => r.status != .superseded) = false := hall
  obtain ⟨i, r, hr, -, -, -, -, hstatus⟩ := hkept.root
  have hfalse := Relational.Table.any_eq_false_iff.mp hsuperseded i r hr
  simp [hstatus] at hfalse

end Store

end Tendwire.Connector
