import Tendwire.Connector.Rows

/-!
# The connector store and its statements

One definition for each kind of SQL statement the connector operations run, and what it does
to the rows of each table. Foreign keys are enforced: a referenced plan or outbox row is not
deleted, deleting a plan deletes its jobs, deleting an outbox row orphans its deliveries.
-/

namespace Tendwire.Connector

open Relational

structure Store where
  outbox : Constrained outboxSchema
  deliveries : Table Delivery
  plans : Constrained planSchema
  jobs : Constrained jobSchema
  recoveries : Constrained recoverySchema
  turns : Constrained turnSchema
  revisions : Constrained revisionSchema
  supersessions : Constrained supersessionSchema

/-- Why an operation is refused or raises. Its transaction is rolled back. -/
inductive Refusal where
  | invalidParams | invalidRef | staleRef | expiredRef | prepareRequired
  | planNotFound | planConflict | planIncomplete | planNotFailed | requestConflict
  | contentRevisionNotFound | revisionConflict | contentKnownIncomplete
  | notFound | notRetryable
  | integrityError | schemaError
  deriving DecidableEq, Repr

abbrev Txn (α : Type) := Except Refusal α

def require (c : Bool) (e : Refusal) : Txn Unit := if c then .ok () else .error e

def demand {α : Type} (o : Option α) (e : Refusal) : Txn α :=
  match o with
  | some a => .ok a
  | none => .error e

lemma bind_eq_ok {ε α β : Type} {x : Except ε α} {f : α → Except ε β} {b : β} :
    (x >>= f) = .ok b ↔ ∃ a, x = .ok a ∧ f a = .ok b := by
  cases x with
  | error e => simp [bind, Except.bind]
  | ok a => simp [bind, Except.bind]

lemma exists_of_isOk {α : Type} {x : Txn α} (h : x.isOk = true) : ∃ a, x = .ok a := by
  cases x with
  | error e => cases h
  | ok a => exact ⟨a, rfl⟩

lemma require_eq_ok {c : Bool} {e : Refusal} {u : Unit} : require c e = .ok u ↔ c = true := by
  unfold require
  split
  · next h => simp [h]
  · next h => simp [h]

lemma demand_eq_ok {α : Type} {o : Option α} {e : Refusal} {a : α} :
    demand o e = .ok a ↔ o = some a := by
  unfold demand
  split <;> simp

lemma map_demand_eq_ok {α β : Type} {o : Option α} {e : Refusal} {f : α → β} {b : β} :
    (demand o e).map f = .ok b ↔ ∃ a, o = some a ∧ f a = b := by
  cases o <;> simp [demand, Except.map]

lemma map_eq_ok {ε α β : Type} {x : Except ε α} {f : α → β} {b : β} :
    x.map f = .ok b ↔ ∃ a, x = .ok a ∧ f a = b := by
  cases x <;> simp [Except.map]

namespace Store

/-- A store without connector rows; the alias table is what the migration left. -/
def initial (supersessions : Constrained supersessionSchema) : Store :=
  { outbox := .empty
    deliveries := .empty
    plans := .empty
    jobs := .empty
    recoveries := .empty
    turns := .empty
    revisions := .empty
    supersessions }

/-! ### Updates -/

def updateOutbox (s : Store) (p : Nat → OutboxRow → Bool) (f : OutboxState → OutboxState) : Store :=
  { s with outbox := s.outbox.updateKeep p (OutboxRow.mapState f) (fun r => ⟨rfl, by
      simp [outboxSchema, OutboxRow.mapState]⟩) }

def updateDeliveries (s : Store) (p : Nat → Delivery → Bool) (f : DeliveryState → DeliveryState) :
    Store :=
  { s with deliveries := s.deliveries.updateWhere p (Delivery.mapState f) }

def updatePlans (s : Store) (p : Nat → Plan → Bool) (f : PlanProgress → PlanProgress) : Store :=
  { s with plans := s.plans.updateKeep p (Plan.mapState f) (fun r => ⟨rfl, by
      simp [planSchema, Plan.mapState]⟩) }

def setOutbox (s : Store) (i : Nat) (f : OutboxState → OutboxState) : Store :=
  s.updateOutbox (fun j _ => j == i) f

def setDelivery (s : Store) (i : Nat) (f : DeliveryState → DeliveryState) : Store :=
  s.updateDeliveries (fun j _ => j == i) f

def setPlan (s : Store) (i : Nat) (f : PlanProgress → PlanProgress) : Store :=
  s.updatePlans (fun j _ => j == i) f

/-! ### Inserts -/

def insertOutbox (s : Store) (r : OutboxRow) : Txn Store :=
  (demand (s.outbox.insert r) .integrityError).map fun outbox => { s with outbox }

/-- `INSERT ... ON CONFLICT(host_id, connector, delivery_key) DO NOTHING`. -/
def insertOutboxOrIgnore (s : Store) (r : OutboxRow) : Txn Store :=
  if s.outbox.table.any (fun _ r' => outboxSchema.clash r' r) then .ok s else s.insertOutbox r

def insertDelivery (s : Store) (d : Delivery) : Store :=
  { s with deliveries := s.deliveries.insert d }

def insertPlan (s : Store) (p : Plan) : Txn Store :=
  (demand (s.plans.append p) .integrityError).map fun plans => { s with plans }

def insertJob (s : Store) (j : Job) : Txn Store :=
  (demand (s.jobs.append j) .integrityError).map fun jobs => { s with jobs }

def insertRecovery (s : Store) (r : Recovery) : Txn Store :=
  (demand (s.recoveries.append r) .integrityError).map fun recoveries => { s with recoveries }

/-- `UPDATE turn_presentation_jobs SET outbox_id = ? WHERE id = ? AND outbox_id IS NULL`. -/
def linkJob (s : Store) (planId jobId outboxId : Nat) : Txn Store :=
  (demand (s.jobs.updateWhere
    (fun i j => i == jobId && j.planId == planId && j.outboxId.isNone)
    (fun j => { j with outboxId := some outboxId })) .integrityError).map
      fun jobs => { s with jobs }

/-! ### Deletes -/

def deleteDeliveries (s : Store) (p : Nat → Delivery → Bool) : Store :=
  { s with deliveries := s.deliveries.deleteWhere p }

def deleteJobs (s : Store) (p : Nat → Job → Bool) : Store :=
  { s with jobs := s.jobs.deleteWhere p }

def deleteRecoveries (s : Store) (p : Nat → Recovery → Bool) : Store :=
  { s with recoveries := s.recoveries.deleteWhere p }

def planReferenced (s : Store) (i : Nat) : Bool :=
  s.recoveries.table.any (fun _ r => r.failedPlanId == i || r.recoveredPlanId == i)

def deletePlans (s : Store) (p : Nat → Plan → Bool) : Txn Store :=
  if s.plans.table.any (fun i r => p i r && s.planReferenced i) then
    .error .integrityError
  else
    .ok { s with
      plans := s.plans.deleteWhere p
      jobs := s.jobs.deleteWhere fun _ j => s.plans.table.any (fun i r => p i r && i == j.planId) }

def outboxReferenced (s : Store) (i : Nat) : Bool :=
  s.plans.table.any (fun _ r => r.sourceOutboxId == some i) ||
    s.jobs.table.any (fun _ j => j.outboxId == some i)

def deleteOutbox (s : Store) (p : Nat → OutboxRow → Bool) : Txn Store :=
  if s.outbox.table.any (fun i r => p i r && s.outboxReferenced i) then
    .error .integrityError
  else
    .ok { s with
      outbox := s.outbox.deleteWhere p
      deliveries := s.deliveries.updateWhere
        (fun _ d => s.outbox.table.any (fun i r => p i r && d.outboxId == some i))
        (Delivery.mapState fun d => { d with outboxId := none }) }

/-! ### What the statements do -/

variable {s s' : Store}

@[simp] lemma outbox_updateOutbox (p : Nat → OutboxRow → Bool) (f : OutboxState → OutboxState)
    (i : Nat) : (s.updateOutbox p f).outbox.get? i =
      (s.outbox.get? i).map fun r => if p i r then r.mapState f else r := by
  rw [updateOutbox, Constrained.get?_updateKeep]

@[simp] lemma outbox_setOutbox (j : Nat) (f : OutboxState → OutboxState) (i : Nat) :
    (s.setOutbox j f).outbox.get? i =
      (s.outbox.get? i).map fun r => if i = j then r.mapState f else r := by
  simp [setOutbox]

@[simp] lemma deliveries_updateDeliveries (p : Nat → Delivery → Bool)
    (f : DeliveryState → DeliveryState) (k : Nat) : (s.updateDeliveries p f).deliveries.get? k =
      (s.deliveries.get? k).map fun d => if p k d then d.mapState f else d :=
  Table.get?_updateWhere _ _ _ _

@[simp] lemma plans_updatePlans (p : Nat → Plan → Bool) (f : PlanProgress → PlanProgress)
    (i : Nat) : (s.updatePlans p f).plans.get? i =
      (s.plans.get? i).map fun r => if p i r then r.mapState f else r := by
  rw [updatePlans, Constrained.get?_updateKeep]

theorem insertOutbox_spec {r : OutboxRow} (h : s.insertOutbox r = .ok s') :
    ∃ t, s' = { s with outbox := t } ∧ t.table.next = s.outbox.table.next + 1 ∧
      ∀ i, t.get? i = if i = s.outbox.table.next then some r else s.outbox.get? i := by
  obtain ⟨t, ht, rfl⟩ := map_demand_eq_ok.mp h
  refine ⟨t, rfl, ?_, Constrained.get?_insert ht⟩
  rw [Constrained.insert_eq_some ht, Table.next_insert]

lemma insertOutboxOrIgnore_cases {r : OutboxRow} (h : s.insertOutboxOrIgnore r = .ok s') :
    (s' = s ∧ ∃ i r', s.outbox.get? i = some r' ∧ outboxSchema.clash r' r = true) ∨
      (∀ i r', s.outbox.get? i = some r' → outboxSchema.clash r' r = false) ∧
        s.insertOutbox r = .ok s' := by
  unfold insertOutboxOrIgnore at h
  split at h
  · next hany => exact .inl ⟨(Except.ok.inj h).symm, Relational.Table.any_iff.mp hany⟩
  · next hany =>
    exact .inr ⟨Relational.Table.any_eq_false_iff.mp (by simpa using hany), h⟩

theorem insertPlan_spec {p : Plan} (h : s.insertPlan p = .ok s') :
    ∃ t, s' = { s with plans := t } ∧
      ∀ i, t.get? i = if i = s.plans.table.freeId then some p else s.plans.get? i := by
  obtain ⟨t, ht, rfl⟩ := map_demand_eq_ok.mp h
  exact ⟨t, rfl, Constrained.get?_append ht⟩

theorem insertJob_spec {j : Job} (h : s.insertJob j = .ok s') :
    ∃ t, s' = { s with jobs := t } ∧
      ∀ i, t.get? i = if i = s.jobs.table.freeId then some j else s.jobs.get? i := by
  obtain ⟨t, ht, rfl⟩ := map_demand_eq_ok.mp h
  exact ⟨t, rfl, Constrained.get?_append ht⟩

theorem insertRecovery_spec {r : Recovery} (h : s.insertRecovery r = .ok s') :
    ∃ t, s' = { s with recoveries := t } ∧
      ∀ i, t.get? i = if i = s.recoveries.table.freeId then some r else s.recoveries.get? i := by
  obtain ⟨t, ht, rfl⟩ := map_demand_eq_ok.mp h
  exact ⟨t, rfl, Constrained.get?_append ht⟩

theorem linkJob_spec {planId jobId outboxId : Nat} (h : s.linkJob planId jobId outboxId = .ok s') :
    ∃ t, s' = { s with jobs := t } ∧ ∀ i, t.get? i = (s.jobs.get? i).map fun j =>
      if i == jobId && j.planId == planId && j.outboxId.isNone then
        { j with outboxId := some outboxId }
      else
        j := by
  obtain ⟨t, ht, rfl⟩ := map_demand_eq_ok.mp h
  exact ⟨t, rfl, Constrained.get?_updateWhere ht⟩

theorem deletePlans_spec {p : Nat → Plan → Bool} (h : s.deletePlans p = .ok s') :
    (∀ i r, s.plans.get? i = some r → p i r = true → s.planReferenced i = false) ∧
      s' = { s with
        plans := s.plans.deleteWhere p
        jobs := s.jobs.deleteWhere fun _ j =>
          s.plans.table.any (fun i r => p i r && i == j.planId) } := by
  unfold deletePlans at h
  split at h
  · cases h
  · next hany =>
    refine ⟨?_, (Except.ok.inj h).symm⟩
    intro i r hr hp
    have hfalse := Table.any_eq_false_iff.mp (Bool.eq_false_iff.mpr hany) i r hr
    simpa [hp] using hfalse

theorem deleteOutbox_spec {p : Nat → OutboxRow → Bool} (h : s.deleteOutbox p = .ok s') :
    (∀ i r, s.outbox.get? i = some r → p i r = true → s.outboxReferenced i = false) ∧
      s' = { s with
        outbox := s.outbox.deleteWhere p
        deliveries := s.deliveries.updateWhere
          (fun _ d => s.outbox.table.any (fun i r => p i r && d.outboxId == some i))
          (Delivery.mapState fun d => { d with outboxId := none }) } := by
  unfold deleteOutbox at h
  split at h
  · cases h
  · next hany =>
    refine ⟨?_, (Except.ok.inj h).symm⟩
    intro i r hr hp
    have hfalse := Table.any_eq_false_iff.mp (Bool.eq_false_iff.mpr hany) i r hr
    simpa [hp] using hfalse

end Store

end Tendwire.Connector
