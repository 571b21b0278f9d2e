import Tendwire.Pending.Claims
import Tendwire.Transition.Loop

/-!
# What a call does to the row and the claim of one worker

Each call writes the two rows of one worker at most, except for a prune, which is a sequence of
absences.
-/

namespace Tendwire

open Transition

variable {R : PendingRules} {s s' : PendingStore} {v w : String}

namespace PendingStore

/-- Nothing that the store keeps of a worker differs. -/
structure SameWorker (w : String) (s s' : PendingStore) : Prop where
  row : s'.pending.lookup w = s.pending.lookup w
  claim : s'.claims.lookup w = s.claims.lookup w

lemma SameWorker.refl (s : PendingStore) : SameWorker w s s := ⟨rfl, rfl⟩

lemma SameWorker.trans {s'' : PendingStore} (h : SameWorker w s s') (h' : SameWorker w s' s'') :
    SameWorker w s s'' := ⟨h'.row.trans h.row, h'.claim.trans h.claim⟩

section Writes

variable {row : PendingRow} {p : PendingClaim → Bool}

@[simp] lemma pending_put_self : (s.put w row).pending.lookup w = some row :=
  AList.lookup_insert _

@[simp] lemma claims_put : (s.put w row).claims = s.claims := rfl

lemma sameWorker_put (h : v ≠ w) : SameWorker w s (s.put v row) :=
  ⟨AList.lookup_insert_ne h.symm, rfl⟩

@[simp] lemma pending_dropClaim : (s.dropClaim w p).pending = s.pending := by
  unfold dropClaim
  split <;> rfl

lemma claims_dropClaim_of_ne (h : v ≠ w) :
    (s.dropClaim w p).claims.lookup v = s.claims.lookup v := by
  unfold dropClaim
  split
  · exact AList.lookup_erase_ne h
  · rfl

/-- A claim survives if it is none of those named. -/
lemma claims_dropClaim_self :
    (s.dropClaim w p).claims.lookup w = (s.claims.lookup w).filter fun claim => !p claim := by
  unfold dropClaim
  cases hclaim : s.claims.lookup w with
  | none => simpa using hclaim
  | some claim =>
    cases hp : p claim with
    | true => simp [hp, Option.filter_some]
    | false => simp [hp, hclaim, Option.filter_some]

lemma sameWorker_dropClaim (h : v ≠ w) : SameWorker w s (s.dropClaim v p) :=
  ⟨by rw [pending_dropClaim], claims_dropClaim_of_ne h.symm⟩

end Writes

lemma claimOf_spec {token : String} {claim : PendingClaim} (h : s.claimOf token = some (w, claim)) :
    s.claims.lookup w = some claim ∧ claim.claimToken = token := by
  obtain ⟨e, he, heq⟩ := Option.map_eq_some_iff.mp h
  obtain ⟨rfl, rfl⟩ := Prod.mk.inj heq
  have htoken := List.find?_some he
  exact ⟨AList.mem_lookup_iff.mpr (List.mem_of_find?_eq_some he), by simpa using htoken⟩

/-! ### Observations -/

section Observe

variable {o : PendingObservation} {x : ObservationSource} {changed : Bool}

lemma sameWorker_readFailed (h : v ≠ w) : SameWorker w s (s.readFailed v x).1 := by
  unfold readFailed
  dsimp only
  split
  · exact sameWorker_put h
  · split
    · split
      · exact (sameWorker_put h).trans (sameWorker_dropClaim h)
      · split
        · exact sameWorker_put h
        · exact (sameWorker_put h).trans (sameWorker_dropClaim h)
    · split <;> exact sameWorker_put h

lemma sameWorker_workerAbsent (h : v ≠ w) : SameWorker w s (s.workerAbsent v x).1 := by
  unfold workerAbsent
  split
  · exact (⟨AList.lookup_erase_ne h.symm, rfl⟩ :
      SameWorker w s { s with pending := s.pending.erase v }).trans (sameWorker_dropClaim h)
  · exact .refl s

lemma sameWorker_readPrompt {prompt : ObservedPrompt} (h : v ≠ w)
    (hs : s.readPrompt R v prompt x = some (s', changed)) : SameWorker w s s' := by
  unfold readPrompt at hs
  obtain ⟨payload, -, heq⟩ := Option.map_eq_some_iff.mp hs
  obtain ⟨rfl, -⟩ := Prod.mk.inj heq
  exact (sameWorker_dropClaim h).trans (sameWorker_put h)

/-- An observation of a worker is none of another. -/
lemma sameWorker_applyObservation (h : v ≠ w)
    (hs : s.applyObservation R v o x = some (s', changed)) : SameWorker w s s' := by
  unfold applyObservation at hs
  dsimp only at hs
  split at hs
  · cases hs
  · split at hs
    · cases hs
      exact .refl s
    · split at hs
      · obtain rfl := congrArg Prod.fst (Option.some.inj hs)
        exact sameWorker_workerAbsent h
      · split at hs
        · cases hs
          exact .refl s
        · split at hs
          · cases hs
            exact .refl s
          · obtain rfl := congrArg Prod.fst (Option.some.inj hs)
            exact sameWorker_readFailed h
          · obtain rfl := congrArg Prod.fst (Option.some.inj hs)
            exact (sameWorker_put h).trans (sameWorker_dropClaim h)
          · obtain rfl := congrArg Prod.fst (Option.some.inj hs)
            exact (sameWorker_put h).trans (sameWorker_dropClaim h)
          · obtain rfl := congrArg Prod.fst (Option.some.inj hs)
            exact (sameWorker_put h).trans (sameWorker_dropClaim h)
          · exact sameWorker_readPrompt h hs

/-- The guards that an observation passes before it is applied. -/
structure Admits (s : PendingStore) (w : String) (o : PendingObservation) (x : ObservationSource) :
    Prop where
  grace : 0 < x.staleGrace
  order : ∀ row, s.pending.lookup w = some row → row.observedAt ≤ x.observedAt
  source : if o = .workerAuthoritativelyAbsent then
      ∃ row, s.pending.lookup w = some row ∧
        (x.bindingPrivateFingerprint = "" ∨ row.bindingPrivateFingerprint = x.bindingPrivateFingerprint)
    else bindingChanged (s.pending.lookup w) x = false ∨ x.bindingAuthoritative = true

/-- What an applied observation does. -/
def Applied (R : PendingRules) (s : PendingStore) (w : String) (x : ObservationSource) :
    PendingObservation → PendingStore × Bool → Prop
  | .workerAuthoritativelyAbsent, result => result = s.workerAbsent w x
  | .readFailed, result => result = s.readFailed w x
  | .readSucceededUnsupportedDecision, result => result =
      s.readSettled w x .unsupportedDecision .invalid .fresh fun r => r.payload == .unsupportedDecision
  | .readSucceededInvalidPrompt, result => result =
      s.readSettled w x .empty .invalid .stale fun _ => true
  | .readSucceededNoPrompt, result => result = s.readSettled w x .empty .none .fresh fun _ => true
  | .openPrompt prompt, result => s.readPrompt R w prompt x = some result

/-- An observation is passed over or applied. -/
theorem applyObservation_cases {result : PendingStore × Bool}
    (hs : s.applyObservation R w o x = some result) :
    ¬s.Admits w o x ∧ result = (s, false) ∨ s.Admits w o x ∧ Applied R s w x o result := by
  unfold applyObservation at hs
  dsimp only at hs
  split at hs
  · cases hs
  · next hgrace =>
    split at hs
    · next hlate =>
      cases hs
      refine .inl ⟨fun hadmits => ?_, rfl⟩
      obtain ⟨row, hrow, hlt⟩ := (Option.any_eq_true _ _).mp hlate
      exact absurd (hadmits.order row hrow) (not_le.mpr (of_decide_eq_true hlt))
    · next hlate =>
      have horder : ∀ row, s.pending.lookup w = some row → row.observedAt ≤ x.observedAt := by
        intro row hrow
        rw [hrow] at hlate
        simpa using hlate
      split at hs
      · next habsent =>
        subst habsent
        obtain rfl := Option.some.inj hs
        unfold workerAbsent
        split
        · next hmatch =>
          obtain ⟨row, hrow, hbinding⟩ := (Option.any_eq_true _ _).mp hmatch
          refine .inr ⟨⟨not_le.mp hgrace, horder, ?_⟩, ?_⟩
          · rw [if_pos rfl]
            exact ⟨row, hrow, by simpa using hbinding⟩
          · change _ = s.workerAbsent w x
            unfold workerAbsent
            rw [if_pos hmatch]
        · next hmatch =>
          refine .inl ⟨fun hadmits => hmatch ?_, rfl⟩
          have hsource := hadmits.source
          rw [if_pos rfl] at hsource
          obtain ⟨row, hrow, hbinding⟩ := hsource
          exact (Option.any_eq_true _ _).mpr ⟨row, hrow, by simpa using hbinding⟩
      · next habsent =>
        split at hs
        · next hchanged =>
          cases hs
          refine .inl ⟨fun hadmits => ?_, rfl⟩
          have hsource := hadmits.source
          rw [if_neg habsent] at hsource
          simp only [Bool.and_eq_true, Bool.not_eq_true'] at hchanged
          rcases hsource with hsame | hauthoritative
          · rw [hsame] at hchanged
            exact absurd hchanged.1 Bool.false_ne_true
          · rw [hauthoritative] at hchanged
            exact absurd hchanged.2 Bool.true_eq_false.mp
        · next hchanged =>
          have hadmits : s.Admits w o x := by
            refine ⟨not_le.mp hgrace, horder, ?_⟩
            rw [if_neg habsent]
            simp only [Bool.and_eq_true, Bool.not_eq_true', not_and_or, Bool.not_eq_true,
              Bool.not_eq_false] at hchanged
            exact hchanged
          refine .inr ⟨hadmits, ?_⟩
          cases o with
          | workerAuthoritativelyAbsent => exact absurd rfl habsent
          | readFailed => exact (Option.some.inj hs).symm
          | readSucceededUnsupportedDecision => exact (Option.some.inj hs).symm
          | readSucceededInvalidPrompt => exact (Option.some.inj hs).symm
          | readSucceededNoPrompt => exact (Option.some.inj hs).symm
          | openPrompt prompt => exact hs

end Observe

end PendingStore

end Tendwire
