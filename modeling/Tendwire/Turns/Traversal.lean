import Mathlib.Data.List.Flatten
import Tendwire.Relational.Keyset
import Tendwire.Turns.ItemAgreement
import Tendwire.Turns.Places

/-!
# A traversal of turn.list returns each turn once

Each page scans the next part of the rows in the window of the traversal. Rows keep their
places while no stored turn gets another worker, so that no row jumps over the cursor.
-/

namespace Tendwire

open Json Connector Relational

/-- A row that turn.list shows. -/
def StoredTurn.isPublic (R : TextRules) (t : StoredTurn) : Bool := (publicTurnPayload R t).isSome

namespace TurnStore

variable {R : TextRules} {P : ListSizes} {q : TurnListRequest} {s : TurnStore}

/-! ### The loop over the rows -/

lemma turnListItem_isSome {n : Nat} {t : StoredTurn} {item : Option ListItem}
    (h : s.turnListItem R n t = .ok item) : item.isSome = t.isPublic R := by
  unfold turnListItem listItem at h
  unfold StoredTurn.isPublic
  split at h
  · next hnone =>
    obtain rfl := Except.ok.inj h
    rw [hnone]
    rfl
  · next payload hsome =>
    obtain ⟨shown, -, h⟩ := bind_eq_ok.mp h
    obtain rfl := Except.ok.inj h
    rw [hsome]
    rfl

/-- What the loop makes of the rows up to where it stops. -/
structure Scans (R : TextRules) (n : Nat) (scan scan' : TurnScan) (scanned rest : List StoredTurn) :
    Prop where
  length_le : scanned.length ≤ n
  positions : scan'.turns.map Prod.fst =
    scan.turns.map Prod.fst ++ (scanned.filter (·.isPublic R)).map StoredTurn.position
  last : scan'.lastScanned = (scanned.getLast?.map StoredTurn.position).or scan.lastScanned
  more : scan'.moreUnprocessed = (scan.moreUnprocessed || !rest.isEmpty)
  moves : 0 < n → scan.turns = [] → rest ≠ [] → scanned ≠ []

theorem scanTurns_spec {item : StoredTurn → Except String (Option ListItem)}
    {itemBytes : Fields → Nat} (hitem : ∀ t o, item t = .ok o → o.isSome = t.isPublic R)
    {n : Nat} {rows : List StoredTurn} {scan scan' : TurnScan}
    (h : scanTurns item itemBytes n rows scan = .ok scan') :
    ∃ scanned rest, rows = scanned ++ rest ∧ Scans R n scan scan' scanned rest := by
  induction rows generalizing n scan with
  | nil =>
    obtain rfl : scan = scan' := by cases n <;> exact Except.ok.inj h
    exact ⟨[], [], rfl, Nat.zero_le n, by simp, by simp, by simp, by simp⟩
  | cons t rows ih =>
    cases n with
    | zero =>
      obtain rfl := Except.ok.inj h
      exact ⟨[], t :: rows, rfl, Nat.le_refl 0, by simp, by simp, by simp, by simp⟩
    | succ n =>
      rw [scanTurns] at h
      split at h
      · cases h
      · next hnone =>
        have hpublic := hitem t none hnone
        obtain ⟨scanned, rest, rfl, hscans⟩ := ih h
        refine ⟨t :: scanned, rest, rfl, ?_, ?_, ?_, hscans.more, fun _ _ _ => by simp⟩
        · simpa using hscans.length_le
        · rw [hscans.positions, List.filter_cons, ← hpublic]
          rfl
        · rw [hscans.last, List.getLast?_cons]
          cases scanned.getLast? <;> rfl
      · next shown hsome =>
        have hpublic := hitem t (some shown) hsome
        dsimp only at h
        split at h
        · next hfull =>
          obtain rfl := Except.ok.inj h
          refine ⟨[], t :: rows, rfl, Nat.zero_le _, by simp, by simp, by simp, fun _ hempty => ?_⟩
          simp [hempty] at hfull
        · obtain ⟨scanned, rest, rfl, hscans⟩ := ih h
          refine ⟨t :: scanned, rest, rfl, ?_, ?_, ?_, hscans.more, fun _ _ _ => by simp⟩
          · simpa using hscans.length_le
          · rw [hscans.positions, List.filter_cons, ← hpublic]
            simp
          · rw [hscans.last, List.getLast?_cons]
            cases scanned.getLast? <;> rfl

/-! ### The response fits its frame -/

lemma cursor_position {v : TurnTraversal} {position : ListPosition} {c : TurnListCursor}
    (h : q.cursor v position = .ok c) : c.position = position ∧
      c.sinceSequence = v.sinceSequence ∧ c.watermark = v.watermark := by
  unfold TurnListRequest.cursor turnListCursor at h
  split at h
  · obtain rfl := Except.ok.inj h
    exact ⟨rfl, rfl, rfl⟩
  · cases h

lemma scanCursor_spec {v : TurnTraversal} {scan : TurnScan} {next : Option TurnListCursor}
    (h : q.scanCursor v scan = .ok next) :
    next = none ∧ (scan.moreUnprocessed = false ∨ scan.lastScanned = none) ∨
      ∃ position c, scan.moreUnprocessed = true ∧ scan.lastScanned = some position ∧
        q.cursor v position = .ok c ∧ next = some c := by
  unfold TurnListRequest.scanCursor at h
  split at h
  · next position hmore hlast =>
    obtain ⟨c, hc, rfl⟩ := map_eq_ok.mp h
    exact .inr ⟨position, c, hmore, hlast, hc, rfl⟩
  · next hneg =>
    refine .inl ⟨(Except.ok.inj h).symm, ?_⟩
    cases hmore : scan.moreUnprocessed with
    | false => exact .inl rfl
    | true =>
      cases hlast : scan.lastScanned with
      | none => exact .inr rfl
      | some position => exact absurd hlast (hneg position hmore)

/-- Either nothing is given up, or the page ends with the last turn that is kept. -/
theorem fitTurns_spec {v : TurnTraversal} {n : Nat} {page page' : TurnListPage}
    (h : fitTurns P q v n page = .ok page') :
    page' = page ∨ ∃ m last c, page'.turns = page.turns.take m ∧
      page'.turns.getLast? = some last ∧ q.cursor v last.1 = .ok c ∧
      page'.nextCursor = some c := by
  induction n generalizing page with
  | zero => exact .inl (Except.ok.inj h).symm
  | succ n ih =>
    rw [fitTurns] at h
    split at h
    · dsimp only at h
      split at h
      · exact .inl (Except.ok.inj h).symm
      · next last hlast =>
        obtain ⟨c, hc, h⟩ := bind_eq_ok.mp h
        obtain rfl | ⟨m, last', c', htake, hlast', hc', hnext⟩ := ih h
        · exact .inr ⟨page.turns.length - 1, last, c, List.dropLast_eq_take, hlast, hc, rfl⟩
        · refine .inr ⟨min m (page.turns.length - 1), last', c', ?_, hlast', hc', hnext⟩
          rw [htake, List.dropLast_eq_take, List.take_take]
    · exact .inl (Except.ok.inj h).symm

/-! ### The rows of a page -/

/-- The places of the rows in the window of a traversal. -/
def window (s : TurnStore) (hostId : String) (sinceSequence watermark : Nat) : Set ListPosition :=
  { p | ∃ i t, s.turns.get? i = some t ∧ t.hostId = hostId ∧ sinceSequence < t.listSequence ∧
    t.listSequence ≤ watermark ∧ t.untombstoned = true ∧ t.position = p }

/-- A row of the host stands at the place and is public. -/
def ShowsAt (R : TextRules) (s : TurnStore) (hostId : String) (p : ListPosition) : Prop :=
  ∃ i t, s.turns.get? i = some t ∧ t.hostId = hostId ∧ t.position = p ∧ t.isPublic R = true

lemma row_of_position {i j : Nat} {t u : StoredTurn} (ht : s.turns.get? i = some t)
    (hu : s.turns.get? j = some u) (hhost : t.hostId = u.hostId) (hturn : t.turnId = u.turnId) :
    i = j ∧ t = u := by
  have hfind := turn?_eq_some_iff.mpr ⟨ht, hhost, hturn⟩
  obtain ⟨rfl, rfl⟩ := Prod.mk.inj
    (Option.some.inj (hfind.symm.trans (turn?_eq_some_iff.mpr ⟨hu, rfl, rfl⟩)))
  exact ⟨rfl, rfl⟩

lemma mem_turnListRows {hostId : String} {sinceSequence watermark : Nat}
    {last : Option ListPosition} {t : StoredTurn} :
    t ∈ s.turnListRows hostId sinceSequence watermark last ↔ ∃ i, s.turns.get? i = some t ∧
      t.hostId = hostId ∧ sinceSequence < t.listSequence ∧ t.listSequence ≤ watermark ∧
      t.untombstoned = true ∧ Keyset.Above last t.position := by
  have habove : last.all (·.follows t.position) = true ↔ Keyset.Above last t.position := by
    cases last with
    | none => simp [Keyset.Above]
    | some q => simpa [Keyset.Above] using ListPosition.follows_iff
  unfold turnListRows
  rw [List.mem_insertionSort, List.mem_map]
  constructor
  · rintro ⟨⟨i, u⟩, hu, rfl⟩
    obtain ⟨hu, hp⟩ := Table.mem_select.mp hu
    simp only [Bool.and_eq_true, beq_iff_eq, decide_eq_true_eq] at hp
    exact ⟨i, hu, hp.1.1.1.1, hp.1.1.1.2, hp.1.1.2, hp.1.2, habove.mp hp.2⟩
  · rintro ⟨i, ht, hhost, hsince, hmark, htomb, hlast⟩
    refine ⟨(i, t), Table.mem_select.mpr ⟨ht, ?_⟩, rfl⟩
    simp [hhost, hsince, hmark, htomb, habove.mpr hlast]

lemma turnListRows_sorted (hostId : String) (sinceSequence watermark : Nat)
    (last : Option ListPosition) :
    ((s.turnListRows hostId sinceSequence watermark last).map StoredTurn.position).Pairwise
      (· < ·) := by
  unfold turnListRows
  set rows := s.turns.table.select fun _ t => t.hostId == hostId &&
    decide (sinceSequence < t.listSequence) && decide (t.listSequence ≤ watermark) &&
    t.untombstoned && last.all (·.follows t.position) with hrows
  have hnodup : ((rows.map Prod.snd).map StoredTurn.position).Nodup := by
    rw [List.map_map]
    refine List.pairwise_map.mpr ((Table.sorted_select _ _).imp_of_mem ?_)
    rintro ⟨i, t⟩ ⟨j, u⟩ hi hj hlt heq
    obtain ⟨ht, hpt⟩ := Table.mem_select.mp hi
    obtain ⟨hu, hpu⟩ := Table.mem_select.mp hj
    simp only [Bool.and_eq_true, beq_iff_eq] at hpt hpu
    have hij := (row_of_position ht hu (hpt.1.1.1.1.trans hpu.1.1.1.1.symm)
      (congrArg ListPosition.turnId heq)).1
    exact absurd hlt (by simp [hij])
  rw [List.map_insertionSort _ (· ≤ ·) StoredTurn.position _ fun _ _ _ _ => Iff.rfl]
  exact (List.sortedLE_insertionSort.pairwise.and
    ((List.perm_insertionSort _ _).nodup_iff.mpr hnodup)).imp fun h => lt_of_le_of_ne h.1 h.2

/-! ### One page -/

/-- A page scans the next part of the window and returns what is public of it. -/
structure Returns (R : TextRules) (hostId : String) (s : TurnStore) (page : TurnListPage)
    (scanned : List ListPosition) : Prop where
  sublist : (page.turns.map Prod.fst).Sublist scanned
  mem : ∀ p, p ∈ page.turns.map Prod.fst ↔ p ∈ scanned ∧ s.ShowsAt R hostId p

lemma mem_public_positions {hostId : String} {rows : List StoredTurn}
    (hrows : ∀ t ∈ rows, ∃ i, s.turns.get? i = some t ∧ t.hostId = hostId) (p : ListPosition) :
    p ∈ (rows.filter (·.isPublic R)).map StoredTurn.position ↔
      p ∈ rows.map StoredTurn.position ∧ s.ShowsAt R hostId p := by
  simp only [List.mem_map, List.mem_filter]
  constructor
  · rintro ⟨t, ⟨ht, hpublic⟩, rfl⟩
    obtain ⟨i, hi, hhost⟩ := hrows t ht
    exact ⟨⟨t, ht, rfl⟩, i, t, hi, hhost, rfl, hpublic⟩
  · rintro ⟨⟨t, ht, rfl⟩, j, u, hj, hhostu, hposition, hpublic⟩
    obtain ⟨i, hi, hhost⟩ := hrows t ht
    obtain ⟨-, rfl⟩ := row_of_position hi hj (hhost.trans hhostu.symm)
      (congrArg ListPosition.turnId hposition.symm)
    exact ⟨t, ⟨ht, hpublic⟩, rfl⟩

theorem turnListPage_spec {v : TurnTraversal} {last : Option ListPosition} {page : TurnListPage}
    (hlimit : 0 < q.limit) (h : s.turnListPage R P q v last = .ok page) :
    (∃ scanned, Keyset.Page (s.window q.hostId v.sinceSequence v.watermark) last scanned
        (page.nextCursor.map (·.position)) ∧ Returns R q.hostId s page scanned) ∧
      ∀ c, page.nextCursor = some c →
        c.sinceSequence = v.sinceSequence ∧ c.watermark = v.watermark := by
  unfold turnListPage at h
  dsimp only at h
  obtain ⟨scan, hscan, h⟩ := bind_eq_ok.mp h
  split at h
  · cases h
  obtain ⟨nextCursor, hnext, h⟩ := bind_eq_ok.mp h
  obtain ⟨since, -, hfit⟩ := bind_eq_ok.mp h
  set all := s.turnListRows q.hostId v.sinceSequence v.watermark last with hall
  obtain ⟨rows, rest, hrows, hscans⟩ :=
    scanTurns_spec (fun t o => turnListItem_isSome (s := s) (t := t)) hscan
  have hsplit : rows ++ (rest ++ all.drop (q.limit + 1)) = all := by
    rw [← List.append_assoc, ← hrows, List.take_append_drop]
  -- the page before any turn is given up
  have hpage : Keyset.Page (s.window q.hostId v.sinceSequence v.watermark) last
      (rows.map StoredTurn.position) (nextCursor.map (·.position)) := by
    have hsorted : (rows.map StoredTurn.position ++
        (rest ++ all.drop (q.limit + 1)).map StoredTurn.position).Pairwise (· < ·) := by
      rw [← List.map_append, hsplit]
      exact turnListRows_sorted _ _ _ _
    refine Keyset.Page.of_append hsorted ?_ ?_
    · intro p
      rw [← List.map_append, hsplit, List.mem_map]
      constructor
      · rintro ⟨t, ht, rfl⟩
        obtain ⟨i, hi, hhost, hsince, hmark, htomb, habove⟩ := mem_turnListRows.mp ht
        exact ⟨⟨i, t, hi, hhost, hsince, hmark, htomb, rfl⟩, habove⟩
      · rintro ⟨⟨i, t, hi, hhost, hsince, hmark, htomb, rfl⟩, habove⟩
        exact ⟨t, mem_turnListRows.mpr ⟨i, hi, hhost, hsince, hmark, htomb, habove⟩, rfl⟩
    · obtain ⟨rfl, hstop⟩ | ⟨position, c, hmore, hlast, hc, rfl⟩ := scanCursor_spec hnext
      · left
        have hrest : rest = [] := by
          by_contra hne
          obtain hstop | hstop := hstop
          · rw [hscans.more] at hstop
            simp [TurnScan.start, hne] at hstop
          · rw [hscans.last] at hstop
            have hempty : rows = [] := by simpa [TurnScan.start] using hstop
            exact hscans.moves hlimit rfl hne hempty
        have hlen := hscans.length_le
        rw [hrest, List.append_nil] at hrows
        have hdrop : all.drop (q.limit + 1) = [] := by
          rw [List.drop_eq_nil_iff]
          have hmin := congrArg List.length hrows
          rw [List.length_take] at hmin
          omega
        simp [hrest, hdrop]
      · right
        rw [hscans.last] at hlast
        refine ⟨position, ?_, by simp [(cursor_position hc).1]⟩
        simpa [TurnScan.start] using hlast
  have hreturns : Returns R q.hostId s ⟨scan.turns, nextCursor, since⟩
      (rows.map StoredTurn.position) := by
    have hpositions : scan.turns.map Prod.fst =
        (rows.filter (·.isPublic R)).map StoredTurn.position := hscans.positions
    refine ⟨?_, fun p => ?_⟩
    · rw [hpositions]
      exact List.filter_sublist.map _
    · rw [hpositions]
      refine mem_public_positions (fun t ht => ?_) p
      obtain ⟨i, hi, hhost, -⟩ := mem_turnListRows.mp
        (hsplit ▸ List.mem_append_left _ ht : t ∈ s.turnListRows q.hostId _ _ last)
      exact ⟨i, hi, hhost⟩
  have hsame : ∀ c, nextCursor = some c →
      c.sinceSequence = v.sinceSequence ∧ c.watermark = v.watermark := by
    rintro c rfl
    obtain ⟨hnone, -⟩ | ⟨position, c', -, -, hc, heq⟩ := scanCursor_spec hnext
    · cases hnone
    · obtain rfl := Option.some.inj heq
      exact (cursor_position hc).2
  obtain rfl | ⟨m, final, c, htake, hfinal, hc, hcursor⟩ := fitTurns_spec hfit
  · exact ⟨⟨_, hpage, hreturns⟩, hsame⟩
  · have hsorted := hpage.sorted.sublist hreturns.sublist
    have hkept : page.turns.map Prod.fst = (scan.turns.map Prod.fst).filter (· ≤ final.1) := by
      rw [htake, List.map_take]
      apply Keyset.take_eq_filter hsorted
      rw [← List.map_take, ← htake, List.getLast?_map, hfinal]
      rfl
    have hmem : final.1 ∈ rows.map StoredTurn.position := by
      apply hreturns.sublist.subset
      have hlast := List.mem_of_getLast? hfinal
      rw [htake] at hlast
      exact List.mem_map_of_mem (List.mem_of_mem_take hlast)
    refine ⟨⟨(rows.map StoredTurn.position).filter (· ≤ final.1), ?_, ?_, fun p => ?_⟩, ?_⟩
    · rw [hcursor, Option.map_some, (cursor_position hc).1]
      exact hpage.cut hmem
    · rw [hkept]
      exact hreturns.sublist.filter _
    · rw [hkept, List.mem_filter, List.mem_filter, hreturns.mem p]
      exact and_right_comm
    · rintro c' hc'
      obtain rfl := Option.some.inj (hcursor.symm.trans hc')
      exact (cursor_position hc).2

/-- The window of a request: that of its cursor, or the one that a first page opens. -/
def requestWindow (s : TurnStore) (q : TurnListRequest) (cursor : Option TurnListCursor)
    (since : Option TurnSinceToken) : Nat × Nat :=
  match cursor with
  | none => ((since.map (·.watermark)).getD 0, (s.turnListHostState q.hostId).1)
  | some c => (c.sinceSequence, c.watermark)

lemma sinceSequence_spec {since : Option TurnSinceToken} {high n : Nat}
    (h : s.sinceSequence P q since high = .ok n) : n = (since.map (·.watermark)).getD 0 := by
  unfold sinceSequence at h
  split at h
  · exact (Except.ok.inj h).symm
  · obtain ⟨token', hdecode, h⟩ := bind_eq_ok.mp h
    unfold decodeTurnSinceToken at hdecode
    split at hdecode
    · cases hdecode
    · obtain rfl := Except.ok.inj hdecode
      split at h
      · cases h
      · exact (Except.ok.inj h).symm

lemma startTraversal_spec {since : Option TurnSinceToken} {now : Int} {v : TurnTraversal}
    (h : s.startTraversal P q since now = .ok v) :
    (v.sinceSequence, v.watermark) = s.requestWindow q none since := by
  unfold startTraversal at h
  dsimp only at h
  obtain ⟨n, hn, h⟩ := bind_eq_ok.mp h
  obtain rfl := Except.ok.inj h
  rw [sinceSequence_spec hn]
  rfl

lemma resumeTraversal_spec {c : TurnListCursor} {since : Option TurnSinceToken} {now : Int}
    {v : TurnTraversal} (h : s.resumeTraversal P q c now = .ok v) :
    (v.sinceSequence, v.watermark) = s.requestWindow q (some c) since := by
  unfold resumeTraversal at h
  obtain ⟨c', hdecode, h⟩ := bind_eq_ok.mp h
  unfold decodeTurnListCursor at hdecode
  split at hdecode
  · cases hdecode
  · split at hdecode
    · obtain rfl := Except.ok.inj hdecode
      dsimp only at h
      split at h
      · cases h
      · obtain rfl := Except.ok.inj h
        rfl
    · cases hdecode

theorem turnsPayload_spec {cursor : Option TurnListCursor} {since : Option TurnSinceToken}
    {now : Int} {page : TurnListPage} (h : s.turnsPayload R P q cursor since now = .ok page) :
    (∃ scanned, Keyset.Page (s.window q.hostId (s.requestWindow q cursor since).1
        (s.requestWindow q cursor since).2) (cursor.map (·.position)) scanned
        (page.nextCursor.map (·.position)) ∧ Returns R q.hostId s page scanned) ∧
      ∀ c, page.nextCursor = some c →
        (c.sinceSequence, c.watermark) = s.requestWindow q cursor since := by
  unfold turnsPayload at h
  split at h
  · cases h
  split at h
  · cases h
  next hvalid =>
    have hlimit : 0 < q.limit := by
      simp only [Bool.or_eq_true, decide_eq_true_eq, not_or] at hvalid
      exact Nat.pos_of_ne_zero hvalid.1.1
    have hpage : ∃ v : TurnTraversal,
        (v.sinceSequence, v.watermark) = s.requestWindow q cursor since ∧
          s.turnListPage R P q v (cursor.map (·.position)) = .ok page := by
      split at h
      · obtain ⟨v, hv, h⟩ := bind_eq_ok.mp h
        exact ⟨v, startTraversal_spec hv, h⟩
      · obtain ⟨v, hv, h⟩ := bind_eq_ok.mp h
        exact ⟨v, resumeTraversal_spec hv, h⟩
    obtain ⟨v, hv, hpage⟩ := hpage
    obtain ⟨hscanned, hsame⟩ := turnListPage_spec hlimit hpage
    rw [← hv]
    exact ⟨hscanned, fun c hc => by rw [(hsame c hc).1, (hsame c hc).2]⟩

end TurnStore

/-! ### Traversals -/

/-- A page that a traversal reads: the store it is read from, and the calls made before the
next page. -/
structure TurnListVisit where
  store : TurnStore
  page : TurnListPage
  calls : List TurnCall

/-- A first page and those that its cursors lead to, until a page has no cursor. -/
inductive Traverses (R : TextRules) (P : ListSizes) (q : TurnListRequest) :
    TurnStore → Option TurnListCursor → Option TurnSinceToken → List TurnListVisit → Prop where
  | last {s : TurnStore} {cursor : Option TurnListCursor} {since : Option TurnSinceToken}
      {page : TurnListPage} (now : Int) :
      s.turnsPayload R P q cursor since now = .ok page → page.nextCursor = none →
      Traverses R P q s cursor since [⟨s, page, []⟩]
  | next {s : TurnStore} {cursor : Option TurnListCursor} {since : Option TurnSinceToken}
      {page : TurnListPage} {c : TurnListCursor} {calls : List TurnCall}
      {visits : List TurnListVisit} (now : Int) :
      s.turnsPayload R P q cursor since now = .ok page → page.nextCursor = some c →
      Traverses R P q (s.run R calls) (some c) none visits →
      Traverses R P q s cursor since (⟨s, page, calls⟩ :: visits)

def returnedPositions (visits : List TurnListVisit) : List ListPosition :=
  visits.flatMap fun v => v.page.turns.map Prod.fst

def returnedTurns (visits : List TurnListVisit) : List String :=
  (returnedPositions visits).map (·.turnId)

namespace TurnStore

/-- The turn is public, untombstoned and in the window. -/
def lists (R : TextRules) (s : TurnStore) (hostId : String) (window : Nat × Nat)
    (turnId : String) : Bool :=
  (s.turn? hostId turnId).any fun e => decide (window.1 < e.2.listSequence) &&
    decide (e.2.listSequence ≤ window.2) && e.2.untombstoned && e.2.isPublic R

end TurnStore

/-- No turn is returned twice, none that was not there at the first page, and every turn that
the list shows at each page is returned. -/
structure ExactlyOnce (R : TextRules) (hostId : String) (window : Nat × Nat) (first : TurnStore)
    (visits : List TurnListVisit) : Prop where
  once : (returnedTurns visits).Nodup
  stored : ∀ turnId ∈ returnedTurns visits, (first.turn? hostId turnId).isSome
  complete : ∀ turnId, (∀ v ∈ visits, v.store.lists R hostId window turnId = true) →
    turnId ∈ returnedTurns visits

section Traversal

variable {R : TextRules} {P : ListSizes} {q : TurnListRequest} {s base : TurnStore}

open TurnStore

/-- The pages of a traversal walk over the window, whose rows are those of the first page's
store. -/
theorem Traverses.walk {cursor : Option TurnListCursor} {since : Option TurnSinceToken}
    {visits : List TurnListVisit} (h : Traverses R P q s cursor since visits)
    (hkeep : ∀ v ∈ visits, Along R (fun s c => c.KeepsWorker R q.hostId s) v.store v.calls)
    (hbase : Advances q.hostId True base s) :
    ∃ pages : List (TurnListVisit × List ListPosition), pages.map Prod.fst = visits ∧
      Keyset.Walk (cursor.map (·.position)) (pages.map fun e =>
        (e.1.store.window q.hostId (s.requestWindow q cursor since).1
          (s.requestWindow q cursor since).2, e.2)) ∧
      ∀ e ∈ pages, Returns R q.hostId e.1.store e.1.page e.2 ∧
        Advances q.hostId True base e.1.store := by
  induction h with
  | @last s cursor since page now hpage hnone =>
    obtain ⟨⟨scanned, hkeyset, hreturns⟩, -⟩ := turnsPayload_spec hpage
    rw [hnone] at hkeyset
    refine ⟨[(⟨s, page, []⟩, scanned)], rfl, .last hkeyset, ?_⟩
    simpa using ⟨hreturns, hbase⟩
  | @next s cursor since page c calls visits now hpage hsome _ ih =>
    obtain ⟨⟨scanned, hkeyset, hreturns⟩, hsame⟩ := turnsPayload_spec hpage
    rw [hsome] at hkeyset
    have hrun : Advances q.hostId True s (s.run R calls) :=
      run_advances fun _ => hkeep _ List.mem_cons_self
    obtain ⟨pages, hfst, hwalk, hall⟩ :=
      ih (fun v hv => hkeep v (List.mem_cons_of_mem _ hv)) (hbase.trans hrun)
    have hwindow : (s.run R calls).requestWindow q (some c) none =
        s.requestWindow q cursor since := hsame c hsome
    rw [hwindow] at hwalk
    refine ⟨(⟨s, page, calls⟩, scanned) :: pages, by rw [List.map_cons, hfst],
      .next hkeyset hwalk, ?_⟩
    rintro e he
    obtain rfl | he := List.mem_cons.mp he
    · exact ⟨hreturns, hbase⟩
    · exact hall e he

lemma host_nextSequence {hostId : String} (hs : Sequenced hostId s) :
    (s.host hostId).nextSequence = s.sequenceBound hostId := by
  unfold TurnStore.host sequenceBound
  cases hhost : s.hosts hostId with
  | some x => rfl
  | none =>
    have hempty : (s.turns.table.select fun _ t => t.hostId == hostId) = [] := by
      rw [List.eq_nil_iff_forall_not_mem]
      rintro ⟨i, t⟩ ht
      obtain ⟨ht, hp⟩ := Table.mem_select.mp ht
      have hsome := (hs.below i t ht (by simpa using hp)).1
      rw [hhost] at hsome
      cases hsome
    simp [newHost, hempty]

/-- A row in the window of a first page was stored at the first page, in the same place. -/
lemma base_row {hostId : String} (hs : Sequenced hostId base)
    (hadvances : Advances hostId True base s) {i : Nat} {t : StoredTurn}
    (ht : s.turns.get? i = some t) (hhost : t.hostId = hostId)
    (hmark : t.listSequence ≤ (base.turnListHostState hostId).1) :
    ∃ u, base.turns.get? i = some u ∧ u.hostId = hostId ∧ u.position = t.position := by
  obtain ⟨u, hu, hhostu, hplace⟩ | ⟨hnew, -, -⟩ := hadvances.rows i t ht hhost
  · exact ⟨u, hu, hhostu, hplace.position⟩
  · have hpositive := hs.positive
    unfold turnListHostState at hmark
    rw [host_nextSequence hs] at hmark
    omega

lemma lists_eq_true {hostId : String} {window : Nat × Nat} {turnId : String} :
    s.lists R hostId window turnId = true ↔ ∃ i t, s.turns.get? i = some t ∧ t.hostId = hostId ∧
      t.turnId = turnId ∧ window.1 < t.listSequence ∧ t.listSequence ≤ window.2 ∧
      t.untombstoned = true ∧ t.isPublic R = true := by
  unfold TurnStore.lists
  rw [Option.any_eq_true]
  constructor
  · rintro ⟨⟨i, t⟩, ht, hp⟩
    obtain ⟨ht, hhost, hturn⟩ := turn?_eq_some_iff.mp ht
    simp only [Bool.and_eq_true, decide_eq_true_eq] at hp
    exact ⟨i, t, ht, hhost, hturn, hp.1.1.1, hp.1.1.2, hp.1.2, hp.2⟩
  · rintro ⟨i, t, ht, hhost, hturn, hsince, hmark, htomb, hpublic⟩
    exact ⟨(i, t), turn?_eq_some_iff.mpr ⟨ht, hhost, hturn⟩, by simp [hsince, hmark, htomb, hpublic]⟩

theorem Traverses.exactlyOnce {since : Option TurnSinceToken} {visits : List TurnListVisit}
    (hs : Sequenced q.hostId s) (h : Traverses R P q s none since visits)
    (hkeep : ∀ v ∈ visits, Along R (fun s c => c.KeepsWorker R q.hostId s) v.store v.calls) :
    ExactlyOnce R q.hostId (s.requestWindow q none since) s visits := by
  obtain ⟨pages, hfst, hwalk, hall⟩ := h.walk hkeep (.refl _ _ _)
  set window := s.requestWindow q none since with hwindow
  have hmark : window.2 = (s.turnListHostState q.hostId).1 := rfl
  set scanned := Keyset.scannedOf (pages.map fun e =>
    (e.1.store.window q.hostId window.1 window.2, e.2)) with hscanned
  have hsublist : (returnedPositions visits).Sublist scanned := by
    rw [hscanned, Keyset.scannedOf, List.flatMap_map, returnedPositions, ← hfst, List.flatMap_map]
    exact List.Sublist.flatMap_right _ fun e he => (hall e he).1.sublist
  -- every place that was scanned is that of a row of the first page's store
  have hbase : ∀ p ∈ scanned, ∃ i u, s.turns.get? i = some u ∧ u.hostId = q.hostId ∧
      u.position = p := by
    intro p hp
    obtain ⟨page, hpage, hmem⟩ := hwalk.sound hp
    obtain ⟨e, he, rfl⟩ := List.mem_map.mp hpage
    obtain ⟨i, t, ht, hhost, -, hle, -, rfl⟩ := hmem
    exact ⟨i, base_row hs (hall e he).2 ht hhost hle⟩
  have hpositions : (returnedPositions visits).Nodup :=
    (hwalk.sorted.1.sublist hsublist).imp fun h => ne_of_lt h
  refine ⟨?_, fun turnId hturn => ?_, fun turnId hlisted => ?_⟩
  · refine hpositions.map_on fun p hp p' hp' heq => ?_
    obtain ⟨i, t, ht, hhost, rfl⟩ := hbase p (hsublist.subset hp)
    obtain ⟨j, u, hu, hhostu, rfl⟩ := hbase p' (hsublist.subset hp')
    rw [(row_of_position ht hu (hhost.trans hhostu.symm) heq).2]
  · obtain ⟨p, hp, rfl⟩ := List.mem_map.mp hturn
    obtain ⟨i, t, ht, hhost, rfl⟩ := hbase p (hsublist.subset hp)
    exact Option.isSome_iff_exists.mpr ⟨(i, t), turn?_eq_some_iff.mpr ⟨ht, hhost, rfl⟩⟩
  · have hplace : ∀ e ∈ pages, ∃ t u i j, e.1.store.turns.get? i = some t ∧
        t.hostId = q.hostId ∧ t.turnId = turnId ∧ t.isPublic R = true ∧
        t.position ∈ e.1.store.window q.hostId window.1 window.2 ∧
        s.turns.get? j = some u ∧ u.hostId = q.hostId ∧ u.position = t.position := by
      intro e he
      obtain ⟨i, t, ht, hhost, hturn, hsince, hle, htomb, hpublic⟩ := lists_eq_true.mp
        (hlisted e.1 (hfst ▸ List.mem_map_of_mem he))
      obtain ⟨u, hu, hhostu, hposition⟩ := base_row hs (hall e he).2 ht hhost hle
      exact ⟨t, u, i, i, ht, hhost, hturn, hpublic,
        ⟨i, t, ht, hhost, hsince, hle, htomb, rfl⟩, hu, hhostu, hposition⟩
    obtain ⟨e₀, he₀⟩ : ∃ e₀, e₀ ∈ pages := by
      cases pages with
      | nil => cases hwalk
      | cons e₀ _ => exact ⟨e₀, List.mem_cons_self⟩
    obtain ⟨t₀, u₀, -, j₀, -, -, hturn₀, -, -, hu₀, hhost₀, hposition₀⟩ := hplace e₀ he₀
    -- the turn stands at one place at all pages
    have hsame : ∀ e ∈ pages, ∃ t i, e.1.store.turns.get? i = some t ∧ t.hostId = q.hostId ∧
        t.turnId = turnId ∧ t.isPublic R = true ∧ t.position = t₀.position ∧
        t₀.position ∈ e.1.store.window q.hostId window.1 window.2 := by
      intro e he
      obtain ⟨t, u, i, j, ht, hhost, hturn, hpublic, hmem, hu, hhostu, hposition⟩ := hplace e he
      have hkey : u.turnId = u₀.turnId := by
        rw [show u.turnId = t.turnId from congrArg ListPosition.turnId hposition, hturn,
          show u₀.turnId = t₀.turnId from congrArg ListPosition.turnId hposition₀, hturn₀]
      obtain ⟨-, rfl⟩ := row_of_position hu hu₀ (hhostu.trans hhost₀.symm) hkey
      have heq : t.position = t₀.position := hposition.symm.trans hposition₀
      exact ⟨t, i, ht, hhost, hturn, hpublic, heq, heq ▸ hmem⟩
    have hscan : t₀.position ∈ scanned := by
      refine hwalk.complete trivial fun page hpage => ?_
      obtain ⟨e, he, rfl⟩ := List.mem_map.mp hpage
      obtain ⟨-, -, -, -, -, -, -, hmem⟩ := hsame e he
      exact hmem
    rw [hscanned, Keyset.scannedOf, List.flatMap_map, List.mem_flatMap] at hscan
    obtain ⟨e, he, hmem⟩ := hscan
    obtain ⟨t, i, ht, hhost, hturn, hpublic, heq, -⟩ := hsame e he
    have hreturned : t₀.position ∈ e.1.page.turns.map Prod.fst :=
      ((hall e he).1.mem _).mpr ⟨hmem, i, t, ht, hhost, heq, hpublic⟩
    refine List.mem_map.mpr ⟨t₀.position, List.mem_flatMap.mpr ⟨e.1, ?_, hreturned⟩, hturn₀⟩
    exact hfst ▸ List.mem_map_of_mem he

lemma sequenced_fresh (supersessions : Constrained supersessionSchema) (storeEpoch hostId : String) :
    Sequenced hostId (TurnStore.fresh supersessions storeEpoch) := by
  refine ⟨Nat.le_refl 1, fun i t ht _ => ?_⟩
  have hnone : (TurnStore.fresh supersessions storeEpoch).turns.get? i = none :=
    Constrained.get?_empty i
  rw [hnone] at ht
  cases ht

/-- Every traversal of turn.list that is not refused is exactly-once, if no observation made
between its pages names another worker for a stored turn. -/
theorem traversal_exactlyOnce (supersessions : Constrained supersessionSchema)
    (storeEpoch : String) (before : List TurnCall) {since : Option TurnSinceToken}
    {visits : List TurnListVisit}
    (h : Traverses R P q ((TurnStore.fresh supersessions storeEpoch).run R before) none since visits)
    (hkeep : ∀ v ∈ visits, Along R (fun s c => c.KeepsWorker R q.hostId s) v.store v.calls) :
    let s := (TurnStore.fresh supersessions storeEpoch).run R before
    ExactlyOnce R q.hostId (s.requestWindow q none since) s visits := by
  have hadvances : Advances q.hostId False (TurnStore.fresh supersessions storeEpoch)
      ((TurnStore.fresh supersessions storeEpoch).run R before) := run_advances False.elim
  exact h.exactlyOnce ((sequenced_fresh supersessions storeEpoch q.hostId).of_advances hadvances)
    hkeep

end Traversal

/-! ### Traversals that can be run -/

/-- The traversal whose pages are read after the given calls. -/
def traverse (R : TextRules) (P : ListSizes) (q : TurnListRequest) :
    TurnStore → Option TurnListCursor → Option TurnSinceToken → List (List TurnCall) →
      Option (List TurnListVisit)
  | s, cursor, since, [] =>
    match s.turnsPayload R P q cursor since 0 with
    | .ok page => if page.nextCursor.isNone then some [⟨s, page, []⟩] else none
    | .error _ => none
  | s, cursor, since, calls :: later =>
    match s.turnsPayload R P q cursor since 0 with
    | .ok page =>
      match page.nextCursor with
      | some c => (traverse R P q (s.run R calls) (some c) none later).map (⟨s, page, calls⟩ :: ·)
      | none => none
    | .error _ => none

lemma traverse_spec {R : TextRules} {P : ListSizes} {q : TurnListRequest}
    {later : List (List TurnCall)} {s : TurnStore} {cursor : Option TurnListCursor}
    {since : Option TurnSinceToken} {visits : List TurnListVisit}
    (h : traverse R P q s cursor since later = some visits) :
    Traverses R P q s cursor since visits ∧ ∀ v ∈ visits, v.calls ∈ [] :: later := by
  induction later generalizing s cursor since visits with
  | nil =>
    rw [traverse] at h
    split at h
    · next page hpage =>
      split at h
      · next hnone =>
        obtain rfl := Option.some.inj h
        refine ⟨.last 0 hpage (Option.isNone_iff_eq_none.mp hnone), ?_⟩
        simp
      · cases h
    · cases h
  | cons calls later ih =>
    rw [traverse] at h
    split at h
    · next page hpage =>
      split at h
      · next c hc =>
        obtain ⟨rest, hrest, rfl⟩ := Option.map_eq_some_iff.mp h
        obtain ⟨htraverses, hcalls⟩ := ih hrest
        refine ⟨.next 0 hpage hc htraverses, fun v hv => ?_⟩
        obtain rfl | hv := List.mem_cons.mp hv
        · simp
        · obtain hnil | hlater := List.mem_cons.mp (hcalls v hv)
          · rw [hnil]
            exact List.mem_cons_self
          · exact List.mem_cons_of_mem _ (List.mem_cons_of_mem _ hlater)
      · cases h
    · cases h

mutual

def mentions (word : String) : Value → Bool
  | .text s => s == word
  | .array items => mentionsItem word items
  | .object m => mentionsEntry word m
  | .null | .bool _ | .int _ | .float _ => false

def mentionsItem (word : String) : List Value → Bool
  | [] => false
  | v :: items => mentions word v || mentionsItem word items

def mentionsEntry (word : String) : List (String × Value) → Bool
  | [] => false
  | e :: m => mentions word e.2 || mentionsEntry word m

end

/-- Text rules under which the second of two turns has another digest than the first. -/
def twoTurnRules : TextRules :=
  { plainTextRules with
    lower := fun text => if text == "complete" || text == "has_open_turn" then text else ""
    stableFingerprint := fun v =>
      if mentions "second" v || mentions "turnsrc-bbbbbbbbbbbbbbbbbbbbbbbb" v then
        "bbbbbbbbbbbbbbbbbbbbbbbb"
      else
        "aaaaaaaaaaaaaaaaaaaaaaaa"
    completion_public := by
      intro key hkey
      simp only [List.mem_cons, List.not_mem_nil, or_false] at hkey
      obtain rfl | rfl := hkey <;> exact ⟨by decide +kernel, rfl, rfl, rfl⟩ }

def smallSizes : ListSizes := ⟨fun _ => 0, fun _ => 0, fun _ _ => 0⟩

def oneTurnPages : TurnListRequest := ⟨"host", 2, 1⟩

/-- A worker that keeps its stable key under whatever id a snapshot gives it. -/
def keyedWorker : WorkerRow where
  payload := [("status", .text "idle"), ("meta", .object [
    ("stable_key", .text "wsk1_0123456789abcdef0123456789abcdef0123456789abcdef0123456789abcdef"),
    ("stable_key_version", .int 1)])]
  snapshotContentFingerprint := "0"

def plainWorker : WorkerRow := ⟨[("status", .text "idle")], "0"⟩

def twoWorkers : TurnCall :=
  .refresh "host" [("worker-1", plainWorker), ("worker-2", keyedWorker)]

def firstTurns : List TurnCall := [
  twoWorkers,
  .merge "host" "worker-1" [("source_turn_id", .text "first"), ("user_text", .text "go")] "now",
  .merge "host" "worker-2" [("source_turn_id", .text "second"), ("user_text", .text "go")] "now"]

def listedStore : TurnStore := (TurnStore.fresh .empty "epoch").run twoTurnRules firstTurns

/-- The second worker comes back under an id before that of the first. -/
def renumbering : List TurnCall := [
  .refresh "host" [("worker-0", keyedWorker), ("worker-1", plainWorker)],
  .merge "host" "worker-0" [("source_turn_id", .text "second"), ("user_text", .text "go")] "now"]

/-- The traversals of the samples: over the workers as they were, and over a worker that comes back
under another id, whose turn is listed and not returned. -/
lemma traverse_samples :
    (traverse twoTurnRules smallSizes oneTurnPages listedStore none none [[twoWorkers]]).isSome =
        true ∧
      (traverse twoTurnRules smallSizes oneTurnPages listedStore none none [renumbering]).any
        (fun visits =>
          visits.all (fun v => v.store.lists twoTurnRules "host"
            (listedStore.requestWindow oneTurnPages none none) "turn-bbbbbbbbbbbbbbbbbbbbbbbb") &&
          !(returnedTurns visits).contains "turn-bbbbbbbbbbbbbbbbbbbbbbbb") = true := by
  decide +kernel

theorem exactlyOnce_of_refresh :
    ∃ visits, Traverses twoTurnRules smallSizes oneTurnPages listedStore none none visits ∧
      ExactlyOnce twoTurnRules "host" (listedStore.requestWindow oneTurnPages none none)
        listedStore visits := by
  obtain ⟨visits, hvisits⟩ := Option.isSome_iff_exists.mp traverse_samples.1
  obtain ⟨htraverses, hcalls⟩ := traverse_spec hvisits
  refine ⟨visits, htraverses, traversal_exactlyOnce .empty "epoch" firstTurns htraverses
    fun v hv => ?_⟩
  obtain hnil | hlater := List.mem_cons.mp (hcalls v hv)
  · rw [hnil]
    trivial
  · rw [List.mem_singleton.mp hlater]
    exact ⟨trivial, trivial⟩

/-! ### A renumbered worker moves its turns over the cursor -/

theorem not_exactlyOnce_of_renumbering :
    ∃ visits, Traverses twoTurnRules smallSizes oneTurnPages listedStore none none visits ∧
      ¬ ExactlyOnce twoTurnRules "host" (listedStore.requestWindow oneTurnPages none none)
        listedStore visits := by
  obtain ⟨visits, hvisits, hmissed⟩ := (Option.any_eq_true _ _).mp traverse_samples.2
  simp only [Bool.and_eq_true, List.all_eq_true, Bool.not_eq_true', List.contains_eq_mem,
    decide_eq_false_iff_not] at hmissed
  exact ⟨visits, (traverse_spec hvisits).1, fun h => hmissed.2 (h.complete _ hmissed.1)⟩

end Tendwire
