import Mathlib.Data.List.Sort
import Mathlib.Data.Prod.Lex
import Mathlib.Data.String.Basic
import Tendwire.Turns.Item
import Tendwire.Turns.Refresh

/-!
# turn.list

One page of the turn list, with the tokens it hands out. A token is the tuple that it encodes;
the sizes of encoded tokens and of whole responses are parameters.
-/

namespace Tendwire

open Json Connector Relational

def turnListDefaultLimit : Nat := 100

def turnListMaxLimit : Nat := 250

def turnListCursorTtlSeconds : Int := 900

/-- Rows are taken while their bytes stay within this bound. -/
def turnListRowBytes : Nat := 850000

/-- `1024 * 1024`. -/
def turnListFrameBytes : Nat := 1048576

def turnListTokenChars : Nat := 2048

def turnListIdChars : Nat := 512

/-! ### Positions -/

/-- Where a row stands in the list: by worker, then newest first, then by turn. -/
structure ListPosition where
  workerId : String
  listSequence : Nat
  turnId : String
  deriving DecidableEq, Repr

namespace ListPosition

def key (p : ListPosition) : String ×ₗ ℕᵒᵈ ×ₗ String :=
  toLex (p.workerId, toLex (OrderDual.toDual p.listSequence, p.turnId))

lemma key_injective : Function.Injective key := by
  rintro ⟨worker, seq, turn⟩ ⟨worker', seq', turn'⟩ h
  simpa [key] using h

instance : LinearOrder ListPosition := LinearOrder.lift' key key_injective

/-- The continuation clause of the page query. -/
def follows (last p : ListPosition) : Bool :=
  decide (last.workerId < p.workerId) || (p.workerId == last.workerId &&
    (decide (p.listSequence < last.listSequence) ||
      (p.listSequence == last.listSequence && decide (last.turnId < p.turnId))))

lemma follows_iff {last p : ListPosition} : follows last p = true ↔ last < p := by
  change _ ↔ last.key < p.key
  simp only [follows, key, Prod.Lex.toLex_lt_toLex, OrderDual.toDual_lt_toDual, Bool.or_eq_true,
    Bool.and_eq_true, decide_eq_true_eq, beq_iff_eq]
  simp only [eq_comm, OrderDual.toDual_inj]

end ListPosition

def StoredTurn.position (t : StoredTurn) : ListPosition := ⟨t.workerId, t.listSequence, t.turnId⟩

/-! ### Tokens -/

/-- A continuation, bound to the whole request that it goes on with. -/
structure TurnListCursor where
  hostId : String
  schemaVersion : Nat
  limit : Nat
  sinceSequence : Nat
  watermark : Nat
  floorSequence : Nat
  traversalGeneration : Nat
  position : ListPosition
  storeEpoch : String
  expiresAt : Int
  deriving DecidableEq, Repr

structure TurnSinceToken where
  hostId : String
  schemaVersion : Nat
  watermark : Nat
  storeEpoch : String
  deriving DecidableEq, Repr

inductive TurnListRefusal where
  | unsupportedTurnSchemaVersion
  | invalidCursor
  | cursorExpired
  | sinceExpired
  | upgradeRequired
  | value (message : String)
  deriving DecidableEq, Repr

abbrev TurnListing (α : Type) := Except TurnListRefusal α

/-- The sizes of what is sent: of the encoded part of a token, and of a response. -/
structure ListSizes where
  cursorChars : TurnListCursor → Nat
  sinceChars : TurnSinceToken → Nat
  payloadBytes : List Fields → Option TurnListCursor → Nat

def supportedTurnSchema (schemaVersion : Nat) : Bool :=
  schemaVersion == 1 || schemaVersion == turnListSchemaVersion

def listIdsFit (ids : List String) : Bool :=
  ids.all fun id => id != "" && decide (id.length ≤ turnListIdChars)

/-- The checks that the encoder and the decoder of a cursor share. -/
def TurnListCursor.wellFormed (c : TurnListCursor) : Bool :=
  listIdsFit [c.hostId, c.position.workerId, c.position.turnId, c.storeEpoch] &&
    supportedTurnSchema c.schemaVersion && decide (1 ≤ c.limit) &&
    decide (c.limit ≤ turnListMaxLimit) && decide (c.sinceSequence ≤ c.watermark) &&
    decide (c.sinceSequence < c.position.listSequence) &&
    decide (c.position.listSequence ≤ c.watermark) && decide (1 ≤ c.floorSequence) &&
    decide (c.floorSequence ≤ c.watermark) && decide (1 ≤ c.traversalGeneration) &&
    decide (0 < c.watermark)

def turnListCursor (c : TurnListCursor) : TurnListing TurnListCursor :=
  if c.wellFormed && decide (0 < c.expiresAt) then .ok c else .error (.value "invalid_cursor")

def decodeTurnListCursor (P : ListSizes) (c : TurnListCursor) (hostId : String)
    (schemaVersion limit : Nat) (now : Int) : TurnListing TurnListCursor :=
  if decide (turnListTokenChars < P.cursorChars c) || c.hostId != hostId ||
      c.schemaVersion != schemaVersion || c.limit != limit || !c.wellFormed ||
      decide (c.expiresAt < 0) then
    .error .invalidCursor
  else if now < c.expiresAt then
    .ok c
  else
    .error .cursorExpired

def TurnSinceToken.wellFormed (t : TurnSinceToken) : Bool :=
  listIdsFit [t.hostId, t.storeEpoch] && supportedTurnSchema t.schemaVersion

def turnSinceToken (t : TurnSinceToken) : TurnListing TurnSinceToken :=
  if t.wellFormed then .ok t else .error (.value "invalid_cursor")

def decodeTurnSinceToken (P : ListSizes) (t : TurnSinceToken) (hostId : String)
    (schemaVersion : Nat) : TurnListing TurnSinceToken :=
  if decide (turnListTokenChars < P.sinceChars t) || t.hostId != hostId ||
      t.schemaVersion != schemaVersion || !t.wellFormed then
    .error .invalidCursor
  else
    .ok t

/-! ### One page -/

/-- What all pages of a traversal share. -/
structure TurnTraversal where
  sinceSequence : Nat
  watermark : Nat
  floorSequence : Nat
  traversalGeneration : Nat
  storeEpoch : String
  expiresAt : Int

/-- A request; the later pages of a traversal repeat it but for the token. -/
structure TurnListRequest where
  hostId : String
  schemaVersion : Nat
  limit : Nat

def TurnListRequest.cursor (q : TurnListRequest) (v : TurnTraversal) (position : ListPosition) :
    TurnListing TurnListCursor :=
  turnListCursor {
    hostId := q.hostId
    schemaVersion := q.schemaVersion
    limit := q.limit
    sinceSequence := v.sinceSequence
    watermark := v.watermark
    floorSequence := v.floorSequence
    traversalGeneration := v.traversalGeneration
    position
    storeEpoch := v.storeEpoch
    expiresAt := v.expiresAt }

/-- The rows of a page that were kept, and where the scan stopped. -/
structure TurnScan where
  turns : List (ListPosition × Fields)
  incompatible : Bool
  rowBytes : Nat
  moreUnprocessed : Bool
  lastScanned : Option ListPosition

def TurnScan.start : TurnScan := ⟨[], false, 0, false, none⟩

/-- The cursor of the last row that was scanned, if there are more. -/
def TurnListRequest.scanCursor (q : TurnListRequest) (v : TurnTraversal) (scan : TurnScan) :
    TurnListing (Option TurnListCursor) :=
  match scan.moreUnprocessed, scan.lastScanned with
  | true, some position => (q.cursor v position).map some
  | _, _ => .ok none

structure TurnListPage where
  turns : List (ListPosition × Fields)
  nextCursor : Option TurnListCursor
  since : TurnSinceToken

def TurnListPage.hasMore (p : TurnListPage) : Bool := p.nextCursor.isSome

/-- The loop over the rows; the number is of the rows that the limit still allows. -/
def scanTurns (item : StoredTurn → Except String (Option ListItem)) (itemBytes : Fields → Nat) :
    Nat → List StoredTurn → TurnScan → TurnListing TurnScan
  | _, [], scan => .ok scan
  | 0, _ :: _, scan => .ok { scan with moreUnprocessed := true }
  | n + 1, t :: rows, scan =>
    match item t with
    | .error message => .error (.value message)
    | .ok none => scanTurns item itemBytes n rows { scan with lastScanned := some t.position }
    | .ok (some shown) =>
      let scan := { scan with incompatible := scan.incompatible || shown.incompatible }
      if !scan.turns.isEmpty && decide (turnListRowBytes < scan.rowBytes + itemBytes shown.fields)
      then
        .ok { scan with moreUnprocessed := true }
      else
        scanTurns item itemBytes n rows
          { scan with
            turns := scan.turns ++ [(t.position, shown.fields)]
            rowBytes := scan.rowBytes + itemBytes shown.fields
            lastScanned := some t.position }

/-- Turns are given up from the end until the response fits its frame. -/
def fitTurns (P : ListSizes) (q : TurnListRequest) (v : TurnTraversal) :
    Nat → TurnListPage → TurnListing TurnListPage
  | 0, page => .ok page
  | n + 1, page =>
    if turnListFrameBytes ≤ P.payloadBytes (page.turns.map Prod.snd) page.nextCursor &&
        1 < page.turns.length then
      let turns := page.turns.dropLast
      match turns.getLast? with
      | none => .ok page
      | some last => do
        let cursor ← q.cursor v last.1
        fitTurns P q v n { page with turns, nextCursor := some cursor }
    else
      .ok page

namespace TurnStore

variable (s : TurnStore)

def turnListFloor (hostId : String) : Nat :=
  ((s.turns.table.select fun _ t => t.hostId == hostId).map fun e => e.2.listSequence).min?.getD 0

/-- Where a first page begins: after the rows that its token already saw. -/
def sinceSequence (P : ListSizes) (q : TurnListRequest) (since : Option TurnSinceToken)
    (high : Nat) : TurnListing Nat :=
  match since with
  | none => .ok 0
  | some token => do
    let token ← decodeTurnSinceToken P token q.hostId q.schemaVersion
    if token.storeEpoch != s.storeEpoch || decide (high < token.watermark) then
      .error .sinceExpired
    else
      return token.watermark

/-- The traversal of a first page. -/
def startTraversal (P : ListSizes) (q : TurnListRequest) (since : Option TurnSinceToken)
    (now : Int) : TurnListing TurnTraversal := do
  let (high, generation) := s.turnListHostState q.hostId
  let sinceSequence ← s.sinceSequence P q since high
  return {
    sinceSequence
    watermark := high
    floorSequence := s.turnListFloor q.hostId
    traversalGeneration := generation
    storeEpoch := s.storeEpoch
    expiresAt := now + turnListCursorTtlSeconds }

/-- The traversal that a cursor goes on with, if the store still allows it. -/
def resumeTraversal (P : ListSizes) (q : TurnListRequest) (cursor : TurnListCursor) (now : Int) :
    TurnListing TurnTraversal := do
  let c ← decodeTurnListCursor P cursor q.hostId q.schemaVersion q.limit now
  let (high, generation) := s.turnListHostState q.hostId
  let anchored := s.turns.table.any fun _ t => t.hostId == q.hostId && t.position == c.position
  if c.storeEpoch != s.storeEpoch || decide (high < c.watermark) ||
      c.traversalGeneration != generation ||
      (c.floorSequence != 0 && decide (c.floorSequence < s.turnListFloor q.hostId)) ||
      !anchored then
    .error .cursorExpired
  else
    return {
      sinceSequence := c.sinceSequence
      watermark := c.watermark
      floorSequence := c.floorSequence
      traversalGeneration := c.traversalGeneration
      storeEpoch := s.storeEpoch
      expiresAt := c.expiresAt }

/-- The rows of the page query, without its limit. -/
def turnListRows (hostId : String) (sinceSequence watermark : Nat) (last : Option ListPosition) :
    List StoredTurn :=
  ((s.turns.table.select fun _ t => t.hostId == hostId && decide (sinceSequence < t.listSequence) &&
      decide (t.listSequence ≤ watermark) && t.untombstoned &&
      last.all (·.follows t.position)).map Prod.snd).insertionSort
    fun a b => a.position ≤ b.position

/-- `turns_payload_from_store`, with the traversal that its token names. -/
def turnListPage (R : TextRules) (P : ListSizes) (q : TurnListRequest) (v : TurnTraversal)
    (last : Option ListPosition) : TurnListing TurnListPage := do
  let rows := (s.turnListRows q.hostId v.sinceSequence v.watermark last).take (q.limit + 1)
  let itemBytes (fields : Fields) : Nat := (R.canonicalJson (.object fields)).utf8ByteSize + 1
  let scan ← scanTurns (s.turnListItem R q.schemaVersion) itemBytes q.limit rows .start
  if q.schemaVersion == 1 && scan.incompatible then
    .error .upgradeRequired
  else
    let nextCursor ← q.scanCursor v scan
    let since ← turnSinceToken ⟨q.hostId, q.schemaVersion, v.watermark, v.storeEpoch⟩
    fitTurns P q v scan.turns.length ⟨scan.turns, nextCursor, since⟩

def turnsPayload (R : TextRules) (P : ListSizes) (q : TurnListRequest)
    (cursor : Option TurnListCursor) (since : Option TurnSinceToken) (now : Int) :
    TurnListing TurnListPage :=
  if !supportedTurnSchema q.schemaVersion then
    .error .unsupportedTurnSchemaVersion
  else if q.limit = 0 || turnListMaxLimit < q.limit || (cursor.isSome && since.isSome) then
    .error .invalidCursor
  else
    match cursor with
    | none => do
      let v ← s.startTraversal P q since now
      s.turnListPage R P q v none
    | some c => do
      let v ← s.resumeTraversal P q c now
      s.turnListPage R P q v (some c.position)

end TurnStore

end Tendwire
