import Tendwire.Framing.Lines
import Tendwire.Herdr.Socket

/-!
# Sessions of the socket client

What the client has received on its connection is lines that it has taken and a buffer. The events
among these lines are those that it has returned and those that it still parks, in this order.
-/

namespace Tendwire

open Json Transition Fallible Framing HerdrSocketClient

variable {loads : String → Option Value}

/-- The event that a line is, without its line break. -/
def event? (loads : String → Option Value) (record : Bytes) : Option Fields :=
  match parseJsonLine loads (record ++ [newline]) with
  | .ok envelope =>
    if isEvent envelope && (validateEvent envelope).isOk then some envelope else none
  | .error _ => none

def eventsOf (loads : String → Option Value) (records : List Bytes) : List Fields :=
  records.filterMap (event? loads)

@[simp] lemma eventsOf_nil : eventsOf loads [] = [] := rfl

lemma eventsOf_append (a b : List Bytes) :
    eventsOf loads (a ++ b) = eventsOf loads a ++ eventsOf loads b := List.filterMap_append

lemma not_isResponse_of_isEvent {envelope : Fields} (h : isEvent envelope = true) :
    isResponse envelope = false := by
  simp only [isEvent, Bool.and_eq_true, Bool.not_eq_true'] at h
  obtain ⟨⟨hevent, hresult⟩, herror⟩ := h
  simp [isResponse, isResultResponse, isErrorResponse, hresult, herror]

/-! ### What validation answers -/

lemma of_require {condition : Bool} {e : HerdrError} {u : Unit}
    (h : require condition e = .ok u) : condition = true := by
  unfold require at h
  split at h
  · assumption
  · cases h

lemma of_validatedId {envelope : Fields} {requestId : String}
    (h : validatedId envelope = .ok requestId) : envelope.get? "id" = some (.text requestId) := by
  unfold validatedId at h
  split at h
  · next requestId' hid =>
    split at h
    · cases h
    · cases h
      exact hid
  · cases h

lemma of_ensureResponseId {envelope : Fields} {requestId : String} {u : Unit}
    (h : ensureResponseId envelope requestId = .ok u) :
    envelope.get? "id" = some (.text requestId) := by
  obtain ⟨actualId, hid, hrequire⟩ := bind_eq_ok.mp h
  rw [of_validatedId hid, eq_of_beq (of_require hrequire)]

lemma eq_of_validateEvent {envelope result : Fields} (h : validateEvent envelope = .ok result) :
    result = envelope := by
  obtain ⟨_, -, h⟩ := bind_eq_ok.mp h
  obtain ⟨_, -, h⟩ := bind_eq_ok.mp h
  obtain ⟨_, -, h⟩ := bind_eq_ok.mp h
  cases h
  rfl

lemma eq_of_validateResponse {allow : Uncorrelated} {envelope result : Fields}
    (h : validateResponse allow envelope = .ok result) : result = envelope := by
  obtain ⟨_, -, h⟩ := bind_eq_ok.mp h
  split at h
  · cases h
    rfl
  · obtain ⟨_, -, h⟩ := bind_eq_ok.mp h
    cases h
    rfl

/-- A validated envelope is the envelope itself. -/
lemma eq_of_validateServerEnvelope {allow : Uncorrelated} {envelope result : Fields}
    (h : validateServerEnvelope allow envelope = .ok result) : result = envelope := by
  unfold validateServerEnvelope at h
  split at h
  · exact eq_of_validateResponse h
  · split at h
    · exact eq_of_validateEvent h
    · obtain ⟨_, -, h⟩ := bind_eq_ok.mp h
      cases h

/-- Whatever a caller accepts besides its responses, a line is an event or it is not. -/
lemma event?_of_ok {record : Bytes} {allow : Uncorrelated} {envelope : Fields}
    (h : (parseJsonLine loads (record ++ [newline]) >>= validateServerEnvelope allow) =
      .ok envelope) :
    parseJsonLine loads (record ++ [newline]) = .ok envelope ∧
      event? loads record = if isEvent envelope then some envelope else none := by
  obtain ⟨parsed, hparse, hvalid⟩ := bind_eq_ok.mp h
  obtain rfl := eq_of_validateServerEnvelope hvalid
  refine ⟨hparse, ?_⟩
  unfold event?
  rw [hparse]
  dsimp only
  cases hevent : isEvent envelope with
  | false => rfl
  | true =>
    have hok : validateEvent envelope = .ok envelope := by
      unfold validateServerEnvelope at hvalid
      rwa [not_isResponse_of_isEvent hevent, if_neg Bool.false_ne_true, if_pos hevent] at hvalid
    rw [hok]
    rfl

lemma event?_of_error {record : Bytes} {allow : Uncorrelated} {e : HerdrError}
    (h : (parseJsonLine loads (record ++ [newline]) >>= validateServerEnvelope allow) =
      .error e) : event? loads record = none := by
  unfold event?
  cases hparse : parseJsonLine loads (record ++ [newline]) with
  | error _ => rfl
  | ok envelope =>
    rw [hparse] at h
    dsimp only
    cases hevent : isEvent envelope with
    | false => rfl
    | true =>
      have herror : validateEvent envelope = .error e := by
        change validateServerEnvelope allow envelope = _ at h
        unfold validateServerEnvelope at h
        rwa [not_isResponse_of_isEvent hevent, if_neg Bool.false_ne_true, if_pos hevent] at h
      rw [herror]
      rfl

/-! ### Sessions -/

/-- The lines that were taken start with `base`. Their events, where they are tallied, are the
returned ones and the parked ones. -/
structure Session (loads : String → Option Value) (base : List Bytes)
    (tally : Option (List Fields)) (s : SocketState) : Prop where
  idle : s.connected = false → s.buffer = [] ∧ s.pendingEvents = []
  framed : s.connected = true → ∃ c rest lines, s.connections = c :: rest ∧ base <+: lines ∧
    (∀ l ∈ lines, newline ∉ l) ∧ c.atClient = join newline lines ++ s.buffer ∧
    ∀ returned, tally = some returned → eventsOf loads lines = returned ++ s.pendingEvents

/-- A line has just been taken from the buffer, and its event has not been counted. -/
structure Taken (loads : String → Option Value) (base : List Bytes) (tally : Option (List Fields))
    (record : Bytes) (s : SocketState) : Prop where
  connected : s.connected = true
  framed : ∃ c rest lines, s.connections = c :: rest ∧ base <+: lines ∧
    (∀ l ∈ lines ++ [record], newline ∉ l) ∧
    c.atClient = join newline (lines ++ [record]) ++ s.buffer ∧
    ∀ returned, tally = some returned → eventsOf loads lines = returned ++ s.pendingEvents

def epoch (s : SocketState) : ℕ := s.connections.length

variable {base : List Bytes} {tally : Option (List Fields)} {s t : SocketState} {e : ℕ}
  {record : Bytes}

lemma Session.forget (h : Session loads base tally s) : Session loads [] none s := by
  refine ⟨h.idle, fun hconnected => ?_⟩
  obtain ⟨c, rest, lines, hc, -, hlines, hclient, -⟩ := h.framed hconnected
  exact ⟨c, rest, lines, hc, List.nil_prefix, hlines, hclient, nofun⟩

lemma Session.close : Session loads base tally
    { s with connected := false, buffer := [], pendingEvents := [] } :=
  ⟨fun _ => ⟨rfl, rfl⟩, nofun⟩

/-- A new connection. -/
lemma Session.opened {c : HerdrConnection} (h : Session loads base tally s)
    (hs : s.connected = false) (hc : c.atClient = []) (ht : t.connections = c :: s.connections)
    (hbuffer : t.buffer = s.buffer) (hpending : t.pendingEvents = s.pendingEvents)
    (hconnected : t.connected = true) : Session loads [] (some []) t := by
  obtain ⟨hb, hp⟩ := h.idle hs
  refine ⟨fun hnot => ?_, fun _ => ⟨c, _, [], ht, List.nil_prefix, nofun, ?_, ?_⟩⟩
  · rw [hconnected] at hnot
    cases hnot
  · rw [hc, hbuffer, hb]
    rfl
  · intro returned hreturned
    cases hreturned
    rw [hpending, hp]
    rfl

/-- Nothing but the bytes at the server and the answers of the network has changed. -/
lemma Session.sent (h : Session loads base tally s) {payload : Bytes}
    (hconnections : t.connections = s.connections.modifyHead fun c =>
      { c with atServer := c.atServer ++ payload })
    (hbuffer : t.buffer = s.buffer) (hpending : t.pendingEvents = s.pendingEvents)
    (hconnected : t.connected = s.connected) : Session loads base tally t := by
  refine ⟨fun ht => ?_, fun ht => ?_⟩
  · rw [hbuffer, hpending]
    exact h.idle (hconnected.symm.trans ht)
  · obtain ⟨c, rest, lines, hc, hbase, hlines, hclient, htally⟩ :=
      h.framed (hconnected.symm.trans ht)
    rw [hc] at hconnections
    refine ⟨_, rest, lines, hconnections, hbase, hlines, ?_, ?_⟩
    · rw [hbuffer]
      exact hclient
    · rw [hpending]
      exact htally

lemma Session.received (h : Session loads base tally s) (hs : s.connected = true) {bytes : Bytes}
    (hconnections : t.connections = s.connections.modifyHead fun c =>
      { c with atClient := c.atClient ++ bytes })
    (hbuffer : t.buffer = s.buffer ++ bytes) (hpending : t.pendingEvents = s.pendingEvents)
    (hconnected : t.connected = s.connected) : Session loads base tally t := by
  refine ⟨fun ht => ?_, fun _ => ?_⟩
  · rw [hconnected, hs] at ht
    cases ht
  · obtain ⟨c, rest, lines, hc, hbase, hlines, hclient, htally⟩ := h.framed hs
    rw [hc] at hconnections
    refine ⟨_, rest, lines, hconnections, hbase, hlines, ?_, ?_⟩
    · rw [hbuffer, ← List.append_assoc, ← hclient]
    · rw [hpending]
      exact htally

lemma takeLine_eq_some {buffer line rest : Bytes} (h : takeLine buffer = some (line, rest)) :
    ∃ record, line = record ++ [newline] ∧ newline ∉ record ∧ buffer = line ++ rest := by
  unfold takeLine at h
  split at h
  · next hmem =>
    obtain ⟨record, tail, rfl, hrecord⟩ := List.eq_append_cons_of_mem hmem
    have hbytes : ∀ b ∈ record, (b != newline) = true := by
      intro b hb
      simp only [bne_iff_ne, ne_eq]
      rintro rfl
      exact hrecord hb
    rw [List.takeWhile_append_of_pos hbytes, List.dropWhile_append_of_pos hbytes] at h
    simp only [List.takeWhile_cons, List.dropWhile_cons, bne_self_eq_false, Bool.false_eq_true,
      if_false, List.append_nil, List.tail_cons, Option.some.injEq, Prod.mk.injEq] at h
    obtain ⟨rfl, rfl⟩ := h
    exact ⟨record, rfl, hrecord, by simp⟩
  · cases h

/-- A line is taken from the buffer. -/
lemma Session.take (h : Session loads base tally s) (hs : s.connected = true) {rest : Bytes}
    (hrecord : newline ∉ record) (hbuffer : s.buffer = record ++ [newline] ++ rest) :
    Taken loads base tally record { s with buffer := rest } := by
  obtain ⟨c, others, lines, hc, hbase, hlines, hclient, htally⟩ := h.framed hs
  refine ⟨hs, c, others, lines, hc, hbase, ?_, ?_, htally⟩
  · intro l hl
    rcases List.mem_append.mp hl with hl | hl
    · exact hlines l hl
    · rwa [List.mem_singleton.mp hl]
  · rw [hclient, hbuffer, join_append, join_cons, join_nil]
    simp

lemma Taken.base_prefix {lines : List Bytes} (h : base <+: lines) : base <+: lines ++ [record] :=
  h.trans (List.prefix_append _ _)

/-- A line that is no event. -/
lemma Taken.skip (h : Taken loads base tally record s) (hevent : event? loads record = none) :
    Session loads base tally s := by
  obtain ⟨c, rest, lines, hc, hbase, hlines, hclient, htally⟩ := h.framed
  refine ⟨fun hs => ?_, fun _ => ⟨c, rest, _, hc, Taken.base_prefix hbase, hlines, hclient, ?_⟩⟩
  · rw [h.connected] at hs
    cases hs
  · intro returned hreturned
    rw [eventsOf_append, htally returned hreturned]
    simp [eventsOf, hevent]

/-- An event that is parked. -/
lemma Taken.park (h : Taken loads base tally record s) {envelope : Fields}
    (hevent : event? loads record = some envelope) :
    Session loads base tally { s with pendingEvents := s.pendingEvents ++ [envelope] } := by
  obtain ⟨c, rest, lines, hc, hbase, hlines, hclient, htally⟩ := h.framed
  refine ⟨fun hs => ?_, fun _ => ⟨c, rest, _, hc, Taken.base_prefix hbase, hlines, hclient, ?_⟩⟩
  · rw [h.connected] at hs
    cases hs
  · intro returned hreturned
    rw [eventsOf_append, htally returned hreturned]
    simp [eventsOf, hevent]

/-- An event that is returned at once. -/
lemma Taken.answer (h : Taken loads base tally record s) {envelope : Fields}
    (hevent : event? loads record = some envelope) (hpending : s.pendingEvents = []) :
    Session loads base (tally.map (· ++ [envelope])) s := by
  obtain ⟨c, rest, lines, hc, hbase, hlines, hclient, htally⟩ := h.framed
  refine ⟨fun hs => ?_, fun _ => ⟨c, rest, _, hc, Taken.base_prefix hbase, hlines, hclient, ?_⟩⟩
  · rw [h.connected] at hs
    cases hs
  · intro returned hreturned
    obtain ⟨before, hbefore, rfl⟩ := Option.map_eq_some_iff.mp hreturned
    rw [eventsOf_append, htally before hbefore, hpending]
    simp [eventsOf, hevent]

/-- The first parked event is returned. -/
lemma Session.pop (h : Session loads base tally s) {envelope : Fields} {rest : List Fields}
    (hpending : s.pendingEvents = envelope :: rest) :
    Session loads base (tally.map (· ++ [envelope])) { s with pendingEvents := rest } := by
  refine ⟨fun hs => ?_, fun hs => ?_⟩
  · obtain ⟨-, hnone⟩ := h.idle hs
    rw [hpending] at hnone
    cases hnone
  · obtain ⟨c, others, lines, hc, hbase, hlines, hclient, htally⟩ := h.framed hs
    refine ⟨c, others, lines, hc, hbase, hlines, hclient, fun returned hreturned => ?_⟩
    obtain ⟨before, hbefore, rfl⟩ := Option.map_eq_some_iff.mp hreturned
    rw [htally before hbefore, hpending]
    simp

/-! ### Contracts -/

/-- What a session was before, as long as the connection is the one with the number `e`. A newer
connection starts from nothing. -/
def Good (loads : String → Option Value) (e : ℕ) (base : List Bytes)
    (tally : Option (List Fields)) (s : SocketState) : Prop :=
  e ≤ epoch s ∧ Session loads (if epoch s = e then base else [])
    (if epoch s = e then tally else some []) s

def Popped (loads : String → Option Value) (e : ℕ) (base : List Bytes)
    (tally : Option (List Fields)) (record : Bytes) (s : SocketState) : Prop :=
  e ≤ epoch s ∧ Taken loads (if epoch s = e then base else [])
    (if epoch s = e then tally else some []) record s

def HerdrError.isTimeout : HerdrError → Bool
  | timeout _ => true
  | _ => false

/-- A timeout leaves the session as it was. -/
def Interrupted (loads : String → Option Value) (e : ℕ) (base : List Bytes)
    (tally : Option (List Fields)) (err : HerdrError) (s : SocketState) : Prop :=
  e ≤ epoch s ∧ Session loads [] none s ∧ (err.isTimeout = true → Good loads e base tally s)

abbrev KeepsSession {α : Type} (loads : String → Option Value) (e : ℕ) (base : List Bytes)
    (tally : Option (List Fields)) (post : α → SocketState → Prop) (m : SocketProgram α)
    (s : SocketState) : Prop := Fallible.Meets post (Interrupted loads e base tally) m s

variable {α : Type} {post : α → SocketState → Prop} {payload : Bytes} {requestId : String}
  {allow : Uncorrelated}

lemma Good.of_session (h : Good loads e base tally s) (hepoch : epoch t = epoch s)
    (hstep : ∀ b y, Session loads b y s → Session loads b y t) : Good loads e base tally t := by
  unfold Good
  rw [hepoch]
  exact ⟨h.1, hstep _ _ h.2⟩

lemma Good.interrupted (h : Good loads e base tally s) (err : HerdrError) :
    Interrupted loads e base tally err s := ⟨h.1, h.2.forget, fun _ => h⟩

lemma keeps_raise (h : Good loads e base tally s) (err : HerdrError) :
    KeepsSession loads e base tally post (raise err) s := meets_raise (h.interrupted err)

lemma keeps_close (h : Good loads e base tally s) :
    KeepsSession loads e base tally (fun _ t => Good loads e base tally t ∧ t.connected = false)
      close s :=
  meets_update ⟨h.of_session rfl fun _ _ _ => Session.close, rfl⟩

lemma keeps_closeAndRaise (h : Good loads e base tally s) (err : HerdrError) :
    KeepsSession loads e base tally post (do close; raise err) s :=
  (keeps_close h).bind fun _ _ ht => keeps_raise ht.1 err

lemma keeps_openSocket (h : Good loads e base tally s) (hs : s.connected = false) :
    KeepsSession loads e base tally (fun opened t => Good loads e base tally t ∧
      t.pendingEvents = s.pendingEvents ∧ (opened = true → t.connected = true)) openSocket s := by
  unfold KeepsSession Fallible.Meets openSocket
  by_cases hopen : s.answers.connects.head? = some true
  · rw [if_pos hopen]
    have hepoch : epoch s < epoch { s with
        answers := { s.answers with connects := s.answers.connects.tail }
        connected := true
        connections := ⟨[], []⟩ :: s.connections } := Nat.lt_succ_self _
    refine ⟨⟨Nat.le_trans h.1 (Nat.le_of_lt hepoch), ?_⟩, rfl, fun _ => rfl⟩
    have hne := Nat.ne_of_gt (Nat.lt_of_le_of_lt h.1 hepoch)
    rw [if_neg hne, if_neg hne]
    exact h.2.opened hs rfl rfl rfl rfl rfl
  · rw [if_neg hopen]
    exact ⟨h.of_session rfl fun b y hb => ⟨hb.idle, hb.framed⟩, rfl, nofun⟩

lemma keeps_connect (h : Good loads e base tally s) :
    KeepsSession loads e base tally (fun _ t => Good loads e base tally t ∧
      t.pendingEvents = s.pendingEvents ∧ t.connected = true) connect s := by
  unfold connect
  apply Fallible.Meets.bind (meets_read (Q := fun connected t => connected = s.connected ∧ t = s) ⟨rfl, rfl⟩)
  rintro connected t ⟨rfl, rfl⟩
  split
  · next hconnected => exact meets_pure ⟨h, rfl, hconnected⟩
  · next hconnected =>
    apply (keeps_openSocket h (Bool.eq_false_iff.mpr hconnected)).bind
    rintro opened u ⟨hu, hpending, hopened⟩
    split
    · next hopen => exact meets_pure ⟨hu, hpending, hopened hopen⟩
    · exact keeps_raise hu _

lemma keeps_sendall (h : Good loads e base tally s) :
    KeepsSession loads e base tally (fun _ t => Good loads e base tally t) (sendall payload) s :=
  h.of_session (by simp [epoch]) fun _ _ hb => hb.sent rfl rfl rfl rfl

lemma keeps_rewrite (h : Good loads e base tally s) (hs : s.connected = false) :
    KeepsSession loads e base tally (fun _ t => Good loads e base tally t) (rewrite payload) s := by
  unfold rewrite
  apply (keeps_openSocket h hs).bind
  rintro opened t ⟨ht, -⟩
  split
  · apply (keeps_sendall ht).bind
    intro outcome u hu
    cases outcome with
    | sent => exact meets_pure hu
    | timedOut n => exact keeps_raise hu _
    | reset n => exact keeps_closeAndRaise hu _
    | failed n => exact keeps_closeAndRaise hu _
  · exact keeps_closeAndRaise ht _

lemma keeps_write (h : Good loads e base tally s) :
    KeepsSession loads e base tally (fun _ t => Good loads e base tally t) (write payload) s := by
  unfold write
  apply (keeps_connect h).bind
  rintro _ t ⟨ht, -⟩
  apply (keeps_sendall ht).bind
  intro outcome u hu
  cases outcome with
  | sent => exact meets_pure hu
  | timedOut n => exact keeps_raise hu _
  | reset n => exact (keeps_close hu).bind fun _ v hv => keeps_rewrite hv.1 hv.2
  | failed n => exact keeps_closeAndRaise hu _

lemma keeps_sendRequest (h : Good loads e base tally s) (method : String) (params : HerdrParams)
    (hex : UuidHex) :
    KeepsSession loads e base tally (fun requestId t => Good loads e base tally t ∧
      requestId = newRequestId hex) (sendRequest method params hex) s := by
  unfold sendRequest
  apply (keeps_connect h).bind
  rintro _ t ⟨ht, -⟩
  apply Fallible.Meets.bind (meets_lift (Q := fun request u => Good loads e base tally u ∧
    request.id = newRequestId hex) ?_ fun err _ => ht.interrupted err)
  · rintro request u ⟨hu, hid⟩
    apply (keeps_write hu).bind
    exact fun _ v hv => meets_pure ⟨hv, hid⟩
  · intro request hrequest
    unfold buildRequest at hrequest
    split at hrequest
    · cases hrequest
    · cases hrequest
      exact ⟨ht, rfl⟩

/-! ### Reading -/

/-- A line was taken, and the parked events are those of `pending`. -/
def LineTaken (loads : String → Option Value) (e : ℕ) (base : List Bytes)
    (tally : Option (List Fields)) (pending : List Fields) (line : Bytes) (s : SocketState) :
    Prop :=
  ∃ record, line = record ++ [newline] ∧ Popped loads e base tally record s ∧
    s.pendingEvents = pending

/-- The next line is in the buffer, or else more is read. -/
lemma keeps_takeOr {more : SocketProgram Bytes} (h : Good loads e base tally s)
    (hmore : ∀ t, Good loads e base tally t → t.pendingEvents = s.pendingEvents →
      t.connected = true →
      KeepsSession loads e base tally (LineTaken loads e base tally s.pendingEvents) more t) :
    KeepsSession loads e base tally (LineTaken loads e base tally s.pendingEvents)
      (Fallible.read SocketState.buffer >>= fun buffer =>
        match takeLine buffer with
        | some (line, rest) => do
          update fun s : SocketState => { s with buffer := rest }
          pure line
        | none => do
          activeSocket
          more) s := by
  apply Fallible.Meets.bind (meets_read (Q := fun buffer t => s.buffer = buffer ∧ s = t) ⟨rfl, rfl⟩)
  rintro _ _ ⟨rfl, rfl⟩
  split
  · next line rest htake =>
    obtain ⟨record, rfl, hrecord, hbuffer⟩ := takeLine_eq_some htake
    have hs : s.connected = true := by
      by_contra hnot
      obtain ⟨hempty, -⟩ := h.2.idle (Bool.eq_false_iff.mpr hnot)
      rw [hempty] at hbuffer
      simp at hbuffer
    apply Fallible.Meets.bind (meets_update (Q := fun _ t => { s with buffer := rest } = t) rfl)
    rintro _ _ rfl
    exact meets_pure ⟨record, rfl, ⟨h.1, h.2.take hs hrecord hbuffer⟩, rfl⟩
  · exact (keeps_connect h).bind fun _ t ht => hmore t ht.1 ht.2.1 ht.2.2

lemma keeps_receive (h : Good loads e base tally s) (hs : s.connected = true) {bytes : Bytes}
    {rest : List RecvOutcome} :
    KeepsSession loads e base tally (fun _ t => Good loads e base tally t ∧
      t.pendingEvents = s.pendingEvents) (receive bytes rest) s := by
  refine meets_update ⟨h.of_session (by simp [epoch]) fun b y hb => ?_, rfl⟩
  exact hb.received hs rfl rfl rfl rfl

lemma keeps_readLineFrom (outcomes : List RecvOutcome) (h : Good loads e base tally s) :
    KeepsSession loads e base tally (LineTaken loads e base tally s.pendingEvents)
      (readLineFrom outcomes) s := by
  induction outcomes generalizing s with
  | nil =>
    unfold readLineFrom
    exact keeps_takeOr h fun t ht _ _ => keeps_raise ht _
  | cons outcome outcomes ih =>
    unfold readLineFrom
    refine keeps_takeOr h fun t ht hpending hconnected => ?_
    cases outcome with
    | timedOut => exact keeps_raise ht _
    | failed => exact keeps_closeAndRaise ht _
    | chunk bytes =>
      dsimp only
      split
      · exact keeps_closeAndRaise ht _
      · apply (keeps_receive ht hconnected).bind
        rintro _ u ⟨hu, hpending'⟩
        rw [← hpending, ← hpending']
        exact ih hu

lemma keeps_readLine (h : Good loads e base tally s) :
    KeepsSession loads e base tally (LineTaken loads e base tally s.pendingEvents) readLine s :=
  keeps_readLineFrom _ h

lemma Popped.skip (h : Popped loads e base tally record s) (hevent : event? loads record = none) :
    Good loads e base tally s := ⟨h.1, h.2.skip hevent⟩

lemma Popped.park (h : Popped loads e base tally record s) {envelope : Fields}
    (hevent : event? loads record = some envelope) :
    Good loads e base tally { s with pendingEvents := s.pendingEvents ++ [envelope] } :=
  ⟨h.1, h.2.park hevent⟩

lemma Popped.forget (h : Popped loads e base tally record s) :
    Session loads [] none s := by
  obtain ⟨c, rest, lines, hc, -, hlines, hclient, -⟩ := h.2.framed
  refine ⟨fun hs => ?_, fun _ => ⟨c, rest, _, hc, List.nil_prefix, hlines, hclient, nofun⟩⟩
  rw [h.2.connected] at hs
  cases hs

/-- A line was taken that is this envelope. -/
def EnvelopeTaken (loads : String → Option Value) (e : ℕ) (base : List Bytes)
    (tally : Option (List Fields)) (pending : List Fields) (envelope : Fields) (s : SocketState) :
    Prop :=
  ∃ record, Popped loads e base tally record s ∧ s.pendingEvents = pending ∧
    parseJsonLine loads (record ++ [newline]) = .ok envelope ∧
    event? loads record = if isEvent envelope then some envelope else none

lemma keeps_readServerEnvelope (h : Good loads e base tally s) :
    KeepsSession loads e base tally (EnvelopeTaken loads e base tally s.pendingEvents)
      (readServerEnvelope loads allow) s := by
  unfold readServerEnvelope
  apply (keeps_readLine h).bind
  rintro _ t ⟨record, rfl, hpopped, hpending⟩
  apply meets_lift
  · intro envelope henvelope
    obtain ⟨hparse, hevent⟩ := event?_of_ok henvelope
    exact ⟨record, hpopped, hpending, hparse, hevent⟩
  · intro err herr
    exact (hpopped.skip (event?_of_error herr)).interrupted err

/-- The response that was taken last. -/
def ResponseTaken (loads : String → Option Value) (e : ℕ) (base : List Bytes)
    (tally : Option (List Fields)) (requestId : String) (response : Fields) (s : SocketState) :
    Prop :=
  ∃ record, Popped loads e base tally record s ∧ event? loads record = none ∧
    parseJsonLine loads (record ++ [newline]) = .ok response ∧
    response.get? "id" = some (.text requestId)

lemma ResponseTaken.good {response : Fields}
    (h : ResponseTaken loads e base tally requestId response s) : Good loads e base tally s := by
  obtain ⟨record, hpopped, hevent, -⟩ := h
  exact hpopped.skip hevent

lemma keeps_acceptResponse {envelope : Fields} {pending : List Fields}
    (h : EnvelopeTaken loads e base tally pending envelope s) (hevent : isEvent envelope = false) :
    KeepsSession loads e base tally (ResponseTaken loads e base tally requestId)
      (acceptResponse requestId envelope) s := by
  obtain ⟨record, hpopped, -, hparse, hcount⟩ := h
  rw [hevent] at hcount
  have hgood := hpopped.skip hcount
  unfold acceptResponse
  apply Fallible.Meets.bind (meets_lift (Q := fun _ t => t = s ∧
    envelope.get? "id" = some (.text requestId))
    (fun u hu => ⟨rfl, of_ensureResponseId hu⟩) fun err _ => hgood.interrupted err)
  rintro _ t ⟨rfl, hid⟩
  split
  · exact meets_pure ⟨record, hpopped, hcount, hparse, hid⟩
  · exact keeps_raise hgood _

lemma keeps_readResponseFrom (passes : ℕ) (h : Good loads e base tally s) :
    KeepsSession loads e base tally (ResponseTaken loads e base tally requestId)
      (readResponseFrom loads requestId allow passes) s := by
  induction passes generalizing s with
  | zero => exact keeps_raise h _
  | succ passes ih =>
    unfold readResponseFrom
    apply (keeps_readServerEnvelope h).bind
    intro envelope t ht
    split
    · next hevent =>
      obtain ⟨record, hpopped, -, -, hcount⟩ := ht
      rw [if_pos hevent] at hcount
      apply Fallible.Meets.bind (meets_read (Q := fun _ u => u = t) rfl)
      rintro pending _ rfl
      split
      · exact meets_raise ⟨hpopped.1, hpopped.forget, nofun⟩
      · apply Fallible.Meets.bind (meets_update (Q := fun _ u => Good loads e base tally u)
          (hpopped.park hcount))
        exact fun _ u hu => ih hu
    · next hevent =>
      have hevent := Bool.eq_false_iff.mpr hevent
      split
      · obtain ⟨record, hpopped, -, -, hcount⟩ := ht
        rw [hevent] at hcount
        have hgood := hpopped.skip hcount
        unfold raiseUncorrelated
        split <;> exact keeps_raise hgood _
      · exact keeps_acceptResponse ht hevent

/-- The passes suffice: events are parked as long as there is room, and not longer. -/
lemma readResponseFrom_succ {passes : ℕ} (h : Good loads e base tally s)
    (hroom : s.pendingEvents.length ≤ maxPendingEvents)
    (hpasses : maxPendingEvents < s.pendingEvents.length + passes) :
    readResponseFrom loads requestId allow (passes + 1) s =
      readResponseFrom loads requestId allow passes s := by
  induction passes generalizing s with
  | zero => omega
  | succ passes ih =>
    rw [readResponseFrom, readResponseFrom]
    apply bind_congr_of_ok
    intro envelope t ht
    obtain ⟨record, hpopped, hpending, -, hcount⟩ := (keeps_readServerEnvelope h).ok ht
    by_cases hevent : isEvent envelope = true
    · rw [if_pos hevent] at hcount
      rw [if_pos hevent, if_pos hevent]
      apply bind_congr_of_ok
      intro pending t' hread
      cases hread
      by_cases hfull : maxPendingEvents ≤ t.pendingEvents.length
      · rw [if_pos hfull, if_pos hfull]
      · rw [if_neg hfull, if_neg hfull]
        apply bind_congr_of_ok
        rintro _ u hpark
        cases hpark
        apply ih (hpopped.park hcount)
        · simp only [List.length_append, List.length_singleton]
          omega
        · simp only [List.length_append, List.length_singleton]
          rw [hpending]
          omega
    · rw [if_neg hevent, if_neg hevent]

end Tendwire
