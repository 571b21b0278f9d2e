import Tendwire.Herdr.Frames
import Tendwire.Herdr.Sessions

/-!
# Delivery over the socket client

Whatever breaks and however the bytes are cut, a frame is complete at the server once at most, a
response answers its own request, and no event is lost or swapped while the connection stands and
nothing but timeouts is raised.
-/

namespace Tendwire

open Json Transition Fallible Framing HerdrSocketClient

variable {loads : String → Option Value} {base : List Bytes} {tally : Option (List Fields)}
  {s t : SocketState} {e : ℕ} {requestId : String}

/-! ### Contracts of the calls -/

/-- The session went on and returned these events. -/
def GoodAfter (loads : String → Option Value) (e : ℕ) (base : List Bytes)
    (tally : Option (List Fields)) (events : List Fields) (s : SocketState) : Prop :=
  e ≤ epoch s ∧ Session loads (if epoch s = e then base else [])
    ((if epoch s = e then tally else some []).map (· ++ events)) s

lemma Good.after (h : Good loads e base tally s) : GoodAfter loads e base tally [] s := by
  have hmap : ∀ y : Option (List Fields), y.map (· ++ []) = y := by
    intro y
    cases y <;> simp
  unfold GoodAfter
  rw [hmap]
  exact h

lemma not_isTimeout_of_ensureResponseId {envelope : Fields} {err : HerdrError}
    (h : ensureResponseId envelope requestId = .error err) : err.isTimeout = false := by
  unfold ensureResponseId at h
  cases hid : validatedId envelope with
  | error err' =>
    rw [hid] at h
    cases h
    unfold validatedId at hid
    split at hid
    · split at hid <;> cases hid
      rfl
    · cases hid
      rfl
  | ok actualId =>
    rw [hid] at h
    change require _ _ = _ at h
    unfold require at h
    split at h <;> cases h
    rfl

lemma keeps_readEvent (h : Good loads e base tally s) (subscriptionId : String) :
    KeepsSession loads e base tally (fun envelope t => GoodAfter loads e base tally [envelope] t)
      (readEvent loads subscriptionId) s := by
  have hnext : KeepsSession loads e base tally (fun envelope t => e ≤ epoch t ∧ Session loads [] none t ∧
      (isEvent envelope = true → GoodAfter loads e base tally [envelope] t))
      (nextEnvelope loads) s := by
    unfold nextEnvelope
    apply Meets.bind (meets_read (Q := fun pending t => s.pendingEvents = pending ∧ s = t) ⟨rfl, rfl⟩)
    rintro pending _ ⟨hpending, rfl⟩
    cases pending with
    | nil =>
      refine (keeps_readServerEnvelope h).imp ?_ fun _ _ => id
      rintro envelope t ⟨record, hpopped, hnone, -, hcount⟩
      refine ⟨hpopped.1, hpopped.forget, fun hevent => ⟨hpopped.1, ?_⟩⟩
      rw [if_pos hevent] at hcount
      exact hpopped.2.answer hcount (hnone.trans hpending)
    | cons envelope rest =>
      have hpop := h.2.pop hpending
      exact ⟨h.1, hpop.forget, fun _ => ⟨h.1, hpop⟩⟩
  unfold readEvent
  apply hnext.bind
  rintro envelope t ⟨hepoch, hsession, hgood⟩
  split
  · next hevent =>
    split
    · exact meets_pure (hgood hevent)
    · apply Meets.bind (meets_lift (Q := fun _ u => t = u) (fun _ _ => rfl) fun err herr => ?_)
      · rintro _ _ rfl
        exact meets_pure (hgood hevent)
      · refine ⟨hepoch, hsession, fun htimeout => ?_⟩
        rw [not_isTimeout_of_ensureResponseId herr] at htimeout
        cases htimeout
  · exact meets_raise ⟨hepoch, hsession, nofun⟩

/-- The result of a response with the id of the request, behind which nothing was read. -/
def Answered (loads : String → Option Value) (e : ℕ) (base : List Bytes)
    (tally : Option (List Fields)) (requestId : String) (value : Value) (s : SocketState) : Prop :=
  ∃ response, ResponseTaken loads e base tally requestId response s ∧
    isResultResponse response = true ∧ response.get? "result" = some value

lemma of_resultPayload {response : Fields} {value : Value}
    (h : resultPayload response = .ok value) :
    isResultResponse response = true ∧ response.get? "result" = some value := by
  obtain ⟨result, hvalid, hrest⟩ := bind_eq_ok.mp h
  have hsame := eq_of_validateResponse hvalid
  subst hsame
  obtain ⟨_, hrequire, hvalue⟩ := bind_eq_ok.mp hrest
  have hresult := of_require hrequire
  refine ⟨hresult, ?_⟩
  have hfield : hasField result "result" = true := by
    simp only [isResultResponse, Bool.and_eq_true] at hresult
    exact hresult.1.1
  obtain ⟨v, hv⟩ := Option.isSome_iff_exists.mp hfield
  cases hvalue
  rw [hv]
  rfl

lemma keeps_answerResponse {response : Fields}
    (h : ResponseTaken loads e base tally requestId response s) :
    KeepsSession loads e base tally (Answered loads e base tally requestId)
      (answerResponse requestId response) s := by
  unfold answerResponse
  split
  · apply Meets.bind (meets_lift (Q := fun _ t => s = t) (fun _ _ => rfl)
      fun err _ => h.good.interrupted err)
    rintro error _ rfl
    exact keeps_raise h.good _
  · refine meets_lift (fun value hvalue => ?_) fun err _ => h.good.interrupted err
    obtain ⟨hresult, hfield⟩ := of_resultPayload hvalue
    exact ⟨response, h, hresult, hfield⟩

lemma Answered.good {value : Value} (h : Answered loads e base tally requestId value s) :
    Good loads e base tally s := by
  obtain ⟨response, htaken, -⟩ := h
  exact htaken.good

/-- The events that a reply returns. -/
def HerdrReply.events : HerdrReply → List Fields
  | event envelope => [envelope]
  | _ => []

/-- The result of the response that a reply is made of. -/
def HerdrReply.result? : HerdrReply → Option Value
  | payload value => some value
  | stream _ ack => some ack
  | _ => none

theorem keeps_program (call : HerdrCall) (hex : UuidHex) (h : Good loads e base tally s) :
    KeepsSession loads e base tally (fun reply t => GoodAfter loads e base tally reply.events t ∧
      ∀ value, reply.result? = some value →
        Answered loads e base tally (newRequestId hex) value t) (call.program loads hex) s := by
  cases call with
  | connect =>
    exact (keeps_connect h).bind fun _ t ht => meets_pure ⟨ht.1.after, nofun⟩
  | close => exact (keeps_close h).bind fun _ t ht => meets_pure ⟨ht.1.after, nofun⟩
  | request method params allowUncorrelated =>
    have hrequest : KeepsSession loads e base tally (Answered loads e base tally (newRequestId hex))
        (request loads method params allowUncorrelated hex) s := by
      apply (keeps_sendRequest h method params hex).bind
      rintro _ t ⟨ht, rfl⟩
      apply (keeps_readResponseFrom _ ht).bind
      exact fun response u hu => keeps_answerResponse hu
    apply hrequest.bind
    intro value t ht
    refine meets_pure ⟨ht.good.after, fun v hv => ?_⟩
    cases hv
    exact ht
  | subscribe method params =>
    have hsubscribe : KeepsSession loads e base tally (fun ack t =>
        Answered loads e base tally (newRequestId hex) ack.2 t)
        (subscribe loads method params hex) s := by
      apply (keeps_sendRequest h method params hex).bind
      rintro _ t ⟨ht, rfl⟩
      apply (keeps_readResponseFrom _ ht).bind
      intro response u hu
      exact (keeps_answerResponse hu).bind fun ack v hv => meets_pure hv
    apply hsubscribe.bind
    intro ack t ht
    refine meets_pure ⟨ht.good.after, fun v hv => ?_⟩
    cases hv
    exact ht
  | readEvent subscriptionId =>
    exact (keeps_readEvent h subscriptionId).bind fun envelope t ht => meets_pure ⟨ht, nofun⟩

/-! ### Runs -/

section Run

variable {calls : ℕ → HerdrCall × HerdrConditions} {m n i j : ℕ}

/-- The events that call `j` returns. -/
def eventsAt (loads : String → Option Value) (calls : ℕ → HerdrCall × HerdrConditions) (j : ℕ) :
    List Fields :=
  match herdrAnswerAt loads calls j with
  | .ok reply => reply.events
  | .error _ => []

def epochAt (loads : String → Option Value) (calls : ℕ → HerdrCall × HerdrConditions) (n : ℕ) : ℕ :=
  epoch (herdrStateAt loads calls n)

/-- The events that were returned on the newest connection before call `n`. -/
def returnedOn (loads : String → Option Value) (calls : ℕ → HerdrCall × HerdrConditions) (n : ℕ) :
    List Fields :=
  (List.range n).flatMap fun j =>
    if epochAt loads calls (j + 1) = epochAt loads calls n then eventsAt loads calls j else []

/-- Nothing but timeouts was raised on the newest connection before call `n`. -/
def UndisturbedSession (loads : String → Option Value) (calls : ℕ → HerdrCall × HerdrConditions)
    (n : ℕ) : Prop :=
  ∀ j < n, epochAt loads calls (j + 1) = epochAt loads calls n →
    ∀ err, herdrAnswerAt loads calls j = .error err → err.isTimeout = true

lemma good_at (h : Session loads base tally (herdrStateAt loads calls n)) :
    Good loads (epochAt loads calls n) base tally
      { herdrStateAt loads calls n with answers := (calls n).2.answers } := by
  have hgood : Good loads (epochAt loads calls n) base tally (herdrStateAt loads calls n) := by
    refine ⟨Nat.le_refl _, ?_⟩
    unfold epochAt
    rw [if_pos rfl, if_pos rfl]
    exact h
  exact hgood.of_session rfl fun b y hb => ⟨hb.idle, hb.framed⟩

lemma answer_of_ok {reply : HerdrReply} (h : Session loads base tally (herdrStateAt loads calls n))
    (hanswer : herdrAnswerAt loads calls n = .ok reply) :
    GoodAfter loads (epochAt loads calls n) base tally reply.events
        (herdrStateAt loads calls (n + 1)) ∧
      ∀ value, reply.result? = some value → Answered loads (epochAt loads calls n) base tally
        (newRequestId (calls n).2.hex) value (herdrStateAt loads calls (n + 1)) :=
  (keeps_program (calls n).1 (calls n).2.hex (good_at h)).ok (Prod.ext hanswer rfl)

lemma answer_of_error {err : HerdrError}
    (h : Session loads base tally (herdrStateAt loads calls n))
    (hanswer : herdrAnswerAt loads calls n = .error err) :
    Interrupted loads (epochAt loads calls n) base tally err (herdrStateAt loads calls (n + 1)) :=
  (keeps_program (calls n).1 (calls n).2.hex (good_at h)).error (Prod.ext hanswer rfl)

/-- A call that raises nothing but a timeout. -/
lemma goodAfter_step (h : Session loads base tally (herdrStateAt loads calls n))
    (hquiet : ∀ err, herdrAnswerAt loads calls n = .error err → err.isTimeout = true) :
    GoodAfter loads (epochAt loads calls n) base tally (eventsAt loads calls n)
      (herdrStateAt loads calls (n + 1)) := by
  unfold eventsAt
  cases hanswer : herdrAnswerAt loads calls n with
  | ok reply => exact (answer_of_ok h hanswer).1
  | error err => exact ((answer_of_error h hanswer).2.2 (hquiet err hanswer)).after

lemma session_forget (n : ℕ) : Session loads [] none (herdrStateAt loads calls n) := by
  induction n with
  | zero => exact ⟨fun _ => ⟨rfl, rfl⟩, nofun⟩
  | succ n ih =>
    cases hanswer : herdrAnswerAt loads calls n with
    | ok reply => exact (answer_of_ok ih hanswer).1.2.forget
    | error err => exact (answer_of_error ih hanswer).2.1

lemma epochAt_le_succ (n : ℕ) : epochAt loads calls n ≤ epochAt loads calls (n + 1) := by
  cases hanswer : herdrAnswerAt loads calls n with
  | ok reply => exact (answer_of_ok (session_forget n) hanswer).1.1
  | error err => exact (answer_of_error (session_forget n) hanswer).1

lemma epochAt_mono (hmn : m ≤ n) : epochAt loads calls m ≤ epochAt loads calls n := by
  induction n, hmn using Nat.le_induction with
  | base => exact Nat.le_refl _
  | succ n _ ih => exact Nat.le_trans ih (epochAt_le_succ n)

/-- On the same connection the returned events go on. -/
lemma session_step (h : Session loads base tally (herdrStateAt loads calls n))
    (hquiet : ∀ err, herdrAnswerAt loads calls n = .error err → err.isTimeout = true)
    (hepoch : epochAt loads calls (n + 1) = epochAt loads calls n) :
    Session loads base (tally.map (· ++ eventsAt loads calls n))
      (herdrStateAt loads calls (n + 1)) := by
  have hgood := (goodAfter_step h hquiet).2
  change epoch (herdrStateAt loads calls (n + 1)) = _ at hepoch
  rwa [if_pos hepoch, if_pos hepoch] at hgood

/-- A newer connection has returned what this call returns. -/
lemma session_reopened
    (hquiet : ∀ err, herdrAnswerAt loads calls n = .error err → err.isTimeout = true)
    (hepoch : epochAt loads calls (n + 1) ≠ epochAt loads calls n) :
    Session loads [] (some (eventsAt loads calls n)) (herdrStateAt loads calls (n + 1)) := by
  have hgood := (goodAfter_step (session_forget n) hquiet).2
  change epoch (herdrStateAt loads calls (n + 1)) ≠ _ at hepoch
  rwa [if_neg hepoch, if_neg hepoch] at hgood

lemma returnedOn_succ (hepoch : epochAt loads calls (n + 1) = epochAt loads calls n) :
    returnedOn loads calls (n + 1) = returnedOn loads calls n ++ eventsAt loads calls n := by
  unfold returnedOn
  rw [List.range_succ, List.flatMap_append, List.flatMap_singleton, if_pos rfl, hepoch]

lemma returnedOn_reopened (hepoch : epochAt loads calls (n + 1) ≠ epochAt loads calls n) :
    returnedOn loads calls (n + 1) = eventsAt loads calls n := by
  have hbefore : (List.range n).flatMap (fun j =>
      if epochAt loads calls (j + 1) = epochAt loads calls (n + 1) then eventsAt loads calls j
      else []) = [] := by
    apply List.flatMap_eq_nil_iff.mpr
    intro j hj
    have hle : epochAt loads calls (j + 1) ≤ epochAt loads calls n :=
      epochAt_mono (List.mem_range.mp hj)
    have hlt : epochAt loads calls n ≤ epochAt loads calls (n + 1) := epochAt_le_succ n
    rw [if_neg (by omega)]
  unfold returnedOn
  rw [List.range_succ, List.flatMap_append, List.flatMap_singleton, if_pos rfl, hbefore,
    List.nil_append]

lemma UndisturbedSession.quiet (h : UndisturbedSession loads calls n) (hj : j < n)
    (hepoch : epochAt loads calls (j + 1) = epochAt loads calls n) :
    ∀ err, herdrAnswerAt loads calls j = .error err → err.isTimeout = true := h j hj hepoch

/-- While the connection stands, what was undisturbed was so before. -/
lemma UndisturbedSession.before (h : UndisturbedSession loads calls n) (hmn : m ≤ n)
    (hepoch : epochAt loads calls m = epochAt loads calls n) : UndisturbedSession loads calls m :=
  fun j hj heq => h j (Nat.lt_of_lt_of_le hj hmn) (heq.trans hepoch)

/-- The events among the lines that were taken are the returned ones and the parked ones. -/
theorem session_at (h : UndisturbedSession loads calls n) :
    Session loads [] (some (returnedOn loads calls n)) (herdrStateAt loads calls n) := by
  induction n with
  | zero => exact ⟨fun _ => ⟨rfl, rfl⟩, nofun⟩
  | succ n ih =>
    have hquiet := h.quiet (Nat.lt_succ_self n) rfl
    by_cases hepoch : epochAt loads calls (n + 1) = epochAt loads calls n
    · rw [returnedOn_succ hepoch]
      exact session_step (ih (h.before (Nat.le_succ n) hepoch.symm)) hquiet hepoch
    · rw [returnedOn_reopened hepoch]
      exact session_reopened hquiet hepoch

/-- The same from a point of the connection on, behind the lines that were taken until then. -/
lemma session_from (hmn : m ≤ n) (h : UndisturbedSession loads calls n)
    (hepoch : epochAt loads calls m = epochAt loads calls n)
    (hm : Session loads base (some (returnedOn loads calls m)) (herdrStateAt loads calls m)) :
    Session loads base (some (returnedOn loads calls n)) (herdrStateAt loads calls n) := by
  induction n, hmn using Nat.le_induction with
  | base => exact hm
  | succ n hmn ih =>
    have hle : epochAt loads calls m ≤ epochAt loads calls n := epochAt_mono hmn
    have hle' : epochAt loads calls n ≤ epochAt loads calls (n + 1) := epochAt_le_succ n
    have hsame : epochAt loads calls (n + 1) = epochAt loads calls n := by omega
    rw [returnedOn_succ hsame]
    have hn := ih (h.before (Nat.le_succ n) hsame.symm) (hepoch.trans hsame)
    exact session_step hn (h.quiet (Nat.lt_succ_self n) rfl) hsame

/-- Before a response there is a tally that counts, unless something else was raised. -/
lemma exists_tally (hevents : eventsAt loads calls m = []) :
    ∃ tally, Session loads [] tally (herdrStateAt loads calls m) ∧
      (UndisturbedSession loads calls (m + 1) →
        (if epoch (herdrStateAt loads calls (m + 1)) = epochAt loads calls m then tally
          else some []) = some (returnedOn loads calls (m + 1))) := by
  by_cases h : UndisturbedSession loads calls (m + 1)
  · by_cases hepoch : epochAt loads calls (m + 1) = epochAt loads calls m
    · refine ⟨_, session_at (h.before (Nat.le_succ m) hepoch.symm), fun _ => ?_⟩
      change (if epochAt loads calls (m + 1) = _ then _ else _) = _
      rw [if_pos hepoch, returnedOn_succ hepoch, hevents, List.append_nil]
    · refine ⟨_, session_forget m, fun _ => ?_⟩
      change (if epochAt loads calls (m + 1) = _ then _ else _) = _
      rw [if_neg hepoch, returnedOn_reopened hepoch, hevents]
  · exact ⟨_, session_forget m, fun h' => absurd h' h⟩

/-- Behind a response that was taken, the session goes on from its line. -/
lemma Taken.session {lines : List Bytes} {record : Bytes} {c : HerdrConnection}
    {rest : List HerdrConnection} {returned : List Fields} (hconnected : s.connected = true)
    (hc : s.connections = c :: rest) (hlines : ∀ l ∈ lines ++ [record], newline ∉ l)
    (hclient : c.atClient = join newline (lines ++ [record]) ++ s.buffer)
    (hevent : event? loads record = none)
    (hevents : eventsOf loads lines = returned ++ s.pendingEvents) :
    Session loads (lines ++ [record]) (some returned) s := by
  refine ⟨fun hs => ?_, fun _ => ⟨c, rest, _, hc, List.prefix_rfl, hlines, hclient, ?_⟩⟩
  · rw [hconnected] at hs
    cases hs
  · intro returned' hreturned
    cases hreturned
    rw [eventsOf_append, hevents]
    simp [eventsOf, hevent]

/-- The events before a line that was taken are returned or parked. -/
lemma Session.events_prefix {lines : List Bytes} {record : Bytes} {returned : List Fields}
    (h : Session loads (lines ++ [record]) (some returned) s) (hs : s.connected = true) :
    eventsOf loads lines <+: returned ++ s.pendingEvents := by
  obtain ⟨c, rest, lines', hc, hstart, -, -, hevents⟩ := h.framed hs
  rw [← hevents returned rfl]
  exact ((List.prefix_append lines [record]).trans hstart).filterMap _

end Run

/-- What the client takes and returns, for every schedule of its calls and every network. -/
structure HerdrDelivery (loads : String → Option Value) (calls : ℕ → HerdrCall × HerdrConditions) :
    Prop where
  /-- Over all connections, a frame is complete at the server once at most, where
  every request has an id of its own. -/
  atMostOnce : ∀ i n request, FreshIds calls n → i < n →
    (calls i).1.request? (calls i).2.hex = some request →
    totalCopies (frameRequest request) (herdrStateAt loads calls n) ≤ 1
  /-- A result is that of a response with the id of the request, the last line that was taken. The
  events before it are returned in their order while the connection stands. -/
  responses : ∀ m reply value, herdrAnswerAt loads calls m = .ok reply →
    reply.result? = some value → ∃ c rest lines record response,
      (herdrStateAt loads calls (m + 1)).connections = c :: rest ∧
      (∀ l ∈ lines ++ [record], newline ∉ l) ∧
      c.atClient = join newline (lines ++ [record]) ++ (herdrStateAt loads calls (m + 1)).buffer ∧
      parseJsonLine loads (record ++ [newline]) = .ok response ∧
      response.get? "id" = some (.text (newRequestId (calls m).2.hex)) ∧
      isResultResponse response = true ∧ response.get? "result" = some value ∧
      ∀ n, m < n → (herdrStateAt loads calls n).connected = true →
        epochAt loads calls (m + 1) = epochAt loads calls n → UndisturbedSession loads calls n →
        eventsOf loads lines <+:
            returnedOn loads calls n ++ (herdrStateAt loads calls n).pendingEvents ∧
          ((eventsOf loads lines).length ≤ (returnedOn loads calls n).length →
            eventsOf loads lines <+: returnedOn loads calls n)

theorem herdrDelivery (calls : ℕ → HerdrCall × HerdrConditions) :
    HerdrDelivery loads calls := by
  refine ⟨fun i n request hfresh hi hrequest => totalCopies_le_one hfresh hi hrequest, ?_⟩
  intro m reply value hanswer hvalue
  have hnone : eventsAt loads calls m = [] := by
    unfold eventsAt
    rw [hanswer]
    cases reply <;> first | rfl | cases hvalue
  obtain ⟨tally, hsession, htally⟩ := exists_tally hnone
  obtain ⟨-, hanswered⟩ := answer_of_ok hsession hanswer
  obtain ⟨response, ⟨record, hpopped, hevent, hparse, hid⟩, hresult, hfield⟩ :=
    hanswered value hvalue
  obtain ⟨c, rest, lines, hc, -, hlines, hclient, hevents⟩ := hpopped.2.framed
  refine ⟨c, rest, lines, record, response, hc, hlines, hclient, hparse, hid, hresult, hfield, ?_⟩
  intro n hmn hconnected hepoch hquiet
  have hevents := hevents _ (htally (hquiet.before hmn hepoch))
  have hfrom := session_from hmn hquiet hepoch
    (Taken.session hpopped.2.connected hc hlines hclient hevent hevents)
  have hstart := hfrom.events_prefix hconnected
  exact ⟨hstart, List.prefix_of_prefix_length_le hstart (List.prefix_append _ _)⟩

end Tendwire
