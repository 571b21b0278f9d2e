import Mathlib.Algebra.GroupWithZero.Nat
import Tendwire.Framing.Copies
import Tendwire.Herdr.Socket

/-!
# Frames at the server

A frame is complete at the server once at most, over all connections: the second attempt follows
a first one that transferred a strict prefix.
-/

namespace Tendwire

open Json Transition Fallible Framing

/-! ### Frames -/

def HerdrRequest.text (request : HerdrRequest) : Bytes := utf8 (dumps (.object request.envelope))

lemma HerdrRequest.numeric (request : HerdrRequest) :
    (Value.object request.envelope).numeric = true := by
  change (true && (true && (Value.numericFields request.params.fields && true))) = true
  simpa using request.params.numeric

lemma HerdrRequest.newline_not_mem (request : HerdrRequest) : newline ∉ request.text :=
  not_newline_of_dumps request.numeric

lemma HerdrRequest.opensWithKey (request : HerdrRequest) : OpensWithKey request.text :=
  ⟨0x69, _, rfl, by decide⟩

/-- A frame that another one ends with is that one. -/
lemma frameRequest_eq_of_suffix {a b : HerdrRequest} (h : frameRequest a <:+ frameRequest b) :
    frameRequest b = frameRequest a := by
  obtain ⟨front, h⟩ := h
  unfold frameRequest at h
  rw [← List.append_assoc] at h
  have htext : utf8 (dumps (.object b.envelope)) = front ++ utf8 (dumps (.object a.envelope)) :=
    (List.append_inj_left' h rfl).symm
  have hfront := eq_nil_of_dumps_eq_append b.numeric a.numeric a.opensWithKey htext
  subst hfront
  unfold frameRequest
  rw [htext, List.nil_append]

/-- Two frames that the same stream ends with are the same. -/
lemma frameRequest_eq_of_suffix_append {a b : HerdrRequest} {stream : Bytes}
    (h : frameRequest a <:+ stream ++ frameRequest b) : frameRequest b = frameRequest a := by
  rcases List.suffix_or_suffix_of_suffix h (List.suffix_append stream _) with h | h
  · exact frameRequest_eq_of_suffix h
  · exact (frameRequest_eq_of_suffix h).symm

lemma utf8_eq_map {text : List Char} (h : ∀ c ∈ text, c.toNat < 0x80) :
    utf8 text = text.map fun c => UInt8.ofNat c.toNat := by
  induction text with
  | nil => rfl
  | cons c text ih =>
    rw [utf8_cons, utf8_ascii (h c List.mem_cons_self), ih fun b hb => h b (List.mem_cons_of_mem c hb)]
    rfl

lemma toNat_lt_of_isLowerHexDigit {c : Char} (h : isLowerHexDigit c = true) : c.toNat < 0x80 := by
  have hle : c ≤ 'f' := by
    simp only [isLowerHexDigit, Bool.or_eq_true, Bool.and_eq_true, decide_eq_true_eq] at h
    rcases h with ⟨-, h⟩ | ⟨-, h⟩
    · exact Char.le_trans h (by decide)
    · exact h
  have hnat : c.toNat ≤ 0x66 := UInt32.le_iff_toNat_le.mp hle
  omega

lemma escapeChar_of_isLowerHexDigit {c : Char} (h : isLowerHexDigit c = true) :
    escapeChar c = [c] := by
  have hne : ∀ c', isLowerHexDigit c' = false → c ≠ c' := by
    rintro c' hc' rfl
    rw [h] at hc'
    cases hc'
  have hge : 0x30 ≤ c.toNat := by
    have hle : '0' ≤ c := by
      simp only [isLowerHexDigit, Bool.or_eq_true, Bool.and_eq_true, decide_eq_true_eq] at h
      rcases h with ⟨h, -⟩ | ⟨h, -⟩
      · exact h
      · exact Char.le_trans (by decide) h
    exact UInt32.le_iff_toNat_le.mp hle
  unfold escapeChar
  rw [if_neg (hne '"' (by decide)), if_neg (hne '\\' (by decide)), if_neg (hne '\n' (by decide)),
    if_neg (hne '\r' (by decide)), if_neg (hne '\t' (by decide)), if_neg (by omega),
    if_neg (by omega), if_neg (by omega)]

/-- The id of a request is at the beginning of its frame. -/
lemma exists_frameRequest_eq {request : HerdrRequest} {hex : UuidHex}
    (hid : request.id = newRequestId hex) :
    ∃ rest, frameRequest request =
      utf8 "\x7b\"id\":\"req-".toList ++ (utf8 hex.text.toList ++ rest) := by
  have hhex : hex.text.toList.flatMap escapeChar = hex.text.toList := by
    have hdigits := hex.digits
    generalize hex.text.toList = digits at hdigits
    induction digits with
    | nil => rfl
    | cons c digits ih =>
      rw [List.flatMap_cons, escapeChar_of_isLowerHexDigit (hdigits c List.mem_cons_self),
        ih fun b hb => hdigits b (List.mem_cons_of_mem c hb)]
      rfl
  have hquoted : quoted request.id =
      "\"req-".toList ++ (hex.text.toList ++ ['"']) := by
    have hreq : "req-".toList.flatMap escapeChar = "req-".toList := by decide
    unfold quoted
    rw [hid, newRequestId, String.toList_append, List.flatMap_append, hhex, hreq]
    simp
  refine ⟨utf8 ('"' :: dumpsFields [("method", .text request.method),
    ("params", .object request.params.fields)] ++ ['\x7d']) ++ [newline], ?_⟩
  unfold frameRequest HerdrRequest.envelope
  rw [← List.append_assoc, ← List.append_assoc, ← utf8_append, ← utf8_append]
  congr 2
  rw [dumps, dumpsFields, dumps, hquoted]
  simp [quoted, escapeChar]

/-- Different ids make different frames. -/
lemma hex_eq_of_frameRequest_eq {a b : HerdrRequest} {x y : UuidHex} (ha : a.id = newRequestId x)
    (hb : b.id = newRequestId y) (h : frameRequest a = frameRequest b) : x.text = y.text := by
  obtain ⟨rest, hrest⟩ := exists_frameRequest_eq ha
  obtain ⟨rest', hrest'⟩ := exists_frameRequest_eq hb
  rw [hrest, hrest'] at h
  have hx := utf8_eq_map fun c hc => toNat_lt_of_isLowerHexDigit (x.digits c hc)
  have hy := utf8_eq_map fun c hc => toNat_lt_of_isLowerHexDigit (y.digits c hc)
  have hbytes : utf8 x.text.toList = utf8 y.text.toList := by
    refine (List.append_inj (List.append_cancel_left h) ?_).1
    rw [hx, hy, List.length_map, List.length_map, x.length, y.length]
  have hback : ∀ {text : List Char}, (∀ c ∈ text, isLowerHexDigit c = true) →
      (utf8 text).map (fun b => Char.ofNat b.toNat) = text := by
    intro text htext
    have hascii := fun c hc => toNat_lt_of_isLowerHexDigit (htext c hc)
    rw [utf8_eq_map hascii, List.map_map]
    refine (List.map_congr_left fun c hc => ?_).trans (List.map_id _)
    have hbyte : (UInt8.ofNat c.toNat).toNat = c.toNat := by
      have := hascii c hc
      rw [UInt8.toNat_ofNat']
      omega
    simp only [Function.comp, hbyte, Char.ofNat_toNat, id]
  have hlist := congrArg (List.map fun b => Char.ofNat b.toNat) hbytes
  rw [hback x.digits, hback y.digits] at hlist
  exact String.toList_inj.mp hlist

/-! ### Copies over all connections -/

def totalCopies (frame : Bytes) (s : SocketState) : ℕ :=
  (s.connections.map fun c => copies frame c.atServer).sum

section Silent

variable {goal : HerdrRequest} {s t u : SocketState} {payload : Bytes} {α : Type}
  {loads : String → Option Value} {allow : Uncorrelated} {requestId : String}

/-- No further copy of a frame is completed. -/
def Silent (goal : HerdrRequest) (s t : SocketState) : Prop :=
  totalCopies (frameRequest goal) t ≤ totalCopies (frameRequest goal) s

lemma Silent.refl (s : SocketState) : Silent goal s s := Nat.le_refl _

lemma Silent.trans (s t u : SocketState) (h : Silent goal s t) (h' : Silent goal t u) :
    Silent goal s u := Nat.le_trans h' h

lemma Silent.of_connections (h : t.connections = s.connections) : Silent goal s t := by
  unfold Silent totalCopies
  rw [h]

lemma frameRequest_ne_nil (request : HerdrRequest) : frameRequest request ≠ [] := by
  simp [frameRequest]

lemma totalCopies_modifyHead (g : HerdrConnection → HerdrConnection) {frame : Bytes} (extra : ℕ)
    (hg : ∀ c, copies frame (g c).atServer ≤ copies frame c.atServer + extra)
    (ht : t.connections = s.connections.modifyHead g) :
    totalCopies frame t ≤ totalCopies frame s + extra := by
  unfold totalCopies
  rw [ht]
  cases s.connections with
  | nil => exact Nat.zero_le _
  | cons c rest =>
    simp only [List.modifyHead_cons, List.map_cons, List.sum_cons]
    have := hg c
    omega

namespace HerdrSocketClient

/-! ### What writes nothing -/

/-- A program that completes no copy of any frame. -/
abbrev IsSilent (goal : HerdrRequest) (m : SocketProgram α) : Prop := Relates (Silent goal) m

lemma isSilent_bind {β : Type} {m : SocketProgram α} {f : α → SocketProgram β}
    (h : IsSilent goal m) (hf : ∀ a, IsSilent goal (f a)) : IsSilent goal (m >>= f) :=
  h.bind Silent.trans (fun _ _ => id) hf

lemma isSilent_pure (a : α) : IsSilent goal (pure a) := relates_pure Silent.refl a

lemma isSilent_raise (e : HerdrError) : IsSilent goal (raise e : SocketProgram α) :=
  relates_raise Silent.refl e

lemma isSilent_read (g : SocketState → α) : IsSilent goal (Fallible.read g) :=
  relates_read Silent.refl g

lemma isSilent_lift (x : Except HerdrError α) : IsSilent goal (lift x) :=
  relates_lift Silent.refl x

lemma isSilent_close : IsSilent goal close := fun _ => .of_connections rfl

lemma isSilent_openSocket : IsSilent goal openSocket := by
  intro s
  unfold openSocket
  dsimp only
  split
  · change totalCopies _ _ ≤ _
    unfold totalCopies
    simp [copies_nil (frameRequest_ne_nil goal)]
  · exact .of_connections rfl

lemma isSilent_connect : IsSilent goal connect := by
  unfold connect
  apply isSilent_bind (isSilent_read _)
  intro connected
  split
  · exact isSilent_pure _
  · apply isSilent_bind isSilent_openSocket
    intro opened
    split
    · exact isSilent_pure _
    · exact isSilent_raise _

lemma isSilent_receive (bytes : Bytes) (rest : List RecvOutcome) :
    IsSilent goal (receive bytes rest) := by
  intro s
  apply totalCopies_modifyHead (fun c => { c with atClient := c.atClient ++ bytes }) 0
  · exact fun c => Nat.le_refl _
  · rfl

lemma isSilent_takeBuffer {rest : Bytes} :
    IsSilent goal (update fun s : SocketState => { s with buffer := rest }) :=
  fun _ => .of_connections rfl

lemma isSilent_readLineFrom (outcomes : List RecvOutcome) :
    IsSilent goal (readLineFrom outcomes) := by
  induction outcomes with
  | nil =>
    unfold readLineFrom
    apply isSilent_bind (isSilent_read _)
    intro buffer
    split
    · exact isSilent_bind isSilent_takeBuffer fun _ => isSilent_pure _
    · exact isSilent_bind isSilent_connect fun _ => isSilent_raise _
  | cons outcome outcomes ih =>
    unfold readLineFrom
    apply isSilent_bind (isSilent_read _)
    intro buffer
    split
    · exact isSilent_bind isSilent_takeBuffer fun _ => isSilent_pure _
    · apply isSilent_bind isSilent_connect
      intro _
      cases outcome with
      | timedOut => exact isSilent_raise _
      | failed => exact isSilent_bind isSilent_close fun _ => isSilent_raise _
      | chunk bytes =>
        dsimp only
        split
        · exact isSilent_bind isSilent_close fun _ => isSilent_raise _
        · exact isSilent_bind (isSilent_receive bytes outcomes) fun _ => ih

lemma isSilent_readServerEnvelope : IsSilent goal (readServerEnvelope loads allow) := by
  have hline : IsSilent goal readLine :=
    isSilent_bind (isSilent_read _) fun outcomes => isSilent_readLineFrom outcomes
  exact isSilent_bind hline fun _ => isSilent_lift _

lemma isSilent_raiseUncorrelated (envelope : Fields) :
    IsSilent goal (raiseUncorrelated requestId envelope) := by
  unfold raiseUncorrelated
  split <;> exact isSilent_raise _

lemma isSilent_acceptResponse (envelope : Fields) :
    IsSilent goal (acceptResponse requestId envelope) := by
  unfold acceptResponse
  apply isSilent_bind (isSilent_lift _)
  intro _
  split
  · exact isSilent_pure _
  · exact isSilent_raise _

lemma isSilent_readResponseFrom (passes : ℕ) :
    IsSilent goal (readResponseFrom loads requestId allow passes) := by
  induction passes with
  | zero => exact isSilent_raise _
  | succ passes ih =>
    unfold readResponseFrom
    apply isSilent_bind isSilent_readServerEnvelope
    intro envelope
    split
    · apply isSilent_bind (isSilent_read _)
      intro pending
      split
      · exact isSilent_raise _
      · exact isSilent_bind (fun _ => .of_connections rfl) fun _ => ih
    · split
      · exact isSilent_raiseUncorrelated envelope
      · exact isSilent_acceptResponse envelope

lemma isSilent_answerResponse (response : Fields) :
    IsSilent goal (answerResponse requestId response) := by
  unfold answerResponse
  split
  · exact isSilent_bind (isSilent_lift _) fun _ => isSilent_raise _
  · exact isSilent_lift _

lemma isSilent_nextEnvelope : IsSilent goal (nextEnvelope loads) := by
  unfold nextEnvelope
  apply isSilent_bind (isSilent_read _)
  intro pending
  split
  · exact isSilent_bind (fun _ => .of_connections rfl) fun _ => isSilent_pure _
  · exact isSilent_readServerEnvelope

lemma isSilent_readEvent (subscriptionId : String) :
    IsSilent goal (readEvent loads subscriptionId) := by
  unfold readEvent
  apply isSilent_bind isSilent_nextEnvelope
  intro envelope
  split
  · split
    · exact isSilent_pure _
    · exact isSilent_bind (isSilent_lift _) fun _ => isSilent_pure _
  · exact isSilent_raise _

/-! ### Writing -/

/-- One more copy at most, if it is the frame that is written. -/
def Writes (goal request : HerdrRequest) (s t : SocketState) : Prop :=
  totalCopies (frameRequest goal) t ≤ totalCopies (frameRequest goal) s +
    if frameRequest request = frameRequest goal then 1 else 0

variable {request : HerdrRequest}

lemma Writes.of_silent (h : Silent goal s t) : Writes goal request s t :=
  Nat.le_trans h (Nat.le_add_right _ _)

lemma Writes.after_silent (s t u : SocketState) (h : Silent goal s t)
    (h' : Writes goal request t u) : Writes goal request s u :=
  Nat.le_trans h' (Nat.add_le_add_right h _)

lemma Writes.silent (s t u : SocketState) (h : Writes goal request s t) (h' : Silent goal t u) :
    Writes goal request s u := Nat.le_trans h' h

/-- A strict prefix of a frame completes no copy. -/
lemma copies_of_not_sent {outcome : SendOutcome} (h : outcome ≠ .sent) (stream : Bytes) :
    copies (frameRequest goal) (stream ++ outcome.transferred (frameRequest request)) =
      copies (frameRequest goal) stream := by
  have hstart : ∀ n, newline ∉ (frameRequest request).dropLast.take n := by
    intro n hmem
    have hdrop : (frameRequest request).dropLast = request.text := List.dropLast_concat
    rw [hdrop] at hmem
    exact request.newline_not_mem (List.mem_of_mem_take hmem)
  cases outcome with
  | sent => exact absurd rfl h
  | timedOut n => exact copies_append_of_not_mem (hstart n)
  | reset n => exact copies_append_of_not_mem (hstart n)
  | failed n => exact copies_append_of_not_mem (hstart n)

lemma copies_of_sent (stream : Bytes) :
    copies (frameRequest goal) (stream ++ frameRequest request) ≤
      copies (frameRequest goal) stream +
        if frameRequest request = frameRequest goal then 1 else 0 := by
  have hcopies : copies (frameRequest goal) (stream ++ frameRequest request) =
      copies (frameRequest goal) stream +
        if frameRequest goal <:+ stream ++ frameRequest request then 1 else 0 :=
    copies_append_record request.newline_not_mem
  rw [hcopies]
  apply Nat.add_le_add_left
  split
  · next hsuffix => rw [if_pos (frameRequest_eq_of_suffix_append hsuffix)]
  · exact Nat.zero_le _

/-- What follows a frame that is sent writes nothing more; what follows another attempt may. -/
lemma writes_sendall {f : SendOutcome → SocketProgram α} (hsent : IsSilent goal (f .sent))
    (hother : ∀ outcome, outcome ≠ .sent → Relates (Writes goal request) (f outcome)) :
    Relates (Writes goal request) (sendall (frameRequest request) >>= f) := by
  intro s
  let outcome := s.answers.sends.head?.getD (.timedOut 0)
  let t := (sendall (frameRequest request) s).2
  change Writes goal request s (f outcome t).2
  have hconnections : t.connections = s.connections.modifyHead fun c =>
      { c with atServer := c.atServer ++ outcome.transferred (frameRequest request) } := rfl
  by_cases houtcome : outcome = .sent
  · rw [houtcome] at hconnections ⊢
    have hwrites : Writes goal request s t :=
      totalCopies_modifyHead _ _ (fun c => copies_of_sent c.atServer) hconnections
    exact hwrites.silent _ _ _ (hsent t)
  · have hsilent : Silent goal s t := totalCopies_modifyHead _ 0
      (fun c => Nat.le_of_eq (copies_of_not_sent houtcome c.atServer)) hconnections
    exact Writes.after_silent _ _ _ hsilent (hother outcome houtcome t)

lemma writes_of_isSilent {m : SocketProgram α} (h : IsSilent goal m) :
    Relates (Writes goal request) m := fun s => .of_silent (h s)

lemma writes_after {β : Type} {m : SocketProgram α} {f : α → SocketProgram β}
    (h : IsSilent goal m) (hf : ∀ a, Relates (Writes goal request) (f a)) :
    Relates (Writes goal request) (m >>= f) :=
  h.bind Writes.after_silent (fun _ _ => .of_silent) hf

lemma writes_before {β : Type} {m : SocketProgram α} {f : α → SocketProgram β}
    (h : Relates (Writes goal request) m) (hf : ∀ a, IsSilent goal (f a)) :
    Relates (Writes goal request) (m >>= f) :=
  h.bind Writes.silent (fun _ _ => id) hf

lemma isSilent_closeAndRaise (e : HerdrError) :
    IsSilent goal (do close; raise e : SocketProgram α) :=
  isSilent_bind isSilent_close fun _ => isSilent_raise e

lemma writes_rewrite : Relates (Writes goal request) (rewrite (frameRequest request)) := by
  unfold rewrite
  apply writes_after isSilent_openSocket
  intro opened
  split
  · apply writes_sendall
    · exact isSilent_pure _
    · intro outcome houtcome
      apply writes_of_isSilent
      cases outcome with
      | sent => exact isSilent_pure _
      | timedOut n => exact isSilent_raise _
      | reset n => exact isSilent_closeAndRaise _
      | failed n => exact isSilent_closeAndRaise _
  · exact writes_of_isSilent (isSilent_closeAndRaise _)

/-- A frame is written once: only behind a strict prefix of it is there a second attempt. -/
lemma writes_write : Relates (Writes goal request) (write (frameRequest request)) := by
  unfold write
  apply writes_after isSilent_connect
  intro _
  apply writes_sendall
  · exact isSilent_pure _
  · intro outcome houtcome
    cases outcome with
    | sent => exact absurd rfl houtcome
    | timedOut n => exact writes_of_isSilent (isSilent_raise _)
    | reset n => exact writes_after isSilent_close fun _ => writes_rewrite
    | failed n => exact writes_of_isSilent (isSilent_closeAndRaise _)

lemma writes_sendRequest (method : String) (params : HerdrParams) (hex : UuidHex) :
    Relates (Writes goal ⟨newRequestId hex, method, params⟩) (sendRequest method params hex) := by
  unfold sendRequest buildRequest
  apply writes_after isSilent_connect
  intro _
  by_cases hmethod : method = ""
  · rw [if_pos hmethod]
    exact writes_of_isSilent (isSilent_raise _)
  · rw [if_neg hmethod]
    change Relates _ (write (frameRequest ⟨newRequestId hex, method, params⟩) >>= fun _ => pure _)
    exact writes_before writes_write fun _ => isSilent_pure _

end HerdrSocketClient

/-! ### Runs -/

/-- The request that a call sends. -/
def HerdrCall.request? (hex : UuidHex) : HerdrCall → Option HerdrRequest
  | request method params _ => some ⟨newRequestId hex, method, params⟩
  | subscribe method params => some ⟨newRequestId hex, method, params⟩
  | _ => none

open HerdrSocketClient in
lemma HerdrCall.isSilent_program {call : HerdrCall} {hex : UuidHex}
    (h : call.request? hex = none) : IsSilent goal (call.program loads hex) := by
  cases call with
  | connect => exact isSilent_bind isSilent_connect fun _ => isSilent_pure _
  | close => exact isSilent_bind isSilent_close fun _ => isSilent_pure _
  | request => cases h
  | subscribe => cases h
  | readEvent subscriptionId =>
    exact isSilent_bind (isSilent_readEvent subscriptionId) fun _ => isSilent_pure _

open HerdrSocketClient in
lemma HerdrCall.writes_program {call : HerdrCall} {hex : UuidHex} {request : HerdrRequest}
    (h : call.request? hex = some request) :
    Relates (HerdrSocketClient.Writes goal request) (call.program loads hex) := by
  cases call with
  | connect => cases h
  | close => cases h
  | readEvent => cases h
  | request method params allowUncorrelated =>
    cases h
    refine writes_before ?_ fun value => isSilent_pure _
    apply writes_before (writes_sendRequest method params hex)
    intro requestId
    exact isSilent_bind (isSilent_readResponseFrom _) fun response =>
      isSilent_answerResponse response
  | subscribe method params =>
    cases h
    refine writes_before ?_ fun ack => isSilent_pure _
    apply writes_before (writes_sendRequest method params hex)
    intro requestId
    apply isSilent_bind (isSilent_readResponseFrom _)
    intro response
    exact isSilent_bind (isSilent_answerResponse response) fun _ => isSilent_pure _

end Silent

/-- The state before call `n`. -/
def herdrStateAt (loads : String → Option Value) (calls : ℕ → HerdrCall × HerdrConditions)
    (n : ℕ) : SocketState := (herdrMachine loads).stateAt HerdrSocketClient.init calls n

def herdrAnswerAt (loads : String → Option Value) (calls : ℕ → HerdrCall × HerdrConditions)
    (n : ℕ) : Except HerdrError HerdrReply :=
  (herdrMachine loads).answerAt HerdrSocketClient.init calls n

section Run

variable {loads : String → Option Value} {calls : ℕ → HerdrCall × HerdrConditions} {n i : ℕ}
  {request : HerdrRequest}

/-- One call completes one copy at most, of the frame that it sends. -/
lemma totalCopies_step (hrequest : ∀ r, (calls n).1.request? (calls n).2.hex = some r →
      frameRequest r = frameRequest request → n = i) :
    totalCopies (frameRequest request) (herdrStateAt loads calls (n + 1)) ≤
      totalCopies (frameRequest request) (herdrStateAt loads calls n) + if n = i then 1 else 0 := by
  let s : SocketState := { herdrStateAt loads calls n with answers := (calls n).2.answers }
  change totalCopies _ ((calls n).1.program loads (calls n).2.hex s).2 ≤ totalCopies _ s + _
  cases hr : (calls n).1.request? (calls n).2.hex with
  | none => exact Nat.le_trans (HerdrCall.isSilent_program hr s) (Nat.le_add_right _ _)
  | some r =>
    have hwrites := @HerdrCall.writes_program request loads _ _ r hr s
    apply Nat.le_trans hwrites
    apply Nat.add_le_add_left
    split
    · next hframe => rw [if_pos (hrequest r hr hframe)]
    · exact Nat.zero_le _

/-- `uuid4` has made a new id for every request before call `n`. -/
def FreshIds (calls : ℕ → HerdrCall × HerdrConditions) (n : ℕ) : Prop :=
  ∀ j k r r', j < n → k < n → (calls j).1.request? (calls j).2.hex = some r →
    (calls k).1.request? (calls k).2.hex = some r' → r.id = r'.id → j = k

lemma HerdrCall.id_of_request? {call : HerdrCall} {hex : UuidHex} {r : HerdrRequest}
    (h : call.request? hex = some r) : r.id = newRequestId hex := by
  cases call <;> cases h <;> rfl

/-- Over all connections, the frame of a call is complete at the server once at most. -/
theorem totalCopies_le_one (hfresh : FreshIds calls n) (hi : i < n)
    (hrequest : (calls i).1.request? (calls i).2.hex = some request) :
    totalCopies (frameRequest request) (herdrStateAt loads calls n) ≤ 1 := by
  -- before call `i` there is no copy, and no other call completes one
  have hbound : ∀ k ≤ n, totalCopies (frameRequest request) (herdrStateAt loads calls k) ≤
      if i < k then 1 else 0 := by
    intro k hk
    induction k with
    | zero => exact Nat.le_refl _
    | succ k ih =>
      have hown : ∀ r, (calls k).1.request? (calls k).2.hex = some r →
          frameRequest r = frameRequest request → k = i := by
        intro r hr hframe
        have hid := HerdrCall.id_of_request? hr
        have hid' := HerdrCall.id_of_request? hrequest
        have hhex := hex_eq_of_frameRequest_eq hid hid' hframe
        apply hfresh k i r request hk hi hr hrequest
        rw [hid, hid', newRequestId, newRequestId, hhex]
      have hstep := @totalCopies_step loads calls k i request hown
      have ih := ih (Nat.le_of_succ_le hk)
      split_ifs at ih hstep ⊢ <;> omega
  apply Nat.le_trans (hbound n (Nat.le_refl n))
  split <;> decide

end Run

end Tendwire
