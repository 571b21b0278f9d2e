import Tendwire.Framing.Prefixed
import Tendwire.Turns.Tokens

/-!
# The stream of an isolated reader

A child process reads a session and sends what it found. A response that is too long for one frame
is sent as a manifest, its chunks and an end, and the parent takes it only whole.
-/

namespace Tendwire.Reader

open Strings List Python Framing Tokens

/-- `_OMP_FRAME_HEADER.size`. -/
def headerSize : ℕ := 8

/-- `_OMP_IPC_RESPONSE_CHUNK_BYTES`. -/
def ompIpcResponseChunkBytes : ℕ := 1024 * 1024

/-- Why a response is not received. -/
inductive ReadFailure where
  | stopped (stop : Stop)
  | oversized
  | turnReadFailed
  /-- What `json.loads` raises besides a `JSONDecodeError`. -/
  | unreadable
  | notAscii
  deriving DecidableEq

/-! ### Sending -/

def ompFrame (payload : List UInt8) : List UInt8 := frame headerSize payload

def chunkCount (totalBytes chunkBytes : ℕ) : ℕ := (totalBytes + chunkBytes - 1) / chunkBytes

def chunk (payload : List UInt8) (chunkBytes index : ℕ) : List UInt8 :=
  (payload.drop (index * chunkBytes)).take chunkBytes

/-- The frames that `_blocking_send_streamed_omp_response` sends between its manifest and its end. -/
def chunkFrames (payload : List UInt8) (chunkBytes count : ℕ) : List UInt8 :=
  (range count).flatMap fun i => ompFrame (chunk payload chunkBytes i)

/-! ### Receiving -/

/-- `_recv_frame_until`; the end of the stream and the end of the time stop it. -/
def recvFrameUntil (maximum : ℕ) (arrivals : List (Arrival UInt8)) :
    Except ReadFailure (List UInt8 × List (Arrival UInt8)) :=
  (recvFrame 65535 headerSize maximum arrivals).mapError fun
    | .stopped stop => .stopped stop
    | .oversized => .oversized

section

variable {F : Type} [FloatText F]

def orFail (b : Bool) : Except ReadFailure Unit := if b then .ok () else .error .turnReadFailed

def found {α : Type} (x : Option α) : Except ReadFailure α := x.elim (.error .turnReadFailed) .ok

/-- `secrets.compare_digest`. -/
def sameNonce (a b : Text) : Except ReadFailure Unit :=
  match compareDigest a b with
  | .ok same => orFail same
  | .error _ => .error .notAscii

def positiveAt (m : Entries F) (key : String) : Option ℕ :=
  ((numberAt m key).filter (0 < ·)).map Int.toNat

def manifestKeys : List String :=
  ["protocol", "nonce", "stream", "chunks", "total_bytes", "chunk_bytes"]

/-- The chunks, the bytes and the size of a chunk that a manifest announces. -/
def readManifest (isOmp : Bool) (nonce : Text) (m : Entries F) :
    Except ReadFailure (ℕ × ℕ × ℕ) := do
  orFail (isOmp && hasKeys m manifestKeys && equalsNumber 1 (Entries.get? m (ofString "protocol")) &&
    textAt m "stream" == some (ofString "omp_response"))
  let claimed ← found (textAt m "nonce")
  sameNonce claimed nonce
  let chunks ← found (positiveAt m "chunks")
  let totalBytes ← found (positiveAt m "total_bytes")
  let chunkBytes ← found (positiveAt m "chunk_bytes")
  orFail (decide (chunkBytes ≤ ompIpcResponseChunkBytes) &&
    chunks == chunkCount totalBytes chunkBytes)
  .ok (chunks, totalBytes, chunkBytes)

/-- Reading the end; `raises` tells of a text that cannot be read whether that is something else
than a `JSONDecodeError`. -/
def readEnd (F : Type) [FloatText F] (raises : Text → Bool) (nonce : Text) (bytes : List UInt8) :
    Except ReadFailure Unit :=
  match decodeUtf8 bytes with
  | none => .error .turnReadFailed
  | some text =>
    match loads (F := F) text with
    | none => .error (if raises text then .unreadable else .turnReadFailed)
    | some v => do
      let m ← found v.dict?
      orFail (hasKeys m ["protocol", "nonce", "stream"] &&
        equalsNumber 1 (Entries.get? m (ofString "protocol")) &&
        textAt m "stream" == some (ofString "omp_response_end"))
      let claimed ← found (textAt m "nonce")
      sameNonce claimed nonce

/-- The loop over the chunks that are left. -/
def recvChunks (totalBytes chunkBytes : ℕ) : ℕ → List UInt8 → List (Arrival UInt8) →
    Except ReadFailure (List UInt8 × List (Arrival UInt8))
  | 0, assembled, arrivals => .ok (assembled, arrivals)
  | left + 1, assembled, arrivals => do
    let (chunk, rest) ← recvFrameUntil chunkBytes arrivals
    orFail (if 0 < left then chunk.length == chunkBytes
      else assembled.length + chunk.length == totalBytes)
    recvChunks totalBytes chunkBytes left (assembled ++ chunk) rest

/-- The peer has to close behind the end. -/
def closes (arrivals : List (Arrival UInt8)) : Except ReadFailure Unit :=
  match fill 0 1 [] arrivals with
  | .ok _ => .error .turnReadFailed
  | .error .closed => .ok ()
  | .error .timeout => .error (.stopped .timeout)

def recvStream (raises : Text → Bool) (isOmp : Bool) (nonce : Text) (m : Entries F)
    (arrivals : List (Arrival UInt8)) : Except ReadFailure (List UInt8) := do
  let (chunks, totalBytes, chunkBytes) ← readManifest isOmp nonce m
  let (assembled, rest) ← recvChunks totalBytes chunkBytes chunks [] arrivals
  orFail (assembled.length == totalBytes)
  let (last, rest) ← recvFrameUntil 1024 rest
  readEnd F raises nonce last
  closes rest
  .ok assembled

/-- The manifest that a frame holds, if it is not a response itself. -/
def streamManifest (F : Type) [FloatText F] (raises : Text → Bool) (first : List UInt8) :
    Except ReadFailure (Option (Entries F)) :=
  match decodeUtf8 first with
  | none => .ok none
  | some text =>
    match loads (F := F) text with
    | none => if raises text then .error .unreadable else .ok none
    | some v => .ok (v.dict?.filter fun m => (Entries.get? m (ofString "stream")).isSome)

/-- `_recv_streamed_omp_response_until`. -/
def recvStreamedOmpResponseUntil (F : Type) [FloatText F] (raises : Text → Bool) (isOmp : Bool)
    (nonce : Text) (first : List UInt8) (arrivals : List (Arrival UInt8)) :
    Except ReadFailure (List UInt8) := do
  match ← streamManifest F raises first with
  | none => .ok first
  | some m => recvStream raises isOmp nonce m arrivals

/-- What the parent takes from an OMP reader. -/
def recvOmpResponse (F : Type) [FloatText F] (raises : Text → Bool) (nonce : Text)
    (arrivals : List (Arrival UInt8)) : Except ReadFailure (List UInt8) := do
  let (first, rest) ← recvFrameUntil ompIpcResponseChunkBytes arrivals
  recvStreamedOmpResponseUntil F raises true nonce first rest

end

/-! ### Frames that are received -/

variable {F : Type} [FloatText F] {raises : Text → Bool} {isOmp : Bool} {nonce : Text}
  {payload data assembled first last s : List UInt8} {arrivals rest : List (Arrival UInt8)}
  {maximum totalBytes chunkBytes count left : ℕ} {m : Entries F}

lemma orFail_eq_ok {b : Bool} {u : Unit} : orFail b = .ok u ↔ b = true := by
  cases b <;> simp [orFail]

lemma found_eq_ok {α : Type} {x : Option α} {a : α} : found x = .ok a ↔ x = some a := by
  cases x <;> simp [found]

lemma recvFrameUntil_eq_ok : recvFrameUntil maximum arrivals = .ok (payload, rest) ↔
    recvFrame 65535 headerSize maximum arrivals = .ok (payload, rest) := mapError_eq_ok

/-- A frame within the bound is received, with no byte behind it. -/
lemma recvFrameUntil_frame (hlength : payload.length ≤ maximum)
    (hmaximum : maximum < 256 ^ headerSize)
    (h : stream arrivals = ompFrame payload ++ s) :
    ∃ rest, recvFrameUntil maximum arrivals = .ok (payload, rest) ∧ stream rest = s ∧
      ending rest = ending arrivals := by
  obtain ⟨rest, hrest, hstream, hending⟩ :=
    recvFrame_frame 65535 (Nat.lt_of_le_of_lt hlength hmaximum) hlength h
  exact ⟨rest, recvFrameUntil_eq_ok.mpr hrest, hstream, hending⟩

lemma recvFrameUntil_exact (h : recvFrameUntil maximum arrivals = .ok (payload, rest)) :
    stream arrivals = ompFrame payload ++ stream rest ∧ payload.length ≤ maximum ∧
      ending rest = ending arrivals := by
  obtain ⟨hstream, -, hlength, hending⟩ := recvFrame_exact (recvFrameUntil_eq_ok.mp h)
  exact ⟨hstream, hlength, hending⟩

/-- The peer is seen to close if nothing is left and it does. -/
lemma closes_eq_ok {u : Unit} :
    closes arrivals = .ok u ↔ stream arrivals = [] ∧ ending arrivals = .closed := by
  unfold closes
  rcases Nat.eq_zero_or_pos (stream arrivals).length with hnone | hsome
  · have hshort : ([] : List UInt8).length + (stream arrivals).length < 1 := by
      rw [hnone]
      exact Nat.one_pos
    rw [fill_of_lt hshort, List.eq_nil_of_length_eq_zero hnone]
    cases ending arrivals <;> simp
  · have hlong : 1 ≤ ([] : List UInt8).length + (stream arrivals).length := by
      rw [List.length_nil, Nat.zero_add]
      exact hsome
    obtain ⟨rest, hfill, -, -⟩ := fill_of_le 0 (Nat.zero_le 1) hlong
    rw [hfill]
    have hne : stream arrivals ≠ [] := List.ne_nil_of_length_pos hsome
    simp [hne]

/-! ### Chunks -/

/-- The first chunks of a text, with what is left over in none of them. -/
def cuts (chunkBytes : ℕ) : ℕ → List UInt8 → List (List UInt8)
  | 0, _ => []
  | n + 1, data => data.take chunkBytes :: cuts chunkBytes n (data.drop chunkBytes)

lemma chunk_zero : chunk payload chunkBytes 0 = payload.take chunkBytes := by
  rw [chunk, Nat.zero_mul, List.drop_zero]

lemma chunk_succ (i : ℕ) :
    chunk payload chunkBytes (i + 1) = chunk (payload.drop chunkBytes) chunkBytes i := by
  rw [chunk, chunk, List.drop_drop, Nat.succ_mul, Nat.add_comm chunkBytes]

lemma map_chunk : (range count).map (chunk payload chunkBytes) = cuts chunkBytes count payload := by
  induction count generalizing payload with
  | zero => rfl
  | succ count ih =>
    rw [List.range_succ_eq_map, List.map_cons, List.map_map, chunk_zero, cuts, ← ih]
    exact congrArg _ (List.map_congr_left fun i _ => chunk_succ i)

/-- The chunks that were sent are received. -/
lemma recvChunks_cuts (hlow : data.length ≤ left * chunkBytes)
    (hhigh : left * chunkBytes < data.length + chunkBytes)
    (hbound : chunkBytes < 256 ^ headerSize) (htotal : assembled.length + data.length = totalBytes)
    (h : stream arrivals = (cuts chunkBytes left data).flatMap ompFrame ++ s) :
    ∃ rest,
      recvChunks totalBytes chunkBytes left assembled arrivals = .ok (assembled ++ data, rest) ∧
      stream rest = s ∧ ending rest = ending arrivals := by
  induction left generalizing data assembled arrivals with
  | zero =>
    rw [Nat.zero_mul, Nat.le_zero] at hlow
    rw [List.eq_nil_of_length_eq_zero hlow, List.append_nil]
    exact ⟨arrivals, rfl, h, rfl⟩
  | succ left ih =>
    rw [Nat.succ_mul] at hlow hhigh
    rw [cuts, List.flatMap_cons, List.append_assoc] at h
    obtain ⟨behind, hframe, hbehind, hending⟩ :=
      recvFrameUntil_frame (List.length_take_le chunkBytes data) hbound h
    have hdrop : (data.drop chunkBytes).length = data.length - chunkBytes := List.length_drop
    have htake : (data.take chunkBytes).length = min chunkBytes data.length := List.length_take
    have hwhole : assembled ++ data.take chunkBytes ++ data.drop chunkBytes = assembled ++ data := by
      rw [List.append_assoc, List.take_append_drop]
    have hexpected : (if 0 < left then (data.take chunkBytes).length == chunkBytes
        else assembled.length + (data.take chunkBytes).length == totalBytes) = true := by
      split
      · next hpos =>
        have hone : chunkBytes ≤ left * chunkBytes := Nat.le_mul_of_pos_left chunkBytes hpos
        rw [beq_iff_eq]
        omega
      · next hzero =>
        obtain rfl : left = 0 := by omega
        rw [beq_iff_eq]
        omega
    have hlow' : (data.drop chunkBytes).length ≤ left * chunkBytes := by omega
    have hhigh' : left * chunkBytes < (data.drop chunkBytes).length + chunkBytes := by
      rcases Nat.eq_zero_or_pos left with rfl | hpos
      · omega
      · have hone : chunkBytes ≤ left * chunkBytes := Nat.le_mul_of_pos_left chunkBytes hpos
        omega
    have htotal' : (assembled ++ data.take chunkBytes).length + (data.drop chunkBytes).length =
        totalBytes := by
      rw [List.length_append]
      omega
    obtain ⟨rest, hrest, hstream, hend⟩ := ih hlow' hhigh' htotal' hbehind
    refine ⟨rest, ?_, hstream, hend.trans hending⟩
    rw [recvChunks, Transition.bind_eq_ok]
    refine ⟨_, hframe, Transition.bind_eq_ok.mpr ⟨(), orFail_eq_ok.mpr hexpected, ?_⟩⟩
    rw [hrest, hwhole]

/-- Chunks that are received were sent. -/
lemma recvChunks_exact
    (h : recvChunks totalBytes chunkBytes left assembled arrivals = .ok (payload, rest)) :
    ∃ data, payload = assembled ++ data ∧ (left = 0 → data = []) ∧
      stream arrivals = (cuts chunkBytes left data).flatMap ompFrame ++ stream rest ∧
      ending rest = ending arrivals := by
  induction left generalizing assembled arrivals with
  | zero =>
    obtain ⟨rfl, rfl⟩ := Prod.mk.inj (Except.ok.inj h)
    exact ⟨[], (List.append_nil _).symm, fun _ => rfl, rfl, rfl⟩
  | succ left ih =>
    obtain ⟨⟨piece, behind⟩, hframe, h⟩ := Transition.bind_eq_ok.mp h
    obtain ⟨⟨⟩, hexpected, h⟩ := Transition.bind_eq_ok.mp h
    obtain ⟨hstream, hlength, hending⟩ := recvFrameUntil_exact hframe
    obtain ⟨data, rfl, hnone, hbehind, hend⟩ := ih h
    rw [orFail_eq_ok] at hexpected
    refine ⟨piece ++ data, List.append_assoc _ _ _, fun h => absurd h (Nat.succ_ne_zero left), ?_,
      hend.trans hending⟩
    have hcut : cuts chunkBytes (left + 1) (piece ++ data) = piece :: cuts chunkBytes left data := by
      split at hexpected
      · have hpiece : piece.length = chunkBytes := beq_iff_eq.mp hexpected
        rw [cuts, List.take_left' hpiece, List.drop_left' hpiece]
      · next hzero =>
        obtain rfl : left = 0 := by omega
        rw [hnone rfl, List.append_nil]
        exact congrArg (· :: []) (List.take_of_length_le hlength)
    rw [hcut, List.flatMap_cons, List.append_assoc, ← hbehind]
    exact hstream

/-! ### Responses -/

omit [FloatText F] in
lemma positiveAt_pos {key : String} {n : ℕ} (h : positiveAt m key = some n) : 0 < n := by
  obtain ⟨k, hk, rfl⟩ := Option.map_eq_some_iff.mp h
  have hpos : 0 < k := of_decide_eq_true (Option.filter_eq_some_iff.mp hk).2
  omega

/-- What a manifest announces can be sent. -/
lemma readManifest_spec
    (h : readManifest isOmp nonce m = .ok (count, totalBytes, chunkBytes)) :
    0 < chunkBytes ∧ chunkBytes ≤ ompIpcResponseChunkBytes ∧
      count = chunkCount totalBytes chunkBytes := by
  unfold readManifest at h
  simp only [Transition.bind_eq_ok, found_eq_ok, orFail_eq_ok] at h
  obtain ⟨-, -, claimed, -, -, -, chunks, -, total, -, size, hsize, -, hfits, h⟩ := h
  obtain ⟨rfl, rfl, rfl⟩ := Except.ok.inj h
  rw [Bool.and_eq_true, decide_eq_true_eq, beq_iff_eq] at hfits
  exact ⟨positiveAt_pos hsize, hfits.1, hfits.2⟩

/-- There are just as many chunks as it takes. -/
lemma chunkCount_spec (totalBytes : ℕ) (h : 0 < chunkBytes) :
    totalBytes ≤ chunkCount totalBytes chunkBytes * chunkBytes ∧
    chunkCount totalBytes chunkBytes * chunkBytes < totalBytes + chunkBytes := by
  have hdiv := Nat.div_add_mod (totalBytes + chunkBytes - 1) chunkBytes
  have hmod := Nat.mod_lt (totalBytes + chunkBytes - 1) h
  rw [Nat.mul_comm] at hdiv
  unfold chunkCount
  omega

lemma chunkFrames_eq : chunkFrames payload chunkBytes count =
    (cuts chunkBytes count payload).flatMap ompFrame := by
  rw [← map_chunk, List.flatMap_map]
  rfl

/-- Behind a manifest, what is received is what was sent in its chunks and closed. -/
theorem recvStream_eq_ok
    (hm : readManifest isOmp nonce m = .ok (count, totalBytes, chunkBytes)) :
    recvStream raises isOmp nonce m arrivals = .ok payload ↔
      payload.length = totalBytes ∧ ending arrivals = .closed ∧
        ∃ last, last.length ≤ 1024 ∧ readEnd F raises nonce last = .ok () ∧
          stream arrivals = chunkFrames payload chunkBytes count ++ ompFrame last := by
  obtain ⟨hpos, hbound, hcount⟩ := readManifest_spec hm
  unfold recvStream
  constructor
  · intro h
    obtain ⟨announced, hannounced, h⟩ := Transition.bind_eq_ok.mp h
    obtain rfl := Except.ok.inj (hm.symm.trans hannounced)
    obtain ⟨⟨assembled, behind⟩, hchunks, h⟩ := Transition.bind_eq_ok.mp h
    obtain ⟨⟨⟩, htotal, h⟩ := Transition.bind_eq_ok.mp h
    obtain ⟨⟨last, rest⟩, hlast, h⟩ := Transition.bind_eq_ok.mp h
    obtain ⟨⟨⟩, hend, h⟩ := Transition.bind_eq_ok.mp h
    obtain ⟨⟨⟩, hcloses, h⟩ := Transition.bind_eq_ok.mp h
    obtain rfl := Except.ok.inj h
    obtain ⟨data, rfl, -, hstream, hending⟩ := recvChunks_exact hchunks
    obtain ⟨hbehind, hlength, hending'⟩ := recvFrameUntil_exact hlast
    obtain ⟨hnone, hclosed⟩ := closes_eq_ok.mp hcloses
    rw [hnone, List.append_nil] at hbehind
    refine ⟨beq_iff_eq.mp (orFail_eq_ok.mp htotal), ?_, last, hlength, hend, ?_⟩
    · rw [← hending, ← hending', hclosed]
    · rw [chunkFrames_eq, hstream, hbehind]
  · rintro ⟨rfl, hclosed, last, hlength, hend, hstream⟩
    have hframe : ompIpcResponseChunkBytes < 256 ^ headerSize := by decide
    obtain ⟨hlow, hhigh⟩ := chunkCount_spec payload.length hpos
    have hnone : ([] : List UInt8).length + payload.length = payload.length := Nat.zero_add _
    rw [chunkFrames_eq] at hstream
    rw [← hcount] at hlow hhigh
    obtain ⟨behind, hchunks, hbehind, hending⟩ :=
      recvChunks_cuts hlow hhigh (Nat.lt_of_le_of_lt hbound hframe) hnone hstream
    rw [← List.append_nil (ompFrame last)] at hbehind
    obtain ⟨rest, hrest, hleft, hending'⟩ :=
      recvFrameUntil_frame hlength (by decide : 1024 < 256 ^ headerSize) hbehind
    have hcloses : closes rest = .ok () :=
      closes_eq_ok.mpr ⟨hleft, hending'.trans (hending.trans hclosed)⟩
    refine Transition.bind_eq_ok.mpr ⟨_, hm, Transition.bind_eq_ok.mpr ⟨_, hchunks, ?_⟩⟩
    refine Transition.bind_eq_ok.mpr ⟨(), orFail_eq_ok.mpr (beq_iff_eq.mpr rfl), ?_⟩
    refine Transition.bind_eq_ok.mpr ⟨_, hrest, Transition.bind_eq_ok.mpr ⟨(), hend, ?_⟩⟩
    exact Transition.bind_eq_ok.mpr ⟨(), hcloses, rfl⟩

/-- However the bytes arrive, a response is taken exactly if it was sent whole: in one frame that is
no manifest, or behind a manifest of this read in as many chunks as it announces, with the end of
this read behind them and nothing more. -/
theorem recvOmpResponse_iff :
    recvOmpResponse F raises nonce arrivals = .ok payload ↔
      (∃ s, stream arrivals = ompFrame payload ++ s ∧
        payload.length ≤ ompIpcResponseChunkBytes ∧ streamManifest F raises payload = .ok none) ∨
      ∃ first last m count chunkBytes, first.length ≤ ompIpcResponseChunkBytes ∧
        streamManifest F raises first = .ok (some m) ∧
        readManifest true nonce m = .ok (count, payload.length, chunkBytes) ∧
        last.length ≤ 1024 ∧ readEnd F raises nonce last = .ok () ∧ ending arrivals = .closed ∧
        stream arrivals =
          ompFrame first ++ (chunkFrames payload chunkBytes count ++ ompFrame last) := by
  have hframe : ompIpcResponseChunkBytes < 256 ^ headerSize := by decide
  unfold recvOmpResponse recvStreamedOmpResponseUntil
  constructor
  · intro h
    obtain ⟨⟨first, rest⟩, hfirst, h⟩ := Transition.bind_eq_ok.mp h
    obtain ⟨manifest?, hmanifest, h⟩ := Transition.bind_eq_ok.mp h
    obtain ⟨hstream, hlength, hending⟩ := recvFrameUntil_exact hfirst
    cases manifest? with
    | none =>
      obtain rfl := Except.ok.inj h
      exact .inl ⟨stream rest, hstream, hlength, hmanifest⟩
    | some m =>
      obtain ⟨⟨count, totalBytes, chunkBytes⟩, hm, -⟩ := Transition.bind_eq_ok.mp h
      obtain ⟨rfl, hclosed, last, hlast, hend, hrest⟩ := (recvStream_eq_ok hm).mp h
      refine .inr ⟨first, last, m, count, chunkBytes, hlength, hmanifest, hm, hlast, hend,
        hending ▸ hclosed, ?_⟩
      rw [hstream, hrest]
  · rintro (⟨s, hstream, hlength, hmanifest⟩ |
      ⟨first, last, m, count, chunkBytes, hlength, hmanifest, hm, hlast, hend, hclosed, hstream⟩)
    · obtain ⟨rest, hrest, -, -⟩ := recvFrameUntil_frame hlength hframe hstream
      exact Transition.bind_eq_ok.mpr ⟨_, hrest, Transition.bind_eq_ok.mpr ⟨_, hmanifest, rfl⟩⟩
    · obtain ⟨rest, hrest, hbehind, hending⟩ := recvFrameUntil_frame hlength hframe hstream
      refine Transition.bind_eq_ok.mpr ⟨_, hrest, Transition.bind_eq_ok.mpr ⟨_, hmanifest, ?_⟩⟩
      exact (recvStream_eq_ok hm).mpr
        ⟨rfl, hending.trans hclosed, last, hlast, hend, hbehind⟩

end Tendwire.Reader
