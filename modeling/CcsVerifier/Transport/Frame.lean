import CcsVerifier.Python.Reload

/-!
# Message frames

`MessageFrame`: JSON messages behind a four-byte length, read from an `asyncio.StreamReader`.

* `StreamReader.readexactly`: reading waits for the chunks that are still to arrive.
* `MessageFrame.encode`, `MessageFrame.decode`: a message and its frame.
* `MessageFrame.decode_eq_decodeBytes`: decoding depends on the bytes alone, not on how the stream
  was cut into chunks.
* `MessageFrame.messages`: the messages that a stream of bytes decodes to.
* `MessageFrame.framing_lossless`: frames are self-delimiting and lossless.
-/

/-! ## Reading from a stream -/

/-- An `asyncio.StreamReader`: the buffered bytes, and the chunks that arrive while a read waits.
After these the stream ends. -/
structure StreamReader where
  /-- The bytes in the buffer. -/
  buffer : Bytes
  /-- The chunks that are still to arrive. -/
  arriving : List Bytes

namespace StreamReader

/-- All the bytes that are still to be read. -/
def contents (r : StreamReader) : Bytes := r.buffer ++ r.arriving.flatten

/-- `IncompleteReadError(received, expected)` -/
def incompleteRead (received : Bytes) (expected : ℕ) : PyExc :=
  ⟨.incompleteReadError, intText received.length ++ text " bytes read on a total of "
    ++ intText expected ++ text " expected bytes"⟩

/-- `await reader.readexactly(n)`, with the buffer and the arriving chunks apart. -/
def readexactlyFrom (n : ℕ) (buffer : Bytes) : List Bytes → Except PyExc Bytes × StreamReader
  | [] =>
    if n ≤ buffer.length then (.ok (buffer.take n), ⟨buffer.drop n, []⟩)
    else (.error (incompleteRead buffer n), ⟨[], []⟩)
  | chunk :: arriving =>
    if n ≤ buffer.length then (.ok (buffer.take n), ⟨buffer.drop n, chunk :: arriving⟩)
    else readexactlyFrom n (buffer ++ chunk) arriving

/-- `await reader.readexactly(n)` -/
def readexactly (n : ℕ) (r : StreamReader) : Except PyExc Bytes × StreamReader :=
  readexactlyFrom n r.buffer r.arriving

/-- `readexactly(n)` waits for `n` bytes, or the end of the stream. -/
private theorem readexactlyFrom_spec (n : ℕ) (buffer : Bytes) (arriving : List Bytes) :
    if n ≤ (buffer ++ arriving.flatten).length then
      ∃ r', readexactlyFrom n buffer arriving = (.ok ((buffer ++ arriving.flatten).take n), r') ∧
        r'.contents = (buffer ++ arriving.flatten).drop n
    else readexactlyFrom n buffer arriving =
      (.error (incompleteRead (buffer ++ arriving.flatten) n), ⟨[], []⟩) := by
  induction arriving generalizing buffer with
  | nil =>
    simp only [List.flatten_nil, List.append_nil, readexactlyFrom]
    split
    · exact ⟨_, rfl, by simp [contents]⟩
    · rfl
  | cons chunk arriving ih =>
    rw [readexactlyFrom]
    by_cases hbuffer : n ≤ buffer.length
    · have htotal : n ≤ (buffer ++ (chunk :: arriving).flatten).length := by
        rw [List.length_append]
        omega
      rw [if_pos htotal, if_pos hbuffer]
      refine ⟨_, by rw [List.take_append_of_le_length hbuffer], ?_⟩
      rw [List.drop_append_of_le_length hbuffer, contents]
    · -- the read waits for the next chunk
      rw [if_neg hbuffer, List.flatten_cons, ← List.append_assoc]
      exact ih (buffer ++ chunk)

/-- With enough bytes to come, a read returns the first of them and leaves the others. -/
theorem readexactly_of_le {n : ℕ} {r : StreamReader} (h : n ≤ r.contents.length) :
    ∃ r', r.readexactly n = (.ok (r.contents.take n), r') ∧ r'.contents = r.contents.drop n := by
  have hspec := readexactlyFrom_spec n r.buffer r.arriving
  rw [if_pos (show n ≤ (r.buffer ++ r.arriving.flatten).length from h)] at hspec
  exact hspec

/-- With too few bytes to come, a read reports that the stream has ended. -/
theorem readexactly_of_lt {n : ℕ} {r : StreamReader} (h : r.contents.length < n) :
    r.readexactly n = (.error (incompleteRead r.contents n), ⟨[], []⟩) := by
  have hspec := readexactlyFrom_spec n r.buffer r.arriving
  rw [if_neg (show ¬n ≤ (r.buffer ++ r.arriving.flatten).length from not_le.mpr h)] at hspec
  exact hspec

end StreamReader

/-! ## Headers -/

/-- `struct.pack(">I", n)` -/
def packUInt32 (n : ℕ) : Bytes :=
  [UInt8.ofNat (n / 2 ^ 24), UInt8.ofNat (n / 2 ^ 16), UInt8.ofNat (n / 2 ^ 8), UInt8.ofNat n]

/-- `struct.unpack(">I", header)[0]` -/
def unpackUInt32 (header : Bytes) : ℕ := header.foldl (fun acc b => acc * 256 + b.toNat) 0

@[simp]
theorem length_packUInt32 (n : ℕ) : (packUInt32 n).length = 4 := rfl

/-- A length that fits is read back. -/
theorem unpackUInt32_packUInt32 {n : ℕ} (h : n < 2 ^ 32) : unpackUInt32 (packUInt32 n) = n := by
  simp only [unpackUInt32, packUInt32, List.foldl_cons, List.foldl_nil, UInt8.toNat_ofNat']
  omega

/-- `b.decode("utf-8")` -/
def decodeText (b : Bytes) : Except PyExc Text :=
  match Text.decodeUtf8 b with
  | some t => .ok t
  | none => .error ⟨.unicodeDecodeError, text "'utf-8' codec can't decode"⟩

/-- Encoded text is read back. -/
theorem decodeText_of_encode {t : Text} {b : Bytes} (h : t.encode = .ok b) :
    decodeText b = .ok t := by
  have hbytes : t.encodeUtf8 = some b := by
    unfold Text.encode at h
    split at h
    · next heq =>
      cases h
      exact heq
    · cases h
  rw [decodeText, Text.decodeUtf8_of_encodeUtf8 hbytes]

/-! ## Frames -/

namespace MessageFrame

/-- `MessageFrame.HEADER_SIZE` -/
def headerSize : ℕ := 4

/-- `MessageFrame.MAX_MESSAGE_SIZE` -/
def maxMessageSize : ℕ := 1 * 1024 * 1024

/-- `TransportError(f"Message too large: {n} bytes")` -/
def tooLarge (n : ℕ) : PyExc :=
  ⟨.transportError, text "Message too large: " ++ intText n ++ text " bytes"⟩

/-- `MessageFrame.encode(msg)` -/
def encode (msg : PyVal) : Except PyExc Bytes := do
  let dumped ← dumps .compact msg
  let payload ← dumped.encode
  if maxMessageSize < payload.length then .error (tooLarge payload.length)
  else return packUInt32 payload.length ++ payload

/-- `json.loads(payload.decode("utf-8"))` -/
def parsePayload (payload : Bytes) : Except PyExc PyVal := do
  let t ← decodeText payload
  loads t

/-- `await MessageFrame.decode(reader)` -/
def decode (r : StreamReader) : Except PyExc PyVal × StreamReader :=
  match r.readexactly headerSize with
  | (.error e, r) => (.error e, r)
  | (.ok header, r) =>
    if maxMessageSize < unpackUInt32 header then (.error (tooLarge (unpackUInt32 header)), r)
    else
      match r.readexactly (unpackUInt32 header) with
      | (.error e, r) => (.error e, r)
      | (.ok payload, r) => (parsePayload payload, r)

/-- What decoding makes of the bytes of a stream, and the bytes that it leaves. -/
def decodeBytes (b : Bytes) : Except PyExc PyVal × Bytes :=
  if b.length < headerSize then (.error (StreamReader.incompleteRead b headerSize), [])
  else
    let size := unpackUInt32 (b.take headerSize)
    let rest := b.drop headerSize
    if maxMessageSize < size then (.error (tooLarge size), rest)
    else if rest.length < size then (.error (StreamReader.incompleteRead rest size), [])
    else (parsePayload (rest.take size), rest.drop size)

/-- Decoding depends on the bytes of the stream alone. -/
theorem decode_eq_decodeBytes (r : StreamReader) :
    ((decode r).1, (decode r).2.contents) = decodeBytes r.contents := by
  unfold decode decodeBytes
  -- the two functions stop at the same places: the header, the size, the payload
  by_cases hheader : r.contents.length < headerSize
  · rw [StreamReader.readexactly_of_lt hheader, if_pos hheader]
    rfl
  obtain ⟨r', hread, hrest⟩ := StreamReader.readexactly_of_le (not_lt.mp hheader)
  rw [hread, if_neg hheader]
  dsimp only
  rw [← hrest]
  by_cases hsize : maxMessageSize < unpackUInt32 (r.contents.take headerSize)
  · rw [if_pos hsize, if_pos hsize]
  rw [if_neg hsize, if_neg hsize]
  by_cases hpayload : r'.contents.length < unpackUInt32 (r.contents.take headerSize)
  · rw [StreamReader.readexactly_of_lt hpayload, if_pos hpayload]
    rfl
  obtain ⟨r'', hread', hrest'⟩ := StreamReader.readexactly_of_le (not_lt.mp hpayload)
  rw [hread', if_neg hpayload]
  dsimp only
  rw [hrest']

/-- A stream that starts with a frame gives the payload of the frame and keeps the rest. -/
theorem decodeBytes_frame {payload : Bytes} (h : payload.length ≤ maxMessageSize) (rest : Bytes) :
    decodeBytes (packUInt32 payload.length ++ payload ++ rest) = (parsePayload payload, rest) := by
  have hsize : payload.length < 2 ^ 32 := lt_of_le_of_lt h (by decide)
  have hheader : (packUInt32 payload.length ++ payload ++ rest).take headerSize =
      packUInt32 payload.length := by
    rw [List.append_assoc]
    exact List.take_left' rfl
  have hrest : (packUInt32 payload.length ++ payload ++ rest).drop headerSize = payload ++ rest := by
    rw [List.append_assoc]
    exact List.drop_left' rfl
  have hlength : ¬(packUInt32 payload.length ++ payload ++ rest).length < headerSize := by
    simp only [List.length_append, length_packUInt32, headerSize]
    omega
  have henough : ¬(payload ++ rest).length < payload.length := by
    rw [List.length_append]
    omega
  rw [decodeBytes, if_neg hlength]
  simp only [hheader, hrest, unpackUInt32_packUInt32 hsize]
  rw [if_neg (not_lt.mpr h), if_neg henough, List.take_left, List.drop_left]

/-- A frame is a header with the length of a payload, and the payload within the limit. -/
theorem encode_eq_ok {msg : PyVal} {frame : Bytes} (h : encode msg = .ok frame) :
    ∃ payload, frame = packUInt32 payload.length ++ payload ∧ payload.length ≤ maxMessageSize ∧
      parsePayload payload = .ok (msg.reload .compact) := by
  simp only [encode, Except.bind_eq_ok_iff] at h
  obtain ⟨dumped, hdumped, payload, hpayload, h⟩ := h
  split at h
  · cases h
  next hsize =>
  cases h
  refine ⟨payload, rfl, not_lt.mp hsize, ?_⟩
  rw [parsePayload, decodeText_of_encode hpayload]
  exact PyVal.loads_dumps DumpStyle.standard_compact hdumped

/-- Decoding a frame gives the message back, as it comes back from JSON. -/
theorem decodeBytes_encode {msg : PyVal} {frame : Bytes} (h : encode msg = .ok frame)
    (rest : Bytes) : decodeBytes (frame ++ rest) = (.ok (msg.reload .compact), rest) := by
  obtain ⟨payload, rfl, hsize, hparse⟩ := encode_eq_ok h
  rw [decodeBytes_frame hsize, hparse]

/-- A message that is decoded stands at the start of the stream, behind its length. -/
theorem exists_frame_of_decodeBytes {b rest : Bytes} {msg : PyVal}
    (h : decodeBytes b = (.ok msg, rest)) : ∃ header payload, b = header ++ payload ++ rest ∧
      header.length = headerSize ∧ unpackUInt32 header = payload.length ∧
      payload.length ≤ maxMessageSize ∧ parsePayload payload = .ok msg := by
  unfold decodeBytes at h
  split at h
  · cases h
  next hheader =>
  dsimp only at h
  split at h
  · cases h
  -- the header has four bytes: the length is checked before the payload is read
  next hsize =>
  split at h
  · cases h
  next hpayload =>
  -- the frame is whole, and what follows it stays in the buffer
  obtain ⟨hparse, rfl⟩ := Prod.mk.inj h
  have htake : ((b.drop headerSize).take (unpackUInt32 (b.take headerSize))).length =
      unpackUInt32 (b.take headerSize) := by
    rw [List.length_take]
    omega
  refine ⟨b.take headerSize, (b.drop headerSize).take (unpackUInt32 (b.take headerSize)), ?_, ?_,
    htake.symm, ?_, hparse⟩
  · rw [List.append_assoc, List.take_append_drop, List.take_append_drop]
  · rw [List.length_take]
    omega
  · rw [htake]
    exact not_lt.mp hsize

/-- A stream that ends inside a frame is reported as an incomplete read. -/
theorem decodeBytes_of_prefix {msg : PyVal} {frame b : Bytes} (h : encode msg = .ok frame)
    (hpre : b <+: frame) (hne : b ≠ frame) :
    ∃ e, decodeBytes b = (.error e, []) ∧ e.kind = .incompleteReadError := by
  obtain ⟨payload, rfl, hsize, -⟩ := encode_eq_ok h
  have hlt : b.length < headerSize + payload.length := by
    refine lt_of_le_of_ne ?_ fun heq => hne (hpre.eq_of_length ?_)
    · have := hpre.length_le
      simpa [headerSize] using this
    · simpa [headerSize] using heq
  unfold decodeBytes
  by_cases hheader : b.length < headerSize
  · rw [if_pos hheader]
    exact ⟨_, rfl, rfl⟩
  -- the header is complete, so it is the header of the frame
  have htake : b.take headerSize = packUInt32 payload.length := by
    obtain ⟨rest, hrest⟩ := hpre
    have := congrArg (List.take headerSize) hrest
    rw [List.take_append_of_le_length (not_lt.mp hheader)] at this
    rw [this]
    exact List.take_left' rfl
  have hpacked := unpackUInt32_packUInt32 (lt_of_le_of_lt hsize (by decide) : payload.length < 2 ^ 32)
  have hshort : (b.drop headerSize).length < payload.length := by
    rw [List.length_drop]
    omega
  rw [if_neg hheader]
  simp only [htake, hpacked]
  rw [if_neg (not_lt.mpr hsize), if_pos hshort]
  exact ⟨_, rfl, rfl⟩

/-- Decoding waits: what has arrived is neither a whole frame nor a header that is refused. -/
def awaits (b : Bytes) : Bool :=
  if b.length < headerSize then true
  else
    let size := unpackUInt32 (b.take headerSize)
    if maxMessageSize < size then false else (b.drop headerSize).length < size

/-- What stays in the buffer when decoding is interrupted while it waits: a complete header has been
taken out, an incomplete payload has not. -/
def interrupted (b : Bytes) : Bytes := if b.length < headerSize then b else b.drop headerSize

/-- The stream starts with a header that announces too many bytes. -/
def Refuses (b : Bytes) : Prop :=
  headerSize ≤ b.length ∧ maxMessageSize < unpackUInt32 (b.take headerSize)

/-- Such a header is a transport error. -/
theorem decodeBytes_of_refuses {b : Bytes} (h : Refuses b) :
    (decodeBytes b).1 = .error (tooLarge (unpackUInt32 (b.take headerSize))) := by
  unfold decodeBytes
  rw [if_neg (not_lt.mpr h.1)]
  dsimp only
  rw [if_pos h.2]

/-- Decoding neither waits nor refuses the header: a whole frame has arrived. -/
theorem exists_payload_of_not_awaits {b : Bytes} (hwait : awaits b = false) (hrefuses : ¬Refuses b) :
    ∃ payload, (decodeBytes b).1 = parsePayload payload := by
  unfold awaits at hwait
  unfold decodeBytes
  by_cases hheader : b.length < headerSize
  · rw [if_pos hheader] at hwait
    cases hwait
  rw [if_neg hheader] at hwait ⊢
  dsimp only at hwait ⊢
  have hsize : ¬maxMessageSize < unpackUInt32 (b.take headerSize) := fun h =>
    hrefuses ⟨not_lt.mp hheader, h⟩
  rw [if_neg hsize] at hwait ⊢
  rw [if_neg (of_decide_eq_false hwait)]
  exact ⟨_, rfl⟩

/-- A payload that is not JSON is not a network error. -/
theorem parsePayload_raises (payload : Bytes) :
    (parsePayload payload).Raises fun e => e.isNetworkError = false := by
  refine Except.Raises.bind (fun e he => ?_) fun t _ e he => ?_
  · unfold decodeText at he
    split at he
    · cases he
    · cases he
      rfl
  · rw [PyExc.isNetworkError, PyVal.loads_raises t e he]

/-- A message that cannot be encoded cannot be dumped, or is too large. -/
theorem encode_raises (msg : PyVal) :
    (encode msg).Raises fun e => e.isNetworkError = false ∨ ∃ n, e = tooLarge n := by
  refine Except.Raises.bind (fun e he => .inl ?_) fun dumped _ =>
    Except.Raises.bind (fun e he => .inl ?_) fun payload _ e he => ?_
  · rw [PyExc.isNetworkError, dumps_raises .compact msg e he]
  · unfold Text.encode at he
    split at he
    · cases he
    · cases he
      rfl
  · split at he
    · cases he
      exact .inr ⟨_, rfl⟩
    · cases he

/-- A stream that ends while decoding waits is reported as an incomplete read. -/
theorem decodeBytes_of_awaits {b : Bytes} (h : awaits b = true) :
    ∃ e, decodeBytes b = (.error e, []) ∧ e.kind = .incompleteReadError := by
  unfold awaits at h
  unfold decodeBytes
  by_cases hheader : b.length < headerSize
  · rw [if_pos hheader]
    exact ⟨_, rfl, rfl⟩
  rw [if_neg hheader] at h ⊢
  dsimp only at h ⊢
  by_cases hsize : maxMessageSize < unpackUInt32 (b.take headerSize)
  · rw [if_pos hsize] at h
    cases h
  rw [if_neg hsize] at h ⊢
  rw [if_pos (of_decide_eq_true h)]
  exact ⟨_, rfl, rfl⟩

/-- Decoding does not wait for more than a message that is there. -/
theorem awaits_of_ok {b rest : Bytes} {msg : PyVal} (h : decodeBytes b = (.ok msg, rest)) :
    awaits b = false := by
  cases hwait : awaits b with
  | false => rfl
  | true =>
    obtain ⟨e, he, -⟩ := decodeBytes_of_awaits hwait
    rw [h] at he
    cases he

/-- Once decoding does not wait, what arrives later does not change its outcome. -/
theorem decodeBytes_append {b : Bytes} (h : awaits b = false) (later : Bytes) :
    decodeBytes (b ++ later) = ((decodeBytes b).1, (decodeBytes b).2 ++ later) := by
  unfold awaits at h
  by_cases hheader : b.length < headerSize
  · rw [if_pos hheader] at h
    cases h
  rw [if_neg hheader] at h
  dsimp only at h
  -- the header is the same with and without the later bytes
  have hlong : ¬(b ++ later).length < headerSize := by
    rw [List.length_append]
    omega
  have htake : (b ++ later).take headerSize = b.take headerSize :=
    List.take_append_of_le_length (not_lt.mp hheader)
  have hdrop : (b ++ later).drop headerSize = b.drop headerSize ++ later :=
    List.drop_append_of_le_length (not_lt.mp hheader)
  unfold decodeBytes
  rw [if_neg hheader, if_neg hlong]
  simp only [htake, hdrop]
  by_cases hsize : maxMessageSize < unpackUInt32 (b.take headerSize)
  · rw [if_pos hsize, if_pos hsize]
  rw [if_neg hsize] at h
  have henough := of_decide_eq_false h
  have henough' : ¬(b.drop headerSize ++ later).length < unpackUInt32 (b.take headerSize) := by
    rw [List.length_append]
    omega
  rw [if_neg hsize, if_neg hsize, if_neg henough, if_neg henough',
    List.take_append_of_le_length (not_lt.mp henough),
    List.drop_append_of_le_length (not_lt.mp henough)]

/-- Decoding waits for the rest of a frame. -/
theorem awaits_of_incomplete {msg : PyVal} {frame b : Bytes} (h : encode msg = .ok frame)
    (hpre : b <+: frame) (hne : b ≠ frame) : awaits b = true := by
  by_contra hwait
  rw [Bool.not_eq_true] at hwait
  obtain ⟨rest, rfl⟩ := hpre
  obtain ⟨e, he, -⟩ := decodeBytes_of_prefix h (List.prefix_append ..) hne
  have hdecode := decodeBytes_encode h []
  rw [List.append_nil, decodeBytes_append hwait, he] at hdecode
  cases hdecode

/-- Decoding a message consumes its header at least. -/
theorem length_lt_of_decodeBytes {b rest : Bytes} {msg : PyVal}
    (h : decodeBytes b = (.ok msg, rest)) : rest.length < b.length := by
  obtain ⟨header, payload, rfl, hheader, -⟩ := exists_frame_of_decodeBytes h
  simp only [List.length_append, hheader, headerSize]
  omega

/-! ## Sequences of frames -/

/-- `n` calls of `decode`, one after the other. -/
def decodeMany : ℕ → StreamReader → Except PyExc (List PyVal) × StreamReader
  | 0, r => (.ok [], r)
  | n + 1, r =>
    match decode r with
    | (.error e, r) => (.error e, r)
    | (.ok msg, r) =>
      match decodeMany n r with
      | (.error e, r) => (.error e, r)
      | (.ok msgs, r) => (.ok (msg :: msgs), r)

/-- A stream that starts with frames gives their messages one by one. -/
theorem decodeMany_frames {msgs : List PyVal} {frames : List Bytes}
    (hencode : List.Forall₂ (fun msg frame => encode msg = .ok frame) msgs frames)
    {rest : Bytes} {r : StreamReader} (hr : r.contents = frames.flatten ++ rest) :
    ∃ r', decodeMany msgs.length r = (.ok (msgs.map (·.reload .compact)), r') ∧
      r'.contents = rest := by
  induction hencode generalizing r with
  | nil => exact ⟨r, rfl, hr⟩
  | @cons msg frame msgs frames hmsg _ ih =>
    have hdecode := decode_eq_decodeBytes r
    rw [hr, List.flatten_cons, List.append_assoc, decodeBytes_encode hmsg, Prod.mk.injEq] at hdecode
    obtain ⟨r', hmany, hrest⟩ := ih hdecode.2
    refine ⟨r', ?_, hrest⟩
    have hstep : decode r = (.ok (msg.reload .compact), (decode r).2) := Prod.ext hdecode.1 rfl
    rw [List.length_cons, decodeMany, hstep]
    dsimp only
    rw [hmany, List.map_cons]

/-- The messages of a stream, up to the first frame that is incomplete or cannot be decoded. -/
def messages (b : Bytes) : List PyVal :=
  match _ : decodeBytes b with
  | (.ok msg, rest) => msg :: messages rest
  | (.error _, _) => []
termination_by b.length
decreasing_by exact length_lt_of_decodeBytes ‹_›

/-- The messages of a stream are the first and those after it. -/
theorem messages_of_ok {b rest : Bytes} {msg : PyVal} (h : decodeBytes b = (.ok msg, rest)) :
    messages b = msg :: messages rest := by
  rw [messages]
  split
  · next msg' rest' h' =>
    rw [h] at h'
    cases h'
    rfl
  · next h' =>
    rw [h] at h'
    cases h'

/-- A stream without a whole frame holds no message. -/
theorem messages_of_error {b rest : Bytes} {e : PyExc} (h : decodeBytes b = (.error e, rest)) :
    messages b = [] := by
  rw [messages]
  split
  · next h' =>
    rw [h] at h'
    cases h'
  · rfl

/-- The messages of a stream of frames are those of the frames. -/
theorem messages_flatten {msgs : List PyVal} {frames : List Bytes}
    (hencode : List.Forall₂ (fun msg frame => encode msg = .ok frame) msgs frames) :
    messages frames.flatten = msgs.map (PyVal.reload .compact) := by
  induction hencode with
  | nil => exact messages_of_error rfl
  | @cons msg frame msgs frames hmsg _ ih =>
    rw [List.flatten_cons, messages_of_ok (decodeBytes_encode hmsg frames.flatten), ih,
      List.map_cons]

/-- The messages of a stream are JSON values. -/
theorem isJson_of_mem_messages {b : Bytes} {msg : PyVal} (h : msg ∈ messages b) : msg.IsJson := by
  induction hlength : b.length using Nat.strong_induction_on generalizing b with
  | _ n ih =>
  obtain ⟨outcome, rest, hdecode⟩ : ∃ outcome rest, decodeBytes b = (outcome, rest) := ⟨_, _, rfl⟩
  cases outcome with
  | error e =>
    rw [messages_of_error hdecode] at h
    cases h
  | ok first =>
    rw [messages_of_ok hdecode, List.mem_cons] at h
    obtain rfl | h := h
    · obtain ⟨header, payload, -, -, -, -, hparse⟩ := exists_frame_of_decodeBytes hdecode
      obtain ⟨t, -, hload⟩ := Except.bind_eq_ok_iff.mp hparse
      exact PyVal.isJson_of_loads hload
    · exact ih rest.length (hlength ▸ length_lt_of_decodeBytes hdecode) h rfl

/-- What is left of a stream after its messages: a frame that is incomplete or cannot be decoded. -/
def remainder (b : Bytes) : Bytes :=
  match _ : decodeBytes b with
  | (.ok _, rest) => remainder rest
  | (.error _, _) => b
termination_by b.length
decreasing_by exact length_lt_of_decodeBytes ‹_›

/-- What is left of a stream is what is left after its first message. -/
theorem remainder_of_ok {b rest : Bytes} {msg : PyVal} (h : decodeBytes b = (.ok msg, rest)) :
    remainder b = remainder rest := by
  rw [remainder]
  split
  · next msg' rest' h' =>
    rw [h] at h'
    cases h'
    rfl
  · next h' =>
    rw [h] at h'
    cases h'

/-- The remainder of a stream whose first frame is complete. -/
theorem remainder_append_of_ok {b : Bytes} {msg : PyVal} {rest : Bytes} (hwait : awaits b = false)
    (h : decodeBytes b = (.ok msg, rest)) (later : Bytes) :
    remainder (b ++ later) = remainder (rest ++ later) := by
  have happend := decodeBytes_append hwait later
  rw [h] at happend
  exact remainder_of_ok happend

/-- The messages of a stream that cannot go on with its first frame. -/
theorem messages_append_of_error {b : Bytes} {e : PyExc} {rest : Bytes} (hwait : awaits b = false)
    (h : decodeBytes b = (.error e, rest)) (later : Bytes) : messages (b ++ later) = [] := by
  have happend := decodeBytes_append hwait later
  rw [h] at happend
  exact messages_of_error happend

/-- The messages of a stream whose first frame is complete. -/
theorem messages_append_of_ok {b : Bytes} {msg : PyVal} {rest : Bytes} (hwait : awaits b = false)
    (h : decodeBytes b = (.ok msg, rest)) (later : Bytes) :
    messages (b ++ later) = msg :: messages (rest ++ later) := by
  have happend := decodeBytes_append hwait later
  rw [h] at happend
  exact messages_of_ok happend

/-- Messages that JSON gives back come back one by one in order, however the stream is cut into
chunks, and after each of them the stream is at the next frame; every frame holds a payload within
the limit, behind its length; a stream that ends inside a frame is an incomplete read. -/
theorem framing_lossless {msgs : List PyVal} {frames : List Bytes}
    (hmsgs : ∀ msg ∈ msgs, msg.Reloadable)
    (hencode : List.Forall₂ (fun msg frame => encode msg = .ok frame) msgs frames) :
    (∀ (rest : Bytes) (r : StreamReader), r.contents = frames.flatten ++ rest →
      ∀ k ≤ msgs.length, ∃ (out : List PyVal) (r' : StreamReader), decodeMany k r = (.ok out, r') ∧
        List.Forall₂ PyVal.SameData out (msgs.take k) ∧
        r'.contents = (frames.drop k).flatten ++ rest) ∧
    (∀ frame ∈ frames, ∃ payload, frame = packUInt32 payload.length ++ payload ∧
      payload.length ≤ maxMessageSize ∧
      unpackUInt32 (frame.take headerSize) = payload.length) ∧
    ∀ frame ∈ frames, ∀ r : StreamReader, r.contents <+: frame → r.contents ≠ frame →
      ∃ e r', decode r = (.error e, r') ∧ e.kind = .incompleteReadError := by
  have hframe : ∀ frame ∈ frames, ∃ msg, encode msg = .ok frame := by
    clear hmsgs
    induction hencode with
    | nil => simp
    | cons hmsg _ ih => exact List.forall_mem_cons.mpr ⟨⟨_, hmsg⟩, ih⟩
  refine ⟨?_, ?_, ?_⟩
  · intro rest r hr k hk
    -- the first `k` frames are read, the others belong to the rest of the stream
    have hsplit : r.contents = (frames.take k).flatten ++ ((frames.drop k).flatten ++ rest) := by
      rw [hr, ← List.append_assoc, ← List.flatten_append, List.take_append_drop]
    obtain ⟨r', hmany, hrest⟩ := decodeMany_frames (List.forall₂_take k hencode) hsplit
    rw [List.length_take, min_eq_left hk] at hmany
    refine ⟨_, r', hmany, ?_, hrest⟩
    rw [List.forall₂_map_left_iff, List.forall₂_same]
    intro msg hmsg
    have hreload := hmsgs msg (List.mem_of_mem_take hmsg)
    rw [hreload.reload_compact]
    exact PyVal.sorted_sorted hreload.isJson
  · intro frame hmem
    obtain ⟨msg, hmsg⟩ := hframe frame hmem
    obtain ⟨payload, rfl, hsize, -⟩ := encode_eq_ok hmsg
    refine ⟨payload, rfl, hsize, ?_⟩
    have hheader : (packUInt32 payload.length ++ payload).take headerSize =
        packUInt32 payload.length := List.take_left' rfl
    rw [hheader]
    exact unpackUInt32_packUInt32 (lt_of_le_of_lt hsize (by decide))
  · intro frame hmem r hpre hne
    obtain ⟨msg, hmsg⟩ := hframe frame hmem
    obtain ⟨e, he, hkind⟩ := decodeBytes_of_prefix hmsg hpre hne
    have hdecode := decode_eq_decodeBytes r
    rw [he, Prod.mk.injEq] at hdecode
    exact ⟨e, _, Prod.ext hdecode.1 rfl, hkind⟩

/-- The message of `health_check`. -/
def healthMessage : PyVal := .ofMembers [(text "type", .str (text "health"))]

/-- Its frame. -/
def healthFrame : Bytes := packUInt32 17 ++ (text "\x7b\"type\":\"health\"\x7d").asciiBytes

/-- The frame of the message. -/
theorem encode_healthMessage : encode healthMessage = .ok healthFrame := by decide +kernel

/-- The message arrives as it was sent. -/
theorem reloadable_healthMessage : healthMessage.Reloadable := by
  have hkey : (text "type").Encodable := by decide
  have hvalue : (text "health").Encodable := by decide
  refine .obj (List.nodup_singleton _) ?_ ?_
  · exact List.forall_mem_singleton.mpr hkey.joinSurrogates
  · exact List.forall_mem_singleton.mpr (.str hvalue.joinSurrogates)

/-- Two frames that arrive in three chunks, with a byte behind them. -/
theorem framing_lossless_sample : ∃ out r',
    decodeMany 2 ⟨healthFrame.take 3, [healthFrame.drop 3 ++ healthFrame.take 7,
      healthFrame.drop 7 ++ [0]]⟩ = (.ok out, r') ∧
      List.Forall₂ PyVal.SameData out [healthMessage, healthMessage] ∧ r'.contents = [0] := by
  have hmsgs : ∀ msg ∈ [healthMessage, healthMessage], msg.Reloadable := by
    simp [reloadable_healthMessage]
  have hencode : List.Forall₂ (fun msg frame => encode msg = .ok frame)
      [healthMessage, healthMessage] [healthFrame, healthFrame] :=
    .cons encode_healthMessage (.cons encode_healthMessage .nil)
  exact (framing_lossless hmsgs hencode).1 [0] _ (by decide +kernel) 2 le_rfl

end MessageFrame
