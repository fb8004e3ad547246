import RemoteCall.Proofs.Frame.RawFrame

/-!
# Decoding a stream that arrives in chunks

A decoder sees a stream through a buffer: chunks are appended at any time, and each call of
`Decoder.step` takes off at most one frame or error. `Decoding` is every way in which appending and
decoding can follow each other. Whatever the order, the decoder has answered for the first raw
frames of the stream, and its buffer and the number of bytes it still skips say where the next one
begins (`Decoding.aligned`); when it asks for more bytes it has answered for every raw frame that it
owes an answer for.

## Main statements

* `Decoding.aligned`: where a decoder stands in its stream, after any run.
* `chunks_read_as_rawFrames`: how a stream is cut into chunks makes no difference.
-/

namespace RemoteCall

namespace RawFrame

variable {codec : Codec}

/-- What a decoder says to the raw frame at the front of a byte string, if anything yet. -/
def answer? (codec : Codec) (s : Bytes) : Option (Except Error Frame) :=
  if s.length < headerLength then none else (ofStream s).outcome? codec

theorem headerLength_le_of_answer? {s : Bytes} {outcome : Except Error Frame}
    (h : answer? codec s = some outcome) : headerLength ≤ s.length := by
  refine Nat.not_lt.1 fun hs => ?_
  rw [answer?, if_pos hs] at h
  cases h

theorem outcome?_of_answer? {s : Bytes} {outcome : Except Error Frame}
    (h : answer? codec s = some outcome) : (ofStream s).outcome? codec = some outcome := by
  rwa [answer?, if_neg (Nat.not_lt.2 (headerLength_le_of_answer? h))] at h

/-- A byte string without an answer at its front has none further on. -/
theorem outcomes_of_answer?_eq_none {s : Bytes} (h : answer? codec s = none) :
    outcomes codec s = [] := by
  by_cases hs : s.length < headerLength
  · rw [outcomes, frames_of_short hs, List.filterMap_nil]
  · rw [answer?, if_neg hs] at h
    have hrest : s.drop (ofStream s).size = [] := by
      refine Classical.byContradiction fun hrest => ?_
      rw [outcome?, if_pos (isWhole_ofStream hrest)] at h
      split at h
      · cases h
      · split at h <;> cases h
    rw [outcomes, frames_of_long (Nat.not_lt.1 hs), hrest, frames_of_short (by decide),
      List.filterMap_cons_none h, List.filterMap_nil]

/-- The length that a step of a decoder reads off a header. -/
theorem toNat_announced (s : Bytes) :
    Bytes.toBigEndian ((s.take headerLength).drop lengthOffset) = (announced s).toNat := by
  have hlt := Bytes.toBigEndian_lt ((s.drop lengthOffset).take 2)
  have hle : Nat.pow 256 ((s.drop lengthOffset).take 2).length ≤ Nat.pow 256 2 :=
    Nat.pow_le_pow_right (by decide) (by rw [List.length_take]; omega)
  rw [announced, UInt16.toNat_ofNat_of_lt' (Nat.lt_of_lt_of_le hlt hle), List.drop_take]
  rfl

/-- The bytes of a whole frame read as a frame of the library. -/
theorem ofParts_eq (s : Bytes) :
    Frame.ofParts (s.take headerLength) (ofStream s).body =
      match FrameType.ofCode? (ofStream s).code with
      | some type => .ok ⟨⟨(ofStream s).service, (ofStream s).request, (ofStream s).method, type⟩,
          (ofStream s).body⟩
      | none => .error (.rpc ⟨.unsupportedType, s!"unsupported type id {(ofStream s).code}"⟩
          (some (ofStream s).call)) := by
  have htake (n i : Nat) (h : i + n ≤ headerLength) :
      ((s.take headerLength).drop i).take n = (s.drop i).take n := by
    rw [List.drop_take, List.take_take, Nat.min_eq_left (by omega)]
  have hget (i : Nat) (h : i < headerLength) : (s.take headerLength).getD i 0 = s.getD i 0 := by
    rw [List.getD_eq_getElem?_getD, List.getElem?_take_of_lt h, ← List.getD_eq_getElem?_getD]
  have hservice := htake 4 0 (by decide)
  have hrequest := htake 8 4 (by decide)
  rw [List.drop_zero, List.drop_zero] at hservice
  rw [Frame.ofParts, hservice, hrequest, hget 12 (by decide), hget 13 (by decide)]
  rfl

end RawFrame

/-- An outcome as a step of a decoder gives it. -/
def Decoded.ofOutcome : Except Error Frame → Decoded
  | .ok f => .frame f
  | .error e => .failed e

@[simp] theorem Decoded.outcome?_ofOutcome (outcome : Except Error Frame) :
    (ofOutcome outcome).outcome? = some outcome := by
  cases outcome <;> rfl

namespace Decoder

/-- A step when nothing is to be skipped answers for the raw frame at the front of the buffer, if
it can. -/
theorem step_new (codec : Codec) (s : Bytes) :
    (new codec).step s =
      match RawFrame.answer? codec s with
      | none => (.needMore, new codec, s)
      | some outcome => (.ofOutcome outcome,
          ⟨codec, (RawFrame.ofStream s).size - s.length⟩, s.drop (RawFrame.ofStream s).size) := by
  have hskip : (new codec).skipping = 0 := rfl
  rw [step, if_pos hskip]
  dsimp only
  rw [if_neg (fun h => h rfl), RawFrame.answer?, Bytes.split?_eq]
  by_cases hshort : s.length < headerLength
  · rw [if_neg (by omega), if_pos hshort]
    rfl
  rw [if_pos (by omega), if_neg hshort]
  dsimp only
  rw [RawFrame.toNat_announced, Bytes.split?_eq, Bytes.skip_eq, RawFrame.outcome?]
  change (if codec.limit < (RawFrame.ofStream s).size then _ else _) = _
  by_cases hlong : codec.limit < (RawFrame.ofStream s).size
  · rw [if_pos hlong, if_pos hlong]
    rfl
  rw [if_neg hlong, if_neg hlong]
  by_cases hwhole : (RawFrame.ofStream s).IsWhole
  · have hle := RawFrame.isWhole_ofStream_iff.1 hwhole
    have hsize : (RawFrame.ofStream s).size - s.length = 0 := by
      rw [RawFrame.size, RawFrame.bodyLength_ofStream]
      rw [List.length_drop] at hle
      omega
    have hdrop : (s.drop headerLength).drop (RawFrame.announced s).toNat =
        s.drop (RawFrame.ofStream s).size := List.drop_drop
    rw [if_pos hle, if_pos hwhole, hsize]
    dsimp only
    rw [← RawFrame.body_ofStream, RawFrame.ofParts_eq, hdrop]
    cases FrameType.ofCode? (RawFrame.ofStream s).code <;> rfl
  · rw [if_neg fun hle => hwhole (RawFrame.isWhole_ofStream_iff.2 hle), if_neg hwhole]
    rfl

/-- A step skips first. -/
theorem step_of_le {d : Decoder} {buffer : Bytes} (h : d.skipping ≤ buffer.length) :
    d.step buffer = (new d.codec).step (buffer.drop d.skipping) := by
  by_cases hskip : d.skipping = 0
  · obtain ⟨codec, skipping⟩ := d
    subst hskip
    rfl
  · have hmissing : Bytes.skip d.skipping buffer = (0, buffer.drop d.skipping) := by
      rw [Bytes.skip_eq, Nat.sub_eq_zero_of_le h]
    rw [step, if_neg hskip, hmissing]
    rfl

theorem step_of_lt {d : Decoder} {buffer : Bytes} (h : buffer.length < d.skipping) :
    d.step buffer = (.needMore, { d with skipping := d.skipping - buffer.length }, []) := by
  have hmissing : Bytes.skip d.skipping buffer = (d.skipping - buffer.length, []) := by
    rw [Bytes.skip_eq, List.drop_of_length_le (Nat.le_of_lt h)]
  rw [step, if_neg (by omega), hmissing]
  dsimp only
  rw [if_pos (by omega)]

/-- A decoder that cannot answer yet has skipped what it could. -/
theorem step_of_none {d : Decoder} {buffer : Bytes}
    (h : RawFrame.answer? d.codec (buffer.drop d.skipping) = none) :
    d.step buffer = (.needMore, { d with skipping := d.skipping - buffer.length },
      buffer.drop d.skipping) := by
  by_cases hle : d.skipping ≤ buffer.length
  · rw [step_of_le hle, step_new, h, Nat.sub_eq_zero_of_le hle]
    rfl
  · rw [step_of_lt (by omega), List.drop_of_length_le (by omega)]

/-- A decoder that answers has taken the raw frame off, or goes on to skip the rest of it. -/
theorem step_of_some {d : Decoder} {buffer : Bytes} {outcome : Except Error Frame}
    (h : RawFrame.answer? d.codec (buffer.drop d.skipping) = some outcome) :
    d.step buffer = (.ofOutcome outcome,
      ⟨d.codec, (RawFrame.ofStream (buffer.drop d.skipping)).size -
        (buffer.drop d.skipping).length⟩,
      (buffer.drop d.skipping).drop (RawFrame.ofStream (buffer.drop d.skipping)).size) := by
  have hle : d.skipping ≤ buffer.length := by
    have := RawFrame.headerLength_le_of_answer? h
    rw [List.length_drop, headerLength] at this
    omega
  rw [step_of_le hle, step_new, h]

theorem drainUpTo_of_none {d : Decoder} {buffer : Bytes} (fuel : Nat)
    (h : RawFrame.answer? d.codec (buffer.drop d.skipping) = none) :
    d.drainUpTo (fuel + 1) buffer =
      ([], { d with skipping := d.skipping - buffer.length }, buffer.drop d.skipping) := by
  rw [drainUpTo, step_of_none h]
  rfl

theorem drainUpTo_of_some {d : Decoder} {buffer : Bytes} {outcome : Except Error Frame}
    (fuel : Nat) (h : RawFrame.answer? d.codec (buffer.drop d.skipping) = some outcome) :
    d.drainUpTo (fuel + 1) buffer =
      let rest := drainUpTo fuel (d.step buffer).2.1 (d.step buffer).2.2
      (outcome :: rest.1, rest.2) := by
  rw [drainUpTo, step_of_some h]
  dsimp only
  rw [Decoded.outcome?_ofOutcome]

end Decoder

namespace RawFrame

/-- More bytes behind a complete header change neither the length of the frame nor an answer that a
decoder already owes. -/
theorem ofStream_append {s : Bytes} (hs : headerLength ≤ s.length) (more : Bytes) :
    (ofStream (s ++ more)).size = (ofStream s).size ∧
      ∀ codec outcome, (ofStream s).outcome? codec = some outcome →
        (ofStream (s ++ more)).outcome? codec = some outcome := by
  have hhead : (ofStream (s ++ more)).head = (ofStream s).head := by
    rw [head_ofStream hs, head_ofStream (by rw [List.length_append]; omega),
      List.take_append_of_le_length hs]
  obtain ⟨hservice, hrequest, hmethod, hcode, hlength⟩ := fields_of_head_eq hhead
  have hsize : (ofStream (s ++ more)).size = (ofStream s).size := by
    rw [size, size, hlength]
  refine ⟨hsize, fun codec outcome houtcome => ?_⟩
  by_cases hlong : codec.limit < (ofStream s).size
  · rw [outcome?, if_pos hlong] at houtcome
    rw [outcome?, hsize, if_pos hlong, houtcome]
  · by_cases hwhole : (ofStream s).IsWhole
    · -- The body was complete before, so the frame is the same.
      suffices h : ofStream (s ++ more) = ofStream s by rw [h, houtcome]
      have hjoin : s ++ more = (ofStream s).bytes ++ (s.drop (ofStream s).size ++ more) := by
        rw [← List.append_assoc, bytes_ofStream hs, List.take_append_drop]
      rw [hjoin, ofStream_bytes_append (.inl hwhole)]
    · rw [outcome?, if_neg hlong, if_neg hwhole] at houtcome
      cases houtcome

end RawFrame

/-- The runs of a decoder: what has arrived, what was found, and the reader after that. -/
inductive Decoding (codec : Codec) : Bytes → List (Except Error Frame) → FrameReader → Prop
  | start : Decoding codec [] [] (.new codec)
  | arrive {s found r} (chunk : Bytes) (h : Decoding codec s found r) :
      Decoding codec (s ++ chunk) found { r with buffer := r.buffer ++ chunk }
  | decode {s found r} (h : Decoding codec s found r) :
      Decoding codec s (found ++ (r.decoder.step r.buffer).1.outcome?.toList)
        ⟨(r.decoder.step r.buffer).2.1, (r.decoder.step r.buffer).2.2⟩

/-- The reader has no answer before more bytes arrive. -/
def FrameReader.IsDry (r : FrameReader) : Prop :=
  RawFrame.answer? r.decoder.codec (r.buffer.drop r.decoder.skipping) = none

/-- The reader has answered for the raw frames `decoded` at the front of a stream. The bytes that
it has not consumed are a tail of the stream, and the bytes that it consumed with those that it
still skips are the decoded frames. -/
structure FrameReader.AnsweredFor (r : FrameReader) (codec : Codec) (s : Bytes)
    (found : List (Except Error Frame)) (decoded : List RawFrame) : Prop where
  outcomes : decoded.map (RawFrame.outcome? codec) = found.map some
  suffix : r.buffer <:+ s
  length : s.length + r.decoder.skipping = RawFrame.totalSize decoded + r.buffer.length

/-- The invariant of a run, for whatever may still arrive: the frames of the stream are those
decoded and those of the bytes behind the part that is skipped. -/
structure FrameReader.Aligned (r : FrameReader) (codec : Codec) (s : Bytes)
    (found : List (Except Error Frame)) : Prop where
  codec_eq : r.decoder.codec = codec
  frames (more : Bytes) : ∃ decoded, r.AnsweredFor codec s found decoded ∧
    RawFrame.frames (s ++ more) =
      decoded ++ RawFrame.frames ((r.buffer ++ more).drop r.decoder.skipping)

/-- What is skipped of the bytes that are here and of those that come is skipped of both. -/
private theorem drop_sub_append (bytes more : Bytes) (n : Nat) :
    (bytes.drop n ++ more).drop (n - bytes.length) = (bytes ++ more).drop n := by
  rw [List.drop_append, List.drop_append]
  rcases Nat.le_total n bytes.length with h | h
  · rw [Nat.sub_eq_zero_of_le h, Nat.zero_sub, List.drop_zero]
  · rw [List.drop_of_length_le h, List.drop_nil, List.length_nil, Nat.sub_zero]

namespace FrameReader.Aligned

variable {codec : Codec} {s : Bytes} {found : List (Except Error Frame)} {r : FrameReader}

theorem new (codec : Codec) : (FrameReader.new codec).Aligned codec [] [] :=
  ⟨rfl, fun more => ⟨[], ⟨rfl, List.suffix_refl _, rfl⟩, by simp [FrameReader.new, Decoder.new]⟩⟩

theorem arrive (h : r.Aligned codec s found) (chunk : Bytes) :
    ({ r with buffer := r.buffer ++ chunk } : FrameReader).Aligned codec (s ++ chunk) found := by
  refine ⟨h.codec_eq, fun more => ?_⟩
  obtain ⟨decoded, ⟨houtcomes, ⟨front, hfront⟩, hlength⟩, hframes⟩ := h.frames (chunk ++ more)
  refine ⟨decoded, ⟨houtcomes, ⟨front, ?_⟩, ?_⟩, ?_⟩
  · rw [← List.append_assoc, hfront]
  · simp only [List.length_append]
    omega
  · rw [List.append_assoc, hframes, List.append_assoc]

/-- One step keeps the invariant. -/
theorem step (h : r.Aligned codec s found) :
    (⟨(r.decoder.step r.buffer).2.1, (r.decoder.step r.buffer).2.2⟩ : FrameReader).Aligned codec s
      (found ++ (r.decoder.step r.buffer).1.outcome?.toList) := by
  have hcodec := h.codec_eq
  have htotal := List.length_drop (i := r.decoder.skipping) (l := r.buffer)
  cases hanswer : RawFrame.answer? r.decoder.codec (r.buffer.drop r.decoder.skipping) with
  | none =>
    -- Skipping moves along the stream and decodes nothing.
    rw [Decoder.step_of_none hanswer]
    refine ⟨hcodec, fun more => ?_⟩
    obtain ⟨decoded, ⟨houtcomes, hsuffix, hlength⟩, hframes⟩ := h.frames more
    refine ⟨decoded, ⟨?_, (List.drop_suffix _ _).trans hsuffix, ?_⟩, ?_⟩
    · rw [houtcomes]
      simp [Decoded.outcome?]
    · dsimp only
      omega
    · dsimp only
      rw [hframes, drop_sub_append]
  | some outcome =>
    rw [Decoder.step_of_some hanswer]
    have hlong := RawFrame.headerLength_le_of_answer? hanswer
    have hle : r.decoder.skipping ≤ r.buffer.length := by
      rw [headerLength] at hlong
      omega
    refine ⟨hcodec, fun more => ?_⟩
    obtain ⟨decoded, ⟨houtcomes, hsuffix, hlength⟩, hframes⟩ := h.frames more
    rw [List.drop_append_of_le_length hle] at hframes
    have htail : r.buffer.drop r.decoder.skipping <:+ s := (List.drop_suffix _ _).trans hsuffix
    generalize r.buffer.drop r.decoder.skipping = t at *
    obtain ⟨hsize, hkeeps⟩ := RawFrame.ofStream_append hlong more
    refine ⟨decoded ++ [RawFrame.ofStream (t ++ more)], ⟨?_, ?_, ?_⟩, ?_⟩
    · rw [List.map_append, houtcomes, List.map_append, List.map_singleton,
        hkeeps codec outcome (hcodec ▸ RawFrame.outcome?_of_answer? hanswer)]
      simp
    · exact (List.drop_suffix _ _).trans htail
    · simp only [RawFrame.totalSize_concat, List.length_drop, hsize]
      omega
    · rw [hframes, RawFrame.frames_of_long (by rw [List.length_append]; omega), hsize,
        List.append_assoc, List.singleton_append]
      dsimp only
      rw [drop_sub_append]

end FrameReader.Aligned

namespace Decoding

variable {codec : Codec} {s : Bytes} {found : List (Except Error Frame)} {r : FrameReader}

/-- A reader stands where the invariant says, after any run. -/
theorem aligned (h : Decoding codec s found r) : r.Aligned codec s found := by
  induction h with
  | start => exact .new codec
  | arrive chunk h ih => exact ih.arrive chunk
  | decode h ih => exact ih.step

/-! ### Decoding until more bytes are needed -/

/-- Taking frames off until there are no more is a run, and afterwards nothing can be answered. -/
theorem drainUpTo {d : Decoder} {buffer : Bytes} (fuel : Nat)
    (h : Decoding codec s found ⟨d, buffer⟩) (hfuel : (buffer.drop d.skipping).length < fuel) :
    Decoding codec s (found ++ (d.drainUpTo fuel buffer).1)
        ⟨(d.drainUpTo fuel buffer).2.1, (d.drainUpTo fuel buffer).2.2⟩ ∧
      FrameReader.IsDry ⟨(d.drainUpTo fuel buffer).2.1, (d.drainUpTo fuel buffer).2.2⟩ := by
  induction fuel generalizing found d buffer with
  | zero => omega
  | succ fuel ih =>
    have hstep := h.decode
    cases hanswer : RawFrame.answer? d.codec (buffer.drop d.skipping) with
    | none =>
      simp only [Decoder.step_of_none hanswer] at hstep
      rw [Decoder.drainUpTo_of_none fuel hanswer]
      refine ⟨hstep, ?_⟩
      rcases Nat.le_total d.skipping buffer.length with hle | hle
      · rw [FrameReader.IsDry, Nat.sub_eq_zero_of_le hle, List.drop_zero]
        exact hanswer
      · rw [FrameReader.IsDry, List.drop_of_length_le hle, List.drop_nil]
        rfl
    | some outcome =>
      have hlong := RawFrame.headerLength_le_of_answer? hanswer
      have hsize := (RawFrame.ofStream (buffer.drop d.skipping)).headerLength_le_size
      rw [Decoder.drainUpTo_of_some fuel hanswer]
      simp only [Decoder.step_of_some hanswer, Decoded.outcome?_ofOutcome, Option.toList_some]
        at hstep ⊢
      generalize buffer.drop d.skipping = t at *
      have hrest := ih hstep (by
        simp only [List.length_drop, headerLength] at *
        omega)
      rwa [List.append_assoc, List.singleton_append] at hrest

/-- A chunk that arrives is decoded as far as possible. -/
theorem receive (h : Decoding codec s found r) (chunk : Bytes) :
    Decoding codec (s ++ chunk) (found ++ (r.receive chunk).1) (r.receive chunk).2 ∧
      (r.receive chunk).2.IsDry := by
  refine (h.arrive chunk).drainUpTo ((r.buffer ++ chunk).length + 1) ?_
  rw [List.length_drop]
  omega

theorem receiveAll (h : Decoding codec s found r) (hdry : r.IsDry) (chunks : List Bytes) :
    Decoding codec (s ++ chunks.flatten) (found ++ (r.receiveAll chunks).1)
        (r.receiveAll chunks).2 ∧
      (r.receiveAll chunks).2.IsDry := by
  induction chunks generalizing s found r with
  | nil => exact ⟨by simpa [FrameReader.receiveAll] using h, hdry⟩
  | cons chunk chunks ih =>
    obtain ⟨hreceive, hdry⟩ := h.receive chunk
    have hrest := ih hreceive hdry
    rw [List.append_assoc, List.append_assoc] at hrest
    exact hrest

/-- A reader that cannot answer has answered for all raw frames that it owes an answer for. -/
theorem found_eq (h : Decoding codec s found r) (hdry : r.IsDry) :
    found = RawFrame.outcomes codec s := by
  have haligned := h.aligned
  obtain ⟨decoded, hanswered, hframes⟩ := haligned.frames []
  rw [FrameReader.IsDry, haligned.codec_eq] at hdry
  rw [List.append_nil, List.append_nil] at hframes
  have hrest := RawFrame.outcomes_of_answer?_eq_none hdry
  rw [RawFrame.outcomes] at hrest
  rw [RawFrame.outcomes, hframes, List.filterMap_append, hrest, List.append_nil]
  calc found = (found.map some).filterMap id := by simp [List.filterMap_map]
    _ = (decoded.map (RawFrame.outcome? codec)).filterMap id := by rw [hanswered.outcomes]
    _ = decoded.filterMap (RawFrame.outcome? codec) := List.filterMap_map

end Decoding

/-- A stream is read as its raw frames, however it is cut into chunks. The raw frames are those of
the only cut of the whole stream along its headers, and each of them is answered for in order. At
every point of every run the reader has answered for the first raw frames of what has arrived, and
the next ones are those behind the bytes of its buffer that it still skips. -/
theorem chunks_read_as_rawFrames (limit : Nat) (chunks : List Bytes) :
    let codec := Codec.ofLimit limit
    let session := (FrameReader.new codec).receiveAll chunks
    (∀ s frames stub, RawFrame.split s = (frames, stub) ↔ RawFrame.Splits s frames stub) ∧
      session.1 = (RawFrame.split chunks.flatten).1.filterMap (RawFrame.outcome? codec) ∧
      Decoding codec chunks.flatten session.1 session.2 ∧
      ∀ s found r, Decoding codec s found r → ∃ decoded, r.AnsweredFor codec s found decoded ∧
        RawFrame.frames s =
          decoded ++ RawFrame.frames (r.buffer.drop r.decoder.skipping) := by
  intro codec session
  obtain ⟨hrun, hdry⟩ := (Decoding.start : Decoding codec [] [] (.new codec)).receiveAll rfl chunks
  refine ⟨fun s frames stub => RawFrame.split_eq_iff, hrun.found_eq hdry, hrun, ?_⟩
  intro s found r h
  obtain ⟨decoded, hanswered, hframes⟩ := h.aligned.frames []
  rw [List.append_nil, List.append_nil] at hframes
  exact ⟨decoded, hanswered, hframes⟩

end RemoteCall
