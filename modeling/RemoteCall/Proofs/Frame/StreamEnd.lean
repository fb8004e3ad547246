import RemoteCall.Proofs.Frame.Decoding

/-!
# The end of a stream

When the peer closes a stream, the bytes that the reader has not answered for are those behind the
last frame that it has answered for (`FrameReader.buffer_eq`), and the stream may end when there are
none. A frame that is too long is answered for when its header has arrived, so a stream that ends
inside one looks as if it had ended at the end of it (`FrameReader.cut_inside_long_frame`); inside
any other frame the end of the stream is an error.

## Main definitions

* `RawFrame.unanswered` : the bytes of a stream that belong to no frame that is answered for.
* `RawFrame.OnBoundary` : a stream that ends where a frame ends.

## Main results

* `FrameReader.session_closed` : all that a closed stream gives.
* `FrameReader.closed_on_boundary` : which streams may end.
-/

namespace RemoteCall

/-- Of what is still to be skipped and what is left behind it, one is nothing. -/
private theorem sub_length_eq_zero_or_drop_eq_nil (bytes : Bytes) (n : Nat) :
    n - bytes.length = 0 ∨ bytes.drop n = [] := by
  rw [List.drop_eq_nil_iff]
  omega

/-! ### A reader that has settled -/

/-- A reader that still skips has nothing in its buffer. -/
def FrameReader.IsSettled (r : FrameReader) : Prop :=
  r.decoder.skipping = 0 ∨ r.buffer = []

namespace Decoder

theorem isSettled_step (d : Decoder) (buffer : Bytes) :
    FrameReader.IsSettled ⟨(d.step buffer).2.1, (d.step buffer).2.2⟩ := by
  cases hanswer : RawFrame.answer? d.codec (buffer.drop d.skipping) with
  | none =>
    rw [step_of_none hanswer]
    exact sub_length_eq_zero_or_drop_eq_nil _ _
  | some outcome =>
    rw [step_of_some hanswer]
    exact sub_length_eq_zero_or_drop_eq_nil _ _

theorem isSettled_drainUpTo (fuel : Nat) (d : Decoder) (buffer : Bytes) :
    FrameReader.IsSettled ⟨(d.drainUpTo (fuel + 1) buffer).2.1,
      (d.drainUpTo (fuel + 1) buffer).2.2⟩ := by
  induction fuel generalizing d buffer with
  | zero =>
    have hstep := d.isSettled_step buffer
    rw [drainUpTo]
    dsimp only
    cases (d.step buffer).1.outcome? <;> exact hstep
  | succ fuel ih =>
    have hstep := d.isSettled_step buffer
    rw [drainUpTo]
    dsimp only
    cases (d.step buffer).1.outcome? with
    | none => exact hstep
    | some outcome => exact ih ..

end Decoder

namespace FrameReader

variable {r : FrameReader}

theorem isSettled_receiveAll (h : r.IsSettled) (chunks : List Bytes) :
    (r.receiveAll chunks).2.IsSettled := by
  induction chunks generalizing r with
  | nil => exact h
  | cons chunk chunks ih => exact ih (Decoder.isSettled_drainUpTo ..)

end FrameReader

/-! ### What is left of a stream -/

namespace RawFrame

variable {codec : Codec} {s stub : Bytes} {frames front rest : List RawFrame}

/-- The bytes of a stream that belong to no frame that a decoder with this bound answers for. -/
def unanswered (codec : Codec) (s : Bytes) : Bytes :=
  ((RawFrame.frames s).filter fun f => (f.outcome? codec).isNone).flatMap bytes ++ (split s).2

/-- The byte string ends where a frame ends: it consists of whole frames, however long they are. -/
def OnBoundary (s : Bytes) : Prop :=
  ∃ frames : List RawFrame, (∀ f ∈ frames, f.IsWhole) ∧ frames.flatMap bytes = s

/-- A frame is not answered for as long as it is cut short, unless it is too long. -/
theorem outcome?_eq_none_iff {f : RawFrame} :
    f.outcome? codec = none ↔ ¬f.IsWhole ∧ f.size ≤ codec.limit := by
  rw [outcome?]
  by_cases hlong : codec.limit < f.size
  · rw [if_pos hlong]
    simp [hlong]
  · rw [if_neg hlong]
    by_cases hwhole : f.IsWhole
    · rw [if_pos hwhole]
      cases FrameType.ofCode? f.code <;> simp [hwhole]
    · rw [if_neg hwhole]
      simp [hwhole, Nat.not_lt.1 hlong]

theorem length_flatMap_bytes_le (frames : List RawFrame) :
    (frames.flatMap bytes).length ≤ totalSize frames := by
  induction frames with
  | nil => exact Nat.le_refl 0
  | cons f frames ih =>
    have := f.length_bytes_le
    rw [List.flatMap_cons, List.length_append, totalSize]
    omega

theorem length_flatMap_bytes (h : ∀ f ∈ frames, f.IsWhole) :
    (frames.flatMap bytes).length = totalSize frames := by
  induction frames with
  | nil => rfl
  | cons f frames ih =>
    obtain ⟨hf, hframes⟩ := List.forall_mem_cons.1 h
    rw [List.flatMap_cons, List.length_append, totalSize, length_bytes_of_isWhole hf, ih hframes]

/-- The first frames of a stream are whole, unless they are all there is. -/
theorem Splits.isWhole_front (h : Splits s (front ++ rest) stub) :
    (∀ f ∈ front, f.IsWhole) ∨ rest = [] ∧ stub = [] := by
  by_cases hstub : stub = []
  · by_cases hrest : rest = []
    · exact Or.inr ⟨hrest, hstub⟩
    · refine Or.inl fun f hf => h.isWhole f ?_
      rw [List.dropLast_append_of_ne_nil hrest]
      exact List.mem_append_left _ hf
  · exact Or.inl fun f hf => h.isWhole_of_stub hstub f (List.mem_append_left _ hf)

/-- A byte string that ends where a frame ends is cut into whole frames and nothing else. -/
theorem onBoundary_iff : OnBoundary s ↔ (∀ f ∈ RawFrame.frames s, f.IsWhole) ∧ (split s).2 = [] := by
  constructor
  · rintro ⟨frames, hwhole, hbytes⟩
    have hsplits : Splits s frames [] :=
      ⟨by rw [List.append_nil, hbytes], fun f hf => hwhole f (List.dropLast_subset _ hf),
        fun h => absurd rfl h, by decide⟩
    rw [RawFrame.frames, hsplits.eq_split]
    exact ⟨hwhole, rfl⟩
  · rintro ⟨hwhole, hstub⟩
    have hbytes := (splits_split s).bytes_eq
    rw [hstub, List.append_nil] at hbytes
    exact ⟨_, hwhole, hbytes⟩

/-- Nothing is left of a stream when no header and no frame is cut short, save one that is too
long. -/
theorem unanswered_eq_nil_iff :
    unanswered codec s = [] ↔
      (∀ f ∈ RawFrame.frames s, f.IsWhole ∨ codec.limit < f.size) ∧ (split s).2 = [] := by
  have hbytes : ∀ f : RawFrame, f.bytes ≠ [] := fun f h => by
    have hlength := f.length_bytes
    rw [h, List.length_nil, headerLength] at hlength
    omega
  rw [unanswered, List.append_eq_nil_iff, List.flatMap_eq_nil_iff]
  refine and_congr_left fun _ => ⟨fun h f hf => ?_, fun h f hf => ?_⟩
  · refine Classical.byContradiction fun hcut => hbytes f (h f (List.mem_filter.2 ⟨hf, ?_⟩))
    rw [not_or, Nat.not_lt] at hcut
    exact Option.isNone_iff_eq_none.2 (outcome?_eq_none_iff.2 hcut)
  · obtain ⟨hmem, hnone⟩ := List.mem_filter.1 hf
    obtain ⟨hcut, hle⟩ := outcome?_eq_none_iff.1 (Option.isNone_iff_eq_none.1 hnone)
    rcases h f hmem with hwhole | hlong
    · exact absurd hwhole hcut
    · exact absurd hle (Nat.not_le.2 hlong)

/-- The frames without an answer are those behind the ones that are answered for. -/
theorem unanswered_eq {outcomes : List (Except Error Frame)}
    (hframes : RawFrame.frames s = front ++ rest)
    (hfront : front.map (outcome? codec) = outcomes.map some)
    (hrest : rest.filterMap (outcome? codec) = []) :
    unanswered codec s = rest.flatMap bytes ++ (split s).2 := by
  have hanswered : (front.filter fun f => (f.outcome? codec).isNone) = [] := by
    rw [List.filter_eq_nil_iff]
    intro f hf hnone
    have hmem : f.outcome? codec ∈ outcomes.map some :=
      hfront ▸ List.mem_map_of_mem hf
    obtain ⟨outcome, -, houtcome⟩ := List.mem_map.1 hmem
    rw [← houtcome] at hnone
    cases hnone
  have hwaiting : (rest.filter fun f => (f.outcome? codec).isNone) = rest := by
    rw [List.filter_eq_self]
    exact fun f hf => Option.isNone_iff_eq_none.2 (List.filterMap_eq_nil_iff.1 hrest f hf)
  rw [unanswered, hframes, List.filter_append, hanswered, hwaiting, List.nil_append]

end RawFrame

/-! ### What is left in a reader -/

namespace FrameReader

variable {codec : Codec} {s : Bytes} {found : List (Except Error Frame)} {r : FrameReader}

/-- A reader that waits for more bytes keeps those of the stream that are not answered for. -/
theorem buffer_eq (h : Decoding codec s found r) (hdry : r.IsDry) (hsettled : r.IsSettled) :
    r.buffer = RawFrame.unanswered codec s := by
  obtain ⟨decoded, ⟨houtcomes, hsuffix, hlength⟩, hframes⟩ := h.aligned.frames []
  rw [IsDry, h.aligned.codec_eq] at hdry
  rw [List.append_nil, List.append_nil] at hframes
  have hrest := RawFrame.outcomes_of_answer?_eq_none hdry
  rw [RawFrame.outcomes] at hrest
  generalize RawFrame.frames (r.buffer.drop r.decoder.skipping) = rest at hframes hrest
  have hleft := RawFrame.unanswered_eq hframes houtcomes hrest
  have hsplits : RawFrame.Splits s (decoded ++ rest) (RawFrame.split s).2 := by
    rw [← hframes]
    exact RawFrame.splits_split s
  have hbytes : decoded.flatMap RawFrame.bytes ++ RawFrame.unanswered codec s = s := by
    rw [hleft, ← List.append_assoc, ← List.flatMap_append, hsplits.bytes_eq]
  have htotal := congrArg List.length hbytes
  rw [List.length_append] at htotal
  suffices hlengths : r.buffer.length = (RawFrame.unanswered codec s).length by
    have hsuffixes := List.suffix_of_suffix_length_le hsuffix ⟨_, hbytes⟩ (Nat.le_of_eq hlengths)
    exact hsuffixes.eq_of_length hlengths
  have hempty : r.decoder.skipping = 0 ∨ r.buffer.length = 0 := by
    rwa [List.length_eq_zero_iff]
  rcases hsplits.isWhole_front with hwhole | ⟨rfl, hstub⟩
  · have hfront := RawFrame.length_flatMap_bytes hwhole
    omega
  · -- All frames are answered for, and the last one may be cut short.
    have hfront := RawFrame.length_flatMap_bytes_le decoded
    rw [hstub, List.flatMap_nil, List.append_nil] at hleft
    rw [hleft, List.length_nil] at htotal ⊢
    omega

/-- A closed stream gives the frames and errors that it owes, and an error at its end when there are
bytes left that belong to none of them. -/
theorem session_closed (codec : Codec) (chunks : List Bytes) :
    session codec chunks .closed =
      (RawFrame.outcomes codec chunks.flatten,
        match RawFrame.unanswered codec chunks.flatten with
        | [] => .ok ()
        | left => .error
            (.connection s!"peer closed with {left.length} bytes of a partial frame buffered")) := by
  obtain ⟨hrun, hdry⟩ := (Decoding.start : Decoding codec [] [] (.new codec)).receiveAll rfl chunks
  rw [List.nil_append, List.nil_append] at hrun
  have hbuffer := buffer_eq hrun hdry (isSettled_receiveAll (Or.inl rfl) chunks)
  rw [session, ← hrun.found_eq hdry, ← hbuffer]
  dsimp only [finish]
  cases ((new codec).receiveAll chunks).2.buffer <;> rfl

/-- A stream that ends inside a frame that is too long seems to end behind it. -/
theorem cut_inside_long_frame {f : RawFrame} (hlong : codec.limit < f.size) (hcut : ¬f.IsWhole) :
    session codec [f.bytes] .closed =
        ([.error (.frameTooLarge f.size codec.limit)], .ok ()) ∧
      ¬RawFrame.OnBoundary f.bytes := by
  have hstream : [f.bytes].flatten = f.bytes := List.append_nil _
  have houtcome : f.outcome? codec = some (.error (.frameTooLarge f.size codec.limit)) := by
    rw [RawFrame.outcome?, if_pos hlong]
  constructor
  · rw [session_closed, hstream, RawFrame.unanswered, RawFrame.outcomes, RawFrame.frames,
      f.split_bytes, List.filterMap_cons_some houtcome,
      List.filter_cons_of_neg (by simp [houtcome])]
    rfl
  · rw [RawFrame.onBoundary_iff, RawFrame.frames, f.split_bytes]
    exact fun h => hcut (h.1 f List.mem_cons_self)

/-- After everything that a closed stream owes, its end is in order exactly when the stream consists
of frames each of which is whole or too long, so that only a frame that is too long may be cut short
at the end; otherwise it is an error that counts the bytes left. When no frame that is too long is
cut short, the end is in order exactly when the stream ends where a frame ends. -/
theorem closed_on_boundary (limit : Nat) (chunks : List Bytes) :
    let codec := Codec.ofLimit limit
    let s := chunks.flatten
    let session := FrameReader.session codec chunks .closed
    session.1 = RawFrame.outcomes codec s ∧
      (session.2 = .ok () ↔ ∃ frames, RawFrame.Splits s frames [] ∧
        ∀ f ∈ frames, f.IsWhole ∨ codec.limit < f.size) ∧
      (session.2 = .ok () ∨ ∃ n, 0 < n ∧ session.2 = .error
        (.connection s!"peer closed with {n} bytes of a partial frame buffered")) ∧
      ((∀ f ∈ RawFrame.frames s, codec.limit < f.size → f.IsWhole) →
        (session.2 = .ok () ↔ RawFrame.OnBoundary s)) := by
  intro codec s session
  have hsession : session = _ := session_closed codec chunks
  have hend : session.2 = .ok () ∧ RawFrame.unanswered codec s = [] ∨
      RawFrame.unanswered codec s ≠ [] ∧ ∃ n, 0 < n ∧ session.2 = .error
        (.connection s!"peer closed with {n} bytes of a partial frame buffered") := by
    rw [hsession]
    change _ ∧ RawFrame.unanswered codec chunks.flatten = [] ∨ _
    cases hleft : RawFrame.unanswered codec chunks.flatten with
    | nil => exact Or.inl ⟨rfl, rfl⟩
    | cons b left => exact Or.inr ⟨List.cons_ne_nil b left, _, Nat.succ_pos _, rfl⟩
  have hok : session.2 = .ok () ↔ RawFrame.unanswered codec s = [] := by
    rcases hend with ⟨hok, hleft⟩ | ⟨hleft, n, -, herror⟩
    · exact iff_of_true hok hleft
    · refine iff_of_false (fun hok => ?_) hleft
      rw [hok] at herror
      cases herror
  rw [RawFrame.unanswered_eq_nil_iff] at hok
  refine ⟨congrArg Prod.fst hsession, hok.trans ⟨?_, ?_⟩, hend.imp And.left And.right,
    fun hlong => ?_⟩
  · rintro ⟨hframes, hstub⟩
    exact ⟨_, RawFrame.split_eq_iff.1 (Prod.ext rfl hstub), hframes⟩
  · rintro ⟨frames, hsplits, hframes⟩
    rw [RawFrame.frames, hsplits.eq_split]
    exact ⟨hframes, rfl⟩
  · rw [hok, RawFrame.onBoundary_iff]
    refine and_congr_left fun _ => forall₂_congr fun f hf => ?_
    exact or_iff_left_of_imp (hlong f hf)

/-- The peer announces a body of 100 bytes, sends two of them and closes the stream. Frames may have
32 bytes. -/
theorem long_frame_cut_short :
    let stream : Bytes := [0, 0, 0, 1, 0, 0, 0, 0, 0, 0, 0, 2, 3, 1, 0, 100, 8, 9]
    session (.ofLimit 32) [stream] .closed = ([.error (.frameTooLarge 116 32)], .ok ()) ∧
      ¬RawFrame.OnBoundary stream := by
  intro stream
  let f : RawFrame := ⟨1, 2, 3, 1, 100, [8, 9], by decide⟩
  have hstream : f.bytes = stream := by decide
  rw [← hstream]
  exact cut_inside_long_frame (by decide) (by decide)

end FrameReader

end RemoteCall
