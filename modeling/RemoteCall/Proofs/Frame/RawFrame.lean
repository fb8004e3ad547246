import RemoteCall.Frame.Reader

/-!
# Raw frames of a stream

A stream is cut into frames by their headers alone: 14 bytes of routing, the length of the body in
two bytes, and that many bytes of body, whatever the type says and however long the frame is. This
file cuts a whole byte string in this way (`RawFrame.split`), without a decoder and without a bound.

`RawFrame.split_eq_iff` characterises the cut by writing: the bytes of the frames and of the stub
behind them are the byte string, only the last frame may be cut short, and the stub is shorter than
a header. `RawFrame.outcome?` says what a decoder with a bound owes for one raw frame.

## Main definitions

* `RawFrame`, `RawFrame.bytes`, `RawFrame.IsWhole`.
* `RawFrame.split`, `RawFrame.Splits`.
* `RawFrame.outcome?`, `RawFrame.outcomes`.
-/

namespace RemoteCall

/-- A number of `n` digits is less than `256 ^ n`. -/
theorem Bytes.toBigEndian_lt (bytes : Bytes) : bytes.toBigEndian < Nat.pow 256 bytes.length := by
  have h := Bytes.toBigEndian_ofBigEndian bytes.length bytes.toBigEndian
  rw [Bytes.ofBigEndian_toBigEndian] at h
  rw [h]
  exact Nat.mod_lt _ (Nat.pow_pos (by decide))

/-- A frame as it stands in a stream, with as much of its body as has arrived. -/
@[ext]
structure RawFrame where
  service : ServiceId
  request : RequestId
  method : MethodId
  /-- The byte of the type, known or not. -/
  code : UInt8
  /-- The length of the body that the header announces. -/
  bodyLength : UInt16
  body : Bytes
  body_le : body.length ≤ bodyLength.toNat

namespace RawFrame

/-- The length of the whole frame. -/
def size (f : RawFrame) : Nat :=
  headerLength + f.bodyLength.toNat

/-- The length of frames that stand one behind the other. -/
def totalSize : List RawFrame → Nat
  | [] => 0
  | f :: frames => f.size + totalSize frames

theorem totalSize_concat (frames : List RawFrame) (f : RawFrame) :
    totalSize (frames ++ [f]) = totalSize frames + f.size := by
  induction frames with
  | nil => exact Nat.add_comm f.size 0
  | cons g frames ih =>
    rw [List.cons_append, totalSize, totalSize, ih]
    omega

/-- The request that the frame belongs to. -/
def call (f : RawFrame) : CallRef :=
  ⟨f.service, f.request, f.method⟩

/-- All of the body has arrived. -/
def IsWhole (f : RawFrame) : Prop :=
  f.body.length = f.bodyLength.toNat

instance (f : RawFrame) : Decidable f.IsWhole :=
  inferInstanceAs (Decidable (_ = _))

/-- The bytes of the header. -/
def head (f : RawFrame) : Bytes :=
  Bytes.ofBigEndian 4 f.service.toNat ++ Bytes.ofBigEndian 8 f.request.toNat ++
    [f.method, f.code] ++ Bytes.ofBigEndian 2 f.bodyLength.toNat

/-- The bytes of the frame, as far as they have arrived. -/
def bytes (f : RawFrame) : Bytes :=
  f.head ++ f.body

@[simp] theorem length_head (f : RawFrame) : f.head.length = headerLength := by
  simp [head, headerLength]

theorem headerLength_le_size (f : RawFrame) : headerLength ≤ f.size :=
  Nat.le_add_right _ _

theorem length_bytes (f : RawFrame) : f.bytes.length = headerLength + f.body.length := by
  simp [bytes]

theorem length_bytes_le (f : RawFrame) : f.bytes.length ≤ f.size := by
  rw [length_bytes, size]
  exact Nat.add_le_add_left f.body_le _

theorem length_bytes_of_isWhole {f : RawFrame} (hf : f.IsWhole) : f.bytes.length = f.size := by
  rw [length_bytes, size, hf]

/-! ### Cutting a stream -/

/-- The length of the body that a header announces. -/
def announced (head : Bytes) : UInt16 :=
  UInt16.ofNat (Bytes.toBigEndian ((head.drop lengthOffset).take 2))

/-- The frame at the front of a byte string that is not shorter than a header. -/
def ofStream (s : Bytes) : RawFrame where
  service := UInt32.ofNat (Bytes.toBigEndian (s.take 4))
  request := UInt64.ofNat (Bytes.toBigEndian ((s.drop 4).take 8))
  method := s.getD 12 0
  code := s.getD 13 0
  bodyLength := announced s
  body := (s.drop headerLength).take (announced s).toNat
  body_le := by
    rw [List.length_take]
    exact Nat.min_le_left _ _

theorem bodyLength_ofStream (s : Bytes) : (ofStream s).bodyLength = announced s := rfl

theorem body_ofStream (s : Bytes) :
    (ofStream s).body = (s.drop headerLength).take (announced s).toNat := rfl

/-- The frames of a byte string, and the stub behind them that is shorter than a header. -/
def split (s : Bytes) : List RawFrame × Bytes :=
  if s.length < headerLength then ([], s)
  else
    let f := ofStream s
    let (frames, stub) := split (s.drop f.size)
    (f :: frames, stub)
termination_by s.length
decreasing_by
  have := (ofStream s).headerLength_le_size
  rw [List.length_drop]
  simp only [headerLength] at *
  omega

/-- The frames of a byte string. -/
def frames (s : Bytes) : List RawFrame :=
  (split s).1

theorem split_of_short {s : Bytes} (hs : s.length < headerLength) : split s = ([], s) := by
  rw [split, if_pos hs]

theorem split_of_long {s : Bytes} (hs : headerLength ≤ s.length) :
    split s = (ofStream s :: (split (s.drop (ofStream s).size)).1,
      (split (s.drop (ofStream s).size)).2) := by
  rw [split, if_neg (Nat.not_lt.2 hs)]

theorem frames_of_short {s : Bytes} (hs : s.length < headerLength) : frames s = [] := by
  rw [frames, split_of_short hs]

theorem frames_of_long {s : Bytes} (hs : headerLength ≤ s.length) :
    frames s = ofStream s :: frames (s.drop (ofStream s).size) := by
  rw [frames, split_of_long hs, frames]

/-! ### The cut read as writing -/

/-- The byte string is the frames one behind the other and then the stub. Only the last frame may
be cut short, and then there is no stub. -/
structure Splits (s : Bytes) (frames : List RawFrame) (stub : Bytes) : Prop where
  bytes_eq : frames.flatMap bytes ++ stub = s
  isWhole : ∀ f ∈ frames.dropLast, f.IsWhole
  isWhole_of_stub : stub ≠ [] → ∀ f ∈ frames, f.IsWhole
  stub_lt : stub.length < headerLength

private theorem ofBigEndian_of_length {w : Nat} {front : Bytes} (h : front.length = w) :
    Bytes.ofBigEndian w front.toBigEndian = front := by
  subst h
  exact Bytes.ofBigEndian_toBigEndian front

/-- A header is its four fields and the length. -/
private theorem take_headerLength {s : Bytes} (hs : headerLength ≤ s.length) :
    s.take headerLength = s.take 4 ++ (s.drop 4).take 8 ++ [s.getD 12 0, s.getD 13 0] ++
      (s.drop lengthOffset).take 2 := by
  simp only [headerLength, lengthOffset] at *
  have hpair : (s.drop 12).take 2 = [s.getD 12 0, s.getD 13 0] := by
    have h₁₂ : 12 < s.length := by omega
    have h₁₃ : 12 + 1 < s.length := by omega
    rw [List.drop_eq_getElem_cons h₁₂, List.drop_eq_getElem_cons h₁₃, List.take_succ_cons,
      List.take_succ_cons, List.take_zero, List.getD_eq_getElem?_getD,
      List.getD_eq_getElem?_getD, List.getElem?_eq_getElem h₁₂, List.getElem?_eq_getElem h₁₃]
    rfl
  rw [← hpair, ← List.take_add, show (12 : Nat) = 4 + 8 from rfl, ← List.take_add,
    show (14 : Nat) = 12 + 2 from rfl, ← List.take_add]

theorem head_ofStream {s : Bytes} (hs : headerLength ≤ s.length) :
    (ofStream s).head = s.take headerLength := by
  have hlen : headerLength = 16 := rfl
  have h₁ : (s.take 4).length = 4 := by rw [List.length_take]; omega
  have h₂ : ((s.drop 4).take 8).length = 8 := by rw [List.length_take, List.length_drop]; omega
  have h₃ : ((s.drop lengthOffset).take 2).length = 2 := by
    rw [List.length_take, List.length_drop, lengthOffset]; omega
  have b₁ := Bytes.toBigEndian_lt (s.take 4)
  have b₂ := Bytes.toBigEndian_lt ((s.drop 4).take 8)
  have b₃ := Bytes.toBigEndian_lt ((s.drop lengthOffset).take 2)
  rw [h₁] at b₁
  rw [h₂] at b₂
  rw [h₃] at b₃
  rw [take_headerLength hs]
  simp only [head, ofStream, announced]
  rw [UInt32.toNat_ofNat_of_lt' b₁, UInt64.toNat_ofNat_of_lt' b₂, UInt16.toNat_ofNat_of_lt' b₃,
    ofBigEndian_of_length h₁, ofBigEndian_of_length h₂, ofBigEndian_of_length h₃]

/-- The first frame of a byte string is its front. -/
theorem bytes_ofStream {s : Bytes} (hs : headerLength ≤ s.length) :
    (ofStream s).bytes = s.take (ofStream s).size := by
  rw [bytes, head_ofStream hs, size, List.take_add]
  rfl

private theorem ofBigEndian_inj {w a b : Nat} (ha : a < Nat.pow 256 w) (hb : b < Nat.pow 256 w)
    (h : Bytes.ofBigEndian w a = Bytes.ofBigEndian w b) : a = b := by
  have h' := congrArg Bytes.toBigEndian h
  rwa [Bytes.toBigEndian_ofBigEndian, Bytes.toBigEndian_ofBigEndian, Nat.mod_eq_of_lt ha,
    Nat.mod_eq_of_lt hb] at h'

/-- A header determines its fields. -/
theorem fields_of_head_eq {f g : RawFrame} (h : f.head = g.head) :
    f.service = g.service ∧ f.request = g.request ∧ f.method = g.method ∧ f.code = g.code ∧
      f.bodyLength = g.bodyLength := by
  obtain ⟨hfront, hlength⟩ := List.append_inj h (by simp)
  obtain ⟨hids, hpair⟩ := List.append_inj hfront (by simp)
  obtain ⟨hservice, hrequest⟩ := List.append_inj hids (by simp)
  obtain ⟨hmethod, hcode⟩ : f.method = g.method ∧ f.code = g.code := by simpa using hpair
  have service_eq := ofBigEndian_inj (w := 4) f.service.toNat_lt g.service.toNat_lt hservice
  have request_eq := ofBigEndian_inj (w := 8) f.request.toNat_lt g.request.toNat_lt hrequest
  have length_eq := ofBigEndian_inj (w := 2) f.bodyLength.toNat_lt g.bodyLength.toNat_lt hlength
  exact ⟨UInt32.toNat_inj.1 service_eq, UInt64.toNat_inj.1 request_eq, hmethod, hcode,
    UInt16.toNat_inj.1 length_eq⟩

/-- Reading the front of a byte string that a frame was written to gives the frame, unless more
bytes follow a frame that is cut short. -/
theorem ofStream_bytes_append {f : RawFrame} {rest : Bytes} (h : f.IsWhole ∨ rest = []) :
    ofStream (f.bytes ++ rest) = f := by
  have hlen : headerLength ≤ (f.bytes ++ rest).length := by
    rw [List.length_append, length_bytes]
    omega
  have hhead : (ofStream (f.bytes ++ rest)).head = f.head := by
    rw [head_ofStream hlen, bytes, List.append_assoc, ← f.length_head, List.take_left]
  obtain ⟨hservice, hrequest, hmethod, hcode, hlength⟩ := fields_of_head_eq hhead
  have hbody : (ofStream (f.bytes ++ rest)).body = f.body := by
    have hdrop : (f.bytes ++ rest).drop headerLength = f.body ++ rest := by
      rw [bytes, List.append_assoc, ← f.length_head, List.drop_left]
    rw [body_ofStream, hdrop, ← bodyLength_ofStream, hlength]
    rcases h with hf | rfl
    · rw [← hf, List.take_left]
    · rw [List.append_nil, List.take_of_length_le f.body_le]
  exact RawFrame.ext hservice hrequest hmethod hcode hlength hbody

/-- The frames of a whole frame and the bytes behind it. -/
theorem split_bytes_append {f : RawFrame} {rest : Bytes} (hf : f.IsWhole) :
    split (f.bytes ++ rest) = (f :: (split rest).1, (split rest).2) := by
  have hlen : headerLength ≤ (f.bytes ++ rest).length := by
    rw [List.length_append, length_bytes]
    omega
  rw [split_of_long hlen, ofStream_bytes_append (.inl hf), ← length_bytes_of_isWhole hf,
    List.drop_left]

/-- The frames of a frame that is cut short. -/
theorem split_bytes (f : RawFrame) : split f.bytes = ([f], []) := by
  have hlen : headerLength ≤ f.bytes.length := by
    rw [length_bytes]
    omega
  have hf := ofStream_bytes_append (f := f) (.inr rfl)
  rw [List.append_nil] at hf
  rw [split_of_long hlen, hf, List.drop_of_length_le f.length_bytes_le,
    split_of_short (by decide)]

/-- A frame is whole when enough bytes are behind its header. -/
theorem isWhole_ofStream_iff {s : Bytes} :
    (ofStream s).IsWhole ↔ (announced s).toNat ≤ (s.drop headerLength).length := by
  rw [IsWhole, body_ofStream, bodyLength_ofStream, List.length_take]
  omega

/-- A frame with bytes behind it is whole. -/
theorem isWhole_ofStream {s : Bytes} (h : s.drop (ofStream s).size ≠ []) :
    (ofStream s).IsWhole := by
  rw [ne_eq, List.drop_eq_nil_iff, Nat.not_le, size, bodyLength_ofStream] at h
  rw [isWhole_ofStream_iff, List.length_drop]
  omega

/-- Cutting a byte string loses nothing. -/
theorem splits_split (s : Bytes) : Splits s (split s).1 (split s).2 := by
  induction s using split.induct with
  | case1 s hs =>
    rw [split_of_short hs]
    exact ⟨rfl, by simp, by simp, hs⟩
  | case2 s hs f frames stub hsplit ih =>
    have hlong : headerLength ≤ s.length := Nat.not_lt.1 hs
    have hjoin : f.bytes ++ s.drop f.size = s := by
      rw [bytes_ofStream hlong, List.take_append_drop]
    have hs' : split s = (f :: frames, stub) := by
      rw [split_of_long hlong, hsplit]
    rw [hsplit] at ih
    rw [hs']
    by_cases hrest : s.drop f.size = []
    · -- The last frame: it may be cut short, and there is no stub.
      rw [hrest, split_of_short (by decide)] at hsplit
      obtain ⟨rfl, rfl⟩ : [] = frames ∧ [] = stub := by simpa using hsplit
      rw [hrest] at hjoin
      exact ⟨by simpa using hjoin, by simp, by simp, by simp [headerLength]⟩
    · have hf : f.IsWhole := isWhole_ofStream hrest
      refine ⟨?_, ?_, ?_, ih.stub_lt⟩
      · rw [List.flatMap_cons, List.append_assoc, ih.bytes_eq]
        exact hjoin
      · intro g hg
        cases frames with
        | nil => simp at hg
        | cons g₁ gs =>
          rw [List.dropLast_cons_cons, List.mem_cons] at hg
          rcases hg with rfl | hg
          · exact hf
          · exact ih.isWhole g hg
      · intro hstub g hg
        rcases List.mem_cons.1 hg with rfl | hg
        · exact hf
        · exact ih.isWhole_of_stub hstub g hg

/-- The cut of a byte string is the only one. -/
theorem Splits.eq_split {s : Bytes} {frames : List RawFrame} {stub : Bytes}
    (h : Splits s frames stub) : split s = (frames, stub) := by
  induction frames generalizing s with
  | nil =>
    have hs : stub = s := h.bytes_eq
    subst hs
    exact split_of_short h.stub_lt
  | cons f frames ih =>
    have hs : f.bytes ++ (frames.flatMap bytes ++ stub) = s := by
      rw [← List.append_assoc, ← List.flatMap_cons, h.bytes_eq]
    by_cases hlast : frames = [] ∧ stub = []
    · obtain ⟨rfl, rfl⟩ := hlast
      rw [← hs]
      simpa using split_bytes f
    · have hf : f.IsWhole := by
        by_cases hframes : frames = []
        · exact h.isWhole_of_stub (fun hstub => hlast ⟨hframes, hstub⟩) f List.mem_cons_self
        · refine h.isWhole f ?_
          rw [List.dropLast_cons_of_ne_nil hframes]
          exact List.mem_cons_self
      have htail : Splits (frames.flatMap bytes ++ stub) frames stub := by
        refine ⟨rfl, fun g hg => h.isWhole g ?_, fun hstub g hg =>
          h.isWhole_of_stub hstub g (List.mem_cons_of_mem _ hg), h.stub_lt⟩
        have hframes : frames ≠ [] := by
          rintro rfl
          simp at hg
        rw [List.dropLast_cons_of_ne_nil hframes]
        exact List.mem_cons_of_mem _ hg
      rw [← hs, split_bytes_append hf, ih htail]

/-- A byte string is cut into these frames and this stub exactly when they are written in it. -/
theorem split_eq_iff {s : Bytes} {frames : List RawFrame} {stub : Bytes} :
    split s = (frames, stub) ↔ Splits s frames stub := by
  constructor
  · intro h
    have hs := splits_split s
    rwa [h] at hs
  · exact Splits.eq_split

/-! ### What a decoder owes -/

/-- What a decoder with a bound says to a raw frame. A frame that is too long is refused as soon as
its header is complete; any other is answered for when it is whole. -/
def outcome? (codec : Codec) (f : RawFrame) : Option (Except Error Frame) :=
  if codec.limit < f.size then some (.error (.frameTooLarge f.size codec.limit))
  else if f.IsWhole then
    match FrameType.ofCode? f.code with
    | some type => some (.ok ⟨⟨f.service, f.request, f.method, type⟩, f.body⟩)
    | none =>
      some (.error (.rpc ⟨.unsupportedType, s!"unsupported type id {f.code}"⟩ (some f.call)))
  else none

/-- What a decoder with a bound says to a whole byte string. -/
def outcomes (codec : Codec) (s : Bytes) : List (Except Error Frame) :=
  (frames s).filterMap (outcome? codec)

end RawFrame

end RemoteCall
