import RemoteCall.Json.Parser
import RemoteCall.Proofs.Json.Leaves
import RemoteCall.Proofs.Json.Nesting

/-!
# Reading what was written

The text of a value is read back as that value, whatever follows it in a longer text, as long as
there are no floating-point numbers in it and arrays and objects nest no deeper than a reader goes.
In the text of a value that nests deeper, reading stops at the first bracket or brace that is too
deep, and for that cause.

## Main definitions

* `Reads` : a scanner reads a value, unless it stops because something is too deep.
* `ReadsBack` : a scanner reads the text of a value in front of any rest.

## Main results

* `reads_items`, `reads_members` : arrays and objects are read back if their children are.
* `readsBack_scanValue` : a value is read back, unless it nests too deep.
* `parse_render`, `parse_render_of_lt_depth` : the two cases for a whole text.
-/

namespace RemoteCall.Json

/-! ### Scanners that may have to go too deep -/

/-- The scanner reads this value if it fits, and otherwise stops because something is too deep. -/
structure Reads {α : Type} (fits : Prop) (scan : Scan α) (x : α) (rest : Bytes) : Prop where
  of_fits : fits → scan = .ok (x, rest)
  of_not_fits : ¬fits → ∃ left, scan = .error ⟨.tooDeep, left⟩

namespace Reads

variable {α β : Type} {fits fits' : Prop} {scan : Scan α} {next : α → Bytes → Scan β} {x : α}
  {y : β} {unread rest : Bytes}

theorem ok (h : fits) (x : α) (rest : Bytes) : Reads fits (.ok (x, rest)) x rest :=
  ⟨fun _ => rfl, fun hnot => absurd h hnot⟩

theorem tooDeep (h : ¬fits) (x : α) (rest : Bytes) : Reads fits (stop .tooDeep unread) x rest :=
  ⟨fun hfits => absurd hfits h, fun _ => ⟨_, rfl⟩⟩

theorem congr (h : Reads fits scan x rest) (hiff : fits' ↔ fits) : Reads fits' scan x rest :=
  ⟨fun hfits => h.of_fits (hiff.mp hfits), fun hnot => h.of_not_fits (mt hiff.mpr hnot)⟩

/-- What comes first fits, and so does what comes then. -/
theorem andThen (h : Reads fits scan x unread) (h' : Reads fits' (next x unread) y rest) :
    Reads (fits ∧ fits') (scan.andThen next) y rest := by
  by_cases hfits : fits
  · rw [h.of_fits hfits]
    exact h'.congr (and_iff_right hfits)
  · obtain ⟨left, hleft⟩ := h.of_not_fits hfits
    rw [hleft]
    exact ⟨fun hboth => absurd hboth.1 hfits, fun _ => ⟨left, rfl⟩⟩

end Reads

/-- The scanner reads the text of the value in front of any rest, if this text together with the
rest is shorter than the bound. -/
def ReadsBack (bound d : Nat) (scan : Bytes → Scan Json) (x : Json) : Prop :=
  ∀ rest, Delimited rest → (Utf8.encode x.render ++ rest).length < bound →
    Reads (x.depth ≤ d) (scan (Utf8.encode x.render ++ rest)) x rest

/-! ### The bytes of a text -/

theorem encode_render_array (items : List Json) :
    Utf8.encode (array items).render = 0x5b :: (Utf8.encode (renderItems items) ++ [0x5d]) := by
  have hopen : Utf8.encode "[" = [0x5b] := by decide
  have hclose : Utf8.encode "]" = [0x5d] := by decide
  rw [render, Utf8.encode_append, Utf8.encode_append, hopen, hclose]
  rfl

theorem encode_renderItems (x : Json) (items : List Json) :
    Utf8.encode (renderItems (x :: items)) =
      Utf8.encode x.render ++ Utf8.encode (renderMoreItems items) := by
  rw [renderItems, Utf8.encode_append]

theorem encode_renderMoreItems (x : Json) (items : List Json) :
    Utf8.encode (renderMoreItems (x :: items)) =
      0x2c :: (Utf8.encode x.render ++ Utf8.encode (renderMoreItems items)) := by
  have hcomma : Utf8.encode "," = [0x2c] := by decide
  rw [renderMoreItems, Utf8.encode_append, Utf8.encode_append, hcomma]
  rfl

theorem encode_render_object (members : List (String × Json)) :
    Utf8.encode (object members).render =
      0x7b :: (Utf8.encode (renderMembers members) ++ [0x7d]) := by
  have hopen : Utf8.encode "\x7b" = [0x7b] := by decide
  have hclose : Utf8.encode "\x7d" = [0x7d] := by decide
  rw [render, Utf8.encode_append, Utf8.encode_append, hopen, hclose]
  rfl

/-- The bytes of a member. -/
def memberBytes (m : String × Json) : Bytes :=
  textTail m.1 ++ 0x3a :: Utf8.encode m.2.render

theorem encode_renderMembers (m : String × Json) (members : List (String × Json)) :
    Utf8.encode (renderMembers (m :: members)) =
      0x22 :: (memberBytes m ++ Utf8.encode (renderMoreMembers members)) := by
  have hcolon : Utf8.encode ":" = [0x3a] := by decide
  rw [renderMembers, Utf8.encode_append, Utf8.encode_append, Utf8.encode_append, hcolon,
    encode_renderText, memberBytes]
  simp

theorem encode_renderMoreMembers (m : String × Json) (members : List (String × Json)) :
    Utf8.encode (renderMoreMembers (m :: members)) =
      0x2c :: 0x22 :: (memberBytes m ++ Utf8.encode (renderMoreMembers members)) := by
  have hcolon : Utf8.encode ":" = [0x3a] := by decide
  have hcomma : Utf8.encode "," = [0x2c] := by decide
  rw [renderMoreMembers, Utf8.encode_append, Utf8.encode_append, Utf8.encode_append,
    Utf8.encode_append, hcolon, hcomma, encode_renderText, memberBytes]
  simp

/-- The decimal digits. -/
def digitBytes : Bytes :=
  [0x30, 0x31, 0x32, 0x33, 0x34, 0x35, 0x36, 0x37, 0x38, 0x39]

/-- The bytes with which the text of a value begins. -/
def openings : Bytes :=
  [0x6e, 0x74, 0x66, 0x22, 0x5b, 0x7b, 0x2d] ++ digitBytes

theorem mem_digitBytes {b : UInt8} (h : isDigit b = true) : b ∈ digitBytes := by
  rw [isDigit, Bool.and_eq_true, decide_eq_true_eq, decide_eq_true_eq, UInt8.le_iff_toNat_le,
    UInt8.le_iff_toNat_le] at h
  obtain ⟨hlow, hhigh⟩ : 48 ≤ b.toNat ∧ b.toNat ≤ 57 := h
  rw [← UInt8.ofNat_toNat (x := b)]
  interval_cases b.toNat <;> decide

theorem exists_opening {j : Json} (h : j.FloatFree) :
    ∃ b tail, Utf8.encode j.render = b :: tail ∧ b ∈ openings := by
  cases j with
  | null => exact ⟨0x6e, _, rfl, by decide⟩
  | bool b =>
    cases b with
    | false => exact ⟨0x66, _, rfl, by decide⟩
    | true => exact ⟨0x74, _, rfl, by decide⟩
  | number n =>
    cases n with
    | integer n fits =>
      rw [render, renderNumber, encode_toString_int]
      split
      · exact ⟨0x2d, _, rfl, by decide⟩
      · rcases hdecimal : decimal n.natAbs with - | ⟨b, tail⟩
        · exact absurd hdecimal (decimal_ne_nil _)
        · have hdigit : isDigit b = true := isDigit_of_mem_decimal (hdecimal ▸ List.mem_cons_self)
          exact ⟨b, tail, rfl, List.mem_append_right _ (mem_digitBytes hdigit)⟩
    | binary x finite => exact absurd h (not_floatFree_binary finite)
  | string s => exact ⟨0x22, _, encode_renderText s, by decide⟩
  | array items => exact ⟨0x5b, _, encode_render_array items, by decide⟩
  | object members => exact ⟨0x7b, _, encode_render_object members, by decide⟩

/-! ### Arrays -/

variable {fuel bound d : Nat} {item value : Bytes → Scan Json} {rest unread : Bytes} {b : UInt8}

/-- No value begins with a blank or a closing bracket. -/
theorem of_mem_openings (hb : b ∈ openings) : ¬isBlank b = true ∧ ¬letter b = ']' := by
  have hall : openings.all (fun b => !isBlank b && letter b != ']') = true := by decide
  simpa using List.all_eq_true.mp hall b hb

theorem skipBlanks_of_mem_openings (hb : b ∈ openings) : skipBlanks (b :: unread) = b :: unread :=
  List.dropWhile_cons_of_neg (of_mem_openings hb).1

section Arrays

variable {x : Json} {seen items : List Json}

theorem scanItems_first (hx : x.FloatFree) :
    scanItems item (fuel + 1) [] (Utf8.encode x.render ++ unread) =
      (item (Utf8.encode x.render ++ unread)).andThen fun x unread =>
        scanItems item fuel [x] unread := by
  obtain ⟨b, text, htext, hb⟩ := exists_opening hx
  rw [htext, List.cons_append, scanItems, skipBlanks_of_mem_openings hb]
  simp only [if_neg (of_mem_openings hb).2]
  rfl

theorem scanItems_more (hx : x.FloatFree) (hseen : seen ≠ []) :
    scanItems item (fuel + 1) seen (0x2c :: (Utf8.encode x.render ++ unread)) =
      (item (Utf8.encode x.render ++ unread)).andThen fun x unread =>
        scanItems item fuel (x :: seen) unread := by
  obtain ⟨b, text, htext, hb⟩ := exists_opening hx
  have hempty : seen.isEmpty = false := List.isEmpty_eq_false_iff.mpr hseen
  have hcomma (unread : Bytes) : skipBlanks (0x2c :: unread) = 0x2c :: unread := rfl
  rw [htext, List.cons_append, scanItems, hcomma]
  simp only [hempty]
  rw [if_neg (by decide), if_neg (by decide), if_pos (by decide), skipBlanks_of_mem_openings hb]
  simp only [if_neg (of_mem_openings hb).2]

theorem delimited_items (items : List Json) (rest : Bytes) :
    Delimited (Utf8.encode (renderMoreItems items) ++ 0x5d :: rest) := by
  cases items with
  | nil => exact fun b hb => by cases hb; decide
  | cons x items =>
    rw [encode_renderMoreItems]
    exact fun b hb => by cases hb; decide

/-- The items after the first are read back. -/
theorem reads_moreItems (seen : List Json) (hitems : ∀ x ∈ items, ReadsBack bound d item x)
    (hfree : ∀ x ∈ items, x.FloatFree) (hseen : seen ≠ []) (hbound : fuel ≤ bound)
    (hfuel : (Utf8.encode (renderMoreItems items) ++ 0x5d :: rest).length < fuel) :
    Reads (∀ x ∈ items, x.depth ≤ d)
      (scanItems item fuel seen (Utf8.encode (renderMoreItems items) ++ 0x5d :: rest))
      (array (seen.reverse ++ items)) rest := by
  induction items generalizing seen fuel with
  | nil =>
    cases fuel with
    | zero => exact absurd hfuel (Nat.not_lt_zero _)
    | succ fuel =>
      rw [List.append_nil]
      exact .ok (by simp) (array seen.reverse) rest
  | cons x items ih =>
    cases fuel with
    | zero => exact absurd hfuel (Nat.not_lt_zero _)
    | succ fuel =>
      rw [encode_renderMoreItems, List.cons_append, List.append_assoc] at hfuel ⊢
      rw [List.length_cons, Nat.add_lt_add_iff_right] at hfuel
      rw [scanItems_more (hfree x List.mem_cons_self) hseen]
      have hx := hitems x List.mem_cons_self _ (delimited_items items rest)
        (Nat.lt_trans hfuel hbound)
      have hrest := ih (x :: seen) (fun y hy => hitems y (List.mem_cons_of_mem x hy))
        (fun y hy => hfree y (List.mem_cons_of_mem x hy)) (List.cons_ne_nil x seen)
        (Nat.le_of_succ_le hbound)
        (Nat.lt_of_le_of_lt (List.suffix_append _ _).length_le hfuel)
      rw [List.reverse_cons, List.append_assoc] at hrest
      exact (hx.andThen hrest).congr List.forall_mem_cons

/-- An array is read back behind its bracket, if its items are. -/
theorem reads_items (hitems : ∀ x ∈ items, ReadsBack bound d item x)
    (hfree : ∀ x ∈ items, x.FloatFree)
    (hbound : (Utf8.encode (renderItems items) ++ 0x5d :: rest).length + 1 < bound) :
    Reads (∀ x ∈ items, x.depth ≤ d)
      (scanItems item bound [] (Utf8.encode (renderItems items) ++ 0x5d :: rest))
      (array items) rest := by
  cases bound with
  | zero => exact absurd hbound (Nat.not_lt_zero _)
  | succ fuel =>
    cases items with
    | nil => exact .ok (by simp) (array []) rest
    | cons x items =>
      rw [encode_renderItems, List.append_assoc] at hbound ⊢
      rw [scanItems_first (hfree x List.mem_cons_self)]
      have hx := hitems x List.mem_cons_self _ (delimited_items items rest)
        (Nat.lt_of_succ_lt hbound)
      have hrest := reads_moreItems [x]
        (fun y hy => hitems y (List.mem_cons_of_mem x hy))
        (fun y hy => hfree y (List.mem_cons_of_mem x hy)) (List.cons_ne_nil x [])
        (Nat.le_succ fuel)
        (Nat.lt_of_le_of_lt (List.suffix_append _ _).length_le (Nat.lt_of_succ_lt_succ hbound))
      exact (hx.andThen hrest).congr List.forall_mem_cons

end Arrays

/-! ### Objects -/

section Objects

variable {m : String × Json} {seen members : List (String × Json)}

theorem reads_member (hm : ReadsBack bound d value m.2) (hunread : Delimited unread)
    (hbound : fuel ≤ bound) (hfuel : (memberBytes m ++ unread).length < fuel) :
    Reads (m.2.depth ≤ d) (scanMember value fuel (memberBytes m ++ unread)) m unread := by
  rw [memberBytes, List.append_assoc, List.cons_append] at hfuel ⊢
  have hvalue := hm unread hunread
    (Nat.lt_of_lt_of_le (Nat.lt_of_le_of_lt
      ((List.suffix_cons 0x3a _).trans (List.suffix_append _ _)).length_le hfuel) hbound)
  rw [scanMember, scanString_textTail hfuel]
  exact (hvalue.andThen (.ok trivial m unread)).congr (and_true _).symm.to_iff

theorem delimited_members (members : List (String × Json)) (rest : Bytes) :
    Delimited (Utf8.encode (renderMoreMembers members) ++ 0x7d :: rest) := by
  cases members with
  | nil => exact fun b hb => by cases hb; decide
  | cons m members =>
    rw [encode_renderMoreMembers]
    exact fun b hb => by cases hb; decide

/-- The members after the first are read back. -/
theorem reads_moreMembers (seen : List (String × Json)) (hmembers : ∀ m ∈ members, ReadsBack bound d value m.2)
    (hseen : seen ≠ []) (hbound : fuel ≤ bound)
    (hfuel : (Utf8.encode (renderMoreMembers members) ++ 0x7d :: rest).length < fuel) :
    Reads (∀ m ∈ members, m.2.depth ≤ d)
      (scanMembers value fuel seen (Utf8.encode (renderMoreMembers members) ++ 0x7d :: rest))
      (ofMembers (seen.reverse ++ members)) rest := by
  induction members generalizing seen fuel with
  | nil =>
    cases fuel with
    | zero => exact absurd hfuel (Nat.not_lt_zero _)
    | succ fuel =>
      rw [List.append_nil]
      exact .ok (by simp) (ofMembers seen.reverse) rest
  | cons m members ih =>
    cases fuel with
    | zero => exact absurd hfuel (Nat.not_lt_zero _)
    | succ fuel =>
      rw [encode_renderMoreMembers, List.cons_append, List.cons_append, List.append_assoc]
        at hfuel ⊢
      have hlength := Nat.lt_of_succ_lt (Nat.lt_of_succ_lt_succ hfuel)
      have hm := reads_member (hmembers m List.mem_cons_self) (delimited_members members rest)
        (Nat.le_of_succ_le hbound) hlength
      have hrest := ih (m :: seen)
        (fun m' hm' => hmembers m' (List.mem_cons_of_mem m hm')) (List.cons_ne_nil m seen)
        (Nat.le_of_succ_le hbound)
        (Nat.lt_of_le_of_lt (List.suffix_append _ _).length_le hlength)
      rw [List.reverse_cons, List.append_assoc] at hrest
      rcases seen with - | ⟨s, seen⟩
      · exact absurd rfl hseen
      · exact (hm.andThen hrest).congr List.forall_mem_cons

/-- An object is read back behind its brace, if its members are. -/
theorem reads_members (hmembers : ∀ m ∈ members, ReadsBack bound d value m.2)
    (hbound : (Utf8.encode (renderMembers members) ++ 0x7d :: rest).length + 1 < bound) :
    Reads (∀ m ∈ members, m.2.depth ≤ d)
      (scanMembers value bound [] (Utf8.encode (renderMembers members) ++ 0x7d :: rest))
      (ofMembers members) rest := by
  cases bound with
  | zero => exact absurd hbound (Nat.not_lt_zero _)
  | succ fuel =>
    cases members with
    | nil => exact .ok (by simp) (ofMembers []) rest
    | cons m members =>
      rw [encode_renderMembers, List.cons_append, List.append_assoc] at hbound ⊢
      have hlength := Nat.lt_of_succ_lt (Nat.lt_of_succ_lt_succ hbound)
      have hm := reads_member (hmembers m List.mem_cons_self) (delimited_members members rest)
        (Nat.le_succ fuel) hlength
      have hrest := reads_moreMembers [m]
        (fun m' hm' => hmembers m' (List.mem_cons_of_mem m hm')) (List.cons_ne_nil m [])
        (Nat.le_succ fuel)
        (Nat.lt_of_le_of_lt (List.suffix_append _ _).length_le hlength)
      exact (hm.andThen hrest).congr List.forall_mem_cons

end Objects

/-! ### Values -/

section Values

variable {arrayBody objectBody : Bytes → Scan Json}

theorem scanValueWith_of_isDigit (hb : isDigit b = true) :
    scanValueWith fuel arrayBody objectBody (b :: unread) = scanNumber true (b :: unread) := by
  have hmem := mem_digitBytes hb
  simp only [digitBytes, List.mem_cons, List.not_mem_nil, or_false] at hmem
  rcases hmem with rfl | rfl | rfl | rfl | rfl | rfl | rfl | rfl | rfl | rfl <;> rfl

theorem scanValueWith_integer {n : Int} (fits : -0x8000000000000000 ≤ n ∧ n < 0x10000000000000000)
    (hrest : Delimited rest) :
    scanValueWith fuel arrayBody objectBody
        (Utf8.encode (number (.integer n fits)).render ++ rest) =
      .ok (number (.integer n fits), rest) := by
  have habs : n.natAbs ≤ maxSignificand := by
    rw [maxSignificand]
    omega
  rw [render, renderNumber, encode_toString_int]
  have hread := integerOrBinary_natAbs fits
  split
  · rename_i hneg
    rw [decide_eq_false (Int.not_le.mpr hneg)] at hread
    have hminus (unread : Bytes) : scanValueWith fuel arrayBody objectBody (0x2d :: unread) =
        scanNumber false unread := rfl
    rw [List.cons_append, hminus, scanNumber_decimal false habs hrest, hread]
  · rename_i hnonneg
    rw [decide_eq_true (Int.not_lt.mp hnonneg)] at hread
    rcases hdecimal : decimal n.natAbs with - | ⟨b, digits⟩
    · exact absurd hdecimal (decimal_ne_nil _)
    · have hb : isDigit b = true := isDigit_of_mem_decimal (hdecimal ▸ List.mem_cons_self)
      rw [List.cons_append, scanValueWith_of_isDigit hb, ← List.cons_append, ← hdecimal,
        scanNumber_decimal true habs hrest, hread]

theorem scanValueWith_string {s : String}
    (hfuel : (Utf8.encode (string s).render ++ rest).length < fuel) :
    scanValueWith fuel arrayBody objectBody (Utf8.encode (string s).render ++ rest) =
      .ok (string s, rest) := by
  rw [render, encode_renderText, List.cons_append] at hfuel ⊢
  have hquote (unread : Bytes) : scanValueWith fuel arrayBody objectBody (0x22 :: unread) =
      (scanString fuel unread).andThen fun s unread => .ok (string s, unread) := rfl
  rw [hquote, scanString_textTail (Nat.lt_of_succ_lt hfuel)]
  rfl

end Values

/-- A scanner for values reads words, strings and numbers wherever it stands. -/
theorem exists_scanValue_eq (fuel d : Nat) :
    ∃ arrayBody objectBody, scanValue fuel d = scanValueWith fuel arrayBody objectBody := by
  cases d <;> exact ⟨_, _, rfl⟩

theorem reads_array {items : List Json}
    (hitems : ∀ d, ∀ x ∈ items, ReadsBack fuel d (scanValue fuel d) x)
    (hfree : ∀ x ∈ items, x.FloatFree) : ReadsBack fuel d (scanValue fuel d) (array items) := by
  intro rest _ hfuel
  rw [encode_render_array, List.cons_append, List.append_assoc] at hfuel ⊢
  cases d with
  | zero => exact .tooDeep (Nat.not_succ_le_zero _) (array items) rest
  | succ d => exact (reads_items (hitems d) hfree hfuel).congr depth_le_succ_iff

theorem reads_object {members : List (String × Json)}
    (hmembers : ∀ d, ∀ m ∈ members, ReadsBack fuel d (scanValue fuel d) m.2)
    (hordered : KeyOrdered Prod.fst members) :
    ReadsBack fuel d (scanValue fuel d) (object members) := by
  intro rest _ hfuel
  rw [encode_render_object, List.cons_append, List.append_assoc] at hfuel ⊢
  cases d with
  | zero => exact .tooDeep (Nat.not_succ_le_zero _) (object members) rest
  | succ d =>
    have hread := reads_members (hmembers d) hfuel
    rw [ofMembers_of_keyOrdered hordered] at hread
    exact hread.congr (depth_le_succ_iff.trans List.forall_mem_map)

/-- A value is read back, unless it nests deeper than the scanner goes. -/
theorem readsBack_scanValue {j : Json} (hfree : j.FloatFree) (hordered : j.Ordered) (fuel d : Nat) :
    ReadsBack fuel d (scanValue fuel d) j := by
  induction j using childInduction generalizing d with
  | step j ih =>
    obtain ⟨hself, hchildren⟩ := each_iff.mp hordered
    have hbelow := (each_iff.mp hfree).2
    obtain ⟨arrayBody, objectBody, hscan⟩ := exists_scanValue_eq fuel d
    have hleaf (rest : Bytes) (hdepth : j.depth = 0)
        (hread : scanValueWith fuel arrayBody objectBody (Utf8.encode j.render ++ rest) =
          .ok (j, rest)) :
        Reads (j.depth ≤ d) (scanValue fuel d (Utf8.encode j.render ++ rest)) j rest := by
      rw [hscan, hread, hdepth]
      exact .ok (Nat.zero_le d) j rest
    cases j with
    | null => exact fun rest _ _ => hleaf rest rfl rfl
    | bool b => exact fun rest _ _ => hleaf rest rfl (by cases b <;> rfl)
    | number n =>
      cases n with
      | integer n fits =>
        exact fun rest hrest _ => hleaf rest rfl (scanValueWith_integer fits hrest)
      | binary x finite => exact absurd hfree (not_floatFree_binary finite)
    | string s => exact fun rest _ hfuel => hleaf rest rfl (scanValueWith_string hfuel)
    | array items =>
      exact reads_array (fun d x hx => ih x hx (hbelow x hx) (hchildren x hx) d) hbelow
    | object members =>
      refine reads_object (fun d m hm => ?_) (hself members rfl)
      have hm : m.2 ∈ (object members).children := List.mem_map_of_mem hm
      exact ih m.2 hm (hbelow _ hm) (hchildren _ hm) d

/-! ### Whole texts -/

variable {j : Json}

theorem delimited_nil : Delimited [] := fun b hb => by cases hb

/-- The text of a value that nests no deeper than a reader goes is read back. -/
theorem parse_render (hfree : j.FloatFree) (hordered : j.Ordered) (h : j.depth ≤ maxDepth) :
    parse (Utf8.encode j.render) = .ok j := by
  have hread := readsBack_scanValue hfree hordered ((Utf8.encode j.render).length + 1) maxDepth []
    delimited_nil
  rw [List.append_nil] at hread
  rw [parse, (hread (Nat.lt_succ_self _)).of_fits h]
  rfl

/-- In the text of a value that nests deeper, reading stops for that cause. -/
theorem parse_render_of_lt_depth (hfree : j.FloatFree) (hordered : j.Ordered)
    (h : maxDepth < j.depth) :
    ∃ e, parse (Utf8.encode j.render) = .error e ∧ e.cause = .tooDeep := by
  have hread := readsBack_scanValue hfree hordered ((Utf8.encode j.render).length + 1) maxDepth []
    delimited_nil
  rw [List.append_nil] at hread
  obtain ⟨left, hleft⟩ := (hread (Nat.lt_succ_self _)).of_not_fits (Nat.not_le.mpr h)
  rw [parse, hleft]
  exact ⟨_, rfl, rfl⟩

end RemoteCall.Json
