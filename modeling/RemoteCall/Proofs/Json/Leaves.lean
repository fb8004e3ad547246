import Mathlib.Data.List.Basic
import Mathlib.Tactic.IntervalCases
import RemoteCall.Json.Printer
import RemoteCall.Json.Scan
import RemoteCall.Proofs.Decimal

/-!
# Reading the leaves that were written

A string is read up to its closing quote: each character stands there as the bytes of its encoding,
none of which is a quote, a backslash or a control, or as an escape that means it. A whole number is
read as far as its digits go, and what follows it in a text is no digit, point or exponent.

## Main definitions

* `IsPlain` : the bytes that stand for themselves in a string.
* `Delimited` : what may follow a number.

## Main results

* `scanString_textTail` : a string is read back.
* `scanNumber_decimal` : a whole number is read back.
-/

namespace RemoteCall

/-! ### Encoding characters -/

namespace Utf8

theorem encode_ofList (cs : List Char) :
    encode (String.ofList cs) = cs.flatMap String.utf8EncodeChar := by
  rw [encode, String.toUTF8_eq_toByteArray, String.toByteArray_ofList, List.utf8Encode,
    List.toList_data_toByteArray]

theorem encode_eq_flatMap (s : String) : encode s = s.toList.flatMap String.utf8EncodeChar := by
  rw [← encode_ofList, String.ofList_toList]

theorem encode_toString (c : Char) : encode c.toString = String.utf8EncodeChar c := by
  rw [encode_eq_flatMap]
  simp [Char.toString]

theorem encode_join (texts : List String) : encode (String.join texts) = texts.flatMap encode := by
  induction texts with
  | nil => rfl
  | cons s texts ih => rw [String.join_cons, encode_append, ih, List.flatMap_cons]

/-- A character of ASCII is one byte. -/
theorem utf8EncodeChar_of_lt {c : Char} (h : c.toNat < 0x80) :
    String.utf8EncodeChar c = [UInt8.ofNat c.toNat] :=
  if_pos (Nat.le_of_lt_succ h)

/-- Any other character consists of bytes that are not of ASCII. -/
theorem le_of_mem_utf8EncodeChar {c : Char} (h : 0x80 ≤ c.toNat) {b : UInt8}
    (hb : b ∈ String.utf8EncodeChar c) : 0x80 ≤ b := by
  have hbig : ¬c.val.toNat ≤ 127 := Nat.not_le.mpr h
  rw [String.utf8EncodeChar] at hb
  rw [if_neg hbig] at hb
  rw [UInt8.le_iff_toNat_le]
  split at hb
  · simp only [List.mem_cons, List.not_mem_nil, or_false] at hb
    rcases hb with rfl | rfl <;> simp <;> omega
  · split at hb
    · simp only [List.mem_cons, List.not_mem_nil, or_false] at hb
      rcases hb with rfl | rfl | rfl <;> simp <;> omega
    · simp only [List.mem_cons, List.not_mem_nil, or_false] at hb
      rcases hb with rfl | rfl | rfl | rfl <;> simp <;> omega

end Utf8

namespace Json

/-! ### Strings -/

theorem letter_eq_iff {b : UInt8} {c : Char} : letter b = c ↔ b.toNat = c.toNat := by
  rw [← Char.toNat_inj]
  rfl

/-- The bytes that stand for themselves in a string. -/
def IsPlain (b : UInt8) : Prop :=
  0x20 ≤ b ∧ b ≠ 0x22 ∧ b ≠ 0x5c

theorem IsPlain.of_le {b : UInt8} (h : 0x80 ≤ b) : IsPlain b := by
  refine ⟨UInt8.le_trans (by decide) h, ?_, ?_⟩
  · rintro rfl
    exact absurd h (by decide)
  · rintro rfl
    exact absurd h (by decide)

variable {fuel : Nat} {content more rest : Bytes}

theorem scanContent_of_isPlain {b : UInt8} (h : IsPlain b) :
    scanContent (fuel + 1) content (b :: more) = scanContent fuel (b :: content) more := by
  rw [scanContent]
  split
  · rename_i hquote
    exact absurd (UInt8.toNat_inj.mp (letter_eq_iff.mp hquote)) h.2.1
  · rename_i hbackslash
    exact absurd (UInt8.toNat_inj.mp (letter_eq_iff.mp hbackslash)) h.2.2
  · rw [if_neg (UInt8.not_lt.mpr h.1)]

theorem scanContent_plain {bytes : Bytes} (h : ∀ b ∈ bytes, IsPlain b) :
    scanContent (fuel + bytes.length) content (bytes ++ more) =
      scanContent fuel (bytes.reverse ++ content) more := by
  induction bytes generalizing content with
  | nil => rfl
  | cons b bytes ih =>
    rw [List.length_cons, ← Nat.add_assoc, List.cons_append,
      scanContent_of_isPlain (h b List.mem_cons_self), ih fun b hb => h b (List.mem_cons_of_mem _ hb)]
    simp

theorem scanContent_escape :
    scanContent (fuel + 1) content (0x5c :: more) =
      (scanEscape more).andThen fun c unread =>
        scanContent fuel ((Utf8.encode c.toString).reverse ++ content) unread :=
  rfl

theorem scanContent_quote :
    scanContent (fuel + 1) content (0x22 :: rest) = .ok (content.reverse, rest) :=
  rfl

/-- A control stands in a string as an escape that means it. -/
theorem scanEscape_control {n : Nat} (h : n < 0x20) :
    ∃ tail, Utf8.encode (escapeChar (Char.ofNat n)) = 0x5c :: tail ∧
      ∀ more, scanEscape (tail ++ more) = .ok (Char.ofNat n, more) := by
  interval_cases n <;> exact ⟨_, rfl, fun _ => rfl⟩

/-- A character stands in a string as itself, or as an escape that means it. -/
theorem escapeChar_cases (c : Char) :
    (escapeChar c = c.toString ∧ ∀ b ∈ Utf8.encode c.toString, IsPlain b) ∨
      ∃ tail, Utf8.encode (escapeChar c) = 0x5c :: tail ∧
        ∀ more, scanEscape (tail ++ more) = .ok (c, more) := by
  by_cases hcontrol : c.toNat < 0x20
  · right
    rw [← Char.ofNat_toNat c]
    exact scanEscape_control hcontrol
  by_cases hquote : c = '"'
  · right
    subst hquote
    exact ⟨_, rfl, fun _ => rfl⟩
  by_cases hbackslash : c = '\\'
  · right
    subst hbackslash
    exact ⟨_, rfl, fun _ => rfl⟩
  left
  have hself : escapeChar c = c.toString := by
    unfold escapeChar
    split
    all_goals first | exact absurd (by decide) hcontrol | exact absurd rfl ‹_› | exact if_neg hcontrol
  refine ⟨hself, fun b hb => ?_⟩
  rw [Utf8.encode_toString] at hb
  by_cases hascii : c.toNat < 0x80
  · rw [Utf8.utf8EncodeChar_of_lt hascii, List.mem_singleton] at hb
    have hbyte : b.toNat = c.toNat := by
      rw [hb]
      exact UInt8.toNat_ofNat_of_lt' (Nat.lt_trans hascii (by decide))
    refine ⟨?_, ?_, ?_⟩
    · rw [UInt8.le_iff_toNat_le, hbyte]
      exact Nat.not_lt.mp hcontrol
    · rintro rfl
      exact hquote (Char.toNat_inj.mp hbyte.symm)
    · rintro rfl
      exact hbackslash (Char.toNat_inj.mp hbyte.symm)
  · exact .of_le (Utf8.le_of_mem_utf8EncodeChar (Nat.not_lt.mp hascii) hb)

/-- A character is read as the bytes of its encoding. -/
theorem scanContent_escapeChar {c : Char} (content : Bytes)
    (h : (Utf8.encode (escapeChar c) ++ more).length < fuel) :
    ∃ fuel', more.length < fuel' ∧
      scanContent fuel content (Utf8.encode (escapeChar c) ++ more) =
        scanContent fuel' ((Utf8.encode c.toString).reverse ++ content) more := by
  rw [List.length_append] at h
  rcases escapeChar_cases c with ⟨hself, hplain⟩ | ⟨tail, hescape, hmeaning⟩
  · rw [hself] at h ⊢
    obtain ⟨fuel', rfl⟩ := Nat.exists_eq_add_of_le' (Nat.le_trans (Nat.le_add_right _ _) h.le)
    exact ⟨fuel', by omega, scanContent_plain hplain⟩
  · cases fuel with
    | zero => exact absurd h (Nat.not_lt_zero _)
    | succ fuel =>
      refine ⟨fuel, ?_, ?_⟩
      · rw [hescape, List.length_cons] at h
        omega
      · rw [hescape, List.cons_append, scanContent_escape, hmeaning]
        rfl

theorem scanContent_text (cs : List Char)
    (h : (cs.flatMap (Utf8.encode ∘ escapeChar) ++ 0x22 :: rest).length < fuel) :
    scanContent fuel content (cs.flatMap (Utf8.encode ∘ escapeChar) ++ 0x22 :: rest) =
      .ok (content.reverse ++ cs.flatMap String.utf8EncodeChar, rest) := by
  induction cs generalizing fuel content with
  | nil =>
    cases fuel with
    | zero => exact absurd h (Nat.not_lt_zero _)
    | succ fuel => exact scanContent_quote.trans (by rw [List.flatMap_nil, List.append_nil])
  | cons c cs ih =>
    rw [List.flatMap_cons, List.append_assoc] at h ⊢
    obtain ⟨fuel', hfuel, hread⟩ := scanContent_escapeChar content h
    rw [Function.comp_apply, hread, ih hfuel, Utf8.encode_toString]
    simp

/-- What stands behind the opening quote of a string. -/
def textTail (s : String) : Bytes :=
  s.toList.flatMap (Utf8.encode ∘ escapeChar) ++ [0x22]

theorem encode_renderText (s : String) : Utf8.encode (renderText s) = 0x22 :: textTail s := by
  have hquote : Utf8.encode "\"" = [0x22] := by decide
  rw [renderText, Utf8.encode_append, Utf8.encode_append, Utf8.encode_join, List.flatMap_map,
    hquote]
  rfl

/-- A string is read back, up to its closing quote. -/
theorem scanString_textTail {s : String} (h : (textTail s ++ rest).length < fuel) :
    scanString fuel (textTail s ++ rest) = .ok (s, rest) := by
  rw [textTail, List.append_assoc, List.singleton_append] at h ⊢
  rw [scanString, scanContent_text s.toList h, ← Utf8.encode_eq_flatMap]
  simp only [Scan.andThen, List.reverse_nil, List.nil_append, Utf8.decode_encode]

/-! ### Numbers -/

/-- What may follow a number: the end of the text, a comma, or a closing bracket or brace. -/
def Delimited (rest : Bytes) : Prop :=
  ∀ b ∈ rest.head?, b ∈ ([0x2c, 0x5d, 0x7d] : Bytes)

/-- The number that begins with the digits of `significand` and goes on with these. -/
def readDigits (significand : Nat) (digits : Bytes) : Nat :=
  digits.foldl (fun significand b => significand * 10 + digitValue b) significand

/-- The digits of a number. -/
def decimal (n : Nat) : Bytes :=
  Utf8.encode (toString n)

variable {n significand : Nat} {b : UInt8} {digits : Bytes}

theorem toNat_of_isDigit {c : Char} (h : c.isDigit = true) : 48 ≤ c.toNat ∧ c.toNat ≤ 57 := by
  simp only [Char.isDigit, Bool.and_eq_true, decide_eq_true_eq, ge_iff_le,
    UInt32.le_iff_toNat_le] at h
  exact h

theorem toNat_ofNat_of_isDigit {c : Char} (h : c.isDigit = true) :
    (UInt8.ofNat c.toNat).toNat = c.toNat :=
  UInt8.toNat_ofNat_of_lt' (Nat.lt_of_le_of_lt (toNat_of_isDigit h).2 (by decide))

theorem decimal_eq (n : Nat) :
    decimal n = (Nat.toDigits 10 n).map fun c => UInt8.ofNat c.toNat := by
  have hdigits : toString n = String.ofList (Nat.toDigits 10 n) := Nat.toString_eq_ofList_toDigits
  rw [decimal, hdigits, Utf8.encode_ofList, List.map_eq_flatMap]
  refine List.flatMap_congr fun c hc => Utf8.utf8EncodeChar_of_lt ?_
  exact Nat.lt_of_le_of_lt (toNat_of_isDigit (Decimal.isDigit_of_mem_toDigits hc)).2 (by decide)

theorem decimal_ne_nil (n : Nat) : decimal n ≠ [] := by
  rw [decimal_eq]
  exact fun h => Nat.toDigits_ne_nil (List.map_eq_nil_iff.mp h)

theorem isDigit_of_mem_decimal (hb : b ∈ decimal n) : isDigit b = true := by
  rw [decimal_eq] at hb
  obtain ⟨c, hc, rfl⟩ := List.mem_map.mp hb
  have hdigit := Decimal.isDigit_of_mem_toDigits hc
  have hbounds := toNat_of_isDigit hdigit
  rw [isDigit, Bool.and_eq_true, decide_eq_true_eq, decide_eq_true_eq, UInt8.le_iff_toNat_le,
    UInt8.le_iff_toNat_le, toNat_ofNat_of_isDigit hdigit]
  exact hbounds

/-- A number is read off its digits. -/
theorem readDigits_decimal (n : Nat) : readDigits 0 (decimal n) = n := by
  calc
    readDigits 0 (decimal n) =
        (Nat.toDigits 10 n).foldl (fun s c => s * 10 + digitValue (UInt8.ofNat c.toNat)) 0 := by
      rw [decimal_eq, readDigits, List.foldl_map]
    _ = Nat.ofDigitChars 10 (Nat.toDigits 10 n) 0 := by
      refine List.foldl_ext _ _ _ fun s c hc => ?_
      rw [digitValue, toNat_ofNat_of_isDigit (Decimal.isDigit_of_mem_toDigits hc), Nat.mul_comm]
      rfl
    _ = n := Nat.ofDigitChars_ten_toDigits

theorem eq_nil_of_decimal_eq_cons (h : decimal n = b :: digits) (hb : digitValue b = 0) :
    digits = [] := by
  rcases Nat.eq_zero_or_pos n with rfl | hn
  · exact (List.cons.inj h).2.symm
  · exfalso
    rw [decimal_eq, List.map_eq_cons_iff] at h
    obtain ⟨c, cs, hcs, rfl, -⟩ := h
    have hdigit := Decimal.isDigit_of_mem_toDigits (hcs ▸ List.mem_cons_self)
    have hzero : c = '0' := by
      rw [digitValue, toNat_ofNat_of_isDigit hdigit] at hb
      exact Char.toNat_inj.mp (Nat.le_antisymm (Nat.sub_eq_zero_iff_le.mp hb)
        (toNat_of_isDigit hdigit).1)
    exact Decimal.head?_toDigits hn (by rw [hcs, hzero]; rfl)

theorem le_readDigits (significand : Nat) (digits : Bytes) :
    significand ≤ readDigits significand digits := by
  induction digits generalizing significand with
  | nil => exact Nat.le_refl _
  | cons b digits ih => exact Nat.le_trans (by omega) (ih (significand * 10 + digitValue b))

/-- Digits are taken up as far as they go, when the number fits. -/
theorem scanDigits_append (used : Nat) (hdigits : ∀ b ∈ digits, isDigit b = true)
    (hfits : readDigits significand digits ≤ maxSignificand) (hrest : digitFollows rest = false) :
    scanDigits significand used (digits ++ rest) =
      (readDigits significand digits, used + digits.length, rest) := by
  induction digits generalizing significand used with
  | nil =>
    cases rest with
    | nil => rfl
    | cons b rest =>
      have hb : ¬isDigit b = true := Bool.eq_false_iff.mp hrest
      rw [List.nil_append, scanDigits, if_neg fun h => hb h.1]
      rfl
  | cons b digits ih =>
    have hone : significand * 10 + digitValue b ≤ maxSignificand :=
      Nat.le_trans (le_readDigits _ digits) hfits
    rw [List.cons_append, scanDigits, if_pos ⟨hdigits b List.mem_cons_self, hone⟩,
      ih (used + 1) (fun b hb => hdigits b (List.mem_cons_of_mem _ hb)) hfits, List.length_cons,
      Nat.add_right_comm, Nat.add_assoc]
    rfl

theorem whiles_of_not_follows (h : digitFollows rest = false) :
    rest.takeWhile isDigit = [] ∧ rest.dropWhile isDigit = rest := by
  cases rest with
  | nil => exact ⟨rfl, rfl⟩
  | cons b rest =>
    have hb : isDigit b = false := h
    exact ⟨List.takeWhile_cons_of_neg (Bool.eq_false_iff.mp hb),
      List.dropWhile_cons_of_neg (Bool.eq_false_iff.mp hb)⟩

theorem Delimited.not_follows (h : Delimited rest) :
    digitFollows rest = false ∧ pointFollows rest = false ∧ exponentFollows rest = false := by
  cases rest with
  | nil => exact ⟨rfl, rfl, rfl⟩
  | cons b rest =>
    have hb : b ∈ ([0x2c, 0x5d, 0x7d] : Bytes) := h b rfl
    simp only [List.mem_cons, List.not_mem_nil, or_false] at hb
    rcases hb with rfl | rfl | rfl <;> exact ⟨rfl, rfl, rfl⟩

/-- A whole number is read back. -/
theorem scanNumber_decimal (positive : Bool) (hn : n ≤ maxSignificand) (hrest : Delimited rest) :
    scanNumber positive (decimal n ++ rest) = .ok (integerOrBinary positive n, rest) := by
  obtain ⟨hdigit, hpoint, hexponent⟩ := hrest.not_follows
  rcases hdecimal : decimal n with - | ⟨b, digits⟩
  · exact absurd hdecimal (decimal_ne_nil n)
  have hall : ∀ b' ∈ b :: digits, isDigit b' = true := fun b' hb' =>
    isDigit_of_mem_decimal (hdecimal ▸ hb')
  have hvalue : readDigits (digitValue b) digits = n := by
    have hread := readDigits_decimal n
    rw [hdecimal, readDigits, List.foldl_cons, Nat.zero_mul, Nat.zero_add] at hread
    exact hread
  have hzero : ¬(digitValue b = 0 ∧ digitFollows (digits ++ rest) = true) := by
    rintro ⟨hb, hfollows⟩
    rw [eq_nil_of_decimal_eq_cons hdecimal hb, List.nil_append, hdigit] at hfollows
    cases hfollows
  have hscan := scanDigits_append 0 (fun b' hb' => hall b' (List.mem_cons_of_mem b hb'))
    (hvalue ▸ hn) hdigit
  obtain ⟨htake, hdrop⟩ := whiles_of_not_follows hdigit
  rw [List.cons_append, scanNumber, hall b List.mem_cons_self, if_neg (by decide), if_neg hzero,
    hscan, hvalue]
  simp only [htake, hdrop, hpoint, hexponent]
  rfl

/-- A negative number has its sign in front of its digits. -/
theorem encode_toString_int (n : Int) :
    Utf8.encode (toString n) = if n < 0 then 0x2d :: decimal n.natAbs else decimal n.natAbs := by
  cases n with
  | ofNat m => rfl
  | negSucc m =>
    have hminus : Utf8.encode "-" = [0x2d] := by decide
    have htext : toString (Int.negSucc m) = "-" ++ toString (m + 1) := rfl
    rw [htext, Utf8.encode_append, hminus, if_pos (Int.negSucc_lt_zero m)]
    rfl

theorem integerOrBinary_natAbs {n : Int} (h : -0x8000000000000000 ≤ n ∧ n < 0x10000000000000000) :
    integerOrBinary (decide (0 ≤ n)) n.natAbs = number (.integer n h) := by
  have hsigned : (if decide (0 ≤ n) = true then (n.natAbs : Int) else -n.natAbs) = n := by
    simp only [decide_eq_true_eq]
    split <;> omega
  have hzero : (decide (0 ≤ n) || decide (n.natAbs ≠ 0)) = true := by
    simp only [Bool.or_eq_true, decide_eq_true_eq]
    omega
  unfold integerOrBinary
  simp only [hsigned]
  rw [dif_pos ⟨h, hzero⟩]

end Json

end RemoteCall
