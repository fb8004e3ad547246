import RemoteCall.Json.Parser
import RemoteCall.Proofs.Json.Nesting

/-!
# Values that were read are in order

The members of an object are put in the order of their keys while they are read, so each value that
a reader gives has ordered objects throughout.

## Main definitions

* `Yields` : a scanner reads nothing without a property.

## Main results

* `yields_scanValue` : scanners of values read ordered values.
* `ordered_of_parse` : a whole text is read as an ordered value.
-/

namespace RemoteCall.Json

/-- Whatever the scanner reads has the property. -/
def Yields {α : Type} (p : α → Prop) (scan : Scan α) : Prop :=
  ∀ x unread, scan = .ok (x, unread) → p x

namespace Yields

variable {α β : Type} {p : α → Prop} {q : β → Prop} {scan : Scan α} {next : α → Bytes → Scan β}
  {x : α} {unread : Bytes}

theorem ok (h : p x) : Yields p (.ok (x, unread)) := by
  rintro y rest heq
  cases heq
  exact h

theorem error (s : Stop) : Yields p (.error s) :=
  fun _ _ heq => by cases heq

theorem stop (cause : Cause) : Yields p (stop cause unread) :=
  error _

theorem andThen (h : Yields p scan) (h' : ∀ x, p x → ∀ unread, Yields q (next x unread)) :
    Yields q (scan.andThen next) := by
  rcases hscan : scan with s | ⟨x, unread⟩
  · exact error s
  · exact h' x (h x unread hscan) unread

/-- What comes first may be anything. -/
theorem andThen_any (h : ∀ x unread, Yields q (next x unread)) : Yields q (scan.andThen next) :=
  andThen (p := fun _ => True) (fun _ _ _ => trivial) fun x _ unread => h x unread

end Yields

/-! ### Leaves -/

theorem ordered_signed (positive : Bool) (x : Binary64) : (signed positive x).Ordered := by
  unfold signed
  generalize (if positive = true then x else x.negate) = y
  unfold ofBinary
  split
  · exact ordered_number _
  · exact ordered_null

variable {positive positiveExponent : Bool} {significand exponent fuel d : Nat} {start : Int}
  {bytes unread : Bytes}

theorem yields_assemble {exponent : Int} :
    Yields Ordered (assemble positive significand exponent unread) := by
  unfold assemble
  split
  · exact .ok (ordered_signed _ _)
  · exact .stop _

theorem yields_scanExponentDigits : Yields Ordered
    (scanExponentDigits positive significand start positiveExponent exponent bytes) := by
  induction bytes generalizing exponent with
  | nil => exact yields_assemble
  | cons b unread ih =>
    rw [scanExponentDigits]
    split
    · split
      · exact ih
      · split
        · exact .stop _
        · exact .ok (ordered_signed _ _)
    · exact yields_assemble

theorem yields_scanExponent : Yields Ordered (scanExponent positive significand start bytes) := by
  unfold scanExponent
  dsimp only
  split
  · exact .stop _
  · split
    · exact yields_scanExponentDigits
    · exact .stop _

theorem yields_scanFraction : Yields Ordered (scanFraction positive significand exponent bytes) := by
  unfold scanFraction
  dsimp only
  split
  · split
    · exact .stop _
    · exact .error _
  · split
    · exact yields_scanExponent
    · exact yields_assemble

theorem ordered_integerOrBinary : (integerOrBinary positive significand).Ordered := by
  unfold integerOrBinary
  extract_lets n
  split
  · exact ordered_number _
  · exact ordered_signed _ _

theorem yields_scanNumber : Yields Ordered (scanNumber positive bytes) := by
  cases bytes with
  | nil => exact .stop _
  | cons b unread =>
    unfold scanNumber
    dsimp only
    split
    · exact .stop _
    · split
      · exact .error _
      · split
        · exact yields_scanFraction
        · split
          · exact yields_scanExponent
          · split
            · exact .ok ordered_integerOrBinary
            · exact yields_assemble

theorem yields_scanWord {value : Json} (hvalue : value.Ordered) (letters : List Char) :
    Yields Ordered (scanWord value letters bytes) := by
  induction letters generalizing bytes with
  | nil => exact .ok hvalue
  | cons c letters ih =>
    cases bytes with
    | nil => exact .stop _
    | cons b unread =>
      rw [scanWord]
      split
      · exact ih
      · exact .stop _

/-! ### Arrays and objects -/

variable {item value : Bytes → Scan Json}

theorem yields_scanItems (hitem : ∀ bytes, Yields Ordered (item bytes)) {seen : List Json}
    (hseen : ∀ x ∈ seen, x.Ordered) : Yields Ordered (scanItems item fuel seen bytes) := by
  induction fuel generalizing seen bytes with
  | zero => exact .stop _
  | succ fuel ih =>
    have hnext (bytes : Bytes) : Yields Ordered
        ((item bytes).andThen fun x unread => scanItems item fuel (x :: seen) unread) :=
      (hitem bytes).andThen fun x hx unread => ih (List.forall_mem_cons.mpr ⟨hx, hseen⟩)
    unfold scanItems
    split
    · exact .stop _
    · split
      · exact .ok (ordered_array.mpr fun x hx => hseen x (List.mem_reverse.mp hx))
      · split
        · exact hnext _
        · split
          · split
            · exact .stop _
            · split
              · exact .stop _
              · exact hnext _
          · exact .stop _

theorem yields_scanMember (hvalue : ∀ bytes, Yields Ordered (value bytes)) :
    Yields (fun m => m.2.Ordered) (scanMember value fuel bytes) := by
  refine Yields.andThen_any fun key unread => ?_
  split
  · exact .stop _
  · split
    · exact (hvalue _).andThen fun x hx unread => .ok hx
    · exact .stop _

theorem yields_scanMembers (hvalue : ∀ bytes, Yields Ordered (value bytes))
    {seen : List (String × Json)} (hseen : ∀ m ∈ seen, m.2.Ordered) :
    Yields Ordered (scanMembers value fuel seen bytes) := by
  induction fuel generalizing seen bytes with
  | zero => exact .stop _
  | succ fuel ih =>
    have hnext (bytes : Bytes) : Yields Ordered
        ((scanMember value fuel bytes).andThen fun m unread =>
          scanMembers value fuel (m :: seen) unread) :=
      (yields_scanMember hvalue).andThen fun m hm unread =>
        ih (List.forall_mem_cons.mpr ⟨hm, hseen⟩)
    unfold scanMembers
    split
    · exact .stop _
    · split
      · exact .ok (ordered_ofMembers fun m hm => hseen m (List.mem_reverse.mp hm))
      · split
        · split
          · exact hnext _
          · exact .stop _
        · split
          · split
            · exact .stop _
            · split
              · exact hnext _
              · split <;> exact .stop _
          · exact .stop _

/-! ### Values -/

theorem yields_scanValueWith {arrayBody objectBody : Bytes → Scan Json}
    (harray : ∀ bytes, Yields Ordered (arrayBody bytes))
    (hobject : ∀ bytes, Yields Ordered (objectBody bytes)) :
    Yields Ordered (scanValueWith fuel arrayBody objectBody bytes) := by
  unfold scanValueWith
  split
  · exact .stop _
  · split
    · exact yields_scanWord ordered_null _
    · exact yields_scanWord (ordered_bool true) _
    · exact yields_scanWord (ordered_bool false) _
    · exact yields_scanNumber
    · exact Yields.andThen_any fun s unread => .ok (ordered_string s)
    · exact harray _
    · exact hobject _
    · split
      · exact yields_scanNumber
      · exact .stop _

/-- Scanners of values read ordered values. -/
theorem yields_scanValue : Yields Ordered (scanValue fuel d bytes) := by
  induction d generalizing bytes with
  | zero => exact yields_scanValueWith (fun _ => .stop _) fun _ => .stop _
  | succ d ih =>
    exact yields_scanValueWith
      (fun _ => yields_scanItems (fun _ => ih) fun x hx => by cases hx)
      fun _ => yields_scanMembers (fun _ => ih) fun m hm => by cases hm

/-- A whole text is read as an ordered value. -/
theorem ordered_of_parse {j : Json} (h : parse bytes = .ok j) : j.Ordered := by
  unfold parse at h
  split at h
  · cases h
  · rename_i value unread hscan
    split at h
    · cases h
      exact yields_scanValue _ _ hscan
    · cases h

end RemoteCall.Json
