import RemoteCall.Fault

/-!
# What was written compactly is read back

Each reader of the compact format takes exactly what the writer of the same kind of value wrote off
the front of a byte string, and leaves what follows. Numbers have to fit the bytes that the reader
grants a varint; lengths and numbers of faults do.

A reader decides by what it takes alone, so what follows a value makes no difference to it, and of
a value that was written in full no part is a value.

## Main definitions

* `Compact.IsLocal` : bytes behind what a reader takes make no difference to it.

## Main results

* `Compact.run_readVarint` : a varint is read back within the bound of its reader.
* `Compact.run_readText` : so is a text whose length fits 64 bits.
* `Compact.run_readList` : so is a list of values that are read back each.
* `Compact.IsLocal.decode_of_prefix` : what breaks off is not read.
* `Fault.decode_encode` : a fault is read back.
-/

namespace RemoteCall

namespace Compact

variable {n : Nat}

theorem varint_of_lt (h : n < 128) : varint n = [UInt8.ofNat n] := by
  rw [varint, if_pos h]

theorem varint_of_le (h : 128 ≤ n) :
    varint n = UInt8.ofNat (n % 128 + 128) :: varint (n / 128) := by
  rw [varint, if_neg (Nat.not_lt.mpr h)]

/-- A reader goes on with what the one before it has taken. -/
theorem run_bind {α β : Type} {read : Reader α} {next : α → Reader β} {bytes rest : Bytes} {a : α}
    (h : read.run bytes = .ok (a, rest)) : (read >>= next).run bytes = (next a).run rest := by
  rw [StateT.run_bind, h]
  rfl

/-! ### Reading numbers -/

theorem run_readByte (b : UInt8) (rest : Bytes) : readByte.run (b :: rest) = .ok (b, rest) := rfl

/-- A byte without the top bit ends a varint, unless it is the last possible byte and exceeds the
bound. -/
theorem run_readVarint_last {last b : UInt8} {count : Nat} {rest : Bytes} (hb : b.toNat < 128)
    (hlast : count = 0 → b.toNat ≤ last.toNat) :
    (readVarint last (count + 1)).run (b :: rest) = .ok (b.toNat, rest) := by
  have htop : b < 0x80 := UInt8.lt_iff_toNat_lt.mpr hb
  have hfits : ¬(count = 0 ∧ last < b) := by
    rintro ⟨hcount, hlt⟩
    have hle := hlast hcount
    have hlt' := UInt8.lt_iff_toNat_lt.mp hlt
    omega
  rw [readVarint, run_bind (run_readByte b rest), if_pos htop, if_neg hfits]
  rfl

/-- A byte with the top bit is followed by the rest of the number. -/
theorem run_readVarint_more {last b : UInt8} {count n : Nat} {rest rest' : Bytes}
    (hb : 128 ≤ b.toNat) (hmore : (readVarint last count).run rest = .ok (n, rest')) :
    (readVarint last (count + 1)).run (b :: rest) = .ok (b.toNat % 128 + 128 * n, rest') := by
  have htop : ¬b < 0x80 := by
    intro hlt
    have hlt' : b.toNat < 128 := UInt8.lt_iff_toNat_lt.mp hlt
    omega
  rw [readVarint, run_bind (run_readByte b rest), if_neg htop, run_bind hmore]
  rfl

/-- The numbers that a varint can hold are less than this, when it has at most `count` bytes and one
more that may not exceed `last`. -/
def varintBound (last : UInt8) : (count : Nat) → Nat
  | 0 => last.toNat + 1
  | count + 1 => 128 * varintBound last count

/-- A number is read back when a varint of the reader can hold it. -/
theorem run_readVarint {last : UInt8} (hlast : last.toNat < 128) {count : Nat} (rest : Bytes)
    (h : n < varintBound last count) :
    (readVarint last (count + 1)).run (varint n ++ rest) = .ok (n, rest) := by
  induction count generalizing n with
  | zero =>
    have hle : n ≤ last.toNat := Nat.lt_succ_iff.mp h
    have hn : (UInt8.ofNat n).toNat = n := by
      rw [UInt8.toNat_ofNat']
      omega
    rw [varint_of_lt (by omega), List.singleton_append,
      run_readVarint_last (by omega) (fun _ => by omega), hn]
  | succ count ih =>
    by_cases hsmall : n < 128
    · have hn : (UInt8.ofNat n).toNat = n := by
        rw [UInt8.toNat_ofNat']
        omega
      rw [varint_of_lt hsmall, List.singleton_append,
        run_readVarint_last (by omega) (fun hcount => absurd hcount (Nat.succ_ne_zero count)), hn]
    · have hn : (UInt8.ofNat (n % 128 + 128)).toNat = n % 128 + 128 := by
        rw [UInt8.toNat_ofNat']
        omega
      have hdiv : n / 128 < varintBound last count := Nat.div_lt_of_lt_mul h
      rw [varint_of_le (Nat.not_lt.mp hsmall), List.cons_append,
        run_readVarint_more (by omega) (ih hdiv), hn]
      congr 2
      omega

/-- A 32-bit number is read back. -/
theorem run_readWord (rest : Bytes) (h : n < UInt32.size) :
    readWord.run (varint n ++ rest) = .ok (n, rest) :=
  run_readVarint (by decide) rest (Nat.lt_of_lt_of_le h (by decide))

/-- A length is read back when it fits 64 bits. -/
theorem run_readLength (rest : Bytes) (h : n < UInt64.size) :
    readLength.run (varint n ++ rest) = .ok (n, rest) :=
  run_readVarint (by decide) rest (Nat.lt_of_lt_of_le h (by decide))

/-! ### Reading texts -/

theorem run_readBytes_eq_ok_iff {bytes front rest : Bytes} :
    (readBytes n).run bytes = .ok (front, rest) ↔ bytes = front ++ rest ∧ front.length = n := by
  rw [← Bytes.split?_eq_some_iff]
  show readBytes n bytes = _ ↔ _
  rw [readBytes]
  cases Bytes.split? n bytes <;> simp [Prod.ext_iff]

theorem run_readBytes (bytes rest : Bytes) :
    (readBytes bytes.length).run (bytes ++ rest) = .ok (bytes, rest) :=
  run_readBytes_eq_ok_iff.mpr ⟨rfl, rfl⟩

/-- A text is read back when its length fits 64 bits. -/
theorem run_readText (s : String) (rest : Bytes) (h : (Utf8.encode s).length < UInt64.size) :
    readText.run (text s ++ rest) = .ok (s, rest) := by
  rw [text, sized, List.append_assoc, readText, run_bind (run_readLength _ h),
    run_bind (run_readBytes _ rest), Utf8.decode_encode]
  rfl

/-! ### Reading lists -/

section Lists

variable {α : Type} {read : Reader α} {write : α → Bytes} {items : List α}

theorem run_readMany (h : ∀ x ∈ items, ∀ rest, read.run (write x ++ rest) = .ok (x, rest))
    (rest : Bytes) :
    (readMany read items.length).run (items.flatMap write ++ rest) = .ok (items, rest) := by
  induction items with
  | nil => rfl
  | cons x items ih =>
    have hitems := ih fun y hy => h y (List.mem_cons_of_mem x hy)
    rw [List.flatMap_cons, List.append_assoc, List.length_cons, readMany,
      run_bind (h x List.mem_cons_self _), run_bind hitems]
    rfl

/-- A list is read back when its items are and its length fits 64 bits. -/
theorem run_readList (h : ∀ x ∈ items, ∀ rest, read.run (write x ++ rest) = .ok (x, rest))
    (hlength : items.length < UInt64.size) (rest : Bytes) :
    (readList read).run (list write items ++ rest) = .ok (items, rest) := by
  rw [list, List.append_assoc, readList, run_bind (run_readLength _ hlength)]
  exact run_readMany h rest

end Lists

/-! ### What follows a value -/

section Local

variable {α β : Type} {read : Reader α} {next : α → Reader β}

/-- What follows the bytes that a reader takes makes no difference to it. -/
def IsLocal (read : Reader α) : Prop :=
  ∀ ⦃bytes a rest⦄, read.run bytes = .ok (a, rest) →
    ∀ more, read.run (bytes ++ more) = .ok (a, rest ++ more)

theorem isLocal_pure (a : α) : IsLocal (pure a : Reader α) := by
  intro bytes b rest h more
  cases h
  rfl

theorem isLocal_throw (e : Failure) : IsLocal (throw e : Reader α) := by
  intro bytes a rest h
  cases h

theorem IsLocal.bind (hread : IsLocal read) (hnext : ∀ a, IsLocal (next a)) :
    IsLocal (read >>= next) := by
  intro bytes b rest h more
  rw [StateT.run_bind] at h
  cases hfirst : read.run bytes with
  | error e =>
    rw [hfirst] at h
    cases h
  | ok first =>
    obtain ⟨a, rest'⟩ := first
    rw [hfirst] at h
    rw [run_bind (hread hfirst more)]
    exact hnext a h more

theorem isLocal_readByte : IsLocal readByte := by
  intro bytes b rest h more
  cases bytes with
  | nil => cases h
  | cons c bytes =>
    cases h
    rfl

theorem isLocal_readBytes (n : Nat) : IsLocal (readBytes n) := by
  intro bytes front rest h more
  obtain ⟨rfl, rfl⟩ := run_readBytes_eq_ok_iff.mp h
  rw [List.append_assoc]
  exact run_readBytes front _

theorem isLocal_readVarint (last : UInt8) (count : Nat) : IsLocal (readVarint last count) := by
  induction count with
  | zero => exact isLocal_throw .badVarint
  | succ count ih =>
    rw [readVarint]
    refine isLocal_readByte.bind fun b => ?_
    split
    · split
      · exact isLocal_throw .badVarint
      · exact isLocal_pure b.toNat
    · exact ih.bind fun more => isLocal_pure _

theorem isLocal_readText : IsLocal readText := by
  rw [readText]
  refine (isLocal_readVarint 1 10).bind fun length =>
    (isLocal_readBytes length).bind fun bytes => ?_
  split
  · exact isLocal_pure _
  · exact isLocal_throw .badText

theorem IsLocal.readMany (hread : IsLocal read) (count : Nat) :
    IsLocal (Compact.readMany read count) := by
  induction count with
  | zero => exact isLocal_pure []
  | succ count ih => exact hread.bind fun x => ih.bind fun rest => isLocal_pure (x :: rest)

theorem IsLocal.readList (hread : IsLocal read) : IsLocal (Compact.readList read) :=
  (isLocal_readVarint 1 10).bind hread.readMany

/-- A value that is the whole of a byte string is not read when the bytes break off. -/
theorem IsLocal.decode_of_prefix (hread : IsLocal read) {bytes front : Bytes} {a : α}
    (h : read.run bytes = .ok (a, [])) (hfront : front <+: bytes) (hne : front ≠ bytes) :
    ∃ e, decode read front = .error e := by
  obtain ⟨more, rfl⟩ := hfront
  cases hdecode : read.run front with
  | error e => exact ⟨e, by rw [decode, hdecode]; rfl⟩
  | ok read' =>
    obtain ⟨b, rest⟩ := read'
    rw [hread hdecode more] at h
    have hmore : more = [] := (List.append_eq_nil_iff.mp (congrArg Prod.snd (Except.ok.inj h))).2
    exact absurd (by rw [hmore, List.append_nil]) hne

end Local

end Compact

/-! ### Faults -/

theorem FaultKind.number_lt (k : FaultKind) : k.number < UInt32.size := by
  cases k <;> decide

/-- A fault is read back from the body that carries it, whatever follows it. -/
theorem Fault.run_reader (f : Fault) (rest : Bytes)
    (h : (Utf8.encode f.message).length < UInt64.size) :
    Fault.reader.run (f.encode ++ rest) = .ok (f, rest) := by
  rw [encode, List.append_assoc, reader,
    Compact.run_bind (Compact.run_readWord _ f.kind.number_lt), FaultKind.all_getElem?_number]
  exact Compact.run_bind (Compact.run_readText f.message rest h)

theorem Fault.decode_encode (f : Fault) (h : (Utf8.encode f.message).length < UInt64.size) :
    Fault.decode f.encode = .ok f := by
  have hread := f.run_reader [] h
  rw [List.append_nil] at hread
  rw [decode, Compact.decode, hread]
  rfl

end RemoteCall
