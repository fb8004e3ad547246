import RemoteCall.Net.Address
import RemoteCall.Proofs.Decimal

/-!
# Reading the numbers of an address

A number in an address is written with the digits of its base and read as far as digits go. What
may follow it is therefore anything that does not begin with a digit; a dotted address is four such
numbers, and a text in which something other than a point follows the first of them is none.

## Main definitions

* `Stops` : what may follow a number.

## Main results

* `takeBounded?_toDigits` : a number below its bound is read back.
* `takeDotted?_dotted` : an IPv4 address is read back.
* `takeDotted?_of_noDot` : what is no IPv4 address is not read as one.
-/

namespace RemoteCall.SocketAddress

variable {base n : Nat} {rest : List Char}

/-! ### Digits -/

theorem digit?_digitChar (hbase : base ≤ 16) {d : Nat} (h : d < base) :
    digit? base (Nat.digitChar d) = some d := by
  have hall : ∀ e < 16, digit? 16 (Nat.digitChar e) = some e := by decide
  have hd := hall d (Nat.lt_of_lt_of_le h hbase)
  simp only [digit?, Option.ite_none_right_eq_some, Option.some.injEq] at hd ⊢
  rw [hd.2]
  exact ⟨h, rfl⟩

/-- No digit of the base comes first. -/
def Stops (base : Nat) (rest : List Char) : Prop :=
  ∀ c ∈ rest.head?, digit? base c = none

theorem stops_nil (base : Nat) : Stops base [] := by
  rintro c ⟨⟩

theorem Stops.cons {c : Char} (h : digit? base c = none) (rest : List Char) :
    Stops base (c :: rest) := by
  rintro d hd
  obtain rfl : c = d := by simpa using hd
  exact h

theorem takeNumber_cons {c : Char} {d : Nat} (h : digit? base c = some d) (value count : Nat) :
    takeNumber base value count (c :: rest) =
      takeNumber base (value * base + d) (count + 1) rest := by
  rw [takeNumber, h]

theorem takeNumber_of_stops (h : Stops base rest) (value count : Nat) :
    takeNumber base value count rest = (value, count, rest) := by
  cases rest with
  | nil => rfl
  | cons c rest => rw [takeNumber, h c rfl]

/-- The digits of a number are taken, and what follows them may go on. -/
theorem takeNumber_toDigits (hone : 1 < base) (hbase : base ≤ 16) (n : Nat) (rest : List Char) :
    takeNumber base 0 0 (Nat.toDigits base n ++ rest) =
      takeNumber base n (Nat.toDigits base n).length rest := by
  induction n using Nat.base_induction base hone generalizing rest with
  | single d hd =>
    rw [Nat.toDigits_of_lt_base hd, List.singleton_append,
      takeNumber_cons (digit?_digitChar hbase hd), Nat.zero_mul, Nat.zero_add,
      List.length_singleton]
  | digit m d hd hm ih =>
    rw [← Nat.toDigits_append_toDigits hone hm hd, Nat.toDigits_of_lt_base hd, List.append_assoc,
      ih, List.singleton_append, takeNumber_cons (digit?_digitChar hbase hd), List.length_append,
      List.length_singleton, Nat.mul_comm m base]

/-- A number below its bound, of no more digits than are allowed, is read back. -/
theorem takeBounded?_toDigits (hone : 1 < base) (hbase : base ≤ 16) {bound digits : Nat}
    (hn : n < bound) (hlength : (Nat.toDigits base n).length ≤ digits) (hrest : Stops base rest) :
    takeBounded? base bound digits (Nat.toDigits base n ++ rest) = some (n, rest) := by
  simp only [takeBounded?, takeNumber_toDigits hone hbase, takeNumber_of_stops hrest]
  exact if_pos ⟨Nat.length_toDigits_pos, hlength, hn⟩

/-- Nothing is read where no digit comes first. -/
theorem takeBounded?_of_stops (h : Stops base rest) (bound digits : Nat) :
    takeBounded? base bound digits rest = none := by
  simp only [takeBounded?, takeNumber_of_stops h]
  exact if_neg fun hpos => Nat.lt_irrefl 0 hpos.1

/-- A decimal number below its bound is read back when it may have as many digits as there are
characters. -/
theorem takeBounded?_decimal {bound : Nat} (hn : n < bound) (hrest : Stops 10 rest) :
    takeBounded? 10 bound (Nat.toDigits 10 n ++ rest).length (Nat.toDigits 10 n ++ rest) =
      some (n, rest) := by
  refine takeBounded?_toDigits (by decide) (by decide) hn ?_ hrest
  rw [List.length_append]
  exact Nat.le_add_right _ _

theorem takePort?_toDigits (port : UInt16) (hrest : Stops 10 rest) :
    takePort? (Nat.toDigits 10 port.toNat ++ rest) = some (port, rest) := by
  rw [takePort?, takeBounded?_decimal port.toNat_lt hrest]
  simp

/-! ### Dotted addresses -/

/-- An octet is read back; no digit but the only one is a leading zero. -/
theorem takeOctet?_toDigits (hn : n < 256) (hrest : Stops 10 rest) :
    takeOctet? (Nat.toDigits 10 n ++ rest) = some (n, rest) := by
  have hlength : (Nat.toDigits 10 n).length ≤ 3 :=
    (Nat.length_toDigits_le_iff (by decide) (by decide)).mpr (by omega)
  have hzero : ¬((Nat.toDigits 10 n ++ rest).head? = some '0' ∧
      (Nat.toDigits 10 n ++ rest).length ≠ rest.length + 1) := by
    rintro ⟨hhead, hne⟩
    rw [List.head?_append_of_ne_nil _ Nat.toDigits_ne_nil] at hhead
    rcases Nat.eq_zero_or_pos n with rfl | hpos
    · exact hne (by simp)
    · exact Decimal.head?_toDigits hpos hhead
  rw [takeOctet?, takeBounded?_toDigits (by decide) (by decide) hn hlength hrest]
  exact if_neg hzero

theorem takeChar?_self (c : Char) (rest : List Char) : takeChar? c (c :: rest) = some rest :=
  if_pos rfl

theorem takeChar?_of_head? {c : Char} (h : rest.head? ≠ some c) : takeChar? c rest = none := by
  cases rest with
  | nil => rfl
  | cons d rest => exact if_neg fun heq => h (by rw [heq, List.head?_cons])

/-- The characters of a dotted address. -/
theorem toList_dotted (ip : Nat) : (dotted ip).toList =
    Nat.toDigits 10 (ip / 0x1000000 % 256) ++ '.' :: (Nat.toDigits 10 (ip / 0x10000 % 256) ++
      '.' :: (Nat.toDigits 10 (ip / 256 % 256) ++ '.' :: Nat.toDigits 10 (ip % 256))) := by
  have hpoint : (toString ".").toList = ['.'] := rfl
  simp [dotted, String.toList_append, hpoint]

/-- An IPv4 address is read back. -/
theorem takeDotted?_dotted {ip : Nat} (h : ip < 0x100000000) (hrest : Stops 10 rest) :
    takeDotted? ((dotted ip).toList ++ rest) = some (ip, rest) := by
  have hdot (rest : List Char) : Stops 10 ('.' :: rest) := Stops.cons (by decide) rest
  have hoctet (n : Nat) : n % 256 < 256 := Nat.mod_lt n (by decide)
  have hip : ((ip / 0x1000000 % 256 * 256 + ip / 0x10000 % 256) * 256 + ip / 256 % 256) * 256 +
      ip % 256 = ip := by omega
  simp only [toList_dotted, List.append_assoc, List.cons_append, takeDotted?,
    takeOctet?_toDigits (hoctet _) (hdot _), takeOctet?_toDigits (hoctet _) hrest, takeChar?_self,
    Option.bind_eq_bind, Option.bind_some, hip]

theorem takeNumber_rest (base value count : Nat) (cs : List Char) :
    (takeNumber base value count cs).2.2 = cs.dropWhile fun c => (digit? base c).isSome := by
  induction cs generalizing value count with
  | nil => rfl
  | cons c cs ih =>
    rw [takeNumber]
    split
    · rename_i d hd
      rw [ih, List.dropWhile_cons_of_pos (by rw [hd]; rfl)]
    · rename_i hd
      rw [List.dropWhile_cons_of_neg (by rw [hd]; exact Bool.false_ne_true)]

theorem head?_dropWhile_append {p : Char → Bool} {c : Char} {front : List Char} (hfront : c ∉ front)
    (hrest : ∀ d ∈ rest.head?, p d = false ∧ d ≠ c) :
    ((front ++ rest).dropWhile p).head? ≠ some c := by
  induction front with
  | nil =>
    cases rest with
    | nil => simp
    | cons d rest =>
      obtain ⟨hp, hne⟩ := hrest d rfl
      rw [List.nil_append, List.dropWhile_cons_of_neg (Bool.eq_false_iff.mp hp), List.head?_cons]
      exact fun h => hne (Option.some.inj h)
  | cons d front ih =>
    rw [List.cons_append, List.dropWhile_cons]
    split
    · exact ih fun hmem => hfront (List.mem_cons_of_mem d hmem)
    · rw [List.head?_cons]
      exact fun h => hfront (Option.some.inj h ▸ List.mem_cons_self)

/-- What begins with characters other than points, behind which neither a digit nor a point comes,
is no dotted address. -/
theorem takeDotted?_of_noDot {front : List Char} (hfront : '.' ∉ front)
    (hrest : ∀ c ∈ rest.head?, digit? 10 c = none ∧ c ≠ '.') :
    takeDotted? (front ++ rest) = none := by
  cases hoctet : takeOctet? (front ++ rest) with
  | none => rw [takeDotted?, hoctet]; rfl
  | some taken =>
    obtain ⟨a, after⟩ := taken
    have hafter : after = (front ++ rest).dropWhile fun c => (digit? 10 c).isSome := by
      simp only [takeOctet?, takeBounded?, Option.bind_eq_bind, Option.bind_eq_some_iff,
        Option.ite_none_right_eq_some, Option.ite_none_left_eq_some, Option.some.injEq] at hoctet
      obtain ⟨taken, ⟨-, rfl⟩, -, hsome⟩ := hoctet
      rw [← takeNumber_rest 10 0 0]
      exact (Prod.mk.inj hsome).2.symm
    have hhead : after.head? ≠ some '.' := by
      rw [hafter]
      refine head?_dropWhile_append hfront fun c hc => ⟨?_, (hrest c hc).2⟩
      rw [(hrest c hc).1]
      rfl
    simp only [takeDotted?, hoctet, takeChar?_of_head? hhead, Option.bind_eq_bind, Option.bind_some,
      Option.bind_none]

end RemoteCall.SocketAddress
