import RemoteCall.Proofs.Net.Ipv6

/-!
# Reading a socket address

An address is read back from its text, whatever its family, its port and its scope, so addresses
with one text are one address. The resolver reads the strict forms first and therefore reads an
address back as well.

## Main results

* `splitLast?_append`, `append_cons_inj` : a text is divided at its last occurrence of a character.
* `parse?_text`, `resolve_text` : an address is read back.
* `text_inj` : addresses have different texts.
-/

namespace RemoteCall.SocketAddress

/-! ### Last occurrences -/

variable {c : Char} {cs front front' back back' : List Char}

/-- A text is divided at the last occurrence of a character. -/
theorem splitLast?_append (h : c ∉ back) :
    splitLast? c (front ++ c :: back) = some (front, back) := by
  have hreverse : (front ++ c :: back).reverse = back.reverse ++ c :: front.reverse := by simp
  have htake : (back.reverse ++ c :: front.reverse).takeWhile (· ≠ c) = back.reverse := by
    rw [List.takeWhile_append_of_pos, List.takeWhile_cons_of_neg (by simp), List.append_nil]
    intro d hd
    have hne : d ≠ c := fun heq => h (heq ▸ List.mem_reverse.mp hd)
    exact decide_eq_true hne
  simp only [splitLast?, hreverse, htake, List.drop_left, List.reverse_reverse]

/-- A character that occurs has a last occurrence. -/
theorem exists_eq_append_last (h : c ∈ cs) : ∃ front back, cs = front ++ c :: back ∧ c ∉ back := by
  obtain ⟨back, front, hcs, hback⟩ := List.eq_append_cons_of_mem (List.mem_reverse.mpr h)
  refine ⟨front.reverse, back.reverse, ?_, fun hmem => hback (List.mem_reverse.mp hmem)⟩
  rw [← List.reverse_reverse cs, hcs]
  simp

/-- Both parts of a divided text are known from it. -/
theorem append_cons_inj (h : c ∉ back) (h' : c ∉ back')
    (heq : front ++ c :: back = front' ++ c :: back') : front = front' ∧ back = back' := by
  have hdivided : splitLast? c (front ++ c :: back) = some (front, back) := splitLast?_append h
  rw [heq, splitLast?_append h', Option.some.injEq, Prod.mk.injEq] at hdivided
  exact ⟨hdivided.1.symm, hdivided.2.symm⟩

/-! ### Texts of addresses -/

/-- The characters of an IPv4 address and a port. -/
theorem toList_text_v4 (ip : UInt32) (port : UInt16) : (v4 ip port).text.toList =
    (dotted ip.toNat).toList ++ ':' :: Nat.toDigits 10 port.toNat := by
  have hport : (toString port).toList = Nat.toDigits 10 port.toNat :=
    Decimal.toList_toString port.toNat
  simp [text, String.toList_append, hport]

/-- What stands behind the digits of an IPv6 address: its scope, unless that is zero. -/
def zone (scope : UInt32) : List Char :=
  if scope = 0 then [] else '%' :: Nat.toDigits 10 scope.toNat

/-- The characters of an IPv6 address, its scope and a port. -/
theorem toList_text_v6 (ip : BitVec 128) (port : UInt16) (scope : UInt32) :
    (v6 ip port scope).text.toList = '[' :: ((ipv6Text ip).toList ++
      (zone scope ++ ']' :: ':' :: Nat.toDigits 10 port.toNat)) := by
  have hport : (toString port).toList = Nat.toDigits 10 port.toNat :=
    Decimal.toList_toString port.toNat
  have hscope : (toString scope).toList = Nat.toDigits 10 scope.toNat :=
    Decimal.toList_toString scope.toNat
  have hzone : (if scope = 0 then "" else "%" ++ toString scope).toList = zone scope := by
    unfold zone
    split
    · rfl
    · rw [String.toList_append, hscope]
      rfl
  simp [text, String.toList_append, hport, hzone]

theorem parseV4?_text (ip : UInt32) (port : UInt16) :
    parseV4? (v4 ip port).text.toList = some (v4 ip port) := by
  have hcolon : Stops 10 (':' :: Nat.toDigits 10 port.toNat) := Stops.cons (by decide) _
  have hport := takePort?_toDigits port (stops_nil 10)
  rw [List.append_nil] at hport
  rw [toList_text_v4]
  simp [parseV4?, takeDotted?_dotted ip.toNat_lt hcolon, takeChar?_self, hport]

/-- A text in brackets is no IPv4 address. -/
theorem parseV4?_bracket (cs : List Char) : parseV4? ('[' :: cs) = none := by
  have hdotted : takeDotted? ('[' :: cs) = none := by
    refine takeDotted?_of_noDot List.not_mem_nil fun c hc => ?_
    obtain rfl : '[' = c := Option.some.inj hc
    decide
  rw [parseV4?, hdotted]
  rfl

theorem parseV6?_text (ip : BitVec 128) (port : UInt16) (scope : UInt32) :
    parseV6? (v6 ip port scope).text.toList = some (v6 ip port scope) := by
  have hport := takePort?_toDigits port (stops_nil 10)
  rw [List.append_nil] at hport
  rw [toList_text_v6]
  unfold zone
  split
  · rename_i hscope
    have hcloses : Closes (']' :: ':' :: Nat.toDigits 10 port.toNat) :=
      fun c hc => Or.inl (Option.some.inj hc).symm
    have hzone : takeChar? '%' (']' :: ':' :: Nat.toDigits 10 port.toNat) = none := rfl
    simp [parseV6?, takeChar?_self, takeIpv6?_ipv6Text ip hcloses, hzone, hport, hscope]
  · have hcloses : Closes ('%' :: (Nat.toDigits 10 scope.toNat ++
        ']' :: ':' :: Nat.toDigits 10 port.toNat)) :=
      fun c hc => Or.inr (Option.some.inj hc).symm
    have hbracket : Stops 10 (']' :: ':' :: Nat.toDigits 10 port.toNat) :=
      Stops.cons (by decide) _
    have hzone := takeBounded?_decimal scope.toNat_lt hbracket
    simp only [parseV6?, takeChar?_self, List.cons_append, takeIpv6?_ipv6Text ip hcloses, hzone,
      hport, Option.bind_eq_bind, Option.bind_some]
    simp

/-- An address is read back from its text. -/
theorem parse?_text (a : SocketAddress) : parse? a.text = some a := by
  cases a with
  | v4 ip port => rw [parse?, parseV4?_text]; rfl
  | v6 ip port scope =>
    have hv4 : parseV4? (v6 ip port scope).text.toList = none := by
      rw [toList_text_v6, parseV4?_bracket]
    rw [parse?, hv4, parseV6?_text]
    rfl

/-- The resolver reads an address back from its text. -/
theorem resolve_text (a : SocketAddress) : resolve a.text = .ok a := by
  rw [resolve, parse?_text]

/-- Addresses with one text are one address. -/
theorem text_inj {a b : SocketAddress} (h : a.text = b.text) : a = b := by
  have hread := parse?_text a
  rw [h, parse?_text] at hread
  exact (Option.some.inj hread).symm

end RemoteCall.SocketAddress
