import RemoteCall.Service.Refusal

/-!
# Weights

The weight of an address is its share of connections, from one to ten.
-/

namespace RemoteCall

/-- A share of connections. -/
structure Weight where
  val : UInt8
  one_le : 1 ≤ val
  le_ten : val ≤ 10
  deriving DecidableEq, Repr

namespace Weight

/-- The least weight. -/
def least : Weight := ⟨1, by decide, by decide⟩

instance : Inhabited Weight := ⟨least⟩

/-- The weight of this number, if it is one. -/
def ofByte (w : UInt8) : Except Refusal Weight :=
  if h : 1 ≤ w ∧ w ≤ 10 then .ok ⟨w, h.1, h.2⟩ else .error (.weight w)

@[simp] theorem ofByte_val (w : Weight) : ofByte w.val = .ok w := by
  simp [ofByte, w.one_le, w.le_ten]

end Weight

end RemoteCall
