/-! # Instances that come first

  A power, a sum or a product of numbers, and a statement about all members of a list, can be found
  to compute in several ways. Those of the core library come first here, whichever others are known:
  a power is computed by multiplication of numerals, and a statement about the members of a list
  is decided by going through the list, not through all values that a member could have.
-/

namespace LayerGraph

variable {α : Type}

/-- A power of a number. -/
@[default_instance 20000]
instance (priority := 20000) powByNat [NatPow α] : Pow α Nat := instPowNat

/-- The number zero. -/
instance (priority := 20000) zeroOfNumeral [OfNat α 0] : Zero α := Zero.ofOfNat0

/-- The natural number one, where a product starts. -/
instance (priority := 20000) oneOfNumeral : One Nat := One.ofOfNat1

/-- A statement about the members of a list. -/
instance (priority := 20000) decidableForallMemList (p : α → Prop) [DecidablePred p]
    (items : List α) : Decidable (∀ a ∈ items, p a) :=
  List.decidableBAll p items

/-- A statement about the member of an option. -/
instance (priority := 20000) decidableForallMemOption (p : α → Prop) [DecidablePred p]
    (item : Option α) : Decidable (∀ a ∈ item, p a) :=
  Option.decidableForallMem item

end LayerGraph
