namespace ChipEight

class RandomSource (ρ : Type) where
  next : ρ → UInt8 × ρ

/-- A fixed sequence of bytes that starts over when it runs out. -/
structure ByteTape where
  bytes : Array UInt8
  position : Nat
  deriving DecidableEq

namespace ByteTape

def ofBytes (bytes : List UInt8) : ByteTape := ⟨bytes.toArray, 0⟩

/-- A tape without bytes yields zeros. -/
def next (t : ByteTape) : UInt8 × ByteTape :=
  match t.bytes[t.position]? with
  | none => (0, t)
  | some b => (b, { t with position := (t.position + 1) % t.bytes.size })

def take (t : ByteTape) : Nat → List UInt8
  | 0 => []
  | count + 1 => t.next.1 :: t.next.2.take count

end ByteTape

instance : RandomSource ByteTape := ⟨ByteTape.next⟩

structure Generator where
  state : UInt64
  deriving DecidableEq

namespace Generator

def next (g : Generator) : UInt8 × Generator :=
  let state := g.state * 6364136223846793005 + 1442695040888963407
  ((state >>> 56).toUInt8, ⟨state⟩)

end Generator

instance : RandomSource Generator := ⟨Generator.next⟩

instance {ρ ρ₂ : Type} [RandomSource ρ] [RandomSource ρ₂] : RandomSource (ρ ⊕ ρ₂) where
  next
    | .inl r => (RandomSource.next r).map id .inl
    | .inr r => (RandomSource.next r).map id .inr

end ChipEight
