import AlpSdk.Library.Bytes

-- CBOR data items, and pull decoders that read one of them out of a payload piece by piece.
namespace Library.Cbor

open Library.Bytes

-- An integer of any size; the text is in UTF-8.
inductive Value where
  | int (n : Int)
  | bytes (contents : List UInt8)
  | text (contents : List UInt8)
  | array (items : List Value)
  | map (entries : List (Value × Value))
  | tag (number : UInt64) (value : Value)
  | simple (n : Fin 24)
  | float (bits : UInt64)

-- The items of a map in the order of their encodings.
def flat (entries : List (Value × Value)) : List Value := entries.flatMap fun entry => [entry.1, entry.2]

theorem length_flat (entries : List (Value × Value)) : (flat entries).length = 2 * entries.length := by
  induction entries with
  | nil => rfl
  | cons entry entries ih =>
      rw [flat, List.flatMap_cons, List.length_append, ← flat, ih, List.length_cons, List.length_cons,
        List.length_cons, List.length_nil]
      omega

-- Where in the payload a string is.
structure Span where
  off : Nat
  len : Nat

def Span.bytes (s : Span) (payload : List UInt8) : List UInt8 := slice s.off s.len payload

-- A decoder with a budget of containers that may be open at a time. Each operation takes the next
-- item of the open container, goes into a container or leaves it, and fails where it cannot.
-- `payload` and `left` are not operations: what is being read, and how much of it is left.
structure Decoder where
  State : Type
  start : Nat → List UInt8 → State
  mapStart : State → Option State
  mapEnd : State → Option State
  listStart : State → Option State
  listEnd : State → Option State
  atEnd : State → Bool
  text : State → Option (Span × State)
  bytes : State → Option (Span × State)
  uint32 : State → Option (UInt32 × State)
  skip : State → Option State
  payload : State → List UInt8
  left : State → Nat

variable (d : Decoder)

-- A step that stays in its payload and does not go back in it.
def Decoder.Onward (z z' : d.State) : Prop := d.payload z' = d.payload z ∧ d.left z' ≤ d.left z

-- Whatever the bytes, a string is inside them, and none is read twice.
structure Decoder.Bounded : Prop where
  start : ∀ budget payload, d.payload (d.start budget payload) = payload ∧
    d.left (d.start budget payload) ≤ payload.length
  mapStart : ∀ z z', d.mapStart z = some z' → d.Onward z z'
  mapEnd : ∀ z z', d.mapEnd z = some z' → d.Onward z z'
  listStart : ∀ z z', d.listStart z = some z' → d.Onward z z'
  listEnd : ∀ z z', d.listEnd z = some z' → d.Onward z z'
  text : ∀ z s z', d.text z = some (s, z') →
    s.off + s.len ≤ (d.payload z).length ∧ d.payload z' = d.payload z ∧ d.left z' < d.left z
  bytes : ∀ z s z', d.bytes z = some (s, z') →
    s.off + s.len ≤ (d.payload z).length ∧ d.Onward z z'
  uint32 : ∀ z n z', d.uint32 z = some (n, z') → d.Onward z z'
  skip : ∀ z z', d.skip z = some z' → d.Onward z z'

-- The decoder reads back what `encode` writes, if that is shorter than 4 GiB: `At z items outer`
-- says that the open container has `items` left, and those around it `outer`.
structure Decoder.Inverse (encode : Value → List UInt8) (budget : Nat)
    (At : d.State → List Value → List (List Value) → Prop) : Prop where
  start : ∀ value, (encode value).length < 2 ^ 32 → At (d.start budget (encode value)) [value] []
  mapStart : ∀ z entries items outer, At z (.map entries :: items) outer → outer.length < budget →
    ∃ z', d.mapStart z = some z' ∧ At z' (flat entries) (items :: outer)
  mapEnd : ∀ z items outer, At z [] (items :: outer) → ∃ z', d.mapEnd z = some z' ∧ At z' items outer
  listStart : ∀ z inner items outer, At z (.array inner :: items) outer → outer.length < budget →
    ∃ z', d.listStart z = some z' ∧ At z' inner (items :: outer)
  listEnd : ∀ z items outer, At z [] (items :: outer) → ∃ z', d.listEnd z = some z' ∧ At z' items outer
  atEnd : ∀ z items outer, At z items outer → d.atEnd z = items.isEmpty
  text : ∀ z contents items outer, At z (.text contents :: items) outer →
    ∃ s z', d.text z = some (s, z') ∧ s.bytes (d.payload z) = contents ∧ At z' items outer
  bytes : ∀ z contents items outer, At z (.bytes contents :: items) outer →
    ∃ s z', d.bytes z = some (s, z') ∧ s.bytes (d.payload z) = contents ∧ At z' items outer
  uint32 : ∀ z (n : UInt32) items outer, At z (.int n.toNat :: items) outer →
    ∃ z', d.uint32 z = some (n, z') ∧ At z' items outer
  skip : ∀ z value items outer, At z (value :: items) outer → ∃ z', d.skip z = some z' ∧ At z' items outer

end Library.Cbor
