import Mathlib.Data.List.Basic

/-!
# Wire values of the onion messenger and its RPC server

The records the modelled Go functions read and build, field by field as the code declares
them, under the packages that declare them:

* `Lnwire.ReplyPath` — a reply path as the onion messenger carries it (keys parsed);
* `OffersRpc.BlindedPath` — the same path as the RPC server exchanges it (keys as bytes);
* `Sphinx.BlindedPath` — a blinded route as the sphinx package returns it;
* `Status` — a gRPC status error.

Keys are an abstract type `K`. The two btcec functions the converters call, `ParsePubKey` and
`SerializeCompressed`, form a `KeyCodec`, which carries as fields the two laws the RPC round trip
rests on: serializing then parsing gives the key back, and a 33-byte encoding that parses is the
serialization of what it parses to. `compressedCodec` is an executable codec over byte strings
of the compressed shape, so the laws hold of something.

Pointers to keys and to hops are modelled as the values they point to: every producer of these
records (the lnwire decoder, protobuf decoding, the sphinx route builder) sets them.
-/

namespace Boltnd

/-- A Go `[]byte`; `nil` and the empty slice are both `[]`. -/
abbrev Bytes := List UInt8

/-! ### Evaluating `Except` and `Option` code -/

@[simp] theorem except_ok_bind {ε α β : Type} (a : α) (f : α → Except ε β) :
    (Except.ok a >>= f) = f a := rfl

@[simp] theorem except_error_bind {ε α β : Type} (e : ε) (f : α → Except ε β) :
    (Except.error e >>= f) = Except.error e := rfl

@[simp] theorem except_pure {ε α : Type} (a : α) : (pure a : Except ε α) = Except.ok a := rfl

@[simp] theorem except_map_ok {ε α β : Type} (f : α → β) (a : α) :
    (f <$> (Except.ok a : Except ε α)) = Except.ok (f a) := rfl

@[simp] theorem except_map_error {ε α β : Type} (f : α → β) (e : ε) :
    (f <$> (Except.error e : Except ε α)) = Except.error e := rfl

/-- Where a chain of `Except` binds stopped: at its first step, or after it. -/
theorem except_bind_eq_error {ε α β : Type} {x : Except ε α} {f : α → Except ε β} {e : ε} :
    (x >>= f) = Except.error e ↔
      x = Except.error e ∨ ∃ a, x = Except.ok a ∧ f a = Except.error e := by
  cases x <;> simp

theorem except_bind_eq_ok {ε α β : Type} {x : Except ε α} {f : α → Except ε β} {b : β} :
    (x >>= f) = Except.ok b ↔ ∃ a, x = Except.ok a ∧ f a = Except.ok b := by
  cases x <;> simp

/-- `btcec.ParsePubKey` and `(*btcec.PublicKey).SerializeCompressed`, treated as inverse on
33-byte compressed encodings. A parse error is its `err.Error()` text. -/
structure KeyCodec (K : Type) where
  parsePubKey : Bytes → Except String K
  serializeCompressed : K → Bytes
  length_serialize : ∀ k, (serializeCompressed k).length = 33
  parse_serialize : ∀ k, parsePubKey (serializeCompressed k) = .ok k
  serialize_parse : ∀ {b k}, parsePubKey b = .ok k → b.length = 33 → serializeCompressed k = b

/-- The shape of a compressed point: 33 bytes, the first of them the parity byte 2 or 3. -/
def IsCompressed (b : Bytes) : Prop :=
  b.length = 33 ∧ (b.head? = some 2 ∨ b.head? = some 3)

instance : DecidablePred IsCompressed := fun b =>
  inferInstanceAs (Decidable (b.length = 33 ∧ (b.head? = some 2 ∨ b.head? = some 3)))

/-- Keys as their compressed encodings. -/
def CompressedKey := { b : Bytes // IsCompressed b }

/-- A codec that accepts exactly the byte strings of the compressed shape. -/
def compressedCodec : KeyCodec CompressedKey where
  parsePubKey b := if h : IsCompressed b then .ok ⟨b, h⟩ else .error "malformed public key"
  serializeCompressed k := k.val
  length_serialize k := k.property.1
  parse_serialize k := dif_pos k.property
  serialize_parse {b k} h _ := by
    dsimp only at h ⊢
    split at h
    · cases h
      rfl
    · cases h

namespace Lnwire

/-- `lnwire.BlindedHop`. -/
structure BlindedHop (K : Type) where
  blindedNodeID : K
  encryptedData : Bytes
  deriving DecidableEq, Repr

/-- `lnwire.ReplyPath`. -/
structure ReplyPath (K : Type) where
  firstNodeID : K
  blindingPoint : K
  hops : List (BlindedHop K)
  deriving DecidableEq, Repr

end Lnwire

namespace OffersRpc

/-- `offersrpc.BlindedHop`. -/
structure BlindedHop where
  blindedNodeId : Bytes
  encryptedData : Bytes
  deriving DecidableEq, Repr

/-- `offersrpc.BlindedPath`. -/
structure BlindedPath where
  introductionNode : Bytes
  blindingPoint : Bytes
  hops : List BlindedHop
  deriving DecidableEq, Repr

/-- The keys of a path in the order `parseReplyPath` parses them. -/
def BlindedPath.keys (b : BlindedPath) : List Bytes :=
  b.introductionNode :: b.blindingPoint :: b.hops.map BlindedHop.blindedNodeId

/-- `offersrpc.SubscribeOnionPayloadResponse`. -/
structure SubscribeOnionPayloadResponse where
  value : Bytes
  replyPath : Option BlindedPath
  deriving DecidableEq, Repr

end OffersRpc

namespace Sphinx

/-- `sphinx.BlindedHopInfo`. -/
structure BlindedHopInfo (K : Type) where
  blindedNodePub : K
  cipherText : Bytes
  deriving DecidableEq, Repr

/-- `sphinx.BlindedPath`. -/
structure BlindedPath (K : Type) where
  introductionPoint : K
  blindingPoint : K
  blindedHops : List (BlindedHopInfo K)
  deriving DecidableEq, Repr

end Sphinx

/-- The gRPC codes the RPC server returns. -/
inductive Code where
  | canceled
  | invalidArgument
  | unavailable
  deriving DecidableEq, Repr

/-- A `status.Errorf(code, ...)` error. -/
structure Status where
  code : Code
  message : String
  deriving DecidableEq, Repr

end Boltnd
