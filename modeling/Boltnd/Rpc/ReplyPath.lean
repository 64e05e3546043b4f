import Boltnd.Wire

/-!
# Reply paths across the RPC boundary

`rpcserver/common.go` converts between the messenger's reply paths and the RPC's blinded
paths:

* `parseReplyPath` parses an RPC path, key by key, stopping at the first key that does not parse;
* `composeReplyPath` serializes a reply path into a `make`d hop slice, slot by slot;
* `composeBlindedRoute` serializes a sphinx route by `append`ing one hop at a time.

The results:

* `replyPath_round_trip` — the two converters are inverse: composing then parsing gives the
  path back, parsing then composing gives back any path whose keys are 33-byte encodings that
  parse, and parsing fails, with an `InvalidArgument` status and no path, exactly when a key
  does not parse;
* `parseReplyPath_error_iff` — a parse fails with a status exactly when some key does not
  parse and the status carries the first such key's error under its field name; a hop key's
  field is `"introduction node"`, as in the source;
* `composeBlindedRoute_round_trip` — the append loop agrees with the index loop of
  `composeReplyPath`, so a route handed out by the server parses back to itself.
-/

namespace Boltnd.Rpc

open Lnwire OffersRpc

variable {K : Type} (codec : KeyCodec K)

/-- The `status.Errorf(codes.InvalidArgument, "<field>: %v", err.Error())` of `parseReplyPath`. -/
def invalidArgument (field err : String) : Status :=
  ⟨.invalidArgument, field ++ ": " ++ err⟩

/-- One key of `parseReplyPath`, its parse error reported under `field`. -/
def parseKey (field : String) (b : Bytes) : Except Status K :=
  (codec.parsePubKey b).mapError (invalidArgument field)

/-- The hop loop of `parseReplyPath`: slot `i` of the `make`d hop slice is written at iteration
`i`, and the first hop key that does not parse returns. Its error names the field
`"introduction node"`, as the source's does. -/
def parseHops : List OffersRpc.BlindedHop → Except Status (List (Lnwire.BlindedHop K))
  | [] => .ok []
  | hop :: hops => do
    let pubkey ← parseKey codec "introduction node" hop.blindedNodeId
    let rest ← parseHops hops
    pure (⟨pubkey, hop.encryptedData⟩ :: rest)

/-- `parseReplyPath`: `nil` for `nil`, else the introduction node, the blinding point and the
hops, in that order. -/
def parseReplyPath : Option OffersRpc.BlindedPath → Except Status (Option (ReplyPath K))
  | none => .ok none
  | some req => do
    let intro ← parseKey codec "introduction node" req.introductionNode
    let blinding ← parseKey codec "blinding point" req.blindingPoint
    let hops ← parseHops codec req.hops
    pure (some ⟨intro, blinding, hops⟩)

/-- One hop of `composeReplyPath`. -/
def composeHop (hop : Lnwire.BlindedHop K) : OffersRpc.BlindedHop :=
  ⟨codec.serializeCompressed hop.blindedNodeID, hop.encryptedData⟩

/-- `composeReplyPath`: `nil` for `nil`. The loop writes slot `i` of a hop slice `make`d at
the path's length, for every `i`, so the slice is the hops' images in order. -/
def composeReplyPath : Option (ReplyPath K) → Option OffersRpc.BlindedPath
  | none => none
  | some resp => some
    ⟨codec.serializeCompressed resp.firstNodeID, codec.serializeCompressed resp.blindingPoint,
      resp.hops.map (composeHop codec)⟩

/-- The loop of `composeBlindedRoute`: each hop `append`ed to the hops built so far. -/
def appendHops (acc : List OffersRpc.BlindedHop) :
    List (Sphinx.BlindedHopInfo K) → List OffersRpc.BlindedHop
  | [] => acc
  | h :: hs => appendHops (acc ++ [⟨codec.serializeCompressed h.blindedNodePub, h.cipherText⟩]) hs

/-- `composeBlindedRoute`. -/
def composeBlindedRoute (route : Sphinx.BlindedPath K) : OffersRpc.BlindedPath :=
  { introductionNode := codec.serializeCompressed route.introductionPoint
    blindingPoint := codec.serializeCompressed route.blindingPoint
    hops := appendHops codec [] route.blindedHops }

/-- The reply path a sphinx route stands for: its introduction point, blinding point and hops. -/
def replyPathOfRoute (r : Sphinx.BlindedPath K) : ReplyPath K :=
  ⟨r.introductionPoint, r.blindingPoint,
    r.blindedHops.map fun h => ⟨h.blindedNodePub, h.cipherText⟩⟩

/-- Every key of an RPC path parses; `nil` has no keys. -/
def keysParse : Option OffersRpc.BlindedPath → Bool
  | none => true
  | some b => b.keys.all fun k => (codec.parsePubKey k).isOk

/-- Every key of an RPC path is 33 bytes long. -/
def keysCompressed : Option OffersRpc.BlindedPath → Bool
  | none => true
  | some b => b.keys.all fun k => k.length == 33

/-! ## Parsing one key -/

theorem parseKey_serialize (field : String) (k : K) :
    parseKey codec field (codec.serializeCompressed k) = .ok k := by
  simp [parseKey, codec.parse_serialize, Except.mapError]

theorem parseKey_isOk (field : String) (b : Bytes) :
    (parseKey codec field b).isOk = (codec.parsePubKey b).isOk := by
  simp only [parseKey]
  cases codec.parsePubKey b <;> rfl

theorem parseKey_eq_error {field : String} {b : Bytes} {st : Status} :
    parseKey codec field b = .error st ↔
      ∃ e, codec.parsePubKey b = .error e ∧ st = invalidArgument field e := by
  simp only [parseKey]
  cases codec.parsePubKey b <;> simp [Except.mapError, eq_comm]

/-! ## Composing then parsing -/

theorem parseHops_map_composeHop (hops : List (Lnwire.BlindedHop K)) :
    parseHops codec (hops.map (composeHop codec)) = .ok hops := by
  induction hops with
  | nil => rfl
  | cons hop hops ih =>
    simp [parseHops, composeHop, parseKey_serialize, ih]

theorem parseReplyPath_composeReplyPath (r : Option (ReplyPath K)) :
    parseReplyPath codec (composeReplyPath codec r) = .ok r := by
  cases r with
  | none => rfl
  | some r =>
    simp [parseReplyPath, composeReplyPath, parseKey_serialize, parseHops_map_composeHop]

/-! ## Parsing then composing -/

theorem parseHops_isOk (hops : List OffersRpc.BlindedHop) :
    (parseHops codec hops).isOk =
      (hops.map BlindedHop.blindedNodeId).all fun k => (codec.parsePubKey k).isOk := by
  induction hops with
  | nil => rfl
  | cons hop hops ih =>
    rw [List.map_cons, List.all_cons, ← parseKey_isOk codec "introduction node", ← ih]
    simp only [parseHops]
    cases parseKey codec "introduction node" hop.blindedNodeId <;>
      cases parseHops codec hops <;> rfl

theorem parseKey_eq_ok_isOk {field : String} {b : Bytes} {k : K}
    (h : parseKey codec field b = .ok k) : (codec.parsePubKey b).isOk := by
  rw [← parseKey_isOk codec field, h]
  rfl

/-- The hop loop stops at the first hop key that does not parse: the hops before it parse, and
the key's error is reported under `"introduction node"`. -/
theorem parseHops_eq_error {hops : List OffersRpc.BlindedHop} {st : Status}
    (h : parseHops codec hops = .error st) :
    ∃ pre hop post e, hops = pre ++ hop :: post ∧
      (pre.map BlindedHop.blindedNodeId).all (fun k => (codec.parsePubKey k).isOk) ∧
      codec.parsePubKey hop.blindedNodeId = .error e ∧
      st = invalidArgument "introduction node" e := by
  induction hops with
  | nil => cases h
  | cons hop hops ih =>
    simp only [parseHops, except_bind_eq_error] at h
    rcases h with hk | ⟨k, hk, hr | ⟨r, -, h⟩⟩
    · obtain ⟨e, he, rfl⟩ := (parseKey_eq_error codec).mp hk
      exact ⟨[], hop, hops, e, rfl, rfl, he, rfl⟩
    · obtain ⟨pre, hop', post, e, rfl, hpre, he, rfl⟩ := ih hr
      exact ⟨hop :: pre, hop', post, e, rfl, by simp [parseKey_eq_ok_isOk codec hk, hpre], he, rfl⟩
    · cases h

/-- A key that parses and is 33 bytes long parses to the key it serializes back to. -/
theorem parseKey_compressed (field : String) {b : Bytes}
    (hp : (codec.parsePubKey b).isOk) (hl : b.length = 33) :
    ∃ k, parseKey codec field b = .ok k ∧ codec.serializeCompressed k = b := by
  cases h : codec.parsePubKey b with
  | error e => rw [h] at hp; cases hp
  | ok k => exact ⟨k, by simp [parseKey, h, Except.mapError], codec.serialize_parse h hl⟩

theorem parseHops_compose {hops : List OffersRpc.BlindedHop}
    (hp : (hops.map BlindedHop.blindedNodeId).all fun k => (codec.parsePubKey k).isOk)
    (hl : (hops.map BlindedHop.blindedNodeId).all fun k => k.length == 33) :
    ∃ hs, parseHops codec hops = .ok hs ∧ hs.map (composeHop codec) = hops := by
  induction hops with
  | nil => exact ⟨[], rfl, rfl⟩
  | cons hop hops ih =>
    simp only [List.map_cons, List.all_cons, Bool.and_eq_true, beq_iff_eq] at hp hl
    obtain ⟨k, hk, hser⟩ := parseKey_compressed codec "introduction node" hp.1 hl.1
    obtain ⟨hs, hr, hmap⟩ := ih hp.2 hl.2
    exact ⟨⟨k, hop.encryptedData⟩ :: hs, by simp [parseHops, hk, hr],
      by simp [composeHop, hser, hmap]⟩

theorem parseReplyPath_isOk (b : Option OffersRpc.BlindedPath) :
    (parseReplyPath codec b).isOk = keysParse codec b := by
  cases b with
  | none => rfl
  | some b =>
    simp only [keysParse, OffersRpc.BlindedPath.keys, List.all_cons]
    rw [← parseKey_isOk codec "introduction node", ← parseKey_isOk codec "blinding point",
      ← parseHops_isOk]
    simp only [parseReplyPath]
    cases parseKey codec "introduction node" b.introductionNode <;>
      cases parseKey codec "blinding point" b.blindingPoint <;>
      cases parseHops codec b.hops <;> rfl

/-- Which key a failed parse stopped at, and the status it returns: the introduction node, the
blinding point, or the first hop key that does not parse, whose error names the field
`"introduction node"` as the source's does. -/
theorem parseReplyPath_eq_error {b : OffersRpc.BlindedPath} {st : Status}
    (h : parseReplyPath codec (some b) = .error st) :
    (∃ e, codec.parsePubKey b.introductionNode = .error e ∧
        st = invalidArgument "introduction node" e) ∨
    ((codec.parsePubKey b.introductionNode).isOk ∧
      ∃ e, codec.parsePubKey b.blindingPoint = .error e ∧
        st = invalidArgument "blinding point" e) ∨
    ((codec.parsePubKey b.introductionNode).isOk ∧ (codec.parsePubKey b.blindingPoint).isOk ∧
      ∃ pre hop post e, b.hops = pre ++ hop :: post ∧
        (pre.map BlindedHop.blindedNodeId).all (fun k => (codec.parsePubKey k).isOk) ∧
        codec.parsePubKey hop.blindedNodeId = .error e ∧
        st = invalidArgument "introduction node" e) := by
  simp only [parseReplyPath, except_bind_eq_error] at h
  rcases h with hi | ⟨i, hi, hb | ⟨bp, hb, hr | ⟨r, -, h⟩⟩⟩
  · exact .inl ((parseKey_eq_error codec).mp hi)
  · exact .inr (.inl ⟨parseKey_eq_ok_isOk codec hi, (parseKey_eq_error codec).mp hb⟩)
  · exact .inr (.inr ⟨parseKey_eq_ok_isOk codec hi, parseKey_eq_ok_isOk codec hb,
      parseHops_eq_error codec hr⟩)
  · cases h

theorem parsePubKey_ok_of_isOk {b : Bytes} (h : (codec.parsePubKey b).isOk) :
    ∃ k, codec.parsePubKey b = .ok k := by
  cases hk : codec.parsePubKey b with
  | error _ => rw [hk] at h; cases h
  | ok k => exact ⟨k, rfl⟩

/-- The hop loop returns the error of a hop key that does not parse once every key before it
parses. -/
theorem parseHops_first_error (post : List OffersRpc.BlindedHop) {pre : List OffersRpc.BlindedHop}
    {hop : OffersRpc.BlindedHop} {e : String}
    (hpre : (pre.map BlindedHop.blindedNodeId).all fun k => (codec.parsePubKey k).isOk)
    (he : codec.parsePubKey hop.blindedNodeId = .error e) :
    parseHops codec (pre ++ hop :: post) = .error (invalidArgument "introduction node" e) := by
  induction pre with
  | nil => simp [parseHops, parseKey, he, Except.mapError]
  | cons h pre ih =>
    simp only [List.map_cons, List.all_cons, Bool.and_eq_true] at hpre
    obtain ⟨k, hk⟩ := parsePubKey_ok_of_isOk codec hpre.1
    simp [parseHops, parseKey, hk, Except.mapError, ih hpre.2]

/-- **A failed parse names the first key that does not parse.** For every RPC path and status,
`parseReplyPath` fails with that status exactly when the introduction node does not parse and
the status carries its error under `"introduction node"`; or it parses, the blinding point does
not, and the status is under `"blinding point"`; or both parse, every hop key before some hop
parses, that hop's key does not, and the status is under `"introduction node"`, the same field
text as the introduction node's own error. -/
theorem parseReplyPath_error_iff (b : OffersRpc.BlindedPath) (st : Status) :
    parseReplyPath codec (some b) = .error st ↔
      (∃ e, codec.parsePubKey b.introductionNode = .error e ∧
          st = invalidArgument "introduction node" e) ∨
      ((codec.parsePubKey b.introductionNode).isOk ∧
        ∃ e, codec.parsePubKey b.blindingPoint = .error e ∧
          st = invalidArgument "blinding point" e) ∨
      ((codec.parsePubKey b.introductionNode).isOk ∧ (codec.parsePubKey b.blindingPoint).isOk ∧
        ∃ pre hop post e, b.hops = pre ++ hop :: post ∧
          (pre.map BlindedHop.blindedNodeId).all (fun k => (codec.parsePubKey k).isOk) ∧
          codec.parsePubKey hop.blindedNodeId = .error e ∧
          st = invalidArgument "introduction node" e) := by
  refine ⟨parseReplyPath_eq_error codec, ?_⟩
  rintro (⟨e, he, rfl⟩ | ⟨hi, e, he, rfl⟩ | ⟨hi, hb, pre, hop, post, e, hh, hpre, he, rfl⟩)
  · simp [parseReplyPath, parseKey, he, Except.mapError]
  · obtain ⟨k, hk⟩ := parsePubKey_ok_of_isOk codec hi
    simp [parseReplyPath, parseKey, hk, he, Except.mapError]
  · obtain ⟨k, hk⟩ := parsePubKey_ok_of_isOk codec hi
    obtain ⟨k', hk'⟩ := parsePubKey_ok_of_isOk codec hb
    simp [parseReplyPath, parseKey, hk, hk', Except.mapError, hh,
      parseHops_first_error codec post hpre he]

/-- A bad hop key is reported under the introduction node's field. -/
example : parseReplyPath compressedCodec
    (some ⟨2 :: List.replicate 32 7, 3 :: List.replicate 32 9, [⟨[5], [1]⟩]⟩) =
      .error (invalidArgument "introduction node" "malformed public key") := by
  rfl

theorem parseReplyPath_error {b : Option OffersRpc.BlindedPath} {st : Status}
    (h : parseReplyPath codec b = .error st) : st.code = .invalidArgument := by
  cases b with
  | none => cases h
  | some b =>
    rcases parseReplyPath_eq_error codec h with ⟨_, _, rfl⟩ | ⟨_, _, _, rfl⟩ |
      ⟨_, _, _, _, _, _, _, _, _, rfl⟩ <;> rfl

theorem composeReplyPath_parseReplyPath {b : Option OffersRpc.BlindedPath}
    (hp : keysParse codec b) (hl : keysCompressed b) :
    (parseReplyPath codec b).map (composeReplyPath codec) = .ok b := by
  cases b with
  | none => rfl
  | some b =>
    simp only [keysParse, keysCompressed, OffersRpc.BlindedPath.keys, List.all_cons,
      Bool.and_eq_true, beq_iff_eq] at hp hl
    obtain ⟨i, hi, hsi⟩ := parseKey_compressed codec "introduction node" hp.1 hl.1
    obtain ⟨bp, hb, hsb⟩ := parseKey_compressed codec "blinding point" hp.2.1 hl.2.1
    obtain ⟨hs, hr, hmap⟩ := parseHops_compose codec hp.2.2 hl.2.2
    simp [parseReplyPath, hi, hb, hr, Except.map, composeReplyPath, hsi, hsb, hmap]

/-- **The RPC reply-path converters are inverse.** Composing then parsing gives every reply path
back; parsing then composing gives back every RPC path whose keys are 33-byte encodings that
parse; and parsing fails, with an `InvalidArgument` status, exactly when a key does not parse. -/
theorem replyPath_round_trip :
    (∀ r, parseReplyPath codec (composeReplyPath codec r) = .ok r) ∧
    (∀ b, keysParse codec b → keysCompressed b →
      (parseReplyPath codec b).map (composeReplyPath codec) = .ok b) ∧
    (∀ b, (∃ st, parseReplyPath codec b = .error st ∧ st.code = .invalidArgument) ↔
      keysParse codec b = false) := by
  refine ⟨parseReplyPath_composeReplyPath codec,
    fun b => composeReplyPath_parseReplyPath codec, fun b => ?_⟩
  rw [← parseReplyPath_isOk]
  cases h : parseReplyPath codec b with
  | error st => exact ⟨fun _ => rfl, fun _ => ⟨st, rfl, parseReplyPath_error codec h⟩⟩
  | ok r => simp [Except.isOk, Except.toBool]

/-- A one-hop RPC path over compressed keys, parsed and composed back. -/
theorem replyPath_round_trip_one_hop :
    let b : OffersRpc.BlindedPath :=
      ⟨2 :: List.replicate 32 7, 3 :: List.replicate 32 9, [⟨2 :: List.replicate 32 1, [1, 2, 3]⟩]⟩
    keysParse compressedCodec (some b) ∧ keysCompressed (some b) ∧
      (parseReplyPath compressedCodec (some b)).map (composeReplyPath compressedCodec) =
        .ok (some b) :=
  ⟨by decide, by decide, (replyPath_round_trip compressedCodec).2.1 _ (by decide) (by decide)⟩

/-! ## Routes handed out by the server -/

theorem appendHops_eq (acc : List OffersRpc.BlindedHop) (hs : List (Sphinx.BlindedHopInfo K)) :
    appendHops codec acc hs =
      acc ++ hs.map fun h => ⟨codec.serializeCompressed h.blindedNodePub, h.cipherText⟩ := by
  induction hs generalizing acc with
  | nil => simp [appendHops]
  | cons h hs ih => simp [appendHops, ih]

/-- **A route handed out by the server is a reply path.** The append loop of
`composeBlindedRoute` builds what the index loop of `composeReplyPath` builds for the route's
reply path, which therefore parses back. -/
theorem composeBlindedRoute_round_trip (r : Sphinx.BlindedPath K) :
    some (composeBlindedRoute codec r) = composeReplyPath codec (some (replyPathOfRoute r)) ∧
    parseReplyPath codec (some (composeBlindedRoute codec r)) =
      .ok (some (replyPathOfRoute r)) := by
  have h : some (composeBlindedRoute codec r) =
      composeReplyPath codec (some (replyPathOfRoute r)) := by
    simp [composeBlindedRoute, composeReplyPath, replyPathOfRoute, appendHops_eq, composeHop]
  exact ⟨h, h ▸ parseReplyPath_composeReplyPath codec _⟩

end Boltnd.Rpc
