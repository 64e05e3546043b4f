import Boltnd.Wire

/-!
# Building the path an onion message travels

The two functions of `onionmsg` that turn a cleartext path into the hops the sphinx package
wraps:

* `createPathToBlind` makes a `nil`-filled hop slice, creates the introduction hop, and at
  iteration `i` encodes node `i` into hop `i-1`'s payload before creating hop `i`;
* `blindedToSphinx` fills a fixed-width `PaymentPath` with the introduction point in clear and
  the blinded ids after it.

Go's runtime panics (an index out of range, a `nil` dereference) are `none`. The encoder is an
effectful Go function, so `createPathToBlind` runs in any monad; `logged` records its calls.

The results:

* `createPathToBlind_spec` — for every non-empty path, the encoder is called on `N1, N2, …` in
  order, up to and including the first failure; without a failure the hops are the path's nodes
  with each next node's encoding and an empty last payload, and on a failure at node `i` the
  error names `i` and wraps the encoder's error;
* `createPathToBlind_eq_spec` — in every lawful monad, the slot-filling loop equals the plain
  reading: encode `N1, N2, …` in order, stop at the first failure, and zip the path with the
  encodings;
* `blindedToSphinx_spec` — for every route of `1 ≤ n ≤ NumMaxHops` hops with enough blinded
  ids, no index is out of range and the payment path is the introduction hop, the blinded hops,
  and zero hops after them;
* `blindedToSphinx_isSome` — it panics exactly on the routes with `n = 0`, with `n > NumMaxHops`,
  or with no blinded id for some hop after the first.
-/

namespace Boltnd

namespace Sphinx

/-- `sphinx.BlindedPathHop`. -/
structure BlindedPathHop (K : Type) where
  nodePub : K
  payload : Bytes
  deriving DecidableEq, Repr

/-- `sphinx.PayloadType`; `PayloadLegacy` is its zero value. -/
inductive PayloadType where
  | legacy
  | tlv
  deriving DecidableEq, Repr

/-- `sphinx.HopPayload`. -/
structure HopPayload where
  type : PayloadType
  payload : Bytes
  deriving DecidableEq, Repr

/-- `sphinx.OnionHop`. -/
structure OnionHop (K : Type) where
  nodePub : K
  hopPayload : HopPayload
  deriving DecidableEq, Repr

/-- The zero `OnionHop`: `default` plays the zero `btcec.PublicKey`. -/
instance {K : Type} [Inhabited K] : Inhabited (OnionHop K) := ⟨⟨default, ⟨.legacy, []⟩⟩⟩

/-- `sphinx.PaymentPath`, a `[NumMaxHops]OnionHop` array. -/
structure PaymentPath (numMaxHops : Nat) (K : Type) where
  hops : List (OnionHop K)
  length_eq : hops.length = numMaxHops

variable {K : Type} {numMaxHops : Nat}

/-- The zero `PaymentPath`. -/
def PaymentPath.zero [Inhabited K] : PaymentPath numMaxHops K :=
  ⟨List.replicate numMaxHops default, List.length_replicate _ _⟩

/-- `sphinxPath[i] = hop`: `none` is the index-out-of-range panic. -/
def PaymentPath.set? (p : PaymentPath numMaxHops K) (i : Nat) (hop : OnionHop K) :
    Option (PaymentPath numMaxHops K) :=
  if i < numMaxHops then some ⟨p.hops.set i hop, by simp [p.length_eq]⟩ else none

/-- The `sphinx.BlindedPath` that `blindedToSphinx` reads: the lightning-onion release the
`onionmsg` package builds against keeps the blinded ids and the encrypted data in two parallel
slices. -/
structure LegacyBlindedPath (K : Type) where
  introductionPoint : K
  blindedHops : List K
  encryptedData : List Bytes
  deriving DecidableEq, Repr

end Sphinx

namespace OnionMsg

open Sphinx

variable {K : Type}

/-- Go's `xs[i] = v`: `none` is the index-out-of-range panic. -/
def setIdx? {α : Type} (xs : List α) (i : Nat) (v : α) : Option (List α) :=
  if i < xs.length then some (xs.set i v) else none

/-! ## `createPathToBlind` -/

/-- The `fmt.Errorf("intermediate node: %v encoding failed: %w", i, err)` of
`createPathToBlind`: it names the index and wraps the encoder's error. -/
structure IntermediateNodeError (E : Type) where
  index : Nat
  err : E
  deriving DecidableEq, Repr

/-- The text of an `IntermediateNodeError`, given the wrapped error's. -/
def IntermediateNodeError.text {E : Type} (errText : E → String) (e : IntermediateNodeError E) :
    String :=
  "intermediate node: " ++ toString e.index ++ " encoding failed: " ++ errText e.err

variable {m : Type → Type} [Monad m] {E : Type}

/-- The loop of `createPathToBlind` at iteration `i`, with `path[i:]` left. Slot `i-1` is indexed
before the encoder is called and dereferenced after it (Go's two phases of an assignment); the
payload is written, the error checked, and hop `i` created. -/
def createPathToBlindLoop (encodePayload : K → m (Except E Bytes)) :
    Nat → List K → List (Option (BlindedPathHop K)) →
      m (Option (Except (IntermediateNodeError E) (List (Option (BlindedPathHop K)))))
  | _, [], hopsToBlind => pure (some (.ok hopsToBlind))
  | i, node :: rest, hopsToBlind =>
    match hopsToBlind[i - 1]? with
    | none => pure none
    | some slot => do
      let res ← encodePayload node
      match slot, res with
      | none, _ => pure none
      | some _, .error err => pure (some (.error ⟨i, err⟩))
      | some prev, .ok payload =>
        match setIdx? (hopsToBlind.set (i - 1) (some { prev with payload })) i
            (some ⟨node, []⟩) with
        | none => pure none
        | some hopsToBlind => createPathToBlindLoop encodePayload (i + 1) rest hopsToBlind

/-- `createPathToBlind`: a hop slice of `len(path)` `nil`s, the introduction hop at slot 0,
then the loop from `i = 1`. `path[0]` of an empty path panics. -/
def createPathToBlind (path : List K) (encodePayload : K → m (Except E Bytes)) :
    m (Option (Except (IntermediateNodeError E) (List (Option (BlindedPathHop K))))) :=
  match path with
  | [] => pure none
  | node :: rest =>
    createPathToBlindLoop encodePayload 1 rest
      ((List.replicate (rest.length + 1) none).set 0 (some ⟨node, []⟩))

/-- An encoder that records each node it is called on. -/
def logged (enc : K → Except E Bytes) (node : K) : StateM (List K) (Except E Bytes) :=
  modify (· ++ [node]) *> pure (enc node)

/-! ### The hop slice along the loop

Before iteration `i` the slice holds hops `0 … i-1`, the last of them with an empty payload,
then `nil`s. -/

/-- Hops `hops` followed by `n` `nil` slots. -/
def slots (hops : List (BlindedPathHop K)) (n : Nat) : List (Option (BlindedPathHop K)) :=
  hops.map some ++ List.replicate n none

theorem slots_getElem (pre : List (BlindedPathHop K)) (h : BlindedPathHop K) (n : Nat) :
    (slots (pre ++ [h]) n)[pre.length]? = some (some h) := by
  rw [slots, List.map_append, List.append_assoc, List.getElem?_append_right (by simp)]
  simp

/-- One iteration's two writes: the payload of the last hop, then the next hop. -/
theorem slots_write (pre : List (BlindedPathHop K)) (node next : K) (payload : Bytes) (n : Nat) :
    setIdx? ((slots (pre ++ [⟨node, []⟩]) (n + 1)).set pre.length (some ⟨node, payload⟩))
        (pre.length + 1) (some ⟨next, []⟩) =
      some (slots (pre ++ [⟨node, payload⟩] ++ [⟨next, []⟩]) n) := by
  simp [setIdx?, slots, List.set_append_left, List.set_append_right, List.replicate_succ]

theorem slots_init (node : K) (n : Nat) :
    (List.replicate (n + 1) none).set 0 (some ⟨node, []⟩) = slots [⟨node, []⟩] n := by
  simp [slots, List.replicate_succ]

theorem logged_bind {β : Type} (enc : K → Except E Bytes) (node : K)
    (f : Except E Bytes → StateM (List K) β) (log : List K) :
    (logged enc node >>= f).run log = (f (enc node)).run (log ++ [node]) := rfl

/-- One iteration with the logging encoder: the call is logged; its error returns naming the
iteration, and its payload fills the last hop before the next hop is created. -/
theorem createPathToBlindLoop_cons (enc : K → Except E Bytes) (x : K) (xs : List K)
    (pre : List (BlindedPathHop K)) (last : K) (log : List K) :
    (createPathToBlindLoop (logged enc) (pre.length + 1) (x :: xs)
        (slots (pre ++ [⟨last, []⟩]) (x :: xs).length)).run log =
      match enc x with
      | .error e => (some (.error ⟨pre.length + 1, e⟩), log ++ [x])
      | .ok b =>
        (createPathToBlindLoop (logged enc) ((pre ++ [BlindedPathHop.mk last b]).length + 1) xs
          (slots (pre ++ [⟨last, b⟩] ++ [⟨x, []⟩]) xs.length)).run (log ++ [x]) := by
  simp only [createPathToBlindLoop, Nat.add_sub_cancel, List.length_cons, slots_getElem]
  rw [logged_bind]
  cases enc x <;> simp [slots_write]

/-- The loop when every call succeeds: all of `xs` is encoded, in order. -/
theorem createPathToBlindLoop_ok (enc : K → Except E Bytes) :
    ∀ (xs : List K) (payloads : List Bytes) (pre : List (BlindedPathHop K)) (last : K)
      (log : List K), xs.mapM enc = .ok payloads →
      (createPathToBlindLoop (logged enc) (pre.length + 1) xs
          (slots (pre ++ [⟨last, []⟩]) xs.length)).run log =
        (some (.ok ((pre ++ List.zipWith BlindedPathHop.mk (last :: xs) (payloads ++ [[]])).map
          some)),
          log ++ xs)
  | [], payloads, pre, last, log, h => by
    cases h
    simp [createPathToBlindLoop, slots]
  | x :: xs, payloads, pre, last, log, h => by
    simp only [List.mapM_cons, except_bind_eq_ok, except_pure, Except.ok.injEq] at h
    obtain ⟨b, hx, ps, hxs, rfl⟩ := h
    rw [createPathToBlindLoop_cons, hx]
    simp only
    rw [createPathToBlindLoop_ok enc xs ps (pre ++ [BlindedPathHop.mk last b]) x (log ++ [x]) hxs]
    simp

/-- The loop when the call on `xs[j]` is the first to fail: `xs[0] … xs[j]` are encoded and
the error names the node's index in the path. -/
theorem createPathToBlindLoop_error (enc : K → Except E Bytes) :
    ∀ (xs : List K) (j : Nat) (x : K) (e : E) (pre : List (BlindedPathHop K)) (last : K)
      (log : List K), xs[j]? = some x → enc x = .error e →
      ((xs.take j).all fun y => (enc y).isOk) →
      (createPathToBlindLoop (logged enc) (pre.length + 1) xs
          (slots (pre ++ [⟨last, []⟩]) xs.length)).run log =
        (some (.error ⟨pre.length + 1 + j, e⟩), log ++ xs.take (j + 1))
  | [], _, _, _, _, _, _, hj, _, _ => by cases hj
  | y :: xs, 0, x, e, pre, last, log, hj, he, _ => by
    rw [List.getElem?_cons_zero, Option.some_inj] at hj
    subst hj
    rw [createPathToBlindLoop_cons, he]
    simp
  | y :: xs, j + 1, x, e, pre, last, log, hj, he, hok => by
    simp only [List.take_succ_cons, List.all_cons, Bool.and_eq_true] at hok
    cases hy : enc y with
    | error e' => rw [hy] at hok; cases hok.1
    | ok b =>
      rw [createPathToBlindLoop_cons, hy]
      simp only
      rw [createPathToBlindLoop_error enc xs j x e (pre ++ [BlindedPathHop.mk last b]) y
        (log ++ [y])
        (by simpa using hj) he hok.2]
      simp only [List.length_append, List.length_singleton, List.take_succ_cons, List.append_assoc,
        List.singleton_append]
      rw [Nat.add_assoc _ 1 j, Nat.add_comm 1 j]

/-- **`createPathToBlind` builds the route a node at a time.** For every non-empty path and
every encoder: when every call succeeds, the encoder was called on `N1 … N(k-1)` in order and
hop `i` is `Ni` with the encoding of `N(i+1)`, the last hop's payload empty; when the call on
`Ni` is the first to fail, the encoder was called on `N1 … Ni` only and the result is the error
naming `i` and wrapping the encoder's, with no hops. -/
theorem createPathToBlind_spec (path : List K) (hne : path ≠ []) (enc : K → Except E Bytes) :
    (∀ payloads, path.tail.mapM enc = .ok payloads →
      (createPathToBlind path (logged enc)).run [] =
        (some (.ok ((List.zipWith BlindedPathHop.mk path (payloads ++ [[]])).map some)),
          path.tail)) ∧
    (∀ i x e, 1 ≤ i → path[i]? = some x → enc x = .error e →
      ((path.tail.take (i - 1)).all fun y => (enc y).isOk) →
      (createPathToBlind path (logged enc)).run [] =
        (some (.error ⟨i, e⟩), path.tail.take i)) := by
  obtain ⟨node, rest, rfl⟩ := List.exists_cons_of_ne_nil hne
  refine ⟨fun payloads h => ?_, fun i x e hi hx he hok => ?_⟩
  · simpa [createPathToBlind, slots_init] using
      createPathToBlindLoop_ok enc rest payloads [] node [] h
  · obtain ⟨j, rfl⟩ := Nat.exists_eq_add_of_le' hi
    simpa [createPathToBlind, slots_init, Nat.add_comm] using
      createPathToBlindLoop_error enc rest j x e [] node [] (by simpa using hx) he hok

/-- Three nodes: an encoder that never fails, and one that fails on the last node, after
encoding the middle one. -/
theorem createPathToBlind_three_nodes :
    (createPathToBlind [1, 2, 3]
        (logged fun n : Nat => (.ok [n.toUInt8] : Except String Bytes))).run
        [] = (some (.ok [some ⟨1, [2]⟩, some ⟨2, [3]⟩, some ⟨3, []⟩]), [2, 3]) ∧
    (createPathToBlind [1, 2, 3]
        (logged fun n : Nat => if n = 3 then .error "bad" else
          (.ok [n.toUInt8] : Except String Bytes))).run
        [] = (some (.error ⟨2, "bad"⟩), [2, 3]) :=
  ⟨(createPathToBlind_spec [1, 2, 3] (by decide) _).1 [[2], [3]] rfl,
    (createPathToBlind_spec [1, 2, 3] (by decide) _).2 2 3 "bad" (by decide) rfl rfl rfl⟩

/-! ### The plain reading

Read without its slice writes, `createPathToBlind` is one encoder call per node after the first,
stopping at the first error, and then the hops built from the payloads. `encodeNodes` and
`hopsOf` say that directly; `createPathToBlind_eq_spec` proves the loop is that in every lawful
monad, whatever effects the encoder has. -/

/-- The nodes encoded in order, the first of them node `i` of the path, stopping at the first
error, which names the node's index. -/
def encodeNodes (encodePayload : K → m (Except E Bytes)) :
    Nat → List K → m (Except (IntermediateNodeError E) (List Bytes))
  | _, [] => pure (.ok [])
  | i, node :: rest => do
    match ← encodePayload node with
    | .error err => pure (.error ⟨i, err⟩)
    | .ok payload => do
      let r ← encodeNodes encodePayload (i + 1) rest
      pure ((payload :: ·) <$> r)

/-- The hops of a path given the encodings of its nodes after the first: each node with the
next node's payload, the last with an empty one. -/
def hopsOf (path : List K) (payloads : List Bytes) : List (Option (BlindedPathHop K)) :=
  (List.zipWith BlindedPathHop.mk path (payloads ++ [[]])).map some

/-- `createPathToBlind` read plainly: `path[0]` panics on an empty path; otherwise the nodes after
the first are encoded and the hops built from their payloads. -/
def createPathToBlindSpec (path : List K) (encodePayload : K → m (Except E Bytes)) :
    m (Option (Except (IntermediateNodeError E) (List (Option (BlindedPathHop K))))) :=
  match path with
  | [] => pure none
  | _ :: rest => do
    let r ← encodeNodes encodePayload 1 rest
    pure (some (hopsOf path <$> r))

/-- One iteration in any monad: the encoder's error returns naming the iteration, and its
payload fills the last hop before the next hop is created. -/
theorem createPathToBlindLoop_cons_eq (enc : K → m (Except E Bytes)) (x : K) (xs : List K)
    (pre : List (BlindedPathHop K)) (last : K) :
    createPathToBlindLoop enc (pre.length + 1) (x :: xs)
        (slots (pre ++ [⟨last, []⟩]) (x :: xs).length) =
      enc x >>= fun res => match res with
        | .error err => pure (some (.error ⟨pre.length + 1, err⟩))
        | .ok payload =>
          createPathToBlindLoop enc ((pre ++ [BlindedPathHop.mk last payload]).length + 1) xs
            (slots (pre ++ [BlindedPathHop.mk last payload] ++ [⟨x, []⟩]) xs.length) := by
  simp only [createPathToBlindLoop, Nat.add_sub_cancel, List.length_cons, slots_getElem]
  congr 1
  funext res
  cases res <;> simp [slots_write]

/-- The loop from iteration `pre.length + 1`, with hops `pre` done and `last` created, encodes the
nodes left in order and builds their hops, in any lawful monad. -/
theorem createPathToBlindLoop_eq_spec [LawfulMonad m] (enc : K → m (Except E Bytes)) :
    ∀ (xs : List K) (pre : List (BlindedPathHop K)) (last : K),
      createPathToBlindLoop enc (pre.length + 1) xs (slots (pre ++ [⟨last, []⟩]) xs.length) =
        encodeNodes enc (pre.length + 1) xs >>= fun r =>
          pure (some ((fun payloads => pre.map some ++ hopsOf (last :: xs) payloads) <$> r))
  | [], pre, last => by simp [createPathToBlindLoop, encodeNodes, slots, hopsOf]
  | x :: xs, pre, last => by
    rw [createPathToBlindLoop_cons_eq]
    simp only [encodeNodes, bind_assoc]
    congr 1
    funext res
    cases res with
    | error err => simp
    | ok payload =>
      dsimp only
      rw [createPathToBlindLoop_eq_spec enc xs]
      simp only [bind_assoc, pure_bind, List.length_append, List.length_singleton]
      congr 1
      funext r
      cases r <;> simp [hopsOf]

/-- **`createPathToBlind` is one encoder call per node and the hops built from the payloads.**
For every lawful monad and every encoder, the loop with its slice writes does what the plain
reading does, effects included: it panics on an empty path; otherwise it calls the encoder on
`N1 … N(k-1)` in order, stops at the first error, which it returns naming the node's index,
and else returns each node with the next node's payload and an empty last payload. -/
theorem createPathToBlind_eq_spec [LawfulMonad m] (path : List K) (enc : K → m (Except E Bytes)) :
    createPathToBlind path enc = createPathToBlindSpec path enc := by
  cases path with
  | nil => rfl
  | cons node rest =>
    simpa [createPathToBlind, createPathToBlindSpec, slots_init] using
      createPathToBlindLoop_eq_spec enc rest [] node

/-- In the logging monad, with an encoder that fails on node `3`: the two readings agree, and
both call the encoder on nodes `2` and `3` and name index `2`. -/
theorem createPathToBlind_eq_spec_failing :
    let enc : Nat → Except String Bytes := fun n => if n = 3 then .error "bad" else .ok [n.toUInt8]
    createPathToBlind [1, 2, 3, 4] (logged enc) = createPathToBlindSpec [1, 2, 3, 4] (logged enc) ∧
      (createPathToBlindSpec [1, 2, 3, 4] (logged enc)).run [] =
        (some (.error ⟨2, "bad"⟩), [2, 3]) :=
  ⟨createPathToBlind_eq_spec _ _, rfl⟩

/-! ## `blindedToSphinx` -/

variable {numMaxHops : Nat}

/-- An `OnionHop` with a TLV payload. -/
def tlvHop (nodePub : K) (data : Bytes) : OnionHop K := ⟨nodePub, ⟨.tlv, data⟩⟩

/-- The loop of `blindedToSphinx` at iteration `i`, with `EncryptedData[i:]` left: hop `i` is the
blinded id `BlindedHops[i]` with the encrypted data. -/
def blindedToSphinxLoop (r : LegacyBlindedPath K) :
    Nat → List Bytes → PaymentPath numMaxHops K → Option (PaymentPath numMaxHops K)
  | _, [], p => some p
  | i, data :: rest, p => do
    let hop ← r.blindedHops[i]?
    let p ← p.set? i (tlvHop hop data)
    blindedToSphinxLoop r (i + 1) rest p

/-- `blindedToSphinx`, for the array width `sphinx.NumMaxHops`: hop 0 is the introduction point
in clear with `EncryptedData[0]`, then the loop from `i = 1`. Its `error` result is always
`nil`. -/
def blindedToSphinx [Inhabited K] (numMaxHops : Nat) (r : LegacyBlindedPath K) :
    Option (PaymentPath numMaxHops K) := do
  let data ← r.encryptedData[0]?
  let p ← PaymentPath.zero.set? 0 (tlvHop r.introductionPoint data)
  blindedToSphinxLoop r 1 r.encryptedData.tail p

theorem set_length_replicate {α : Type} (done : List α) (x d : α) (n : Nat) :
    (done ++ List.replicate (n + 1) d).set done.length x = done ++ x :: List.replicate n d := by
  simp [List.replicate_succ]

/-- The loop fills hops `i …` from the blinded ids and the data, leaving the rest zero. -/
theorem blindedToSphinxLoop_hops [Inhabited K] (r : LegacyBlindedPath K) :
    ∀ (rest : List Bytes) (done : List (OnionHop K)) (p : PaymentPath numMaxHops K),
      p.hops = done ++ List.replicate (numMaxHops - done.length) default →
      done.length + rest.length ≤ numMaxHops →
      done.length + rest.length ≤ r.blindedHops.length →
      (blindedToSphinxLoop r done.length rest p).map PaymentPath.hops =
        some (done ++ List.zipWith tlvHop (r.blindedHops.drop done.length) rest ++
          List.replicate (numMaxHops - done.length - rest.length) default)
  | [], done, p, hp, _, _ => by simp [blindedToSphinxLoop, hp]
  | data :: rest, done, p, hp, hN, hb => by
    simp only [List.length_cons] at hN hb
    have hset : p.hops.set done.length (tlvHop r.blindedHops[done.length] data) =
        (done ++ [tlvHop r.blindedHops[done.length] data]) ++
          List.replicate (numMaxHops - (done ++ [tlvHop r.blindedHops[done.length] data]).length)
            default := by
      rw [hp, show numMaxHops - done.length = (numMaxHops - done.length - 1) + 1 by omega,
        set_length_replicate]
      simp [Nat.sub_sub]
    have ih := blindedToSphinxLoop_hops r rest _ ⟨_, (by simp [p.length_eq] : (p.hops.set
      done.length (tlvHop r.blindedHops[done.length] data)).length = numMaxHops)⟩ hset
      (by simp; omega) (by simp; omega)
    simp only [blindedToSphinxLoop,
      List.getElem?_eq_getElem (show done.length < r.blindedHops.length by omega),
      PaymentPath.set?, if_pos (show done.length < numMaxHops by omega)]
    simp only [Option.bind_eq_bind, Option.some_bind, List.length_append, List.length_singleton]
      at ih ⊢
    rw [ih, List.drop_eq_getElem_cons (show done.length < r.blindedHops.length by omega)]
    simp only [List.zipWith_cons_cons, List.length_cons, List.append_assoc, List.singleton_append,
      List.cons_append, List.nil_append, Nat.sub_sub]
    rw [Nat.add_right_comm, Nat.add_assoc]

/-- The hops `blindedToSphinx` produces, as one list. -/
theorem blindedToSphinx_hops [Inhabited K] (numMaxHops : Nat) (intro : K) (blindedHops : List K)
    (data : Bytes) (rest : List Bytes) (hN : rest.length + 1 ≤ numMaxHops)
    (hb : rest.length + 1 ≤ blindedHops.length) :
    (blindedToSphinx numMaxHops ⟨intro, blindedHops, data :: rest⟩).map PaymentPath.hops =
      some (tlvHop intro data :: (List.zipWith tlvHop (blindedHops.drop 1) rest ++
        List.replicate (numMaxHops - 1 - rest.length) default)) := by
  have hset : ((List.replicate numMaxHops default).set 0 (tlvHop intro data)) =
      [tlvHop intro data] ++ List.replicate (numMaxHops - [tlvHop intro data].length) default := by
    rw [show numMaxHops = (numMaxHops - 1) + 1 by omega, List.replicate_succ]
    simp
  have h := blindedToSphinxLoop_hops ⟨intro, blindedHops, data :: rest⟩ rest [tlvHop intro data]
    ⟨_, (by simp : ((List.replicate numMaxHops default).set 0 (tlvHop intro data)).length =
      numMaxHops)⟩ hset (by simpa [Nat.add_comm] using hN) (by simpa [Nat.add_comm] using hb)
  simpa [blindedToSphinx, PaymentPath.set?, PaymentPath.zero, show 0 < numMaxHops by omega]
    using h

/-- **`blindedToSphinx` addresses the introduction node in clear.** For every route whose
`n = len(EncryptedData)` satisfies `1 ≤ n ≤ NumMaxHops` and `n ≤ len(BlindedHops)`, no index is
out of range, hop 0 is the cleartext introduction point with `EncryptedData[0]`, hop `i` for
`1 ≤ i < n` is `BlindedHops[i]` with `EncryptedData[i]`, all with TLV payloads, and the hops
from `n` on are zero. -/
theorem blindedToSphinx_spec [Inhabited K] (numMaxHops : Nat) (r : LegacyBlindedPath K)
    (h1 : 1 ≤ r.encryptedData.length) (hN : r.encryptedData.length ≤ numMaxHops)
    (hb : r.encryptedData.length ≤ r.blindedHops.length) :
    ∃ p, blindedToSphinx numMaxHops r = some p ∧
      p.hops[0]? = some ⟨r.introductionPoint, ⟨.tlv, r.encryptedData[0]⟩⟩ ∧
      (∀ i (_ : 1 ≤ i) (hi : i < r.encryptedData.length),
        p.hops[i]? = some ⟨r.blindedHops[i], ⟨.tlv, r.encryptedData[i]⟩⟩) ∧
      (∀ i, r.encryptedData.length ≤ i → i < numMaxHops → p.hops[i]? = some default) := by
  obtain ⟨intro, blindedHops, _ | ⟨data, rest⟩⟩ := r
  · cases h1
  simp only [List.length_cons] at hN hb
  obtain ⟨p, hp, hops⟩ := Option.map_eq_some'.mp (blindedToSphinx_hops numMaxHops intro
    blindedHops data rest hN hb)
  refine ⟨p, hp, by simp [hops, tlvHop], fun i hi1 hi => ?_, fun i hi hiN => ?_⟩
  · obtain ⟨j, rfl⟩ := Nat.exists_eq_add_of_le' hi1
    simp only [List.length_cons] at hi
    have hz : j < (List.zipWith tlvHop (blindedHops.drop 1) rest).length := by simp; omega
    rw [hops, List.getElem?_cons_succ, List.getElem?_append_left hz, List.getElem?_zipWith]
    simp [List.getElem?_drop, Nat.add_comm, tlvHop,
      List.getElem?_eq_getElem (by omega : j < rest.length),
      List.getElem?_eq_getElem (show j + 1 < blindedHops.length by omega)]
  · obtain ⟨j, rfl⟩ := Nat.exists_eq_add_of_le' (show 1 ≤ i by simp at hi; omega)
    simp only [List.length_cons] at hi
    rw [hops, List.getElem?_cons_succ, List.getElem?_append_right (by simp; omega)]
    simp [List.getElem?_replicate]
    omega

/-- A two-hop route in a three-hop array. -/
theorem blindedToSphinx_two_hops :
    ∃ p, blindedToSphinx 3 (⟨0, [10, 11], [[1], [2]]⟩ : LegacyBlindedPath Nat) = some p :=
  (blindedToSphinx_spec 3 ⟨0, [10, 11], [[1], [2]]⟩ (by decide) (by decide) (by decide)).imp
    fun _ h => h.1

/-- The loop indexes in range exactly when every hop it writes has a slot in the array and a
blinded id. -/
theorem blindedToSphinxLoop_isSome (r : LegacyBlindedPath K) :
    ∀ (rest : List Bytes) (i : Nat) (p : PaymentPath numMaxHops K),
      (blindedToSphinxLoop r i rest p).isSome ↔ rest.length = 0 ∨
        (i + rest.length ≤ numMaxHops ∧ i + rest.length ≤ r.blindedHops.length)
  | [], _, _ => by simp [blindedToSphinxLoop]
  | data :: rest, i, p => by
    simp only [blindedToSphinxLoop, List.length_cons]
    by_cases hb : i < r.blindedHops.length
    · by_cases hN : i < numMaxHops
      · simp only [List.getElem?_eq_getElem hb, PaymentPath.set?, if_pos hN,
          Option.bind_eq_bind, Option.some_bind, blindedToSphinxLoop_isSome r rest (i + 1)]
        omega
      · simp [List.getElem?_eq_getElem hb, PaymentPath.set?, hN]
        omega
    · simp [List.getElem?_eq_none (Nat.le_of_not_lt hb)]
      omega

/-- **When `blindedToSphinx` panics.** It indexes in range exactly when the route has `n ≥ 1`
encrypted payloads, no more than `NumMaxHops`, and a blinded id for each hop after the first; a
one-hop route reads no blinded id at all. -/
theorem blindedToSphinx_isSome [Inhabited K] (numMaxHops : Nat) (r : LegacyBlindedPath K) :
    (blindedToSphinx numMaxHops r).isSome ↔
      1 ≤ r.encryptedData.length ∧ r.encryptedData.length ≤ numMaxHops ∧
        (r.encryptedData.length = 1 ∨ r.encryptedData.length ≤ r.blindedHops.length) := by
  obtain ⟨intro, blindedHops, _ | ⟨data, rest⟩⟩ := r
  · simp [blindedToSphinx]
  · by_cases hN : 0 < numMaxHops
    · simp only [blindedToSphinx, List.getElem?_cons_zero, PaymentPath.set?, if_pos hN,
        Option.bind_eq_bind, Option.some_bind, List.tail_cons, blindedToSphinxLoop_isSome,
        List.length_cons]
      omega
    · simp [blindedToSphinx, PaymentPath.set?, hN]
      omega

example : (blindedToSphinx 3 (⟨0, [], [[1]]⟩ : LegacyBlindedPath Nat)).isSome := by decide

end OnionMsg

end Boltnd
