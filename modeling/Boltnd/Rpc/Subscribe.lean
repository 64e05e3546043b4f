import Boltnd.Rpc.ReplyPath
import Boltnd.OnionMsg.Messenger

/-!
# One onion-payload subscription

`SubscribeOnionPayload` validates the TLV type, makes a channel of capacity 1 and calls
`handleSubscribeOnionPayload`, which registers a handler with the messenger and consumes the
channel until `send` fails, the client cancels or the server quits; a deferred call deregisters
the handler. The handler, run by the messenger's dispatch task, `select`s between putting the
payload into the channel, the client's context and the server's quit channel.

`Sub` is everything one call touches: where its goroutine is, the channel, the handler
invocations still in their `select`, the context and the quit channel, and the history of what
the handler returned and what `send` was given. `Sub.step` runs one labelled action: a step of
the goroutine, of one handler invocation, or of the environment (the messenger's answer, a new
invocation, `send`'s result, a cancellation, the server's quit). A `select` with several ready
cases may take any of them, so every ready case is an action. The messenger's receive task makes
one invocation at a time and waits for it; the model allows any number pending, so its runs
include the code's: a fact over every run holds of the code, and a fact that a schedule exists
is stated over the call's own steps, which the receive task does not take part in.

* `subscription_delivery` — over every interleaving, the payloads accepted by the handler are
  the ones passed to `send`, in order and once each, followed by the at most one still in the
  channel;
* `handler_blocks_after_send_error` — after `send` fails while the client's context is live and
  the server runs, the loop returns with a full channel and the handler still registered, and
  an invocation of it has no ready case;
* `handler_accepted_within_one_send` — while the loop runs, every pending invocation returns
  `nil` after at most one `send`, one receive and its own delivery;
* `handler_ready_after_cancel_or_quit` — after the loop returns on a client cancel or the
  server's quit, every pending invocation has a ready case;
* `handler_held_until_cancel_or_quit` — after a failed `send` has left the channel full, no
  schedule without the client's cancel or the server's quit lets an invocation return;
* `Sub.pending_returns_or_held` — every pending invocation returns within three of its call's
  own steps, or its call is held.
-/

namespace Boltnd.Rpc

open OnionMsg

variable {K : Type}

/-! ## Channels -/

/-- A Go channel of capacity `cap`: its buffer never holds more than `cap` values. -/
structure Chan (α : Type) (cap : Nat) where
  buf : List α
  length_le : buf.length ≤ cap

namespace Chan

variable {α : Type} {cap : Nat}

/-- A channel with an empty buffer. -/
def empty : Chan α cap := ⟨[], Nat.zero_le _⟩

/-- The send case `ch <- v` of a `select`: ready while the buffer has room. -/
def send? (ch : Chan α cap) (v : α) : Option (Chan α cap) :=
  if h : ch.buf.length < cap then some ⟨ch.buf ++ [v], by simp; omega⟩ else none

/-- The receive case `v := <-ch` of a `select`: ready while the buffer holds a value. -/
def recv? : Chan α cap → Option (α × Chan α cap)
  | ⟨[], _⟩ => none
  | ⟨v :: vs, h⟩ => some (v, ⟨vs, Nat.le_of_succ_le h⟩)

theorem send?_eq_some {ch ch' : Chan α cap} {v : α} (h : ch.send? v = some ch') :
    ch'.buf = ch.buf ++ [v] := by
  unfold send? at h
  split at h
  · cases h; rfl
  · cases h

theorem send?_eq_none {ch : Chan α cap} {v : α} : ch.send? v = none ↔ cap ≤ ch.buf.length := by
  unfold send?
  split <;> simp_all

theorem recv?_of_buf {ch : Chan α cap} {v : α} {vs : List α} (h : ch.buf = v :: vs) :
    ∃ ch', ch.recv? = some (v, ch') ∧ ch'.buf = vs := by
  obtain ⟨_ | ⟨w, ws⟩, hl⟩ := ch <;> simp only [List.cons.injEq] at h
  · cases h
  · obtain ⟨rfl, rfl⟩ := h
    exact ⟨_, rfl, rfl⟩

theorem recv?_eq_some {ch ch' : Chan α cap} {v : α} (h : ch.recv? = some (v, ch')) :
    ch.buf = v :: ch'.buf := by
  obtain ⟨_ | ⟨w, ws⟩, _⟩ := ch
  · cases h
  · cases h; rfl

end Chan

/-! ## The subscription -/

/-- `onionPayloadResponse`: what the handler passes to the consume loop. -/
structure OnionPayloadResponse (K : Type) where
  payload : Bytes
  replyPath : Option (Lnwire.ReplyPath K)
  deriving DecidableEq, Repr

/-- The response the consume loop passes to `send` for a payload. -/
def toResponse (codec : KeyCodec K) (msg : OnionPayloadResponse K) :
    OffersRpc.SubscribeOnionPayloadResponse :=
  ⟨msg.payload, composeReplyPath codec msg.replyPath⟩

/-- What `handleSubscribeOnionPayload` returns: a status, the server's `ErrShuttingDown`, or the
error `send` returned. -/
inductive SubscribeError where
  | status (s : Status)
  | shuttingDown
  | send (err : String)
  deriving DecidableEq, Repr

/-- What an invocation of the handler returns: `nil`, `ctx.Err()` or `ErrShuttingDown`. -/
inductive HandlerResult where
  | ok
  | ctxErr
  | shuttingDown
  deriving DecidableEq, Repr

/-- Where the goroutine running `handleSubscribeOnionPayload` is. -/
inductive Pc where
  /-- before `RegisterHandler` returns -/
  | registering
  /-- `RegisterHandler` failed: returned `err`, with no deferred call -/
  | rejected (err : SubscribeError)
  /-- at the consume loop's `select` -/
  | selecting
  /-- inside `send(resp)` -/
  | sending
  /-- the loop returned `err`; the deferred `DeregisterHandler` has not completed -/
  | deregistering (err : SubscribeError)
  /-- returned `err`, after the deferred `DeregisterHandler` -/
  | returned (err : SubscribeError)
  deriving DecidableEq, Repr

/-- The goroutine has registered its handler and not deregistered it. -/
def Pc.registered : Pc → Bool
  | .selecting | .sending | .deregistering _ => true
  | _ => false

/-- One call of `handleSubscribeOnionPayload` with its channel, its handler's invocations and
its context; `results`, `sent` and `deregisterCalls` record what happened. -/
structure Sub (K : Type) where
  pc : Pc
  incoming : Chan (OnionPayloadResponse K) 1
  invocations : List (OnionPayloadResponse K)
  ctxDone : Bool
  quitClosed : Bool
  results : List (OnionPayloadResponse K × HandlerResult)
  sent : List OffersRpc.SubscribeOnionPayloadResponse
  deregisterCalls : Nat

/-- A call about to register, with an empty channel. -/
def Sub.init (quitClosed : Bool) : Sub K :=
  ⟨.registering, .empty, [], false, quitClosed, [], [], 0⟩

/-- A labelled step of a subscription. -/
inductive SubAction (K : Type) where
  /-- `RegisterHandler` returns -/
  | register (res : Except MessengerError Unit)
  /-- the dispatch task calls the handler with a payload -/
  | invoke (msg : OnionPayloadResponse K)
  /-- invocation `i` puts its payload into the channel and returns `nil` -/
  | deliver (i : Nat)
  /-- invocation `i` sees the client's cancellation and returns `ctx.Err()` -/
  | handlerCancel (i : Nat)
  /-- invocation `i` sees the server's quit and returns `ErrShuttingDown` -/
  | handlerQuit (i : Nat)
  /-- the loop receives a payload and calls `send` with its response -/
  | receive
  /-- `send` returns -/
  | sendResult (res : Except String Unit)
  /-- the loop sees the client's cancellation -/
  | loopCancel
  /-- the loop sees the server's quit -/
  | loopQuit
  /-- the deferred `DeregisterHandler` completes -/
  | deregister
  /-- the client cancels its context -/
  | cancel
  /-- the server closes its quit channel -/
  | quit

/-- The `Unavailable` status of a failed registration. -/
def registerError (err : MessengerError) : SubscribeError :=
  .status ⟨.unavailable, "could not register subscription: " ++ err.text⟩

/-- The `Canceled` status of a client cancel. -/
def clientCancel : SubscribeError := .status ⟨.canceled, "client cancel"⟩

/-- Invocation `i` returns `res` and leaves its `select`, the channel then being `incoming`. -/
def Sub.finish (s : Sub K) (i : Nat) (msg : OnionPayloadResponse K) (res : HandlerResult)
    (incoming : Chan (OnionPayloadResponse K) 1) : Sub K :=
  { s with incoming, invocations := s.invocations.eraseIdx i, results := s.results ++ [(msg, res)] }

/-- One step; `none` when the action is not ready. -/
def Sub.step (codec : KeyCodec K) (s : Sub K) : SubAction K → Option (Sub K)
  | .register res =>
    if s.pc = .registering then
      match res with
      | .ok () => some { s with pc := .selecting }
      | .error err => some { s with pc := .rejected (registerError err) }
    else none
  | .invoke msg =>
    if s.pc.registered then some { s with invocations := s.invocations ++ [msg] } else none
  | .deliver i => do
    let msg ← s.invocations[i]?
    let incoming ← s.incoming.send? msg
    some (s.finish i msg .ok incoming)
  | .handlerCancel i => do
    let msg ← s.invocations[i]?
    if s.ctxDone then some (s.finish i msg .ctxErr s.incoming) else none
  | .handlerQuit i => do
    let msg ← s.invocations[i]?
    if s.quitClosed then some (s.finish i msg .shuttingDown s.incoming) else none
  | .receive =>
    if s.pc = .selecting then do
      let (msg, incoming) ← s.incoming.recv?
      some { s with pc := .sending, incoming, sent := s.sent ++ [toResponse codec msg] }
    else none
  | .sendResult res =>
    if s.pc = .sending then
      match res with
      | .ok () => some { s with pc := .selecting }
      | .error err => some { s with pc := .deregistering (.send err) }
    else none
  | .loopCancel =>
    if s.pc = .selecting ∧ s.ctxDone then some { s with pc := .deregistering clientCancel }
    else none
  | .loopQuit =>
    if s.pc = .selecting ∧ s.quitClosed then some { s with pc := .deregistering .shuttingDown }
    else none
  | .deregister =>
    match s.pc with
    | .deregistering err =>
      some { s with pc := .returned err, deregisterCalls := s.deregisterCalls + 1 }
    | _ => none
  | .cancel => some { s with ctxDone := true }
  | .quit => some { s with quitClosed := true }

/-- The states a subscription reaches from its start. -/
inductive Sub.Reachable (codec : KeyCodec K) : Sub K → Prop where
  | init (quitClosed : Bool) : Sub.Reachable codec (Sub.init quitClosed)
  | step {s s' : Sub K} (a : SubAction K) :
      Sub.Reachable codec s → s.step codec a = some s' → Sub.Reachable codec s'

/-- Run actions in order. -/
def Sub.run (codec : KeyCodec K) : Sub K → List (SubAction K) → Option (Sub K)
  | s, [] => some s
  | s, a :: as => (s.step codec a).bind fun s' => Sub.run codec s' as

theorem Sub.run_append (codec : KeyCodec K) (s : Sub K) (as bs : List (SubAction K)) :
    Sub.run codec s (as ++ bs) = (Sub.run codec s as).bind fun s' => Sub.run codec s' bs := by
  induction as generalizing s with
  | nil => rfl
  | cons a as ih =>
    rw [List.cons_append]
    simp only [Sub.run, ih, Option.bind_assoc]

theorem Sub.Reachable.run {codec : KeyCodec K} :
    ∀ {s s' : Sub K} {as : List (SubAction K)}, Sub.Reachable codec s →
      Sub.run codec s as = some s' → Sub.Reachable codec s'
  | _, _, [], hs, h => by cases h; exact hs
  | s, _, a :: as, hs, h => by
    simp only [Sub.run] at h
    cases ha : s.step codec a with
    | none => rw [ha] at h; cases h
    | some s₁ => rw [ha] at h; exact Sub.Reachable.run (.step a hs ha) h

/-! ## What reaches `send` -/

/-- The payloads of the invocations that returned `nil`, in the order they entered the
channel. -/
def Sub.accepted (s : Sub K) : List (OnionPayloadResponse K) :=
  s.results.filterMap fun
    | (msg, .ok) => some msg
    | _ => none

@[simp] theorem Sub.accepted_init (quitClosed : Bool) :
    (Sub.init quitClosed : Sub K).accepted = [] :=
  rfl

theorem Sub.accepted_finish (s : Sub K) (i : Nat) (msg : OnionPayloadResponse K)
    (res : HandlerResult) (ch : Chan (OnionPayloadResponse K) 1) :
    (s.finish i msg res ch).accepted = s.accepted ++ if res = .ok then [msg] else [] := by
  cases res <;> simp [Sub.accepted, Sub.finish, List.filterMap_append]

theorem Sub.step_deliver {codec : KeyCodec K} {s s' : Sub K} {i : Nat} :
    s.step codec (.deliver i) = some s' ↔ ∃ msg ch, s.invocations[i]? = some msg ∧
      s.incoming.send? msg = some ch ∧ s' = s.finish i msg .ok ch := by
  simp only [Sub.step, Option.bind_eq_bind, Option.bind_eq_some, Option.some.injEq,
    @eq_comm _ s', exists_and_left]

theorem Sub.step_handlerCancel {codec : KeyCodec K} {s s' : Sub K} {i : Nat} :
    s.step codec (.handlerCancel i) = some s' ↔ ∃ msg, s.invocations[i]? = some msg ∧
      s.ctxDone = true ∧ s' = s.finish i msg .ctxErr s.incoming := by
  simp only [Sub.step]
  cases s.invocations[i]? <;> cases s.ctxDone <;> simp [eq_comm]

theorem Sub.step_handlerQuit {codec : KeyCodec K} {s s' : Sub K} {i : Nat} :
    s.step codec (.handlerQuit i) = some s' ↔ ∃ msg, s.invocations[i]? = some msg ∧
      s.quitClosed = true ∧ s' = s.finish i msg .shuttingDown s.incoming := by
  simp only [Sub.step]
  cases s.invocations[i]? <;> cases s.quitClosed <;> simp [eq_comm]

theorem Sub.step_receive {codec : KeyCodec K} {s s' : Sub K} :
    s.step codec .receive = some s' ↔
      s.pc = .selecting ∧ ∃ msg ch, s.incoming.recv? = some (msg, ch) ∧
      s' = { s with pc := .sending, incoming := ch, sent := s.sent ++ [toResponse codec msg] } := by
  simp only [Sub.step]
  split
  · simp_all only [true_and, Option.bind_eq_bind, Option.bind_eq_some, Option.some.injEq,
      Prod.exists, @eq_comm _ s']
  · simp_all

/-- What one step can do to the accepted payloads, the channel and the responses sent: nothing,
deliver a payload into the channel, or take one out and send its response. -/
theorem Sub.step_flow {codec : KeyCodec K} {s s' : Sub K} {a : SubAction K}
    (h : s.step codec a = some s') :
    (s'.accepted = s.accepted ∧ s'.incoming.buf = s.incoming.buf ∧ s'.sent = s.sent) ∨
    (∃ msg, s'.accepted = s.accepted ++ [msg] ∧ s'.incoming.buf = s.incoming.buf ++ [msg] ∧
      s'.sent = s.sent) ∨
    (∃ msg, s.incoming.buf = msg :: s'.incoming.buf ∧ s'.accepted = s.accepted ∧
      s'.sent = s.sent ++ [toResponse codec msg]) := by
  cases a with
  | deliver i =>
    obtain ⟨msg, ch, -, hch, rfl⟩ := Sub.step_deliver.mp h
    exact .inr (.inl ⟨msg, by simp [Sub.accepted_finish], Chan.send?_eq_some hch, rfl⟩)
  | handlerCancel i =>
    obtain ⟨msg, -, -, rfl⟩ := Sub.step_handlerCancel.mp h
    exact .inl ⟨by simp [Sub.accepted_finish], rfl, rfl⟩
  | handlerQuit i =>
    obtain ⟨msg, -, -, rfl⟩ := Sub.step_handlerQuit.mp h
    exact .inl ⟨by simp [Sub.accepted_finish], rfl, rfl⟩
  | receive =>
    obtain ⟨-, msg, ch, hch, rfl⟩ := Sub.step_receive.mp h
    exact .inr (.inr ⟨msg, Chan.recv?_eq_some hch, rfl, rfl⟩)
  | register _ | sendResult _ | deregister | invoke _ | loopCancel | loopQuit | cancel | quit =>
    simp only [Sub.step] at h
    repeat' split at h
    all_goals (try cases h) <;> exact .inl ⟨rfl, rfl, rfl⟩

/-- The accepted payloads are those whose responses were sent, in order, then the channel. -/
def Sub.Delivered (codec : KeyCodec K) (s : Sub K) : Prop :=
  ∃ src, s.accepted = src ++ s.incoming.buf ∧ s.sent = src.map (toResponse codec)

theorem Sub.delivered_step {codec : KeyCodec K} {s s' : Sub K} {a : SubAction K}
    (h : s.step codec a = some s') (hd : s.Delivered codec) : s'.Delivered codec := by
  obtain ⟨src, hacc, hsent⟩ := hd
  rcases Sub.step_flow h with ⟨ha, hb, hs⟩ | ⟨msg, ha, hb, hs⟩ | ⟨msg, hb, ha, hs⟩
  · exact ⟨src, by rw [ha, hb, hacc], by rw [hs, hsent]⟩
  · exact ⟨src, by rw [ha, hb, hacc, List.append_assoc], by rw [hs, hsent]⟩
  · exact ⟨src ++ [msg], by rw [ha, hacc, hb]; simp, by rw [hs, hsent]; simp⟩

theorem Sub.Reachable.delivered {codec : KeyCodec K} {s : Sub K} (h : Sub.Reachable codec s) :
    s.Delivered codec := by
  induction h with
  | init => exact ⟨[], rfl, rfl⟩
  | step _ _ hs ih => exact Sub.delivered_step hs ih

/-- A payload with no reply path. -/
def plainPayload : OnionPayloadResponse CompressedKey := ⟨[1], none⟩

/-- **Every accepted payload reaches `send` once, in order, but the last.** In every reachable
state the payloads whose handler invocation returned `nil` are the payloads whose responses
were passed to `send`, in order, followed by the channel's contents, at most one payload; so at
most one accepted payload has not been passed to `send`. Each response is the payload's value
with `composeReplyPath` of its reply path. -/
theorem subscription_delivery (codec : KeyCodec K) {s : Sub K} (h : Sub.Reachable codec s) :
    ∃ src, s.accepted = src ++ s.incoming.buf ∧
      s.sent = src.map (fun m => ⟨m.payload, composeReplyPath codec m.replyPath⟩) ∧
      s.incoming.buf.length ≤ 1 ∧ s.accepted.length ≤ s.sent.length + 1 := by
  obtain ⟨src, hacc, hsent⟩ := h.delivered
  have hle := s.incoming.length_le
  refine ⟨src, hacc, hsent, hle, ?_⟩
  rw [hacc, hsent, List.length_append, List.length_map]
  omega

/-- Two payloads accepted, the first sent and the second waiting in the channel. -/
theorem subscription_delivery_one_buffered :
    ∃ s : Sub CompressedKey, Sub.Reachable compressedCodec s ∧
      s.accepted = [plainPayload, plainPayload] ∧ s.incoming.buf = [plainPayload] ∧
      ∃ src, s.accepted = src ++ s.incoming.buf ∧
        s.sent = src.map (fun m => ⟨m.payload, composeReplyPath compressedCodec m.replyPath⟩) ∧
        s.incoming.buf.length ≤ 1 ∧ s.accepted.length ≤ s.sent.length + 1 := by
  have h : Sub.run compressedCodec (Sub.init false)
      [.register (.ok ()), .invoke plainPayload, .deliver 0, .receive, .invoke plainPayload,
        .deliver 0] =
      some ⟨.sending, ⟨[plainPayload], le_refl _⟩, [], false, false,
        [(plainPayload, .ok), (plainPayload, .ok)], [toResponse compressedCodec plainPayload], 0⟩ :=
    rfl
  have hr := (Sub.Reachable.init false).run h
  exact ⟨_, hr, rfl, rfl, subscription_delivery compressedCodec hr⟩

/-! ## Registration and exits -/

/-- The exit `err` as the loop took it: `send`'s error, a client cancel with the context done, or
the server's quit with the quit channel closed. -/
def Sub.ExitSeen (s : Sub K) (err : SubscribeError) : Prop :=
  (∃ e, err = .send e) ∨ (err = clientCancel ∧ s.ctxDone = true) ∨
    (err = .shuttingDown ∧ s.quitClosed = true)

theorem Sub.step_register {codec : KeyCodec K} {s s' : Sub K} {res : Except MessengerError Unit}
    (h : s.step codec (.register res) = some s') :
    s.pc = .registering ∧ s'.deregisterCalls = s.deregisterCalls ∧
      ((res = .ok () ∧ s'.pc = .selecting) ∨
        ∃ e, res = .error e ∧ s'.pc = .rejected (registerError e)) := by
  simp only [Sub.step] at h
  split at h
  · refine ⟨‹_›, ?_⟩
    split at h <;> cases h
    · exact ⟨rfl, .inl ⟨rfl, rfl⟩⟩
    · exact ⟨rfl, .inr ⟨_, rfl, rfl⟩⟩
  · cases h

theorem Sub.step_deregister {codec : KeyCodec K} {s s' : Sub K}
    (h : s.step codec .deregister = some s') :
    ∃ err, s.pc = .deregistering err ∧ s'.pc = .returned err ∧
      s'.deregisterCalls = s.deregisterCalls + 1 := by
  simp only [Sub.step] at h
  split at h
  · cases h; exact ⟨_, ‹_›, rfl, rfl⟩
  · cases h

/-- Apart from registering and deregistering, a step moves the goroutine only within the loop:
whether the handler is registered, and the deregistration count, stay as they were, and a loop
that returns does so with one of its exits. -/
theorem Sub.step_loop {codec : KeyCodec K} {s s' : Sub K} {a : SubAction K}
    (h : s.step codec a = some s') (hr : ∀ res, a ≠ .register res) (hd : a ≠ .deregister) :
    s'.deregisterCalls = s.deregisterCalls ∧
      (s'.pc = s.pc ∨ (s.pc = .selecting ∧ s'.pc = .sending) ∨
        (s.pc = .sending ∧ s'.pc = .selecting) ∨
        ((s.pc = .selecting ∨ s.pc = .sending) ∧
          ∃ err, s'.pc = .deregistering err ∧ s.ExitSeen err)) := by
  cases a with
  | register res => exact absurd rfl (hr res)
  | deregister => exact absurd rfl hd
  | deliver i =>
    obtain ⟨msg, ch, -, -, rfl⟩ := Sub.step_deliver.mp h
    exact ⟨rfl, .inl rfl⟩
  | handlerCancel i =>
    obtain ⟨msg, -, -, rfl⟩ := Sub.step_handlerCancel.mp h
    exact ⟨rfl, .inl rfl⟩
  | handlerQuit i =>
    obtain ⟨msg, -, -, rfl⟩ := Sub.step_handlerQuit.mp h
    exact ⟨rfl, .inl rfl⟩
  | receive =>
    obtain ⟨hpc, msg, ch, -, rfl⟩ := Sub.step_receive.mp h
    exact ⟨rfl, .inr (.inl ⟨hpc, rfl⟩)⟩
  | sendResult res =>
    simp only [Sub.step] at h
    split at h
    · split at h <;> cases h
      · exact ⟨rfl, .inr (.inr (.inl ⟨‹_›, rfl⟩))⟩
      · exact ⟨rfl, .inr (.inr (.inr ⟨.inr ‹_›, _, rfl, .inl ⟨_, rfl⟩⟩))⟩
    · cases h
  | loopCancel =>
    simp only [Sub.step] at h
    split at h
    · cases h
      exact ⟨rfl, .inr (.inr (.inr ⟨.inl ‹_ ∧ _›.1, _, rfl, .inr (.inl ⟨rfl, ‹_ ∧ _›.2⟩)⟩))⟩
    · cases h
  | loopQuit =>
    simp only [Sub.step] at h
    split at h
    · cases h
      exact ⟨rfl, .inr (.inr (.inr ⟨.inl ‹_ ∧ _›.1, _, rfl, .inr (.inr ⟨rfl, ‹_ ∧ _›.2⟩)⟩))⟩
    · cases h
  | invoke _ | cancel | quit =>
    simp only [Sub.step] at h
    repeat' split at h
    all_goals (try cases h) <;> exact ⟨rfl, .inl rfl⟩

/-- Only registering and deregistering change whether the handler is registered. -/
theorem Sub.step_registered {codec : KeyCodec K} {s s' : Sub K} {a : SubAction K}
    (h : s.step codec a = some s') (hr : ∀ res, a ≠ .register res) (hd : a ≠ .deregister) :
    s'.pc.registered = s.pc.registered := by
  obtain ⟨-, h | ⟨h₁, h₂⟩ | ⟨h₁, h₂⟩ | ⟨h₁ | h₁, _, h₂, -⟩⟩ := Sub.step_loop h hr hd
  · rw [h]
  all_goals simp [h₁, h₂, Pc.registered]

/-- An invocation has no ready case while the channel is full, the context live and the server
running. -/
theorem Sub.invocation_blocked {codec : KeyCodec K} {s : Sub K} (hfull : s.incoming.buf.length = 1)
    (hc : s.ctxDone = false) (hq : s.quitClosed = false) (i : Nat) :
    s.step codec (.deliver i) = none ∧ s.step codec (.handlerCancel i) = none ∧
      s.step codec (.handlerQuit i) = none := by
  have hsend : ∀ msg, s.incoming.send? msg = none := fun _ => Chan.send?_eq_none.mpr hfull.ge
  cases h : s.invocations[i]? <;> simp [Sub.step, h, hsend, hc, hq]

/-- The subscription registers; a payload is delivered and received; while `send` runs, a second
payload is delivered; `send` fails; the dispatch task calls the handler again. -/
def sendFailureTrace : List (SubAction CompressedKey) :=
  [.register (.ok ()), .invoke plainPayload, .deliver 0, .receive, .invoke plainPayload,
    .deliver 0, .sendResult (.error "send failed"), .invoke plainPayload]

/-- **After a failed `send` the handler can block the dispatch task.** A reachable state has the
loop returned and the handler still registered, with a full channel, a live context and a running
server, and an invocation of the handler with no ready case. -/
theorem handler_blocks_after_send_error :
    ∃ s : Sub CompressedKey, Sub.Reachable compressedCodec s ∧
      (∃ err, s.pc = .deregistering err) ∧
      ¬ (s.incoming.buf.length < 1 ∨ s.ctxDone = true ∨ s.quitClosed = true) ∧
      s.invocations ≠ [] ∧
      ∀ i, s.step compressedCodec (.deliver i) = none ∧
        s.step compressedCodec (.handlerCancel i) = none ∧
        s.step compressedCodec (.handlerQuit i) = none := by
  have h : Sub.run compressedCodec (Sub.init false) sendFailureTrace =
      some ⟨.deregistering (.send "send failed"), ⟨[plainPayload], le_refl _⟩, [plainPayload],
        false, false, [(plainPayload, .ok), (plainPayload, .ok)],
        [toResponse compressedCodec plainPayload], 0⟩ := rfl
  exact ⟨_, (Sub.Reachable.init false).run h, ⟨_, rfl⟩, by simp, by simp,
    Sub.invocation_blocked rfl rfl rfl⟩

/-! ## The cancel and quit exits -/

/-- The client's cancellation and the server's quit are never undone. -/
theorem Sub.step_signals {codec : KeyCodec K} {s s' : Sub K} {a : SubAction K}
    (h : s.step codec a = some s') :
    (s.ctxDone = true → s'.ctxDone = true) ∧ (s.quitClosed = true → s'.quitClosed = true) := by
  cases a with
  | deliver i => obtain ⟨msg, ch, -, -, rfl⟩ := Sub.step_deliver.mp h; exact ⟨id, id⟩
  | handlerCancel i => obtain ⟨msg, -, -, rfl⟩ := Sub.step_handlerCancel.mp h; exact ⟨id, id⟩
  | handlerQuit i => obtain ⟨msg, -, -, rfl⟩ := Sub.step_handlerQuit.mp h; exact ⟨id, id⟩
  | receive => obtain ⟨-, msg, ch, -, rfl⟩ := Sub.step_receive.mp h; exact ⟨id, id⟩
  | register _ | sendResult _ | deregister | invoke _ | loopCancel | loopQuit | cancel | quit =>
    simp only [Sub.step] at h
    repeat' split at h
    all_goals (try cases h) <;> simp

theorem Sub.ExitSeen.mono {s s' : Sub K} {err : SubscribeError} (h : s.ExitSeen err)
    (hc : s.ctxDone = true → s'.ctxDone = true) (hq : s.quitClosed = true → s'.quitClosed = true) :
    s'.ExitSeen err :=
  h.imp_right (Or.imp (And.imp_right hc) (And.imp_right hq))

/-- A loop that returned on a client cancel saw the context done, and one that returned on the
server's quit saw the quit channel closed. -/
def Sub.ExitSignalled (s : Sub K) : Prop :=
  ∀ err, (s.pc = .deregistering err ∨ s.pc = .returned err) → s.ExitSeen err

theorem Sub.exitSignalled_step {codec : KeyCodec K} {s s' : Sub K} {a : SubAction K}
    (h : s.step codec a = some s') (he : s.ExitSignalled) : s'.ExitSignalled := by
  obtain ⟨hc, hq⟩ := Sub.step_signals h
  intro err hpc'
  by_cases hr : ∃ res, a = .register res
  · obtain ⟨res, rfl⟩ := hr
    obtain ⟨-, -, ⟨-, hpc⟩ | ⟨e, -, hpc⟩⟩ := Sub.step_register h <;> rw [hpc] at hpc' <;>
      simp at hpc'
  by_cases hd : a = .deregister
  · subst hd
    obtain ⟨err', hpc, hpc'', -⟩ := Sub.step_deregister h
    obtain rfl : err' = err := by simpa [hpc''] using hpc'
    exact (he err' (.inl hpc)).mono hc hq
  obtain ⟨-, hpc | ⟨-, hpc⟩ | ⟨-, hpc⟩ | ⟨-, err', hpc, hx⟩⟩ :=
    Sub.step_loop h (fun res h' => hr ⟨res, h'⟩) hd <;> rw [hpc] at hpc'
  · exact (he err hpc').mono hc hq
  · simp at hpc'
  · simp at hpc'
  · obtain rfl : err' = err := by simpa using hpc'
    exact hx.mono hc hq

theorem Sub.Reachable.exitSignalled {codec : KeyCodec K} {s : Sub K} (h : Sub.Reachable codec s) :
    s.ExitSignalled := by
  induction h with
  | init => intro err hpc; simp [Sub.init] at hpc
  | step _ _ hs ih => exact Sub.exitSignalled_step hs ih

/-- **The cancel and quit exits leave no handler blocked.** In every reachable state where the
loop has returned on a client cancel or on the server's quit, the context is done or the quit
channel closed, so every pending invocation of the handler has a ready case: only a failed
`send` returns with neither. -/
theorem handler_ready_after_cancel_or_quit (codec : KeyCodec K) {s : Sub K}
    (h : Sub.Reachable codec s) {err : SubscribeError}
    (hpc : s.pc = .deregistering err ∨ s.pc = .returned err) (hsend : ∀ e, err ≠ .send e) :
    (s.ctxDone = true ∨ s.quitClosed = true) ∧
      ∀ i < s.invocations.length,
        (s.step codec (.handlerCancel i)).isSome ∨ (s.step codec (.handlerQuit i)).isSome := by
  have hdone : s.ctxDone = true ∨ s.quitClosed = true := by
    rcases h.exitSignalled err hpc with ⟨e, rfl⟩ | ⟨-, hc⟩ | ⟨-, hq⟩
    · exact absurd rfl (hsend e)
    · exact .inl hc
    · exact .inr hq
  refine ⟨hdone, fun i hi => ?_⟩
  have hm : s.invocations[i]? = some s.invocations[i] := List.getElem?_eq_getElem hi
  rcases hdone with hc | hq
  · exact .inl (Option.isSome_iff_exists.mpr ⟨_, Sub.step_handlerCancel.mpr ⟨_, hm, hc, rfl⟩⟩)
  · exact .inr (Option.isSome_iff_exists.mpr ⟨_, Sub.step_handlerQuit.mpr ⟨_, hm, hq, rfl⟩⟩)

/-- The client cancels while an invocation is pending, and the loop returns on the cancel. -/
theorem handler_ready_after_client_cancel :
    ∃ s : Sub CompressedKey, Sub.Reachable compressedCodec s ∧ s.pc = .deregistering clientCancel ∧
      s.invocations = [plainPayload] ∧ (s.ctxDone = true ∨ s.quitClosed = true) ∧
      ∀ i < s.invocations.length, (s.step compressedCodec (.handlerCancel i)).isSome ∨
        (s.step compressedCodec (.handlerQuit i)).isSome := by
  have h : Sub.run compressedCodec (Sub.init false)
      [.register (.ok ()), .invoke plainPayload, .cancel, .loopCancel] =
      some ⟨.deregistering clientCancel, .empty, [plainPayload], true, false, [], [], 0⟩ := rfl
  have hr := (Sub.Reachable.init false).run h
  exact ⟨_, hr, rfl, rfl,
    handler_ready_after_cancel_or_quit compressedCodec hr (.inl rfl)
      fun _ => by simp [clientCancel]⟩

/-! ## While the loop runs -/

/-- With the channel empty, a pending invocation puts its payload in and returns `nil`. -/
theorem Sub.step_deliver_empty (codec : KeyCodec K) {s : Sub K} {i : Nat}
    {msg : OnionPayloadResponse K} (hi : s.invocations[i]? = some msg) (hb : s.incoming.buf = []) :
    ∃ s', s.step codec (.deliver i) = some s' ∧ s'.pc = s.pc ∧ s'.incoming.buf = [msg] ∧
      s'.sent = s.sent ∧ s'.invocations = s.invocations.eraseIdx i ∧
      s'.results = s.results ++ [(msg, .ok)] := by
  obtain ⟨ch, hch⟩ : ∃ ch, s.incoming.send? msg = some ch :=
    Option.isSome_iff_exists.mp (by simp [Chan.send?, hb])
  exact ⟨_, Sub.step_deliver.mpr ⟨msg, ch, hi, hch, rfl⟩, rfl,
    by simp [Sub.finish, Chan.send?_eq_some hch, hb], rfl, rfl, rfl⟩

/-- The selecting loop takes the buffered payload, emptying the channel, and passes its response
to `send`. -/
theorem Sub.step_receive_full (codec : KeyCodec K) {s : Sub K} {v : OnionPayloadResponse K}
    (hpc : s.pc = .selecting) (hb : s.incoming.buf = [v]) :
    ∃ s', s.step codec .receive = some s' ∧ s'.pc = .sending ∧ s'.incoming.buf = [] ∧
      s'.invocations = s.invocations ∧ s'.results = s.results ∧
      s'.sent = s.sent ++ [toResponse codec v] := by
  obtain ⟨ch, hch, hbuf⟩ := Chan.recv?_of_buf hb
  exact ⟨_, Sub.step_receive.mpr ⟨hpc, v, ch, hch, rfl⟩, rfl, hbuf, rfl, rfl, rfl⟩

/-- With the loop running, `send` returning and at most one receive empty the channel, passing
its payload's response to `send`; the loop is still running. -/
theorem Sub.drain_channel (codec : KeyCodec K) {s : Sub K}
    (hpc : s.pc = .selecting ∨ s.pc = .sending) :
    ∃ as s', as.length ≤ 2 ∧ (∀ a ∈ as, a = .sendResult (.ok ()) ∨ a = .receive) ∧
      Sub.run codec s as = some s' ∧ (s'.pc = .selecting ∨ s'.pc = .sending) ∧
      s'.incoming.buf = [] ∧ s'.invocations = s.invocations ∧ s'.results = s.results ∧
      s'.sent = s.sent ++ s.incoming.buf.map (toResponse codec) := by
  cases hb : s.incoming.buf with
  | nil => exact ⟨[], s, by simp, by simp, rfl, hpc, hb, rfl, rfl, by simp⟩
  | cons v vs =>
    obtain rfl : vs = [] := by simpa [hb] using s.incoming.length_le
    rcases hpc with hpc | hpc
    · obtain ⟨s', h, hpc', hb', hi, hr, hs⟩ := Sub.step_receive_full codec hpc hb
      exact ⟨[.receive], s', by simp, by simp, by simp [Sub.run, h], .inr hpc', hb', hi, hr,
        by simp [hs]⟩
    · have h₀ : s.step codec (.sendResult (.ok ())) = some { s with pc := .selecting } := by
        simp [Sub.step, hpc]
      obtain ⟨s', h, hpc', hb', hi, hr, hs⟩ :=
        Sub.step_receive_full codec (s := { s with pc := .selecting }) rfl hb
      exact ⟨[.sendResult (.ok ()), .receive], s', by simp, by simp, by simp [Sub.run, h₀, h],
        .inr hpc', hb', hi, hr, by simp [hs]⟩

/-- With the loop running, the channel emptied, a pending invocation delivers its payload and
returns `nil`. -/
theorem Sub.deliver_after_drain (codec : KeyCodec K) {s : Sub K}
    (hpc : s.pc = .selecting ∨ s.pc = .sending) {i : Nat} {msg : OnionPayloadResponse K}
    (hi : s.invocations[i]? = some msg) :
    ∃ as s', as.length ≤ 3 ∧
      (∀ a ∈ as, a = .sendResult (.ok ()) ∨ a = .receive ∨ a = .deliver i) ∧
      Sub.run codec s as = some s' ∧ s'.invocations = s.invocations.eraseIdx i ∧
      s'.results = s.results ++ [(msg, .ok)] := by
  obtain ⟨as, s₁, hl, has, hrun, -, hb, hi₁, hr₁, -⟩ := Sub.drain_channel codec hpc
  obtain ⟨s', hd, -, -, -, hinv, hr⟩ := Sub.step_deliver_empty codec (hi₁ ▸ hi) hb
  refine ⟨as ++ [.deliver i], s', by simp; omega, ?_, by simp [Sub.run_append, hrun, Sub.run, hd],
    by rw [hinv, hi₁], by rw [hr, hr₁]⟩
  simp only [List.mem_append, List.mem_singleton]
  rintro a (ha | rfl)
  · exact (has a ha).elim .inl (.inr ∘ .inl)
  · exact .inr (.inr rfl)

/-- **While the loop runs, an invocation waits for at most one `send`.** From every state where
the consume loop is running, selecting or inside `send`, every pending invocation of the handler
returns `nil` within three of the subscription's own steps, with no client action: `send`
returning, the loop receiving the buffered payload, and the invocation's delivery. -/
theorem handler_accepted_within_one_send (codec : KeyCodec K) {s : Sub K}
    (hpc : s.pc = .selecting ∨ s.pc = .sending) {i : Nat} {msg : OnionPayloadResponse K}
    (hi : s.invocations[i]? = some msg) :
    ∃ as s', as.length ≤ 3 ∧
      (∀ a ∈ as, a = .sendResult (.ok ()) ∨ a = .receive ∨ a = .deliver i) ∧
      Sub.run codec s as = some s' ∧ s'.results = s.results ++ [(msg, .ok)] :=
  let ⟨as, s', hl, has, hrun, _, hr⟩ := Sub.deliver_after_drain codec hpc hi
  ⟨as, s', hl, has, hrun, hr⟩

/-- With the loop running, a pending invocation's payload reaches `send` within five of the
subscription's own steps, after at most the one payload that was in the channel. -/
theorem Sub.reaches_send (codec : KeyCodec K) {s : Sub K}
    (hpc : s.pc = .selecting ∨ s.pc = .sending) {i : Nat} {msg : OnionPayloadResponse K}
    (hi : s.invocations[i]? = some msg) :
    ∃ as s', as.length ≤ 5 ∧
      (∀ a ∈ as, a = .sendResult (.ok ()) ∨ a = .receive ∨ a = .deliver i) ∧
      Sub.run codec s as = some s' ∧ s'.invocations = s.invocations.eraseIdx i ∧
      s'.results = s.results ++ [(msg, .ok)] ∧
      s'.sent = s.sent ++ (s.incoming.buf ++ [msg]).map (toResponse codec) := by
  obtain ⟨as₁, s₁, hl₁, ha₁, hrun₁, hpc₁, hb₁, hi₁, hr₁, hs₁⟩ := Sub.drain_channel codec hpc
  obtain ⟨s₂, hd, hpc₂, hb₂, hs₂, hinv₂, hr₂⟩ := Sub.step_deliver_empty codec (hi₁ ▸ hi) hb₁
  obtain ⟨as₃, s', hl₃, ha₃, hrun₃, -, -, hi₃, hr₃, hs₃⟩ := Sub.drain_channel codec (hpc₂ ▸ hpc₁)
  refine ⟨as₁ ++ .deliver i :: as₃, s', by simp; omega, ?_,
    by simp [Sub.run_append, hrun₁, Sub.run, hd, hrun₃], by rw [hi₃, hinv₂, hi₁],
    by rw [hr₃, hr₂, hr₁], by simp [hs₃, hb₂, hs₂, hs₁]⟩
  simp only [List.mem_append, List.mem_cons]
  rintro a (ha | rfl | ha)
  · exact (ha₁ a ha).elim .inl (.inr ∘ .inl)
  · exact .inr (.inr rfl)
  · exact (ha₃ a ha).elim .inl (.inr ∘ .inl)

/-- A reachable state with the loop inside `send`, the channel full and an invocation pending: the
invocation returns after `send`, one receive and its delivery. -/
theorem handler_accepted_inside_send :
    ∃ s : Sub CompressedKey, Sub.Reachable compressedCodec s ∧ s.pc = .sending ∧
      s.incoming.buf ≠ [] ∧ ∃ as s', as.length ≤ 3 ∧
        (∀ a ∈ as, a = .sendResult (.ok ()) ∨ a = .receive ∨ a = .deliver 0) ∧
        Sub.run compressedCodec s as = some s' ∧
        s'.results = s.results ++ [(plainPayload, .ok)] := by
  have h : Sub.run compressedCodec (Sub.init false)
      [.register (.ok ()), .invoke plainPayload, .deliver 0, .receive, .invoke plainPayload,
        .deliver 0, .invoke plainPayload] =
      some ⟨.sending, ⟨[plainPayload], le_refl _⟩, [plainPayload], false, false,
        [(plainPayload, .ok), (plainPayload, .ok)], [toResponse compressedCodec plainPayload], 0⟩ :=
    rfl
  exact ⟨_, (Sub.Reachable.init false).run h, rfl, by simp,
    handler_accepted_within_one_send compressedCodec (.inr rfl) rfl⟩

/-! ## Held until a cancel or a quit -/

/-- Where a failed `send` can leave a subscription: the loop has returned, the channel is full,
the context is live and the server running. -/
def Sub.Held (s : Sub K) : Prop :=
  (∃ err, s.pc = .deregistering err ∨ s.pc = .returned err) ∧ s.incoming.buf.length = 1 ∧
    s.ctxDone = false ∧ s.quitClosed = false

/-- `s'` is the held `s` later on: still held, with the same channel, no invocation returned
since, and the pending ones still pending, new ones after them. -/
def Sub.HeldOn (s s' : Sub K) : Prop :=
  s'.Held ∧ s'.incoming = s.incoming ∧ s'.results = s.results ∧ s.invocations <+: s'.invocations

theorem Sub.HeldOn.refl {s : Sub K} (hs : s.Held) : s.HeldOn s :=
  ⟨hs, rfl, rfl, List.prefix_refl _⟩

theorem Sub.HeldOn.trans {s₁ s₂ s₃ : Sub K} (h₁ : s₁.HeldOn s₂) (h₂ : s₂.HeldOn s₃) :
    s₁.HeldOn s₃ :=
  ⟨h₂.1, h₂.2.1.trans h₁.2.1, h₂.2.2.1.trans h₁.2.2.1, h₁.2.2.2.trans h₂.2.2.2⟩

/-- A held subscription stays held under every step but the client's cancel and the server's
quit: the channel keeps its payload, no invocation returns, and new ones only queue up. -/
theorem Sub.step_held {codec : KeyCodec K} {s s' : Sub K} {a : SubAction K}
    (h : s.step codec a = some s') (hs : s.Held) (hcq : a ≠ .cancel ∧ a ≠ .quit) :
    s.HeldOn s' := by
  obtain ⟨⟨err, hpc⟩, hfull, hc, hq⟩ := hs
  have hb : ∀ i, s.step codec (.deliver i) = none ∧ s.step codec (.handlerCancel i) = none ∧
      s.step codec (.handlerQuit i) = none := Sub.invocation_blocked hfull hc hq
  cases a with
  | deliver i => rw [(hb i).1] at h; cases h
  | handlerCancel i => rw [(hb i).2.1] at h; cases h
  | handlerQuit i => rw [(hb i).2.2] at h; cases h
  | cancel => exact absurd rfl hcq.1
  | quit => exact absurd rfl hcq.2
  | invoke msg =>
    simp only [Sub.step] at h
    split at h <;> cases h
    exact ⟨⟨⟨err, hpc⟩, hfull, hc, hq⟩, rfl, rfl, List.prefix_append _ _⟩
  | deregister =>
    simp only [Sub.step] at h
    split at h <;> cases h
    exact ⟨⟨⟨_, .inr rfl⟩, hfull, hc, hq⟩, rfl, rfl, List.prefix_refl _⟩
  | register _ | receive | sendResult _ | loopCancel | loopQuit =>
    rcases hpc with hpc | hpc <;> simp [Sub.step, hpc] at h

theorem Sub.run_held {codec : KeyCodec K} :
    ∀ {s s' : Sub K} {as : List (SubAction K)}, s.Held → (∀ a ∈ as, a ≠ .cancel ∧ a ≠ .quit) →
      Sub.run codec s as = some s' → s.HeldOn s'
  | _, _, [], hs, _, h => by cases h; exact .refl hs
  | _, _, a :: as, hs, hcq, h => by
    obtain ⟨s₁, h₁, hrun⟩ := Option.bind_eq_some.mp h
    have h₁ := Sub.step_held h₁ hs (hcq a (.head _))
    exact h₁.trans (Sub.run_held h₁.1 (fun b hb => hcq b (.tail _ hb)) hrun)

/-- **Only a cancel or a quit releases a held handler.** From a state where the loop has
returned with the channel full, the context live and the server running, as after a failed
`send`, no schedule without the client's cancel or the server's quit lets an invocation of the
handler return: along every such run the channel keeps its payload, no invocation completes,
every pending invocation stays pending, and each has no ready case at the end. -/
theorem handler_held_until_cancel_or_quit (codec : KeyCodec K) {s s' : Sub K} (hs : s.Held)
    (as : List (SubAction K)) (hcq : ∀ a ∈ as, a ≠ .cancel ∧ a ≠ .quit)
    (h : Sub.run codec s as = some s') :
    s'.incoming = s.incoming ∧ s'.results = s.results ∧ s.invocations <+: s'.invocations ∧
      ∀ i, s'.step codec (.deliver i) = none ∧ s'.step codec (.handlerCancel i) = none ∧
        s'.step codec (.handlerQuit i) = none := by
  obtain ⟨⟨-, hfull, hc, hq⟩, hi, hr, hp⟩ := Sub.run_held hs hcq h
  exact ⟨hi, hr, hp, Sub.invocation_blocked hfull hc hq⟩

/-! ## Where a pending invocation stands

The messenger's receive task waits for each invocation it starts. An invocation is pending only
after its call registered, and then either a few of its call's own steps let it return, or the
call is held, and only the client's cancel or the server's quit lets it go. -/

/-- No invocation is pending while the goroutine registers, nor after a refused registration. -/
def Sub.NoEarlyInvocation (s : Sub K) : Prop :=
  (s.pc = .registering ∨ ∃ err, s.pc = .rejected err) → s.invocations = []

theorem Sub.noEarlyInvocation_step {codec : KeyCodec K} {s s' : Sub K} {a : SubAction K}
    (h : s.step codec a = some s') (hs : s.NoEarlyInvocation) : s'.NoEarlyInvocation := by
  intro hpc'
  cases a with
  | deliver i =>
    obtain ⟨msg, ch, hi, -, rfl⟩ := Sub.step_deliver.mp h
    simp [hs hpc'] at hi
  | handlerCancel i =>
    obtain ⟨msg, hi, -, rfl⟩ := Sub.step_handlerCancel.mp h
    simp [hs hpc'] at hi
  | handlerQuit i =>
    obtain ⟨msg, hi, -, rfl⟩ := Sub.step_handlerQuit.mp h
    simp [hs hpc'] at hi
  | receive =>
    obtain ⟨-, msg, ch, -, rfl⟩ := Sub.step_receive.mp h
    simp at hpc'
  | invoke msg =>
    simp only [Sub.step] at h
    split at h <;> cases h
    rcases hpc' with hpc | ⟨err, hpc⟩ <;> simp_all [Pc.registered]
  | register _ | sendResult _ | loopCancel | loopQuit | deregister | cancel | quit =>
    simp only [Sub.step] at h
    repeat' split at h
    all_goals (try cases h)
    all_goals first | exact hs hpc' | exact hs (.inl ‹_›) | simp at hpc'

theorem Sub.Reachable.noEarlyInvocation {codec : KeyCodec K} {s : Sub K}
    (h : Sub.Reachable codec s) : s.NoEarlyInvocation := by
  induction h with
  | init => intro; rfl
  | step _ _ hs ih => exact Sub.noEarlyInvocation_step hs ih

/-- The actions by which a call lets invocation `i` return without its client or the server:
`send` returning, a receive, and the invocation's own cases. -/
def SubAction.releases (i : Nat) : SubAction K → Bool
  | .sendResult (.ok ()) | .receive => true
  | .deliver k | .handlerCancel k | .handlerQuit k => k == i
  | _ => false

/-- **A pending invocation returns soon, or its call is held.** In every reachable subscription,
each pending invocation returns within three of the call's own steps, with no client action: the
loop's `send` returning, a receive and its delivery while the loop runs, and after the loop
returned its cancel or quit case, or its delivery into an empty channel. Otherwise the call is
held, as after a failed `send`. -/
theorem Sub.pending_returns_or_held (codec : KeyCodec K) {s : Sub K} (h : Sub.Reachable codec s)
    {i : Nat} {msg : OnionPayloadResponse K} (hi : s.invocations[i]? = some msg) :
    (∃ as s' res, as.length ≤ 3 ∧ (∀ a ∈ as, a.releases i) ∧ Sub.run codec s as = some s' ∧
      s'.invocations = s.invocations.eraseIdx i ∧ s'.results = s.results ++ [(msg, res)]) ∨
    s.Held := by
  have hne : s.invocations ≠ [] := by rintro h'; simp [h'] at hi
  have single : ∀ a res ch, a.releases i → s.step codec a = some (s.finish i msg res ch) →
      ∃ as s' res, as.length ≤ 3 ∧ (∀ a ∈ as, a.releases i) ∧ Sub.run codec s as = some s' ∧
        s'.invocations = s.invocations.eraseIdx i ∧ s'.results = s.results ++ [(msg, res)] :=
    fun a res ch ha hs =>
      ⟨[a], s.finish i msg res ch, res, by simp, by simpa using ha, by simp [Sub.run, hs], rfl, rfl⟩
  cases hpc : s.pc with
  | registering => exact absurd (h.noEarlyInvocation (.inl hpc)) hne
  | rejected err => exact absurd (h.noEarlyInvocation (.inr ⟨err, hpc⟩)) hne
  | selecting | sending =>
    obtain ⟨as, s', hl, has, hrun, hinv, hr⟩ := Sub.deliver_after_drain codec (by simp [hpc]) hi
    refine .inl ⟨as, s', .ok, hl, fun a ha => ?_, hrun, hinv, hr⟩
    rcases has a ha with rfl | rfl | rfl <;> simp [SubAction.releases]
  | deregistering err | returned err =>
    by_cases hc : s.ctxDone = true
    · exact .inl (single _ _ _ (by simp [SubAction.releases])
        (Sub.step_handlerCancel.mpr ⟨msg, hi, hc, rfl⟩))
    by_cases hq : s.quitClosed = true
    · exact .inl (single _ _ _ (by simp [SubAction.releases])
        (Sub.step_handlerQuit.mpr ⟨msg, hi, hq, rfl⟩))
    cases hb : s.incoming.buf with
    | nil =>
      obtain ⟨s', hd, -, -, -, hinv, hr⟩ := Sub.step_deliver_empty codec hi hb
      exact .inl ⟨[.deliver i], s', .ok, by simp, by simp [SubAction.releases],
        by simp [Sub.run, hd], hinv, hr⟩
    | cons v vs =>
      have hlen : s.incoming.buf.length = 1 :=
        le_antisymm s.incoming.length_le (by simp [hb])
      exact .inr ⟨⟨err, by simp [hpc]⟩, hlen, by simpa using hc, by simpa using hq⟩

/-- Where `sendFailureTrace` leaves the subscription. -/
def sendFailureState : Sub CompressedKey :=
  ⟨.deregistering (.send "send failed"), ⟨[plainPayload], le_refl _⟩, [plainPayload], false, false,
    [(plainPayload, .ok), (plainPayload, .ok)], [toResponse compressedCodec plainPayload], 0⟩

/-- The state a failed `send` leaves is reachable and held, with an invocation pending, under
every schedule without a cancel or a quit. -/
theorem handler_held_after_send_failure :
    Sub.Reachable compressedCodec sendFailureState ∧ sendFailureState.Held ∧
      sendFailureState.invocations ≠ [] ∧
      ∀ as s', (∀ a ∈ as, a ≠ .cancel ∧ a ≠ .quit) →
        Sub.run compressedCodec sendFailureState as = some s' →
        s'.incoming = sendFailureState.incoming ∧ s'.results = sendFailureState.results ∧
          sendFailureState.invocations <+: s'.invocations ∧
          ∀ i, s'.step compressedCodec (.deliver i) = none ∧
            s'.step compressedCodec (.handlerCancel i) = none ∧
            s'.step compressedCodec (.handlerQuit i) = none := by
  have hs : sendFailureState.Held := ⟨⟨_, .inl rfl⟩, rfl, rfl, rfl⟩
  exact ⟨(Sub.Reachable.init false).run
      (show Sub.run compressedCodec (Sub.init false) sendFailureTrace = some sendFailureState
        from rfl),
    hs, by simp [sendFailureState],
    fun as _ hcq hrun => handler_held_until_cancel_or_quit compressedCodec hs as hcq hrun⟩

end Boltnd.Rpc
