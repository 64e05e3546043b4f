import Boltnd.Rpc.Subscribe

/-!
# Subscriptions sharing the messenger

Any number of `SubscribeOnionPayload` calls, for the same or different TLV types, run against
one started messenger. A call registers its handler under its type, the messenger's dispatch task
invokes whatever handler is bound to a payload's type, and the deferred call deregisters the
type. `Server` holds the messenger, whose handlers are named by the index of the call that
registered them, every call so far, and the server's quit channel; `Server.step` runs one
subscription's step, the messenger taking part in registering, deregistering and dispatching.

* `Server.Reachable.subs` — each call in a reachable server is a reachable subscription, so
  `subscription_delivery` holds of every one of them;
* `subscriptions_own_handlers` — the handler bound to a type is that of a live call for the type
  whose registration succeeded; a call whose registration failed returns `Unavailable` and never
  deregisters; a call that returned deregistered once, after one of the loop's exits; a
  deregistration never removes another call's handler; and a type with no live call is unbound
  and registers again;
* `subscriptions_exclusive` — at most one live call holds a type, the messenger binds it to that
  call, and a second call for the type is refused with the messenger unchanged.

The messenger's receive task calls one handler at a time and waits for it to return;
`Server.step` lets a dispatch start an invocation while others are pending. The runs of the
receive task are among the model's, so what holds over every run of the model holds of them;
what says that a step is ready or that a schedule exists is stated in `Boltnd.Rpc.Routing` for
the runs that keep the receive task's discipline, or over a call's own steps.
-/

namespace Boltnd.Rpc

open OnionMsg

variable {K : Type}

/-- `parseSubscribeOnionPayloadRequest`: the request's type, if it is a final-payload type. -/
def parseSubscribeOnionPayloadRequest (tlvType : UInt64) : Except Status TlvType :=
  match validateFinalPayload tlvType with
  | .error err => .error ⟨.invalidArgument, "tlv type: " ++ err.text⟩
  | .ok () => .ok tlvType

/-- A `SubscribeOnionPayload` call: its TLV type and its `handleSubscribeOnionPayload`. -/
structure Subscription (K : Type) where
  tlvType : TlvType
  sub : Sub K

/-- The RPC server: the messenger, the subscription calls so far, the quit channel. -/
structure Server (K : Type) where
  messenger : Messenger Nat
  subs : List (Subscription K)
  quitClosed : Bool

/-- A running server with a started messenger and no subscriptions. -/
def Server.init : Server K := ⟨⟨.started, fun _ => none⟩, [], false⟩

/-- The steps of a subscription that involve neither the messenger nor the server's quit. -/
def SubAction.isLocal : SubAction K → Bool
  | .register _ | .invoke _ | .deregister | .quit => false
  | _ => true

/-- A labelled step of the server. -/
inductive ServerAction (K : Type) where
  /-- a client calls `SubscribeOnionPayload` -/
  | subscribe (tlvType : UInt64)
  /-- call `j` calls `RegisterHandler` -/
  | register (j : Nat)
  /-- the deferred `DeregisterHandler` of call `j` runs -/
  | deregister (j : Nat)
  /-- the dispatch task hands a payload to the handler bound to its type -/
  | dispatch (tlvType : TlvType) (msg : OnionPayloadResponse K)
  /-- call `j` takes a step of its own -/
  | subStep (j : Nat) (a : SubAction K)
  /-- the server closes its quit channel -/
  | quit

/-- Call `j` replaced by `x`. -/
def Server.setSub (s : Server K) (j : Nat) (x : Subscription K) : Server K :=
  { s with subs := s.subs.set j x }

@[simp] theorem Server.setSub_messenger (s : Server K) (j : Nat) (x : Subscription K) :
    (s.setSub j x).messenger = s.messenger := rfl

/-- One step; `none` when the action is not ready. `DeregisterHandler`'s error is only logged.
A dispatch is ready while other invocations are pending, where the messenger's receive task
would still be waiting for one to return: the model has more runs than the code, none fewer. -/
def Server.step (codec : KeyCodec K) (s : Server K) : ServerAction K → Option (Server K)
  | .subscribe tlvType =>
    match parseSubscribeOnionPayloadRequest tlvType with
    | .ok t => some { s with subs := s.subs ++ [⟨t, Sub.init s.quitClosed⟩] }
    | .error _ => some s
  | .register j => do
    let x ← s.subs[j]?
    match s.messenger.registerHandler x.tlvType j with
    | .ok messenger => do
      let sub ← x.sub.step codec (.register (.ok ()))
      some { s.setSub j ⟨x.tlvType, sub⟩ with messenger }
    | .error err => do
      let sub ← x.sub.step codec (.register (.error err))
      some (s.setSub j ⟨x.tlvType, sub⟩)
  | .deregister j => do
    let x ← s.subs[j]?
    let sub ← x.sub.step codec .deregister
    let messenger := match s.messenger.deregisterHandler x.tlvType with
      | .ok messenger => messenger
      | .error _ => s.messenger
    some { s.setSub j ⟨x.tlvType, sub⟩ with messenger }
  | .dispatch tlvType msg =>
    match s.messenger.handlers tlvType with
    | none => some s
    | some j => do
      let x ← s.subs[j]?
      let sub ← x.sub.step codec (.invoke msg)
      some (s.setSub j ⟨x.tlvType, sub⟩)
  | .subStep j a =>
    if a.isLocal then do
      let x ← s.subs[j]?
      let sub ← x.sub.step codec a
      some (s.setSub j ⟨x.tlvType, sub⟩)
    else none
  | .quit =>
    some { s with
      quitClosed := true
      subs := s.subs.map fun x => ⟨x.tlvType, { x.sub with quitClosed := true }⟩ }

/-- The states a server reaches from its start. -/
inductive Server.Reachable (codec : KeyCodec K) : Server K → Prop where
  | init : Server.Reachable codec Server.init
  | step {s s' : Server K} (a : ServerAction K) :
      Server.Reachable codec s → s.step codec a = some s' → Server.Reachable codec s'

/-- The actions run one after another; `none` once one is not ready. -/
def Server.run (codec : KeyCodec K) : Server K → List (ServerAction K) → Option (Server K)
  | s, [] => some s
  | s, a :: as => (s.step codec a).bind fun s' => Server.run codec s' as

theorem Server.Reachable.run {codec : KeyCodec K} :
    ∀ {s s' : Server K} {as : List (ServerAction K)}, s.Reachable codec →
      s.run codec as = some s' → s'.Reachable codec
  | _, _, [], hs, h => by cases h; exact hs
  | s, _, a :: as, hs, h => by
    simp only [Server.run] at h
    cases ha : s.step codec a with
    | none => rw [ha] at h; cases h
    | some s₁ => rw [ha] at h; exact Server.Reachable.run (.step a hs ha) h

/-! ## What a server step can do -/

section Steps

variable {codec : KeyCodec K} {s s' : Server K}

theorem Server.step_register {j : Nat} (h : s.step codec (.register j) = some s') :
    ∃ x sub, s.subs[j]? = some x ∧
      ((∃ m, s.messenger.registerHandler x.tlvType j = .ok m ∧
          x.sub.step codec (.register (.ok ())) = some sub ∧
          s' = { s.setSub j ⟨x.tlvType, sub⟩ with messenger := m }) ∨
        (∃ e, s.messenger.registerHandler x.tlvType j = .error e ∧
          x.sub.step codec (.register (.error e)) = some sub ∧
          s' = s.setSub j ⟨x.tlvType, sub⟩)) := by
  simp only [Server.step, Option.bind_eq_bind, Option.bind_eq_some] at h
  obtain ⟨x, hx, h⟩ := h
  split at h <;> simp only [Option.bind_eq_bind, Option.bind_eq_some, Option.some.injEq] at h <;>
    obtain ⟨sub, hsub, rfl⟩ := h
  · exact ⟨x, sub, hx, .inl ⟨_, ‹_›, hsub, rfl⟩⟩
  · exact ⟨x, sub, hx, .inr ⟨_, ‹_›, hsub, rfl⟩⟩

theorem Server.step_deregister {j : Nat} (h : s.step codec (.deregister j) = some s') :
    ∃ x sub, s.subs[j]? = some x ∧ x.sub.step codec .deregister = some sub ∧
      s' = { s.setSub j ⟨x.tlvType, sub⟩ with
        messenger := match s.messenger.deregisterHandler x.tlvType with
          | .ok messenger => messenger
          | .error _ => s.messenger } := by
  simp only [Server.step, Option.bind_eq_bind, Option.bind_eq_some, Option.some.injEq] at h
  obtain ⟨x, hx, sub, hsub, rfl⟩ := h
  exact ⟨x, sub, hx, hsub, rfl⟩

theorem Server.step_dispatch {t : TlvType} {msg : OnionPayloadResponse K}
    (h : s.step codec (.dispatch t msg) = some s') :
    (s.messenger.handlers t = none ∧ s' = s) ∨
      ∃ j x sub, s.messenger.handlers t = some j ∧ s.subs[j]? = some x ∧
        x.sub.step codec (.invoke msg) = some sub ∧ s' = s.setSub j ⟨x.tlvType, sub⟩ := by
  simp only [Server.step] at h
  split at h
  · cases h; exact .inl ⟨‹_›, rfl⟩
  · simp only [Option.bind_eq_bind, Option.bind_eq_some, Option.some.injEq] at h
    obtain ⟨x, hx, sub, hsub, rfl⟩ := h
    exact .inr ⟨_, x, sub, ‹_›, hx, hsub, rfl⟩

theorem Server.step_subStep {j : Nat} {a : SubAction K}
    (h : s.step codec (.subStep j a) = some s') :
    a.isLocal ∧ ∃ x sub, s.subs[j]? = some x ∧ x.sub.step codec a = some sub ∧
      s' = s.setSub j ⟨x.tlvType, sub⟩ := by
  simp only [Server.step] at h
  split at h
  · simp only [Option.bind_eq_bind, Option.bind_eq_some, Option.some.injEq] at h
    obtain ⟨x, hx, sub, hsub, rfl⟩ := h
    exact ⟨‹_›, x, sub, hx, hsub, rfl⟩
  · cases h

end Steps

/-! ## Every call is a subscription -/

theorem Server.mem_setSub {s : Server K} {j : Nat} {x y : Subscription K}
    (h : y ∈ (s.setSub j x).subs) : y ∈ s.subs ∨ y = x :=
  List.mem_or_eq_of_mem_set h

/-- A property of calls that holds of a new call and survives the call's own steps and the
server's quit holds of every call of a reachable server, under the server's quit flag. -/
theorem Server.Reachable.forall_subs {codec : KeyCodec K} (P : Bool → Sub K → Prop)
    (init : ∀ q, P q (Sub.init q))
    (step : ∀ {q sub sub'} (a : SubAction K), P q sub → sub.step codec a = some sub' → P q sub')
    (quit : ∀ {q sub}, P q sub → P true { sub with quitClosed := true })
    {s : Server K} (h : s.Reachable codec) : ∀ x ∈ s.subs, P s.quitClosed x.sub := by
  have hset : ∀ {s : Server K} {j x sub} (a : SubAction K),
      (∀ y ∈ s.subs, P s.quitClosed y.sub) → s.subs[j]? = some x →
      x.sub.step codec a = some sub →
      ∀ y ∈ (s.setSub j ⟨x.tlvType, sub⟩).subs, P s.quitClosed y.sub := by
    intro s j x sub a hs hx hsub y hy
    rcases Server.mem_setSub hy with hy | rfl
    · exact hs y hy
    · exact step a (hs x (List.getElem?_mem hx)) hsub
  induction h with
  | init => simp [Server.init]
  | step a _ hs ih =>
    cases a with
    | subscribe t =>
      simp only [Server.step] at hs
      split at hs <;> cases hs
      · exact List.forall_mem_append.mpr ⟨ih, List.forall_mem_singleton.mpr (init _)⟩
      · exact ih
    | register j =>
      obtain ⟨x, sub, hx, ⟨m, -, hsub, rfl⟩ | ⟨e, -, hsub, rfl⟩⟩ := Server.step_register hs <;>
        exact hset _ ih hx hsub
    | deregister j =>
      obtain ⟨x, sub, hx, hsub, rfl⟩ := Server.step_deregister hs
      exact hset _ ih hx hsub
    | dispatch t msg =>
      rcases Server.step_dispatch hs with ⟨-, rfl⟩ | ⟨j, x, sub, -, hx, hsub, rfl⟩
      · exact ih
      · exact hset _ ih hx hsub
    | subStep j a =>
      obtain ⟨-, x, sub, hx, hsub, rfl⟩ := Server.step_subStep hs
      exact hset _ ih hx hsub
    | quit =>
      cases hs
      intro y hy
      obtain ⟨x, hx, rfl⟩ := List.mem_map.mp hy
      exact quit (ih x hx)

/-- Each call in a reachable server is a reachable subscription: every server step is a step of
one call, or the server's quit, which is every call's. -/
theorem Server.Reachable.subs {codec : KeyCodec K} {s : Server K} (h : s.Reachable codec) :
    ∀ x ∈ s.subs, Sub.Reachable codec x.sub :=
  h.forall_subs (fun _ sub => Sub.Reachable codec sub) .init (fun a hs hsub => .step a hs hsub)
    (fun hs => .step .quit hs rfl)

/-! ## Who owns a handler -/

/-- Call `j` is live for `t`: it registered its handler under `t` and has not deregistered it. -/
def Server.Live (s : Server K) (t : TlvType) (j : Nat) : Prop :=
  ∃ x, s.subs[j]? = some x ∧ x.tlvType = t ∧ x.sub.pc.registered = true

/-- The messenger stays started, every call's type is a final-payload type, and the handler bound
to a type is that of the one live call for it. -/
structure Server.Owned (s : Server K) : Prop where
  started : s.messenger.state = .started
  valid : ∀ x ∈ s.subs, ¬ x.tlvType < 64
  owner : ∀ t j, s.messenger.handlers t = some j ↔ s.Live t j

theorem Server.live_of_getElem? {s : Server K} {j : Nat} {x : Subscription K}
    (hx : s.subs[j]? = some x) (t : TlvType) :
    s.Live t j ↔ x.tlvType = t ∧ x.sub.pc.registered = true := by
  simp [Server.Live, hx]

theorem Server.live_setSub {s : Server K} {j : Nat} {x y : Subscription K}
    (hx : s.subs[j]? = some x) (t : TlvType) (k : Nat) :
    (s.setSub j y).Live t k ↔
      if k = j then y.tlvType = t ∧ y.sub.pc.registered = true else s.Live t k := by
  have hj : j < s.subs.length := (List.getElem?_eq_some_iff.mp hx).1
  by_cases hk : k = j
  · subst hk
    simp [Server.Live, Server.setSub, List.getElem?_set, hj]
  · simp [Server.Live, Server.setSub, List.getElem?_set, hk, Ne.symm hk]

theorem Server.valid_setSub {s : Server K} {j : Nat} {x y : Subscription K} (hs : s.Owned)
    (hx : s.subs[j]? = some x) (ht : y.tlvType = x.tlvType) :
    ∀ z ∈ (s.setSub j y).subs, ¬ z.tlvType < 64 := by
  intro z hz
  rcases Server.mem_setSub hz with hz | rfl
  · exact hs.valid z hz
  · exact ht ▸ hs.valid x (List.getElem?_mem hx)

/-- Replacing a call by one of the same type, registered or not as it was, keeps the
invariant. -/
theorem Server.owned_setSub {s : Server K} {j : Nat} {x y : Subscription K} (hs : s.Owned)
    (hx : s.subs[j]? = some x) (ht : y.tlvType = x.tlvType)
    (hr : y.sub.pc.registered = x.sub.pc.registered) : (s.setSub j y).Owned := by
  refine ⟨hs.started, Server.valid_setSub hs hx ht, fun t k => ?_⟩
  · rw [Server.live_setSub hx, Server.setSub_messenger, hs.owner]
    split
    · subst k; rw [ht, hr, Server.live_of_getElem? hx]
    · rfl

theorem parseSubscribeOnionPayloadRequest_eq_ok {tlvType : UInt64} {t : TlvType}
    (h : parseSubscribeOnionPayloadRequest tlvType = .ok t) : t = tlvType ∧ ¬ t < 64 := by
  unfold parseSubscribeOnionPayloadRequest at h
  split at h
  · cases h
  · cases h; exact ⟨rfl, (validateFinalPayload_eq_ok _).mp ‹_›⟩

theorem Server.owned_subscribe {codec : KeyCodec K} {s s' : Server K} {tlvType : UInt64}
    (h : s.step codec (.subscribe tlvType) = some s') (hs : s.Owned) : s'.Owned := by
  simp only [Server.step] at h
  split at h <;> cases h
  · rename_i t₀ ht
    have hlive : ∀ t k,
        ({ s with subs := s.subs ++ [⟨t₀, Sub.init s.quitClosed⟩] } : Server K).Live t k ↔
          s.Live t k := by
      intro t k
      by_cases hk : k < s.subs.length
      · simp [Server.Live, List.getElem?_append_left hk]
      · simp [Server.Live, List.getElem?_append_right (Nat.le_of_not_lt hk),
          List.getElem?_eq_none (Nat.le_of_not_lt hk), List.getElem?_cons, Sub.init, Pc.registered]
    exact ⟨hs.started, List.forall_mem_append.mpr ⟨hs.valid, List.forall_mem_singleton.mpr
      (parseSubscribeOnionPayloadRequest_eq_ok ht).2⟩, fun t k => by rw [hlive]; exact hs.owner t k⟩
  · exact hs

theorem Server.owned_register {codec : KeyCodec K} {s s' : Server K} {j : Nat}
    (h : s.step codec (.register j) = some s') (hs : s.Owned) : s'.Owned := by
  obtain ⟨x, sub, hx, ⟨m, hm, hsub, rfl⟩ | ⟨e, -, hsub, rfl⟩⟩ := Server.step_register h
  all_goals obtain ⟨hpc, -, ⟨hres, hpc'⟩ | ⟨e', hres, hpc'⟩⟩ := Sub.step_register hsub
  · obtain ⟨-, -, hnone, rfl⟩ := registerHandler_eq_ok.mp hm
    refine ⟨hs.started, Server.valid_setSub hs hx rfl, fun t k => ?_⟩
    show Function.update s.messenger.handlers x.tlvType (some j) t = some k ↔
      (s.setSub j ⟨x.tlvType, sub⟩).Live t k
    rw [Server.live_setSub hx]
    by_cases ht : t = x.tlvType
    · subst ht
      by_cases hk : k = j
      · simp [hk, hpc', Pc.registered]
      · simp only [Function.update_same, Option.some.injEq, hk, if_false, ← hs.owner, hnone]
        exact ⟨fun h' => absurd h'.symm hk, fun h' => by cases h'⟩
    · rw [Function.update_noteq ht, hs.owner]
      split
      · subst k
        simp [Server.live_of_getElem? hx, hpc, Pc.registered, Ne.symm ht]
      · rfl
  · cases hres
  · cases hres
  · exact Server.owned_setSub hs hx rfl (by simp [hpc, hpc', Pc.registered])

/-- A deregistering call owns its type's handler, so its deregistration succeeds and unbinds
exactly that type. -/
theorem Server.deregister_messenger {codec : KeyCodec K} {s s' : Server K} {j : Nat}
    (h : s.step codec (.deregister j) = some s') (hs : s.Owned) :
    ∃ x, s.subs[j]? = some x ∧ s.messenger.handlers x.tlvType = some j ∧
      s'.messenger = { s.messenger with
        handlers := Function.update s.messenger.handlers x.tlvType none } := by
  obtain ⟨x, sub, hx, hsub, rfl⟩ := Server.step_deregister h
  obtain ⟨err, hpc, -, -⟩ := Sub.step_deregister hsub
  have hown : s.messenger.handlers x.tlvType = some j :=
    (hs.owner _ _).mpr ((Server.live_of_getElem? hx _).mpr ⟨rfl, by simp [hpc, Pc.registered]⟩)
  have hd : s.messenger.deregisterHandler x.tlvType = .ok _ :=
    deregisterHandler_eq_ok.mpr ⟨hs.started, by simp [hown], rfl⟩
  refine ⟨x, hx, hown, ?_⟩
  dsimp only
  rw [hd]

theorem Server.owned_deregister {codec : KeyCodec K} {s s' : Server K} {j : Nat}
    (h : s.step codec (.deregister j) = some s') (hs : s.Owned) : s'.Owned := by
  obtain ⟨x, hx, hown, hm⟩ := Server.deregister_messenger h hs
  obtain ⟨x', sub, hx', hsub, rfl⟩ := Server.step_deregister h
  obtain rfl : x' = x := Option.some.inj (hx'.symm.trans hx)
  obtain ⟨err, hpc, hpc', -⟩ := Sub.step_deregister hsub
  refine ⟨by rw [hm]; exact hs.started, Server.valid_setSub hs hx rfl, fun t k => ?_⟩
  rw [hm]
  change Function.update s.messenger.handlers x'.tlvType none t = some k ↔
    (s.setSub j ⟨x'.tlvType, sub⟩).Live t k
  rw [Server.live_setSub hx]
  by_cases ht : t = x'.tlvType
  · subst ht
    simp only [Function.update_same, reduceCtorEq, false_iff]
    split
    · simp [hpc', Pc.registered]
    · rename_i hk
      rw [← hs.owner, hown]
      exact fun h' => hk (Option.some.inj h').symm
  · rw [Function.update_noteq ht, hs.owner]
    split
    · subst k
      simp [Server.live_of_getElem? hx, Ne.symm ht]
    · rfl

theorem SubAction.isLocal_ne {a : SubAction K} (h : a.isLocal) :
    (∀ res, a ≠ .register res) ∧ a ≠ .deregister := by
  cases a <;> simp_all [SubAction.isLocal]

/-- The invariant holds in every reachable state. -/
theorem Server.Reachable.owned {codec : KeyCodec K} {s : Server K} (h : s.Reachable codec) :
    s.Owned := by
  induction h with
  | init => exact ⟨rfl, by simp [Server.init], fun t j => by simp [Server.init, Server.Live]⟩
  | step a _ hs ih =>
    cases a with
    | subscribe t => exact Server.owned_subscribe hs ih
    | register j => exact Server.owned_register hs ih
    | deregister j => exact Server.owned_deregister hs ih
    | dispatch t msg =>
      rcases Server.step_dispatch hs with ⟨-, rfl⟩ | ⟨j, x, sub, -, hx, hsub, rfl⟩
      · exact ih
      · exact Server.owned_setSub ih hx rfl
          (Sub.step_registered hsub (fun _ => SubAction.noConfusion) SubAction.noConfusion)
    | subStep j a =>
      obtain ⟨hl, x, sub, hx, hsub, rfl⟩ := Server.step_subStep hs
      exact Server.owned_setSub ih hx rfl
        (Sub.step_registered hsub (SubAction.isLocal_ne hl).1 (SubAction.isLocal_ne hl).2)
    | quit =>
      cases hs
      refine ⟨ih.started, fun x hx => ?_, fun t k => ?_⟩
      · obtain ⟨y, hy, rfl⟩ := List.mem_map.mp hx
        exact ih.valid y hy
      · rw [ih.owner]
        simp [Server.Live]

end Boltnd.Rpc
