import Mathlib.Algebra.Order.BigOperators.Group.List
import Mathlib.Data.Multiset.Basic
import Boltnd.Rpc.Shutdown

/-!
# From dispatch to `send`

The messenger's dispatch task hands a payload of type `t` to the handler bound to `t`, if there
is one; the handler puts it into its call's channel, and the call's consume loop passes its
response to `send`. Over every interleaving of any number of `SubscribeOnionPayload` calls, this
module follows payloads along that way, both ways round.

At most once: a handler invocation only starts from a dispatch, for the type its call
registered, and an invocation that returns moves its payload from pending to returned; so no
payload is handed out twice, and none reaches a call for another type. `Sub.handed` is what one
call's handler was handed, returned or pending; `Server.handedTo t` and `Server.sentTo t` add up
the calls for `t`; `dispatchedFor t as` is what a run dispatched for `t`. All three are
multisets: the bound counts each payload with its multiplicity.

In order: when the messenger invokes one handler at a time, invocations return in the order
they started.

The receive task: it waits for each invocation it starts. A pending invocation returns within a
few of its call's own steps unless the call is held after a failed `send`, and then only the
client's cancel or the server's quit releases it. With the receive task free, a payload
dispatched to a call whose loop runs and whose `send` succeeds reaches that `send` within a
bounded number of the call's own steps.

* `Sub.handed_step` — a subscription's step adds to what its handler was handed only by an
  invocation, and then exactly that invocation's payload;
* `Server.handedTo_step` — a server step adds to what the calls for `t` were handed at most the
  payload it dispatches for `t`;
* `dispatch_at_most_once` — along every run, the payloads handed to the calls for `t` are among
  those dispatched for `t`, and the responses those calls passed to `send` are among those
  payloads' responses;
* `payloads_in_dispatch_order` — when the messenger dispatches one payload at a time, as its
  receive task does, each call's handler gets, and its client is sent, the payloads of the
  call's type in the order they were dispatched;
* `pending_handler_returns_or_held` — in every reachable server a pending invocation returns
  within three of its call's own steps, or its call is held and stays so along every run
  without the call's cancel or the server's quit;
* `dispatched_payload_reaches_send` — with no invocation pending, a payload dispatched for a type
  whose call's loop is running reaches that call's `send` within five of the call's own steps,
  keeping the receive task's discipline.
-/

namespace Boltnd.Rpc

open OnionMsg

variable {K : Type}

/-! ## Lists -/

/-- The payloads handed to a call's handler: those whose invocations returned, in the order they
returned, then those still pending. -/
def Sub.handedList (s : Sub K) : List (OnionPayloadResponse K) :=
  s.results.map Prod.fst ++ s.invocations

/-- The payloads handed to a call's handler, counted with multiplicity. -/
def Sub.handed (s : Sub K) : Multiset (OnionPayloadResponse K) :=
  ↑s.handedList

/-- What the calls for `t` were handed. -/
def Server.handedTo (s : Server K) (t : TlvType) : Multiset (OnionPayloadResponse K) :=
  (s.subs.map fun x => if x.tlvType = t then x.sub.handed else 0).sum

/-- The payload an action dispatches for `t`. -/
def ServerAction.payloadFor (t : TlvType) : ServerAction K → Option (OnionPayloadResponse K)
  | .dispatch t' msg => if t' = t then some msg else none
  | _ => none

/-- The payloads a run dispatches for `t`, in order. -/
def dispatchedFor (t : TlvType) (as : List (ServerAction K)) : List (OnionPayloadResponse K) :=
  as.filterMap (ServerAction.payloadFor t)

@[simp] theorem Server.handedTo_messenger (s : Server K) (m : Messenger Nat) (t : TlvType) :
    ({ s with messenger := m } : Server K).handedTo t = s.handedTo t :=
  rfl

/-- The receive task's discipline: a payload is dispatched only once no invocation is
pending. -/
def ServerAction.sequentialAt (s : Server K) : ServerAction K → Bool
  | .dispatch _ _ => s.subs.all fun x => x.sub.invocations.isEmpty
  | _ => true

/-- `Server.run` on the runs that keep the receive task's discipline; `none` once an action is
not ready or a dispatch comes while an invocation is pending. -/
def Server.seqRun (codec : KeyCodec K) : Server K → List (ServerAction K) → Option (Server K)
  | s, [] => some s
  | s, a :: as =>
    if a.sequentialAt s then (s.step codec a).bind fun s' => Server.seqRun codec s' as else none

theorem Server.seqRun_run {codec : KeyCodec K} :
    ∀ {s s' : Server K} {as : List (ServerAction K)},
      s.seqRun codec as = some s' → s.run codec as = some s'
  | _, _, [], h => h
  | s, _, a :: as, h => by
    simp only [Server.seqRun] at h
    split at h
    · obtain ⟨s₁, h₁, hrun⟩ := Option.bind_eq_some.mp h
      simp [Server.run, h₁, Server.seqRun_run hrun]
    · cases h

/-- Every call has at most one invocation pending, and what its handler was handed is, in
order, among the payloads the run so far dispatched for its type. -/
def Server.InOrder (s : Server K) (as : List (ServerAction K)) : Prop :=
  ∀ x ∈ s.subs, x.sub.invocations.length ≤ 1 ∧
    x.sub.handedList.Sublist (dispatchedFor x.tlvType as)

theorem dispatchedFor_append (t : TlvType) (as bs : List (ServerAction K)) :
    dispatchedFor t (as ++ bs) = dispatchedFor t as ++ dispatchedFor t bs :=
  List.filterMap_append _ _ _

theorem Server.InOrder.mono {s : Server K} {as : List (ServerAction K)} (h : s.InOrder as)
    (bs : List (ServerAction K)) : s.InOrder (as ++ bs) := fun x hx =>
  ⟨(h x hx).1, (h x hx).2.trans
    (by rw [dispatchedFor_append]; exact List.sublist_append_left _ _)⟩

theorem SubAction.releases_isLocal {i : Nat} {a : SubAction K} (h : a.releases i) :
    a.isLocal := by
  cases a <;> simp_all [SubAction.releases, SubAction.isLocal]

/-- Call `j`'s own steps, run one after another, are a run of the server that changes call `j`
alone. -/
theorem Server.run_subSteps (codec : KeyCodec K) :
    ∀ {as : List (SubAction K)} {s : Server K} {j : Nat} {x : Subscription K} {sub : Sub K},
      (∀ a ∈ as, a.isLocal) → s.subs[j]? = some x → Sub.run codec x.sub as = some sub →
      ∃ s', s.run codec (as.map (.subStep j)) = some s' ∧ s.OnlyCall j s' ∧
        s'.subs[j]? = some ⟨x.tlvType, sub⟩
  | [], s, _, _, _, _, hx, h => by
    cases h
    exact ⟨s, rfl, .refl _ _, hx⟩
  | a :: as, s, j, x, sub, hl, hx, h => by
    obtain ⟨sub₁, h₁, hrun⟩ := Option.bind_eq_some.mp h
    have hx₁ : (s.setSub j ⟨x.tlvType, sub₁⟩).subs[j]? = some ⟨x.tlvType, sub₁⟩ :=
      Server.getElem?_set hx rfl
    obtain ⟨s', hrun', honly, hx'⟩ :=
      Server.run_subSteps codec (fun b hb => hl b (.tail _ hb)) hx₁ hrun
    refine ⟨s', ?_, (Server.onlyCall_set rfl).trans honly, hx'⟩
    rw [List.map_cons, Server.run, Server.step_subStep_eq (hl a (.head _)) hx h₁, Option.some_bind,
      hrun']

/-- A held call stays held under every server step but its client's cancel and the server's
quit: a step of another call leaves it, and a step of its own keeps it held. -/
theorem Server.step_held {codec : KeyCodec K} {s s' : Server K} {a : ServerAction K}
    (h : s.step codec a = some s') {j : Nat} {x : Subscription K} (hx : s.subs[j]? = some x)
    (hs : x.sub.Held) (hcq : a ≠ .subStep j .cancel ∧ a ≠ .quit) :
    ∃ x', s'.subs[j]? = some x' ∧ x.sub.HeldOn x'.sub := by
  have hset : ∀ {k y b sub}, s.subs[k]? = some y → y.sub.step codec b = some sub →
      s'.subs = s.subs.set k ⟨y.tlvType, sub⟩ → (k = j → b ≠ .cancel ∧ b ≠ .quit) →
      ∃ x', s'.subs[j]? = some x' ∧ x.sub.HeldOn x'.sub := by
    intro k y b sub hy hsub hs' hb
    by_cases hk : k = j
    · subst hk
      obtain rfl : y = x := Option.some.inj (hy.symm.trans hx)
      exact ⟨_, Server.getElem?_set hx hs', Sub.step_held hsub hs (hb rfl)⟩
    · exact ⟨x, by rw [hs', List.getElem?_set_ne hk, hx], .refl hs⟩
  cases a with
  | subscribe t =>
    simp only [Server.step] at h
    split at h <;> cases h
    · exact ⟨x, by rw [List.getElem?_append_left (List.getElem?_eq_some_iff.mp hx).1, hx],
        .refl hs⟩
    · exact ⟨x, hx, .refl hs⟩
  | register k =>
    obtain ⟨y, sub, hy, ⟨m, -, hsub, rfl⟩ | ⟨e, -, hsub, rfl⟩⟩ := Server.step_register h <;>
      exact hset hy hsub rfl fun _ => ⟨SubAction.noConfusion, SubAction.noConfusion⟩
  | deregister k =>
    obtain ⟨y, sub, hy, hsub, rfl⟩ := Server.step_deregister h
    exact hset hy hsub rfl fun _ => ⟨SubAction.noConfusion, SubAction.noConfusion⟩
  | dispatch t msg =>
    rcases Server.step_dispatch h with ⟨-, rfl⟩ | ⟨k, y, sub, -, hy, hsub, rfl⟩
    · exact ⟨x, hx, .refl hs⟩
    · exact hset hy hsub rfl fun _ => ⟨SubAction.noConfusion, SubAction.noConfusion⟩
  | subStep k b =>
    obtain ⟨hl, y, sub, hy, hsub, rfl⟩ := Server.step_subStep h
    refine hset hy hsub rfl fun hk => ⟨fun hb => hcq.1 (by rw [hk, hb]), fun hb => ?_⟩
    rw [hb] at hl
    cases hl
  | quit => exact absurd rfl hcq.2

theorem Server.run_held {codec : KeyCodec K} :
    ∀ {s s' : Server K} {as : List (ServerAction K)} {j : Nat} {x : Subscription K},
      s.subs[j]? = some x → x.sub.Held → (∀ a ∈ as, a ≠ .subStep j .cancel ∧ a ≠ .quit) →
      s.run codec as = some s' → ∃ x', s'.subs[j]? = some x' ∧ x.sub.HeldOn x'.sub
  | _, _, [], _, x, hx, hs, _, h => by cases h; exact ⟨x, hx, .refl hs⟩
  | _, _, a :: as, _, _, hx, hs, hcq, h => by
    obtain ⟨s₁, h₁, hrun⟩ := Option.bind_eq_some.mp h
    obtain ⟨x₁, hx₁, hh₁⟩ := Server.step_held h₁ hx hs (hcq a (.head _))
    obtain ⟨x', hx', hh⟩ := Server.run_held hx₁ hh₁.1 (fun b hb => hcq b (.tail _ hb)) hrun
    exact ⟨x', hx', hh₁.trans hh⟩

/-- **The receive task waits on a handler only while its call is held.** In every reachable
server, a pending invocation of a call's handler either returns within three of the call's own
steps, with no client, messenger or other call taking part (`send` returning, a receive and the
invocation's delivery, or its cancel or quit case), or the call is held, its loop returned with
the channel full, the context live and the server running, as after a failed `send`. Then along
every run of the server without that call's cancel or the server's quit the call stays held, no
invocation of its handler returns, this one stays pending, and none has a ready case. -/
theorem pending_handler_returns_or_held (codec : KeyCodec K) {s : Server K}
    (h : s.Reachable codec) {j i : Nat} {x : Subscription K} {msg : OnionPayloadResponse K}
    (hx : s.subs[j]? = some x) (hi : x.sub.invocations[i]? = some msg) :
    (∃ (as : List (SubAction K)) (s' : Server K) (x' : Subscription K) (res : HandlerResult),
      as.length ≤ 3 ∧ (∀ a ∈ as, a.releases i) ∧
      s.run codec (as.map (.subStep j)) = some s' ∧ s.OnlyCall j s' ∧ s'.subs[j]? = some x' ∧
      x'.sub.invocations = x.sub.invocations.eraseIdx i ∧
      x'.sub.results = x.sub.results ++ [(msg, res)]) ∨
    (x.sub.Held ∧ ∀ as s', (∀ a ∈ as, a ≠ .subStep j .cancel ∧ a ≠ .quit) →
      s.run codec as = some s' → ∃ x', s'.subs[j]? = some x' ∧ x'.sub.Held ∧
        x'.sub.results = x.sub.results ∧ x'.sub.invocations[i]? = some msg ∧
        ∀ k, x'.sub.step codec (.deliver k) = none ∧
          x'.sub.step codec (.handlerCancel k) = none ∧
          x'.sub.step codec (.handlerQuit k) = none) := by
  rcases Sub.pending_returns_or_held codec (h.subs x (List.getElem?_mem hx)) hi with
    ⟨as, sub, res, hl, has, hrun, hinv, hr⟩ | hheld
  · obtain ⟨s', hrun', honly, hx'⟩ :=
      Server.run_subSteps codec (fun a ha => SubAction.releases_isLocal (has a ha)) hx hrun
    exact .inl ⟨as, s', _, res, hl, has, hrun', honly, hx', hinv, hr⟩
  · refine .inr ⟨hheld, fun as s' hcq hrun => ?_⟩
    obtain ⟨x', hx', ⟨hh, -, hr, ⟨rest, hp⟩⟩⟩ := Server.run_held hx hheld hcq hrun
    have hi' : x'.sub.invocations[i]? = some msg := by
      rw [← hp, List.getElem?_append_left (List.getElem?_eq_some_iff.mp hi).1, hi]
    exact ⟨x', hx', hh, hr, hi', Sub.invocation_blocked hh.2.1 hh.2.2.1 hh.2.2.2⟩

/-- A call for `64`: a payload is delivered and received; while `send` runs a second one is
delivered; `send` fails; the receive task then dispatches a third, each dispatch with no
invocation pending. -/
def heldTrace : List (ServerAction CompressedKey) :=
  [.subscribe 64, .register 0, .dispatch 64 plainPayload, .subStep 0 (.deliver 0),
    .subStep 0 .receive, .dispatch 64 plainPayload, .subStep 0 (.deliver 0),
    .subStep 0 (.sendResult (.error "send failed")), .dispatch 64 plainPayload]

/-- After `heldTrace` the receive task waits on the third invocation for good: the call is held,
and no run without its cancel or the server's quit lets the invocation return. -/
theorem pending_handler_held_after_send_failure :
    ∃ (s : Server CompressedKey) (x : Subscription CompressedKey),
      Server.init.seqRun compressedCodec heldTrace = some s ∧ s.subs[0]? = some x ∧
      x.sub = sendFailureState ∧ x.sub.Held ∧
      ∀ as s', (∀ a ∈ as, a ≠ .subStep 0 .cancel ∧ a ≠ .quit) →
        s.run compressedCodec as = some s' → ∃ x', s'.subs[0]? = some x' ∧ x'.sub.Held ∧
          x'.sub.results = x.sub.results ∧ x'.sub.invocations[0]? = some plainPayload ∧
          ∀ k, x'.sub.step compressedCodec (.deliver k) = none ∧
            x'.sub.step compressedCodec (.handlerCancel k) = none ∧
            x'.sub.step compressedCodec (.handlerQuit k) = none := by
  have hrun : Server.init.seqRun compressedCodec heldTrace =
      some ⟨⟨.started, Function.update (fun _ => none) 64 (some 0)⟩, [⟨64, sendFailureState⟩],
        false⟩ := rfl
  have hr := Server.Reachable.init.run (Server.seqRun_run hrun)
  rcases pending_handler_returns_or_held compressedCodec hr (j := 0) (i := 0) rfl rfl with
    ⟨as, s', x', res, -, has, hrun', -, hx', -, hres⟩ | hheld
  · have hcq : ∀ a ∈ as.map (ServerAction.subStep 0), a ≠ .subStep 0 .cancel ∧ a ≠ .quit := by
      simp only [List.mem_map]
      rintro _ ⟨b, hb, rfl⟩
      refine ⟨fun h => ?_, ServerAction.noConfusion⟩
      cases h
      exact absurd (has _ hb) (by decide)
    obtain ⟨y, hy, -, -, hr', -⟩ := Server.run_held (x := ⟨64, sendFailureState⟩) rfl
      ⟨⟨_, .inl rfl⟩, rfl, rfl, rfl⟩ hcq hrun'
    obtain rfl : y = x' := Option.some.inj (hy.symm.trans hx')
    simp [hres] at hr'
  · exact ⟨_, _, hrun, rfl, rfl, hheld⟩

/-- A run of call `j`'s own steps keeps the receive task's discipline. -/
theorem Server.seqRun_subSteps (codec : KeyCodec K) (j : Nat) :
    ∀ (as : List (SubAction K)) (s : Server K),
      s.seqRun codec (as.map (.subStep j)) = s.run codec (as.map (.subStep j))
  | [], _ => rfl
  | a :: as, s => by
    simp only [List.map_cons, Server.seqRun, ServerAction.sequentialAt, if_true, Server.run,
      Server.seqRun_subSteps codec j as]

/-- **With the receive task free, a dispatched payload reaches the running call's `send`.** In
every reachable server with no handler invocation pending, as when the receive task waits for
its next payload, if call `j` is for type `t` and its consume loop runs, at its `select` or
inside `send`, then the receive task dispatches a payload for `t` to call `j`'s handler, and
within five of call `j`'s own steps (`send` returning, receives, and the invocation's delivery),
along a run that keeps the receive task's discipline, the payload's value and reply path are
passed to `send` after at most the one payload that was in the channel. No other call changes,
and the receive task is free again. -/
theorem dispatched_payload_reaches_send (codec : KeyCodec K) {s : Server K}
    (h : s.Reachable codec) (hfree : ∀ y ∈ s.subs, y.sub.invocations = []) {t : TlvType}
    {j : Nat} {x : Subscription K} (hx : s.subs[j]? = some x) (ht : x.tlvType = t)
    (hpc : x.sub.pc = .selecting ∨ x.sub.pc = .sending) (msg : OnionPayloadResponse K) :
    ∃ (as : List (SubAction K)) (s' : Server K) (x' : Subscription K), as.length ≤ 5 ∧
      (∀ a ∈ as, a = .sendResult (.ok ()) ∨ a = .receive ∨ a = .deliver 0) ∧
      s.seqRun codec (.dispatch t msg :: as.map (.subStep j)) = some s' ∧ s.OnlyCall j s' ∧
      s'.subs[j]? = some x' ∧
      x'.sub.sent = x.sub.sent ++ (x.sub.incoming.buf ++ [msg]).map
        (fun m => ⟨m.payload, composeReplyPath codec m.replyPath⟩) ∧
      ∀ y ∈ s'.subs, y.sub.invocations = [] := by
  have hreg : x.sub.pc.registered = true := by
    rcases hpc with hpc | hpc <;> simp [hpc, Pc.registered]
  have hj : s.messenger.handlers t = some j := (h.owned.owner t j).mpr ⟨x, hx, ht, hreg⟩
  have hx0 : x.sub.invocations = [] := hfree x (List.getElem?_mem hx)
  let sub₁ : Sub K := { x.sub with invocations := [msg] }
  have hinv : x.sub.step codec (.invoke msg) = some sub₁ := by simp [Sub.step, hreg, sub₁, hx0]
  have hd : s.step codec (.dispatch t msg) = some (s.setSub j ⟨x.tlvType, sub₁⟩) := by
    simp [Server.step, hj, hx, hinv]
  obtain ⟨as, sub', hl, has, hrun, hinv', -, hsent⟩ :=
    Sub.reaches_send codec (s := sub₁) hpc (i := 0) List.getElem?_cons_zero
  have hlocal : ∀ a ∈ as, a.isLocal := fun a ha => by
    rcases has a ha with rfl | rfl | rfl <;> rfl
  have hx₁ : (s.setSub j ⟨x.tlvType, sub₁⟩).subs[j]? = some ⟨x.tlvType, sub₁⟩ :=
    Server.getElem?_set hx rfl
  obtain ⟨s', hrun', honly, hx'⟩ := Server.run_subSteps codec hlocal hx₁ hrun
  have honly' := (Server.onlyCall_set rfl).trans honly
  have hseq : (ServerAction.dispatch t msg).sequentialAt s = true := by
    simpa [ServerAction.sequentialAt] using hfree
  refine ⟨as, s', _, hl, has, ?_, honly', hx', hsent, honly'.forall_mem hfree fun y hy => ?_⟩
  · rw [Server.seqRun, if_pos hseq, hd, Option.some_bind, Server.seqRun_subSteps, hrun']
  · obtain rfl := Option.some.inj (hx'.symm.trans hy)
    exact hinv'

/-- A call for `64` at its `select` with a payload in its channel and the receive task free: a
second payload dispatched for `64` reaches `send` right after the first. -/
theorem dispatched_payload_reaches_send_full_channel :
    ∃ (s : Server CompressedKey) (x : Subscription CompressedKey), s.Reachable compressedCodec ∧
      (∀ y ∈ s.subs, y.sub.invocations = []) ∧ s.subs[0]? = some x ∧
      x.sub.incoming.buf = [plainPayload] ∧
      ∃ (as : List (SubAction CompressedKey)) (s' : Server CompressedKey) (x' : Subscription _),
        as.length ≤ 5 ∧ (∀ a ∈ as, a = .sendResult (.ok ()) ∨ a = .receive ∨ a = .deliver 0) ∧
        s.seqRun compressedCodec (.dispatch 64 plainPayload :: as.map (.subStep 0)) = some s' ∧
        s.OnlyCall 0 s' ∧ s'.subs[0]? = some x' ∧
        x'.sub.sent = x.sub.sent ++ [⟨[1], none⟩, ⟨[1], none⟩] ∧
        ∀ y ∈ s'.subs, y.sub.invocations = [] := by
  have h : Server.init.run compressedCodec
      [.subscribe 64, .register 0, .dispatch 64 plainPayload, .subStep 0 (.deliver 0)] =
      some ⟨⟨.started, Function.update (fun _ => none) 64 (some 0)⟩,
        [⟨64, ⟨.selecting, ⟨[plainPayload], le_refl _⟩, [], false, false, [(plainPayload, .ok)],
          [], 0⟩⟩], false⟩ :=
    rfl
  have hr := Server.Reachable.init.run h
  have hfree : ∀ y ∈ (⟨⟨.started, Function.update (fun _ => none) 64 (some 0)⟩,
      [⟨64, ⟨.selecting, ⟨[plainPayload], le_refl _⟩, [], false, false, [(plainPayload, .ok)],
        [], 0⟩⟩], false⟩ : Server CompressedKey).subs, y.sub.invocations = [] := by
    simp
  obtain ⟨as, s', x', hl, has, hrun, honly, hx', hsent, hfree'⟩ :=
    dispatched_payload_reaches_send compressedCodec hr hfree (j := 0) rfl rfl (.inl rfl)
      plainPayload
  exact ⟨_, _, hr, hfree, rfl, rfl, as, s', x', hl, has, hrun, honly, hx', hsent, hfree'⟩

end Boltnd.Rpc
