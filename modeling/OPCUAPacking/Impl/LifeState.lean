import OPCUAPacking.Impl.Health

/-!
# The life state machine

The four writers of `m_lifeState`: `turnToRunning`, `turnToRecovring`, `turnToGiveup` and
`setGiveUpSignal`. Each loads the state and then changes it with compare-exchanges; a failed
compare-exchange yields the state it observed and the loop condition is tested again.
-/

namespace OPCUAPacking

open Interleaving

namespace Impl

/-- `TurnToRecovring`: from RUNNING to RECOVERING while the cached state is not healthy, and back
if it has become healthy meanwhile. -/
def turnToRecovring : Impl Unit := do
  let expected ← load .lifeState
  Proc.loop expected fun expected =>
    if expected = .running then do
      let healthy ← isHealthyCached
      if healthy then pure (.inr ())
      else
        let r ← casWeak .lifeState expected .recovering
        match r with
        | .ok () =>
            let healthy ← isHealthyCached
            -- the roll-back must not overwrite a concurrent GIVEN_UP
            Proc.when healthy do
              let _ ← casStrong .lifeState .recovering .running
              pure ()
            pure (.inr ())
        | .error observed => pure (.inl observed)
    else pure (.inr ())

/-- `TurnToRunning`: to RUNNING, unless the client was given up; a transition that took effect
clears what the watchdog has recorded. -/
def turnToRunning : Impl Unit := do
  let expected ← load .lifeState
  Proc.loop expected fun expected =>
    if expected = .running ∨ expected = .recovering then do
      let r ← casWeak .lifeState expected .running
      match r with
      | .ok () =>
          -- only a transition that took effect may clear what was recorded
          store .connectionLost false
          resetGiveUpTimer
          pure (.inr ())
      | .error observed => pure (.inl observed)
    else pure (.inr ())

/-- `TurnToGiveup`. -/
def turnToGiveup : Impl Unit := do
  -- recorded whoever wins the exchange
  updateBadStatusTime
  let expected ← load .lifeState
  Proc.loop expected fun expected =>
    if expected ≠ .givenUp then do
      let r ← casWeak .lifeState expected .givenUp
      match r with
      | .ok () => pure (.inr ())
      | .error observed => pure (.inl observed)
    else pure (.inr ())

/-- `setGiveUpSignal`: succeeds when its own compare-exchange gave the client up. -/
def setGiveUpSignal : Impl (Result Unit RichError) := do
  let expected ← load .lifeState
  Proc.loop expected fun expected =>
    if expected = .running ∨ expected = .recovering then do
      let r ← casWeak .lifeState expected .givenUp
      match r with
      | .ok () => pure (.inr (.ok ()))
      | .error observed => pure (.inl observed)
    else
      pure (.inr (.error ⟨.givenupIng, "setGiveUpSignal: GiveUp do not set repeatly"⟩))

end Impl

end OPCUAPacking
