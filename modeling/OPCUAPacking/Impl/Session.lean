import OPCUAPacking.Impl.Alone
import OPCUAPacking.Impl.Api

/-!
# Sessions

A single-threaded run: public calls, decisions of the watchdog and callbacks of the SDK, one after
the other, each run alone to its return.

* `SessionCall` — the calls of a session.
* `Session` — the moments between the calls.
* `Session.keeps`, `Session.visits` — what every call keeps holds throughout a session.
-/

namespace OPCUAPacking

open Interleaving

/-- The calls of a session. -/
inductive SessionCall where
  | connect
  | disconnect
  | checkConnected
  | isHealthy
  | watchdogDecision
  | callback (cb : Callback)
  deriving DecidableEq

/-- The program of a call. -/
def SessionCall.run : SessionCall → Impl ImplReply
  | .connect => Impl.replying .api Api.connect
  | .disconnect => Impl.replying .api Api.disconnect
  | .checkConnected => Impl.replying .api Api.checkConnected
  | .isHealthy => Impl.replying .api Api.isHealthy
  | .watchdogDecision => Impl.replying (fun _ => .unit) Impl.doWatchdogDecision
  | .callback cb => Impl.replying (fun _ => .unit) (Impl.runCallback cb)

/-- The moments between the calls of a session whose steps meet a condition. A call that an
exception has left is over, too. -/
inductive Session (ok : Moment → Event ImplSig → Prop) (s : ImplState) : Moment → Prop
  | start : Session ok s (.start s)
  | call {m : Moment} {d : ImplPool} {a : Except Exn ImplReply} (c : SessionCall) :
      Session ok s m → Config.Reach (Traced.StepIf ok ImplState.exec) (ImplPool.solo c.run m) d →
      d.Returned 0 a → Session ok s d.state

variable {ok : Moment → Event ImplSig → Prop} {s : ImplState} {Inv I : Moment → Prop}

namespace Impl

variable {K : (α : Type) → Impl α → Prop} (hK : Polling K)

include hK

/-- What the parts keep, the handlers keep. -/
theorem composed_catching {α : Type} {p : Impl (Result α RichError)} (hp : K _ p) :
    K _ (Api.catching p) := by
  refine hK.bind (hK.attempt hp) fun r => ?_
  cases r <;> exact hK.pure _

theorem composed_query (name : String) {p : Impl (Result Unit RichError)} (hp : K _ p) :
    K _ (Api.query name p) :=
  hK.bind hK.getEffectiveStopSignal fun _ =>
    Proc.Composed.ite (hK.pure _) (composed_catching hK hp)

/-- Every call of a session, from the connection calls and the decisions. -/
theorem composed_sessionCall (c : SessionCall) (hconnect : K _ connect)
    (hdisconnect : K _ disconnect) (hdecision : c = .watchdogDecision → K _ doWatchdogDecision) :
    K _ c.run := by
  cases c with
  | connect =>
      refine hK.bind (composed_catching hK (hK.bind hconnect fun r => ?_)) fun _ => hK.pure _
      rcases r with e | ⟨⟩ <;> exact hK.pure _
  | disconnect =>
      refine hK.bind (composed_catching hK (hK.bind hdisconnect fun r => ?_)) fun _ => hK.pure _
      rcases r with e | ⟨⟩ <;> exact hK.pure _
  | checkConnected =>
      refine hK.bind (composed_query hK _ (hK.bind (hK.isConnected 0) fun r => ?_)) fun _ =>
        hK.pure _
      rcases r with e | (_ | _) <;> exact hK.pure _
  | isHealthy =>
      exact hK.bind (composed_query hK _ (hK.bind hK.isHealthyCached fun _ =>
        Proc.Composed.ite (hK.pure _) (hK.pure _))) fun _ => hK.pure _
  | watchdogDecision => exact hK.bind (hdecision rfl) fun _ => hK.pure _
  | callback cb => exact hK.bind (hK.runCallback cb) fun _ => hK.pure _

end Impl

namespace Session

/-- What every call keeps holds between the calls. -/
theorem keeps (hinv : ∀ m, I m → Inv m)
    (hcall : ∀ c : SessionCall, (aloneProtocol ok Inv).Keeps I 0 c.run) (hstart : I (.start s))
    {m : Moment} (hm : Session ok s m) : I m := by
  induction hm with
  | start => exact hstart
  | call c _ hd hret ih =>
      exact (Impl.reach_alone (hinv _ ih) (hcall c _ ih) hd).2 _ hret

/-- The invariant of the protocol holds in the middle of the calls. -/
theorem visits (hinv : ∀ m, I m → Inv m)
    (hcall : ∀ c : SessionCall, (aloneProtocol ok Inv).Keeps I 0 c.run) (hstart : I (.start s))
    {m : Moment} (hm : Session ok s m) (c : SessionCall) {d : ImplPool}
    (hd : Config.Reach (Traced.StepIf ok ImplState.exec) (ImplPool.solo c.run m) d) : Inv d.state :=
  have hI := keeps hinv hcall hstart hm
  (Impl.reach_alone (hinv _ hI) (hcall c _ hI) hd).1

end Session

end OPCUAPacking
