import OPCUAPacking.Impl.WordHistory

/-!
# Probes and callbacks

How far each thread is in a health probe and in the delivery of a callback, read off the history.

* `Report` — what the SDK said, and when.
* `Probe`, `ProbeView` — the stages of a thread: the snapshot of the state word, the question to
  the SDK, its answer; and the callback that is being delivered.
* `ProbeView.Allows` — what a thread writes is what it was told: a probe compares with its snapshot
  and publishes its answer, a callback writes what it was called with.
* `probeHistory_of_reach` — so it is in every run; a thread that has returned delivers nothing.
-/

namespace OPCUAPacking

open Interleaving

/-- What the SDK said, with the number of operations before it was asked, for `getState`, or before
it spoke up, for a callback. -/
structure Report where
  time : Nat
  triple : Triple

/-- The stages of a probe. -/
inductive Probe where
  | closed
  /-- The snapshot `word` was read after the history `since`. -/
  | loaded (since : History) (word : BitVec 64)
  /-- The SDK was asked. -/
  | asked (since : History) (word : BitVec 64) (time : Nat)
  /-- The SDK has answered. -/
  | answered (since : History) (word : BitVec 64) (report : Report)

namespace Probe

/-- The SDK is asked, if a snapshot was taken. -/
def ask (time : Nat) : Probe → Probe
  | .loaded since word => .asked since word time
  | p => p

/-- The SDK answers, if it was asked. -/
def answer (f : Triple) : Probe → Probe
  | .asked since word time => .answered since word ⟨time, f⟩
  | p => p

/-- The snapshot, with the history before it. -/
def snapshot : Probe → Option (History × BitVec 64)
  | .closed => none
  | .loaded since word | .asked since word _ | .answered since word _ => some (since, word)

/-- When the SDK was asked. -/
def askedAt : Probe → Option Nat
  | .closed | .loaded _ _ => none
  | .asked _ _ time => some time
  | .answered _ _ report => some report.time

end Probe

/-- The stage of a thread. -/
structure ProbeView where
  probe : Probe
  /-- The callback that is being delivered. -/
  pending : Option Report

namespace ProbeView

/-- Neither a probe nor a callback. -/
def idle : ProbeView := ⟨.closed, none⟩

/-- How an operation moves the stage. The word is also read by a callback that is delivered in the
middle of a probe; that is no snapshot. -/
def track (es : History) (ℓ : ProbeView) : (o : ImplOp) → o.Resp → ProbeView
  | .load .statePacked, v => if ℓ.pending.isNone then ⟨.loaded es v, none⟩ else ℓ
  | .sdkCall _ .getState, _ => { ℓ with probe := ℓ.probe.ask es.length }
  | .sdkReturn _ .getState, .ok f => { ℓ with probe := ℓ.probe.answer f }
  | .sdkReturn _ .getState, .error _ => { ℓ with probe := .closed }
  | .casStrong .statePacked _ _, _ => { ℓ with probe := .closed }
  | .callback (.state f), _ => { ℓ with pending := some ⟨es.length, f⟩ }
  | .casWeak .statePacked _ _, .ok () => { ℓ with pending := none }
  | _, _ => ℓ

/-- What a thread may do to the word at a stage. -/
def Allows (ℓ : ProbeView) : (o : ImplOp) → o.Resp → Prop
  | .casStrong .statePacked e d, _ => ∃ since report, ℓ = ⟨.answered since e report, none⟩ ∧
      d = report.triple.pack ((unpackState e).version + 1)
  | .casWeak .statePacked e d, _ => ∃ report, ℓ.pending = some report ∧
      d = report.triple.pack ((unpackState e).version + 1)
  | .callback (.state _), _ => ℓ.pending = none
  | _, _ => True

end ProbeView

/-- The stage of thread `t` after a history. -/
def probeView (t : Tid) (es : History) : ProbeView := Event.stage ProbeView.track .idle t es

theorem probeView_cons_self (t : Tid) (o : ImplOp) (r : o.Resp) (es : History) :
    probeView t (⟨t, o, r⟩ :: es) = (probeView t es).track es o r :=
  @Event.stage_cons_self ImplSig ProbeView ProbeView.track .idle t o r es

theorem probeView_cons_ne {t u : Tid} (h : u ≠ t) (o : ImplOp) (r : o.Resp) (es : History) :
    probeView t (⟨u, o, r⟩ :: es) = probeView t es :=
  @Event.stage_cons_ne ImplSig ProbeView ProbeView.track .idle t u h o r es

/-- In a history, every thread did to the word what its stage allows. -/
def ProbeHistory : History → Prop :=
  Event.Each fun es e => (probeView e.tid es).Allows e.op e.resp

/-! ### The calls -/

namespace ImplOp

/-- Operations that move the stage of a thread. -/
def Probing : ImplOp → Prop
  | .load .statePacked | .casStrong .statePacked _ _ | .casWeak .statePacked _ _ => True
  | .sdkCall _ .getState | .sdkReturn _ .getState => True
  | .callback (.state _) => True
  | _ => False

/-- The others do not, and are allowed at every stage. -/
theorem track_of_not_probing {o : ImplOp} (h : ¬o.Probing) (es : History) (ℓ : ProbeView)
    (r : o.Resp) : ℓ.Allows o r ∧ ℓ.track es o r = ℓ := by
  cases o with
  | load a | casWeak a e d | casStrong a e d =>
      cases a <;> first | exact absurd trivial h | exact ⟨trivial, rfl⟩
  | sdkCall client c | sdkReturn client c =>
      cases c <;> first | exact absurd trivial h | exact ⟨trivial, rfl⟩
  | callback cb => cases cb <;> first | exact absurd trivial h | exact ⟨trivial, rfl⟩
  | _ => exact ⟨trivial, rfl⟩

/-- The operations that do not concern the word deliver no callback. -/
theorem track_of_plain {o : ImplOp} (h : o.Plain) (es : History) (ℓ : ProbeView) (r : o.Resp) :
    ℓ.Allows o r ∧ (ℓ.track es o r).pending = ℓ.pending := by
  by_cases hp : o.Probing
  · cases o with
    | sdkCall client c => cases c <;> exact ⟨trivial, rfl⟩
    | sdkReturn client c =>
        cases c with
        | getState => rcases r with e | f <;> exact ⟨trivial, rfl⟩
        | _ => exact hp.elim
    | load a =>
        cases a with
        | statePacked => rcases h with h | h | h | h <;> first | exact absurd rfl h.1 | exact h.elim
        | _ => exact hp.elim
    | casWeak a e d | casStrong a e d =>
        cases a with
        | statePacked => rcases h with h | h | h | h <;> exact h.elim
        | _ => exact hp.elim
    | callback cb => rcases h with h | h | h | h <;> exact h.elim
    | _ => exact hp.elim
  · obtain ⟨hallows, htrack⟩ := track_of_not_probing hp es ℓ r
    exact ⟨hallows, congrArg ProbeView.pending htrack⟩

end ImplOp

/-- The protocol of the probes. -/
abbrev probeProtocol : Protocol ImplSig (Traced ImplSig ImplState) ProbeView :=
  Protocol.recorded ImplState.exec ProbeView.Allows ProbeView.track fun _ => .idle

namespace Impl

variable {t : Tid}

/-- An operation that moves no stage keeps every stage. -/
theorem keeps_of_not_probing {o : ImplOp} (h : ¬o.Probing) (ℓ : ProbeView) :
    probeProtocol.Keeps (· = ℓ) t (perform o) :=
  Protocol.keeps_recorded_perform fun es _ r hℓ =>
    hℓ ▸ ImplOp.track_of_not_probing h es ℓ r

/-- A callback that is delivered in the middle of a probe leaves it where it is. -/
theorem keeps_runCallback (cb : Callback) (p : Probe) :
    probeProtocol.Keeps (· = ⟨p, none⟩) t (runCallback cb) := by
  rintro _ rfl
  cases cb with
  | state f =>
      refine Protocol.follows_recorded_perform fun es _ => ⟨rfl, ?_⟩
      refine Protocol.follows_recorded_perform fun es' old => ⟨trivial, ?_⟩
      -- as long as the compare-exchange fails, the callback is pending
      refine Protocol.Follows.loop (fun _ ℓ => ℓ = ⟨p, some ⟨es.length, f⟩⟩) rfl fun old ℓ hℓ => ?_
      subst hℓ
      refine Protocol.follows_recorded_perform fun es'' r => ⟨⟨_, rfl, rfl⟩, ?_⟩
      rcases r with observed | u <;> rfl
  | inactivity =>
      refine Protocol.follows_recorded_perform fun es _ => ⟨trivial, ?_⟩
      have hK := Protocol.closed_keeps (ε := Exn) probeProtocol (· = ⟨p, none⟩) t
      refine composed_inactivityCallback hK.toComposed (fun a ha => keeps_of_not_probing ?_ _)
        (keeps_of_not_probing id _) _ rfl
      cases a <;> first | exact id | cases ha

/-- The question to the SDK: the callbacks that it fires meanwhile leave the probe where it is. -/
theorem follows_getState {client : Handle} (since : History) (word : BitVec 64) :
    probeProtocol.Follows t (withLock .sdkMutex (sdk client .getState))
      (fun r ℓ => ℓ.pending = none ∧
        ∀ f, r = .ok f → ∃ time, ℓ.probe = .answered since word ⟨time, f⟩)
      ⟨.loaded since word, none⟩ := by
  refine Protocol.follows_recorded_perform fun _ _ => ⟨trivial, ?_⟩
  refine Protocol.Follows.ensuring (fun r ℓ => ℓ.pending = none ∧
    ∀ f, r = .ok f → ∃ time, ℓ.probe = .answered since word ⟨time, f⟩) ?_ ?_
  · refine Protocol.follows_recorded_perform fun es cbs => ⟨trivial, ?_⟩
    have hK := Protocol.closed_keeps (ε := Exn) probeProtocol
      (· = ⟨.asked since word es.length, none⟩) t
    refine Protocol.Follows.bind (fun _ ℓ => ℓ = ⟨.asked since word es.length, none⟩)
      (hK.forEach (fun cb => keeps_runCallback cb _) cbs _ rfl) ?_ ?_
    · rintro _ ℓ rfl
      refine Protocol.follows_recorded_perform fun es' r => ⟨trivial, ?_⟩
      rcases r with e | f
      · exact ⟨rfl, nofun⟩
      · refine ⟨rfl, fun f' hf' => ?_⟩
        cases hf'
        exact ⟨es.length, rfl⟩
    · rintro e ℓ rfl
      exact ⟨rfl, nofun⟩
  · intro r ℓ hr
    exact Protocol.follows_recorded_op fun _ _ => ⟨trivial, rfl, hr⟩

/-- A probe publishes what the SDK answered to its question, against the snapshot from before. -/
theorem keeps_probe (client : Handle) :
    probeProtocol.Keeps (fun ℓ => ℓ.pending = none) t (probe client) := by
  rintro ⟨p, _⟩ rfl
  refine Protocol.follows_recorded_perform fun since word => ⟨trivial, ?_⟩
  refine Protocol.Follows.bind _ (follows_getState since word) ?_ fun e ℓ hℓ => hℓ.1
  rintro f ⟨p, pending⟩ ⟨hpending, hp⟩
  obtain ⟨time, hp⟩ := hp f rfl
  obtain rfl : p = _ := hp
  obtain rfl : pending = none := hpending
  refine Protocol.Follows.bind (fun _ (ℓ : ProbeView) => ℓ.pending = none) ?_ (fun _ _ hℓ => hℓ)
    fun _ _ hℓ => hℓ
  refine Protocol.follows_recorded_perform fun es r => ⟨⟨since, ⟨time, f⟩, rfl, rfl⟩, ?_⟩
  rcases r with observed | u <;> rfl

/-- Every call follows the protocol. -/
theorem keeps_run (c : ImplCall) : probeProtocol.Keeps (fun ℓ => ℓ.pending = none) t c.run := by
  refine closed_run (Protocol.closed_keeps (ε := Exn) probeProtocol _ t) ?_ ?_ keeps_probe c
  · refine fun o ho => Protocol.keeps_recorded_perform fun es ℓ r hℓ => ?_
    obtain ⟨hallows, htrack⟩ := ImplOp.track_of_plain ho es ℓ r
    exact ⟨hallows, htrack.trans hℓ⟩
  · rintro cb ⟨p, _⟩ rfl
    refine (keeps_runCallback cb p _ rfl).mono ?_
    rintro _ ℓ rfl
    rfl

/-- Every thread follows the protocol. -/
theorem follows_thread (c : Option ImplCall) :
    probeProtocol.Follows t (ImplCall.thread c) (fun _ ℓ => ℓ.pending = none) .idle := by
  cases c with
  | none => rfl
  | some c => exact keeps_run c _ rfl

end Impl

/-! ### Runs -/

variable {calls : Tid → Option ImplCall} {s : ImplState} {c : ImplPool}

/-- In every run, threads do to the word what their stages allow, and a thread that has returned
delivers no callback any more. -/
theorem probeHistory_of_reach (hc : ImplPool.Reach (ImplPool.start calls s) c) :
    ProbeHistory c.state.history ∧
      ∀ t a, c.Returned t a → (probeView t c.state.history).pending = none := by
  have hf : ∀ u, probeProtocol.Follows u ((ImplPool.start calls s).pool u)
      (fun _ ℓ => ℓ.pending = none) .idle := fun u => Impl.follows_thread (calls u)
  exact Protocol.recorded_each (Q := fun _ _ (ℓ : ProbeView) => ℓ.pending = none) rfl hf hc

/-! ### Snapshots -/

/-- An operation closes the probe of its thread, opens one with the word that it observes, or keeps
the snapshot and the time of the question. -/
theorem track_probe (t : Tid) (es : History) (ℓ : ProbeView) (o : ImplOp) (r : o.Resp) :
    (ℓ.track es o r).probe = .closed ∨
      (∃ v, (ℓ.track es o r).probe = .loaded es v ∧
        (⟨t, o, r⟩ : Event ImplSig) = ⟨t, .load .statePacked, v⟩) ∨
      ((ℓ.track es o r).probe.snapshot = ℓ.probe.snapshot ∧
        ∀ time, ℓ.probe.askedAt = some time → (ℓ.track es o r).probe.askedAt = some time) := by
  by_cases hp : o.Probing
  · obtain ⟨p, pending⟩ := ℓ
    cases o with
    | load a =>
        cases a with
        | statePacked =>
            cases pending with
            -- a load inside a callback is not that of the probe
            | none => exact .inr (.inl ⟨r, rfl, rfl⟩)
            | some report => exact .inr (.inr ⟨rfl, fun _ => id⟩)
        | _ => exact hp.elim
    | sdkCall client c =>
        cases c with
        | getState =>
            refine .inr (.inr ?_)
            cases p with
            | closed | loaded since word => exact ⟨rfl, nofun⟩
            | asked since word time => exact ⟨rfl, fun _ => id⟩
            | answered since word report => exact ⟨rfl, fun _ => id⟩
        | _ => exact hp.elim
    | sdkReturn client c =>
        cases c with
        | getState =>
            rcases r with e | f
            · exact .inl rfl
            · cases p <;> exact .inr (.inr ⟨rfl, fun _ => id⟩)
        | _ => exact hp.elim
    | casStrong a e d => cases a <;> first | exact .inl rfl | exact hp.elim
    | casWeak a e d =>
        cases a with
        | statePacked => rcases r with v | u <;> exact .inr (.inr ⟨rfl, fun _ => id⟩)
        | _ => exact hp.elim
    | callback cb => cases cb <;> exact .inr (.inr ⟨rfl, fun _ => id⟩)
    | _ => exact hp.elim
  · rw [(ImplOp.track_of_not_probing hp es ℓ r).2]
    exact .inr (.inr ⟨rfl, fun _ => id⟩)

variable {w word : BitVec 64} {t : Tid} {h es since : History}

/-- The snapshot of an open probe was loaded by its thread. -/
theorem snapshot_loaded (hs : (probeView t h).probe.snapshot = some (since, word)) :
    ⟨t, .load .statePacked, word⟩ :: since <:+ h := by
  induction h with
  | nil => cases hs
  | cons e es ih =>
      obtain ⟨u, o, r⟩ := e
      by_cases hu : u = t
      · subst hu
        rw [probeView_cons_self] at hs
        rcases track_probe u es (probeView u es) o r with hclosed | ⟨v, hload, hev⟩ | ⟨hkeep, -⟩
        · rw [hclosed] at hs
          cases hs
        · rw [hload] at hs
          cases hs
          rw [hev]
        · exact (ih (hkeep ▸ hs)).trans (List.suffix_cons _ _)
      · rw [probeView_cons_ne hu] at hs
        exact (ih hs).trans (List.suffix_cons _ _)

/-- It is the word of its moment. -/
theorem snapshot_eq_wordAfter (hw : WordHistory w h)
    (hs : (probeView t h).probe.snapshot = some (since, word)) : word = wordAfter w since :=
  hw _ _ (snapshot_loaded hs)

/-- From its snapshot on, a thread has had one probe, which asked the SDK once. -/
theorem snapshot_of_suffix (hs : (probeView t h).probe.snapshot = some (since, word))
    (hes : es <:+ h) (hlt : since.length < es.length) :
    (probeView t es).probe.snapshot = some (since, word) ∧
      ∀ time, (probeView t es).probe.askedAt = some time →
        (probeView t h).probe.askedAt = some time := by
  induction h with
  | nil => cases hs
  | cons e h ih =>
      rcases List.suffix_cons_iff.mp hes with rfl | hsuf
      · exact ⟨hs, fun _ => id⟩
      obtain ⟨u, o, r⟩ := e
      by_cases hu : u = t
      · subst hu
        rw [probeView_cons_self] at hs ⊢
        rcases track_probe u h (probeView u h) o r with hclosed | ⟨v, hload, -⟩ | ⟨hkeep, hasked⟩
        · rw [hclosed] at hs
          cases hs
        · -- the probe was opened after `es`
          rw [hload] at hs
          cases hs
          exact absurd hsuf.length_le (Nat.not_le.mpr hlt)
        · obtain ⟨hsnap, htime⟩ := ih (hkeep ▸ hs) hsuf
          exact ⟨hsnap, fun time ht => hasked time (htime time ht)⟩
      · rw [probeView_cons_ne hu] at hs ⊢
        exact ih hs hsuf

end OPCUAPacking
