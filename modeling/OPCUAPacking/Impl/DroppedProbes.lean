import OPCUAPacking.Impl.ProbeHistory
import OPCUAPacking.Impl.Schedule

/-!
# When a dropped answer is stale

A probe whose compare-exchange fails drops the answer of the SDK. The comment on
`tryPublishIfUnchanged` takes the write that came in between to be a newer callback. It may as well
be another probe, or a callback that was called before the dropped answer was asked for.

* `DropsStale` — every dropped answer is older than the triple that is stored when it is dropped.
* `WritesNewer` — a write is newer than the answers to the probes that it makes fail.
* `dropsStale` — where every write is, every dropped answer is stale.
* `not_dropsStale` — two probes that publish in the other order drop the newer answer.
-/

namespace OPCUAPacking

open Interleaving

namespace Probe

/-- The answer that a probe has. -/
def report : Probe → Option Report
  | .answered _ _ report => some report
  | _ => none

/-- The probe has read its snapshot. -/
def isOpen (p : Probe) : Bool := p.snapshot.isSome

end Probe

/-- The compare-exchange of `tryPublishIfUnchanged`. -/
def ImplOp.isPublish : ImplOp → Bool
  | .casStrong .statePacked _ _ => true
  | _ => false

namespace ProbeView

/-- The report that an operation writes to the word. -/
def stores (ℓ : ProbeView) : (o : ImplOp) → o.Resp → Option Report
  | .casWeak .statePacked _ _, .ok () => ℓ.pending
  | .casStrong .statePacked _ _, .ok () => ℓ.probe.report
  | _, _ => none

/-- The report that an operation drops. -/
def drops (ℓ : ProbeView) : (o : ImplOp) → o.Resp → Option Report
  | .casStrong .statePacked _ _, .error _ => ℓ.probe.report
  | _, _ => none

end ProbeView

/-- The report that is stored after a history. -/
def storedReport : History → Option Report
  | [] => none
  | e :: es => if isWordWrite e then (probeView e.tid es).stores e.op e.resp else storedReport es

/-- Whenever `tryPublishIfUnchanged` drops an answer of the SDK, the triple that is stored at that
moment comes from a later report. -/
def DropsStale (h : History) : Prop :=
  ∀ t e d v es, ⟨t, .casStrong .statePacked e d, .error v⟩ :: es <:+ h →
    ∃ since dropped stored, (probeView t es).probe = .answered since e dropped ∧
      storedReport es = some stored ∧ (unpackState v).triple = stored.triple ∧
        dropped.time < stored.time

/-- If the event writes the word, then every other open probe has asked the SDK before the report
that it writes was made. Threads that have done nothing have no probe. -/
def WritesNewer (es : History) (e : Event ImplSig) : Prop :=
  ∀ written ∈ (probeView e.tid es).stores e.op e.resp, ∀ u ∈ es.map Event.tid,
    ¬(u = e.tid ∧ ImplOp.isPublish e.op = true) → (probeView u es).probe.isOpen = true →
      ∃ time ∈ (probeView u es).probe.askedAt, time < written.time

instance (es : History) (e : Event ImplSig) : Decidable (WritesNewer es e) :=
  inferInstanceAs (Decidable (∀ written ∈ _, ∀ u ∈ _, ¬_ → _ → ∃ time ∈ _, _))

variable {w : BitVec 64} {t : Tid} {h es es' : History}

/-- A write stores a report, and the word that it leaves says what the report says. -/
theorem exists_stores {e : Event ImplSig} (hw : WordHistory w h) (hp : ProbeHistory h)
    (he : isWordWrite e = true) (hs : e :: es <:+ h) :
    ∃ stored, (probeView e.tid es).stores e.op e.resp = some stored ∧
      (unpackState (wordAfter w (e :: es))).triple = stored.triple := by
  obtain ⟨v, hv⟩ := Option.isSome_iff_exists.mp he
  have hword : wordAfter w (e :: es) = v := by rw [wordAfter, hv, Option.getD_some]
  have hallows := hp _ _ hs
  rw [hword]
  rcases write_cases (hw _ _ hs) hv with ⟨t, d, rfl⟩ | ⟨t, d, rfl⟩
  · obtain ⟨report, hpending, rfl⟩ := hallows
    exact ⟨report, hpending, Triple.triple_unpackState_pack _ _⟩
  · obtain ⟨since, report, hview, rfl⟩ := hallows
    refine ⟨report, ?_, Triple.triple_unpackState_pack _ _⟩
    simp only [ProbeView.stores, hview, Probe.report]

/-- As long as nobody writes, the report stays. -/
theorem storedReport_of_writes_eq (hs : es' <:+ es) (hw : writes es = writes es') :
    storedReport es = storedReport es' := by
  induction es with
  | nil => rw [List.suffix_nil.mp hs]
  | cons e es ih =>
      rcases List.suffix_cons_iff.mp hs with rfl | hs
      · rfl
      · have hle := writes_le_of_suffix hs
        rw [writes_cons] at hw
        cases he : isWordWrite e with
        | true =>
            rw [he, if_pos rfl] at hw
            omega
        | false =>
            rw [he] at hw
            rw [storedReport, he]
            exact ih hs hw

/-- A probe is still open while it is open later. -/
theorem not_own_publish {e : Event ImplSig} {since : History} {word : BitVec 64}
    (hs : (probeView t h).probe.snapshot = some (since, word)) (hes : e :: es <:+ h)
    (hlt : since.length < es.length) : ¬(t = e.tid ∧ ImplOp.isPublish e.op = true) := by
  rintro ⟨rfl, hpublish⟩
  obtain ⟨u, o, r⟩ := e
  have hopen := (snapshot_of_suffix hs hes (hlt.trans (Nat.lt_succ_self _))).1
  rw [probeView_cons_self] at hopen
  cases o with
  | casStrong a e d => cases a <;> first | cases hopen | cases hpublish
  | _ => cases hpublish

/-- Where every write is newer than the open probes, a dropped answer is older than what is
stored. -/
theorem drop_stale (hw : WordHistory w h) (hp : ProbeHistory h)
    (hnewer : Event.Each WritesNewer h) :
    DropsStale h := by
  intro t e d v es hs
  have hes : es <:+ h := (List.suffix_cons _ _).trans hs
  obtain ⟨since, dropped, hview, -⟩ := hp _ _ hs
  have hprobe : (probeView t es).probe = .answered since e dropped := by rw [hview]
  have hsnap : (probeView t es).probe.snapshot = some (since, e) := by
    rw [hprobe]
    rfl
  have hload := snapshot_loaded hsnap
  obtain ⟨hv, hne⟩ : v = wordAfter w es ∧ v ≠ e := hw _ _ hs
  -- somebody has written since the snapshot; the last write is what is stored
  have hchanged : wordAfter w (⟨t, .load .statePacked, e⟩ :: since) ≠ wordAfter w es := by
    rw [wordAfter_cons_of_not_write rfl, ← snapshot_eq_wordAfter (hw.of_suffix hes) hsnap, ← hv]
    exact hne.symm
  obtain ⟨e₁, es₁, hs₁, hload₁, he₁⟩ := exists_write_of_wordAfter_ne hload hchanged
  obtain ⟨e', es', hs', he', hle, hlast⟩ := exists_last_write he₁ hs₁
  have hlt : since.length < es'.length := lt_of_lt_of_le hload₁.length_le hle
  have hload' : ⟨t, .load .statePacked, e⟩ :: since <:+ es' :=
    List.suffix_of_suffix_length_le hload ((List.suffix_cons _ _).trans hs') hlt
  obtain ⟨stored, hstored, htriple⟩ := exists_stores hw hp he' (hs'.trans hes)
  obtain ⟨hopen, hasked⟩ := snapshot_of_suffix hsnap ((List.suffix_cons _ _).trans hs') hlt
  -- the probe was open when it was made
  obtain ⟨time, htime, hnew⟩ := hnewer _ _ (hs'.trans hes) stored hstored t
    (List.mem_map.mpr ⟨_, hload'.subset List.mem_cons_self, rfl⟩) (not_own_publish hsnap hs' hlt)
    (by rw [Probe.isOpen, hopen]; rfl)
  have htold : dropped.time = time := by
    have := hasked time htime
    rw [hprobe] at this
    exact Option.some.inj this
  refine ⟨since, dropped, stored, hprobe, ?_, ?_, htold ▸ hnew⟩
  · rw [storedReport_of_writes_eq hs' hlast, storedReport, if_pos he', hstored]
  · rw [hv, wordAfter_of_writes_eq hs' hlast, htriple]

variable {calls : Tid → Option ImplCall} {s : ImplState} {c : ImplPool}

/-- In every run whose writes are newer than the open probes, dropped answers are stale. -/
theorem dropsStale (hc : ImplPool.Reach (ImplPool.start calls s) c)
    (hnewer : Event.Each WritesNewer c.state.history) : DropsStale c.state.history :=
  drop_stale (recordsWord_of_reach hc).1 (probeHistory_of_reach hc).1 hnewer

/-- A callback reports the loss of the connection after a probe has asked the SDK, and writes before
the probe does. -/
def callbackAfterQuestion : Option ImplPool :=
  let env : Environment := {}
  ImplPool.run [.isConnected 50, .callback (.state ⟨.badConnectionClosed, .closed, .closed⟩)]
    (.construct {} "opc.tcp://plc:4840" 1)
    (env.moves 0 14 ++ env.moves 1 4 ++ env.moves 0 5)

/-- The answer that the probe drops is stale. -/
theorem dropsStale_callback :
    ∃ c : ImplPool, DropsStale c.state.history ∧ c.Returned 0 (.ok (.connected (.ok false))) := by
  have hplay : callbackAfterQuestion.any (fun d =>
      decide (Event.Each WritesNewer d.state.history) &&
        d.result? 0 == some (.ok (.connected (.ok false)))) = true := by
    decide
  obtain ⟨d, -, hd, hcheck⟩ := Config.exists_reach_of_play hplay
  simp only [Bool.and_eq_true, decide_eq_true_eq, beq_iff_eq] at hcheck
  exact ⟨d, dropsStale hd hcheck.1, Config.returned_of_result? hcheck.2⟩

/-! ### Two probes -/

/-- If the event drops an answer, then the report that is stored is newer. -/
def StaleDrop (es : History) (e : Event ImplSig) : Prop :=
  ∀ dropped ∈ (probeView e.tid es).drops e.op e.resp,
    ∃ stored ∈ storedReport es, dropped.time < stored.time

instance (es : History) (e : Event ImplSig) : Decidable (StaleDrop es e) :=
  inferInstanceAs (Decidable (∀ dropped ∈ _, ∃ stored ∈ _, _))

/-- `DropsStale`, event by event. -/
theorem DropsStale.each (hs : DropsStale h) : Event.Each StaleDrop h := by
  rintro ⟨t, o, r⟩ es hsuf dropped hdrops
  cases o with
  | casStrong a e d =>
      cases a with
      | statePacked =>
          rcases r with v | u
          · obtain ⟨since, dropped', stored, hprobe, hstored, -, hlt⟩ := hs t e d v es hsuf
            have hdropped : some dropped' = some dropped := by
              simpa only [ProbeView.drops, hprobe, Probe.report, Option.mem_def] using hdrops
            cases hdropped
            exact ⟨stored, hstored, hlt⟩
          · cases hdrops
      | _ => cases hdrops
  | _ => cases hdrops

/-- Thread 1 asks the SDK before thread 0 does, and publishes after it. -/
def probesCross : Option ImplPool :=
  let before : Environment := {}
  let after : Environment := { state := ⟨.badConnectionClosed, .closed, .closed⟩ }
  ImplPool.run [.isConnected 50, .isConnected 50] (.construct {} "opc.tcp://plc:4840" 1)
    (before.moves 1 16 ++ after.moves 0 16 ++ before.moves 1 1 ++ after.moves 0 1)

/-- The loss of the connection is dropped in favour of the state before it. -/
theorem not_dropsStale :
    ¬∀ (calls : Tid → Option ImplCall) (s : ImplState) (c : ImplPool),
      ImplPool.Reach (ImplPool.start calls s) c → DropsStale c.state.history := by
  intro hall
  have hplay :
      probesCross.any (fun d => decide (¬Event.Each StaleDrop d.state.history)) = true := by
    decide
  obtain ⟨d, -, hd, hcheck⟩ := Config.exists_reach_of_play hplay
  exact of_decide_eq_true hcheck (hall _ _ d hd).each

end OPCUAPacking
