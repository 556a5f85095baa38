import OPCUAPacking.Impl.ProbeHistory
import OPCUAPacking.Impl.Schedule

/-!
# No callback write is lost

A probe publishes with one compare-exchange against the snapshot that it read before it asked the
SDK. As long as the version does not wrap in between, it succeeds only if nobody wrote, so what a
callback wrote is replaced by a later callback, or by a probe that began after it.

* `FewWrites` — fewer than `2 ^ 16` writes fall between a snapshot and its compare-exchange.
* `CallbacksKept` — the guarantee, about a pool and its history.
* `callbacksKept` — it holds in every run.
-/

namespace OPCUAPacking

open Interleaving

/-- In a history, fewer than `2 ^ 16` writes of the state word fall between the snapshot of a probe
and its compare-exchange. -/
def FewWrites (h : History) : Prop :=
  ∀ t e d r es, ⟨t, .casStrong .statePacked e d, r⟩ :: es <:+ h →
    ∀ since word report, (probeView t es).probe = .answered since word report →
      writes es < writes since + 2 ^ 16

/-- What became of the callbacks in a run that has reached `c`. -/
structure CallbacksKept (c : ImplPool) : Prop where
  /-- A probe publishes only if nobody has written since its snapshot. -/
  publishes_unchanged : ∀ t e d es,
    ⟨t, .casStrong .statePacked e d, .ok ()⟩ :: es <:+ c.state.history →
      ∃ since report, (probeView t es).probe = .answered since e report ∧ since <:+ es ∧
        writes es = writes since ∧ d = report.triple.pack ((unpackState e).version + 1)
  /-- After the last write of a callback, the stored triple is the one that it wrote, or the answer
  to a probe whose snapshot was taken after that write. -/
  stored : ∀ t e d es, ⟨t, .casWeak .statePacked e d, .ok ()⟩ :: es <:+ c.state.history →
    (∀ t' e' d' es', ⟨t', .casWeak .statePacked e' d', .ok ()⟩ :: es' <:+ c.state.history →
      es'.length ≤ es.length) →
    (∃ report, (probeView t es).pending = some report ∧
      (unpackState c.state.world.statePacked).triple = report.triple) ∨
    ∃ t' e' d' es' since report,
      ⟨t', .casStrong .statePacked e' d', .ok ()⟩ :: es' <:+ c.state.history ∧
        (probeView t' es').probe = .answered since e' report ∧
        ⟨t, .casWeak .statePacked e d, .ok ()⟩ :: es <:+ since ∧
        (unpackState c.state.world.statePacked).triple = report.triple
  /-- A callback is still being delivered, or has written what it reported. -/
  delivered : ∀ t f es, ⟨t, .callback (.state f), ()⟩ :: es <:+ c.state.history →
    (probeView t c.state.history).pending = some ⟨es.length, f⟩ ∨
      ∃ e es', ⟨t, .casWeak .statePacked e (f.pack ((unpackState e).version + 1)), .ok ()⟩ ::
        es' <:+ c.state.history ∧ es.length < es'.length
  /-- A thread that has returned is delivering nothing. -/
  settled : ∀ t a, c.Returned t a → (probeView t c.state.history).pending = none

variable {w : BitVec 64} {t : Tid} {h es : History}

/-- A probe that publishes found the word of its snapshot, so nobody has written since. -/
theorem publish_unchanged (hw : WordHistory w h) (hp : ProbeHistory h) (hfew : FewWrites h)
    {e d : BitVec 64} (hs : ⟨t, .casStrong .statePacked e d, .ok ()⟩ :: es <:+ h) :
    ∃ since report, (probeView t es).probe = .answered since e report ∧ since <:+ es ∧
      writes es = writes since ∧ d = report.triple.pack ((unpackState e).version + 1) := by
  obtain ⟨since, report, hview, hd⟩ := hp _ _ hs
  have hprobe : (probeView t es).probe = .answered since e report := by rw [hview]
  have hwes : WordHistory w es := hw.of_suffix ((List.suffix_cons _ _).trans hs)
  have hsnap : (probeView t es).probe.snapshot = some (since, e) := by
    rw [hprobe]
    rfl
  have hsuf : since <:+ es := (List.suffix_cons _ _).trans (snapshot_loaded hsnap)
  have hword := snapshot_eq_wordAfter hwes hsnap
  obtain ⟨hnow, -⟩ : e = wordAfter w es ∧ _ := hw _ _ hs
  refine ⟨since, report, hprobe, hsuf, ?_, hd⟩
  exact writes_eq_of_wordAfter_eq hwes hsuf (hword.symm.trans hnow)
    (hfew t e d _ es hs since e report hprobe)

/-- Where the stored triple comes from. -/
theorem stored_of_last (hw : WordHistory w h) (hp : ProbeHistory h) (hfew : FewWrites h)
    {e d : BitVec 64} (hs : ⟨t, .casWeak .statePacked e d, .ok ()⟩ :: es <:+ h)
    (hlast : ∀ t' e' d' es', ⟨t', .casWeak .statePacked e' d', .ok ()⟩ :: es' <:+ h →
      es'.length ≤ es.length) :
    (∃ report, (probeView t es).pending = some report ∧
      (unpackState (wordAfter w h)).triple = report.triple) ∨
    ∃ t' e' d' es' since report, ⟨t', .casStrong .statePacked e' d', .ok ()⟩ :: es' <:+ h ∧
      (probeView t' es').probe = .answered since e' report ∧
      ⟨t, .casWeak .statePacked e d, .ok ()⟩ :: es <:+ since ∧
      (unpackState (wordAfter w h)).triple = report.triple := by
  obtain ⟨e', es', hs', he', hle, hlast'⟩ := exists_last_write rfl hs
  rcases write_cases (hw _ _ hs') (writtenWord_of_last (w := w) he' hs' hlast') with
    ⟨t', e', rfl⟩ | ⟨t', e', rfl⟩
  · -- the callback itself
    have hlen : es.length = es'.length := hle.antisymm (hlast _ _ _ _ hs')
    obtain ⟨heq, rfl⟩ := Event.unique hs hs' hlen
    cases heq
    obtain ⟨report, hpending, hd⟩ := hp _ _ hs
    exact .inl ⟨report, hpending, by rw [hd, Triple.triple_unpackState_pack]⟩
  · -- a probe that saw the write of the callback
    obtain ⟨since, report, hprobe, hsuf, hwrites, hd⟩ := publish_unchanged hw hp hfew hs'
    refine .inr ⟨t', e', _, es', since, report, hs', hprobe, ?_, by
      rw [hd, Triple.triple_unpackState_pack]⟩
    have hlt : es.length < es'.length := by
      refine hle.lt_of_ne fun hlen => ?_
      cases (Event.unique hs hs' hlen).1
    have hbefore : ⟨t, .casWeak .statePacked e d, .ok ()⟩ :: es <:+ es' :=
      List.suffix_of_suffix_length_le hs ((List.suffix_cons _ _).trans hs') hlt
    by_contra hnot
    -- were the snapshot older than the write of the callback, a write would lie in between
    have hshort : since.length ≤ es.length := by
      by_contra hlong
      exact hnot (List.suffix_of_suffix_length_le hbefore hsuf (Nat.not_le.mp hlong))
    have hold : since <:+ es :=
      List.suffix_of_suffix_length_le hsuf ((List.suffix_cons _ _).trans hbefore) hshort
    have hone : writes es + 1 ≤ writes es' := by
      refine le_trans (le_of_eq ?_) (writes_le_of_suffix hbefore)
      rw [writes_cons]
      rfl
    have := writes_le_of_suffix hold
    omega

/-- A thread that delivers a callback goes on delivering it until it writes what was reported. -/
theorem pending_step {ℓ : ProbeView} {o : ImplOp} {r : o.Resp} {report : Report}
    (hallows : ℓ.Allows o r) (hp : ℓ.pending = some report) :
    (ℓ.track es o r).pending = some report ∨ ∃ e, (⟨t, o, r⟩ : Event ImplSig) =
      ⟨t, .casWeak .statePacked e (report.triple.pack ((unpackState e).version + 1)), .ok ()⟩ := by
  by_cases hprobing : o.Probing
  · cases o with
    | load a =>
        cases a with
        | statePacked =>
            refine .inl ?_
            simp only [ProbeView.track, hp, Option.isNone_some, Bool.false_eq_true, if_false]
        | _ => exact hprobing.elim
    | sdkCall client c => cases c <;> exact .inl hp
    | sdkReturn client c =>
        cases c with
        | getState => rcases r with e | f <;> exact .inl hp
        | _ => exact hprobing.elim
    | callback cb =>
        cases cb with
        | state f =>
            have hnone : ℓ.pending = none := hallows
            -- a callback does not fire inside another
            cases hnone.symm.trans hp
        | inactivity => exact .inl hp
    | casStrong a e d => cases a <;> exact .inl hp
    | casWeak a e d =>
        cases a with
        | statePacked =>
            rcases r with observed | u
            · exact .inl hp
            · obtain ⟨report', hp', rfl⟩ := hallows
              cases hp.symm.trans hp'
              exact .inr ⟨e, rfl⟩
        | _ => exact hprobing.elim
    | _ => exact hprobing.elim
  · rw [(ImplOp.track_of_not_probing hprobing es ℓ r).2]
    exact .inl hp

/-- A callback is still being delivered, or has written what it reported. -/
theorem callback_delivered (hp : ProbeHistory h) {f : Triple}
    (hs : ⟨t, .callback (.state f), ()⟩ :: es <:+ h) :
    (probeView t h).pending = some ⟨es.length, f⟩ ∨
      ∃ e es', ⟨t, .casWeak .statePacked e (f.pack ((unpackState e).version + 1)), .ok ()⟩ ::
        es' <:+ h ∧ es.length < es'.length := by
  induction h with
  | nil => cases List.suffix_nil.mp hs
  | cons x h ih =>
      rcases List.suffix_cons_iff.mp hs with heq | hs
      · cases heq
        rw [probeView_cons_self]
        exact .inl rfl
      · obtain ⟨hallows, hph⟩ := Event.each_cons.mp hp
        have hlen : es.length < h.length := hs.length_le
        rcases ih hph hs with hpending | ⟨e, es', hs', hlt⟩
        · obtain ⟨u, o, r⟩ := x
          by_cases hu : u = t
          · subst hu
            rw [probeView_cons_self]
            rcases pending_step (t := u) hallows hpending with hkeep | ⟨e, heq⟩
            · exact .inl hkeep
            · exact .inr ⟨e, h, by rw [heq], hlen⟩
          · rw [probeView_cons_ne hu]
            exact .inl hpending
        · exact .inr ⟨e, es', hs'.trans (List.suffix_cons x h), hlt⟩

variable {calls : Tid → Option ImplCall} {s : ImplState} {c : ImplPool}

/-- No callback write is lost, in every run in which the version does not wrap around between a
snapshot and its compare-exchange. -/
theorem callbacksKept (hc : ImplPool.Reach (ImplPool.start calls s) c)
    (hfew : FewWrites c.state.history) : CallbacksKept c := by
  obtain ⟨hw, hword⟩ := recordsWord_of_reach hc
  obtain ⟨hp, hsettled⟩ := probeHistory_of_reach hc
  refine ⟨fun t e d es hs => publish_unchanged hw hp hfew hs, fun t e d es hs hlast => ?_,
    fun t f es hs => callback_delivered hp hs, hsettled⟩
  rw [hword]
  exact stored_of_last hw hp hfew hs hlast

/-- In a short history the version has not wrapped around. -/
theorem fewWrites_of_length_lt (hlen : h.length < 2 ^ 16) : FewWrites h := by
  intro t e d r es hs since word report _
  have hes : writes es ≤ es.length := List.countP_le_length
  have hle : es.length ≤ h.length := ((List.suffix_cons _ _).trans hs).length_le
  omega

/-- A callback reports the loss of the connection while a probe asks the SDK, and another probe
follows. -/
def callbackDuringProbe : Option ImplPool :=
  let env : Environment := {}
  ImplPool.run [.isConnected 50, .callback (.state ⟨.badConnectionClosed, .closed, .closed⟩),
      .isConnected 50]
    (.construct {} "opc.tcp://plc:4840" 1)
    (env.moves 0 14 ++ env.moves 1 4 ++ env.moves 0 5 ++ env.moves 2 12)

/-- The answer of the first probe is dropped; the word is the one that the callback wrote. -/
theorem callbacksKept_during_probe :
    ∃ c : ImplPool, CallbacksKept c ∧ c.Returned 0 (.ok (.connected (.ok false))) ∧
      (unpackState c.state.world.statePacked).triple =
        ⟨.badConnectionClosed, .closed, .closed⟩ := by
  have hplay : callbackDuringProbe.any (fun d => decide (d.state.history.length < 2 ^ 16) &&
      (d.result? 0 == some (.ok (.connected (.ok false))) &&
        (unpackState d.state.world.statePacked).triple ==
          ⟨.badConnectionClosed, .closed, .closed⟩)) = true := by
    decide
  obtain ⟨d, -, hd, hcheck⟩ := Config.exists_reach_of_play hplay
  simp only [Bool.and_eq_true, decide_eq_true_eq, beq_iff_eq] at hcheck
  exact ⟨d, callbacksKept hd (fewWrites_of_length_lt hcheck.1),
    Config.returned_of_result? hcheck.2.1, hcheck.2.2⟩

end OPCUAPacking
