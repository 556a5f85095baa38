import OPCUAPacking.Impl.Calls

/-!
# The history of the state word

What the history of a run says about `state_packed`.

* `wordAfter` — the word that a history leaves; `writes` — how often it was written.
* `WordHistory` — every operation on the word observed what the operations before it left.
* `WordHistory.version_wordAfter` — the version counts the writes modulo `2 ^ 16`. So as long as
  fewer than `2 ^ 16` writes fall in between, finding the word that one has read before means that
  nobody wrote: `writes_eq_of_wordAfter_eq`.
* `recordsWord_of_reach` — the history of every run is one, and the word is what it leaves.
-/

namespace OPCUAPacking

open Interleaving

/-- The word that an operation wrote. -/
def writtenWord : (o : ImplOp) → o.Resp → Option (BitVec 64)
  | .store .statePacked v, _ => some v
  | .casWeak .statePacked _ d, .ok () => some d
  | .casStrong .statePacked _ d, .ok () => some d
  | _, _ => none

/-- The event wrote the state word. -/
def isWordWrite (e : Event ImplSig) : Bool := (writtenWord e.op e.resp).isSome

/-- How often the state word was written. -/
def writes (es : History) : Nat := es.countP isWordWrite

/-- The state word after a history that started with the word `w`. -/
def wordAfter (w : BitVec 64) : History → BitVec 64
  | [] => w
  | e :: es => (writtenWord e.op e.resp).getD (wordAfter w es)

/-- What an operation on the state word observed and wrote, when the word was `w`. -/
def ObservesWord (w : BitVec 64) : (o : ImplOp) → o.Resp → Prop
  | .load .statePacked, v => v = w
  | .store .statePacked _, _ => False
  | .casWeak .statePacked e d, .ok () | .casStrong .statePacked e d, .ok () =>
      e = w ∧ ∃ f : Triple, d = f.pack ((unpackState w).version + 1)
  | .casWeak .statePacked _ _, .error v => v = w
  | .casStrong .statePacked e _, .error v => v = w ∧ v ≠ e
  | _, _ => True

/-- Every operation of a history that started with the word `w` observed the word that the history
before it left. -/
def WordHistory (w : BitVec 64) : History → Prop :=
  Event.Each fun es e => ObservesWord (wordAfter w es) e.op e.resp

variable {w : BitVec 64} {es es' h : History}

/-- The writes of a history are no fewer than those of an earlier moment. -/
theorem writes_le_of_suffix (hs : es' <:+ es) : writes es' ≤ writes es :=
  hs.sublist.countP_le

/-- An event counts as a write if it is one. -/
theorem writes_cons (e : Event ImplSig) (es : History) :
    writes (e :: es) = writes es + if isWordWrite e then 1 else 0 := List.countP_cons

/-- Without a write the word stays. -/
theorem wordAfter_cons_of_not_write {e : Event ImplSig} (he : isWordWrite e = false) :
    wordAfter w (e :: es) = wordAfter w es := by
  rw [isWordWrite, Option.isSome_eq_false_iff, Option.isNone_iff_eq_none] at he
  rw [wordAfter, he, Option.getD_none]

/-- What wrote the word is a callback or a probe. -/
theorem write_cases {e : Event ImplSig} {v : BitVec 64}
    (hobs : ObservesWord w e.op e.resp) (hv : writtenWord e.op e.resp = some v) :
    (∃ t d, e = ⟨t, .casWeak .statePacked d v, .ok ()⟩) ∨
      ∃ t d, e = ⟨t, .casStrong .statePacked d v, .ok ()⟩ := by
  obtain ⟨t, o, r⟩ := e
  cases o with
  | store a v' => cases a <;> first | exact hobs.elim | cases hv
  | casWeak a e d =>
      cases a with
      | statePacked =>
          rcases r with observed | u
          · cases hv
          · cases hv
            exact .inl ⟨t, e, rfl⟩
      | _ => cases hv
  | casStrong a e d =>
      cases a with
      | statePacked =>
          rcases r with observed | u
          · cases hv
          · cases hv
            exact .inr ⟨t, e, rfl⟩
      | _ => cases hv
  | _ => cases hv

/-- A write in a history of observing operations counts the version up. -/
theorem version_of_write {o : ImplOp} {r : o.Resp} {v : BitVec 64}
    (hobs : ObservesWord w o r) (hv : writtenWord o r = some v) :
    (unpackState v).version = (unpackState w).version + 1 := by
  cases o with
  | casWeak a e d | casStrong a e d =>
      cases a with
      | statePacked =>
          rcases r with observed | u
          · cases hv
          · obtain ⟨-, f, rfl⟩ := hobs
            cases hv
            exact Triple.version_unpackState_pack f _
      | _ => cases hv
  | store a v' =>
      cases a with
      | statePacked => exact hobs.elim
      | _ => cases hv
  | _ => cases hv

namespace WordHistory

/-- The version counts the writes, modulo `2 ^ 16`. -/
theorem version_wordAfter (h : WordHistory w es) :
    (unpackState (wordAfter w es)).version =
      (unpackState w).version + BitVec.ofNat 16 (writes es) := by
  induction es with
  | nil => simp [wordAfter, writes]
  | cons e es ih =>
      obtain ⟨hobs, hes⟩ := Event.each_cons.mp h
      rw [writes_cons]
      cases hw : writtenWord e.op e.resp with
      | none =>
          have hnot : isWordWrite e = false := by simp [isWordWrite, hw]
          rw [wordAfter_cons_of_not_write hnot, hnot, ih hes]
          simp
      | some v =>
          have hwrite : isWordWrite e = true := by simp [isWordWrite, hw]
          rw [wordAfter, hw, Option.getD_some, version_of_write hobs hw, ih hes, hwrite, if_pos rfl,
            BitVec.ofNat_add, BitVec.add_assoc]
          rfl

end WordHistory

/-- No ABA: if the word is the one it was, and fewer than `2 ^ 16` writes fall in between, there
was none. -/
theorem writes_eq_of_wordAfter_eq (h : WordHistory w es) (hs : es' <:+ es)
    (hw : wordAfter w es' = wordAfter w es) (hfew : writes es < writes es' + 2 ^ 16) :
    writes es = writes es' := by
  have hversion := h.version_wordAfter
  rw [← hw, WordHistory.version_wordAfter (h.of_suffix hs)] at hversion
  have hmod : BitVec.ofNat 16 (writes es') = BitVec.ofNat 16 (writes es) :=
    (BitVec.add_right_inj _).mp hversion
  have hnat : writes es' % 2 ^ 16 = writes es % 2 ^ 16 := by
    simpa using congrArg BitVec.toNat hmod
  have hle := writes_le_of_suffix hs
  omega

/-- A word that is no longer the one it was has been written in between. -/
theorem exists_write_of_wordAfter_ne (hs : es' <:+ es) (hw : wordAfter w es' ≠ wordAfter w es) :
    ∃ e es₁, e :: es₁ <:+ es ∧ es' <:+ es₁ ∧ isWordWrite e = true := by
  induction es with
  | nil => exact absurd (by rw [List.suffix_nil.mp hs]) hw
  | cons e es ih =>
      rcases List.suffix_cons_iff.mp hs with rfl | hs
      · exact absurd rfl hw
      · cases he : isWordWrite e with
        | true => exact ⟨e, es, List.suffix_refl _, hs, he⟩
        | false =>
            rw [wordAfter_cons_of_not_write he] at hw
            obtain ⟨e', es₁, hsuf, hs', he'⟩ := ih hs hw
            exact ⟨e', es₁, hsuf.trans (List.suffix_cons e es), hs', he'⟩

/-- As long as nobody writes, the word stays. -/
theorem wordAfter_of_writes_eq (hs : es' <:+ es) (hw : writes es = writes es') :
    wordAfter w es = wordAfter w es' := by
  induction es with
  | nil => rw [List.suffix_nil.mp hs]
  | cons e es ih =>
      rcases List.suffix_cons_iff.mp hs with rfl | hs
      · rfl
      · have hle := writes_le_of_suffix hs
        rw [writes_cons] at hw
        cases he : isWordWrite e with
        | true =>
            rw [he, if_pos rfl] at hw
            omega
        | false =>
            rw [he] at hw
            rw [wordAfter_cons_of_not_write he]
            exact ih hs hw

/-- A history with a write has a last one. -/
theorem exists_last_write {e : Event ImplSig} (he : isWordWrite e = true) (hs : e :: es <:+ h) :
    ∃ e' es', e' :: es' <:+ h ∧ isWordWrite e' = true ∧ es.length ≤ es'.length ∧
      writes h = writes (e' :: es') := by
  induction h with
  | nil => cases List.suffix_nil.mp hs
  | cons x h ih =>
      cases hx : isWordWrite x with
      | true => exact ⟨x, h, List.suffix_refl _, hx, Nat.le_of_succ_le_succ hs.length_le, rfl⟩
      | false =>
          rcases List.suffix_cons_iff.mp hs with heq | hs
          · cases heq
            rw [he] at hx
            cases hx
          · obtain ⟨e', es', hsuf, he', hle, hw⟩ := ih hs
            refine ⟨e', es', hsuf.trans (List.suffix_cons x h), he', hle, ?_⟩
            rw [writes_cons x, hx, ← hw]
            rfl

/-- The word is the one that the last write left. -/
theorem writtenWord_of_last {e : Event ImplSig} (he : isWordWrite e = true) (hs : e :: es <:+ h)
    (hw : writes h = writes (e :: es)) : writtenWord e.op e.resp = some (wordAfter w h) := by
  obtain ⟨v, hv⟩ := Option.isSome_iff_exists.mp he
  rw [wordAfter_of_writes_eq hs hw, wordAfter, hv, Option.getD_some]

/-! ### Runs -/

/-- An operation that does not write the state word observes nothing that matters. -/
theorem observesWord_of_not_writes {o : ImplOp} {r : o.Resp} (hw : ¬o.Writes .statePacked)
    (hload : o ≠ .load .statePacked) : ObservesWord w o r ∧ writtenWord o r = none := by
  cases o with
  | load a => cases a <;> first | exact absurd rfl hload | exact ⟨trivial, rfl⟩
  | store a v | casWeak a e d | casStrong a e d =>
      cases a <;> first | exact absurd rfl hw | exact ⟨trivial, rfl⟩
  | _ => exact ⟨trivial, rfl⟩

/-- The operations of the calls observe the word that is there. -/
theorem observesWord_of_exec {t : Tid} {o : ImplOp} {r : o.Resp} {s s' : ImplState}
    (ho : Impl.Footprint o) (h : ImplState.exec t o r s = some s') :
    ObservesWord s.statePacked o r ∧ s'.statePacked = (writtenWord o r).getD s.statePacked := by
  by_cases hw : o.Writes .statePacked
  · cases o with
    | store a v =>
        obtain rfl : a = .statePacked := hw
        -- the word is written by compare-exchange only
        rcases ho with (ho | ho | ho | ho) | ho <;> exact ho.elim
    | casWeak a e d =>
        obtain rfl : a = .statePacked := hw
        obtain ⟨f, rfl⟩ : ∃ f : Triple, d = f.pack ((unpackState e).version + 1) := by
          rcases ho with (ho | ho | ho | ho) | ho <;> first | exact ho | exact ho.elim
        rcases ImplState.cas_eq_some.mp h with ⟨rfl, rfl, rfl⟩ | ⟨rfl, -, rfl⟩
        · exact ⟨⟨rfl, f, rfl⟩, rfl⟩
        · exact ⟨rfl, rfl⟩
    | casStrong a e d =>
        obtain rfl : a = .statePacked := hw
        obtain ⟨f, rfl⟩ : ∃ f : Triple, d = f.pack ((unpackState e).version + 1) := by
          rcases ho with (ho | ho | ho | ho) | ho <;> first | exact ho | exact ho.elim
        rcases ImplState.cas_eq_some.mp h with ⟨rfl, rfl, rfl⟩ | ⟨rfl, hne, rfl⟩
        · exact ⟨⟨rfl, f, rfl⟩, rfl⟩
        · exact ⟨⟨rfl, hne.resolve_left nofun⟩, rfl⟩
    | _ => exact hw.elim
  · have hkeep : s'.statePacked = s.statePacked := ImplState.get_of_not_writes h hw
    by_cases hload : o = .load .statePacked
    · subst hload
      obtain ⟨hv, rfl⟩ := ImplState.whenever_eq_some.mp h
      exact ⟨hv.symm, rfl⟩
    · obtain ⟨hobs, hnone⟩ := observesWord_of_not_writes (w := s.statePacked) (r := r) hw hload
      rw [hkeep, hnone]
      exact ⟨hobs, rfl⟩

/-- What a run from `w` records of the word is true. -/
def RecordsWord (w : BitVec 64) (s : Traced ImplSig ImplState) : Prop :=
  WordHistory w s.history ∧ s.world.statePacked = wordAfter w s.history

/-- At the start there is nothing to record. -/
theorem recordsWord_start (s : ImplState) : RecordsWord s.statePacked (Traced.start s) :=
  ⟨Event.each_nil, rfl⟩

/-- Every step keeps it. -/
theorem recordsWord_step {ok : Traced ImplSig ImplState → Event ImplSig → Prop} {t : Tid}
    {o : ImplOp} {r : o.Resp} {s s' : Traced ImplSig ImplState} (ho : Impl.Footprint o)
    (hs : RecordsWord w s) (h : Traced.StepIf ok ImplState.exec t o r s s') :
    RecordsWord w s' := by
  obtain ⟨hhist, hword⟩ := hs
  obtain ⟨hobs, hnext⟩ := observesWord_of_exec ho h.exec_eq
  rw [hword] at hobs hnext
  rw [RecordsWord, h.history_eq]
  exact ⟨Event.each_cons.mpr ⟨hobs, hhist⟩, hnext⟩

variable {ok : Traced ImplSig ImplState → Event ImplSig → Prop} {calls : Tid → Option ImplCall}
  {s : ImplState} {c : ImplPool}

/-- In every run, the operations on the state word observe what the operations before them left. -/
theorem recordsWord_of_reach
    (hc : Config.Reach (Traced.StepIf ok ImplState.exec) (ImplPool.start calls s) c) :
    RecordsWord s.statePacked c.state :=
  (hc.uses (P := RecordsWord s.statePacked) (fun ho hs h => recordsWord_step ho hs h)
    (Impl.uses_start calls s) (recordsWord_start s)).1

end OPCUAPacking
