import OPCUAPacking.Impl.ProbeHistory
import OPCUAPacking.Interleaving.Execution

/-!
# The encoding that the code computes

In the code the channel and the session are enumerations of 32 bits. The encoder shifts them into
the word as they are, and only the decoder masks them; for values below 256 the two agree with
`packState` and `unpackState`, which have the bytes only.

* `packWide`, `unpackWide` — the encoder and the decoder on 32-bit enumerations.
* `Impl.updatePackedWith` — `updatePacked` with any mutation, of which `Impl.updatePacked` is the
  one of the callback; `Impl.tryPublishWide` — `tryPublishIfUnchanged` with any triple.
* `Updates`, `Publishes` — what a thread at the beginning of a writer does to the word in any run.
* `stateWord_faithful` — the round trips, and what the writers and the calls store.
-/

namespace OPCUAPacking

open Interleaving

/-- The triple with 32-bit enumerations. -/
structure WideTriple where
  status : UA_StatusCode
  channel : BitVec 32
  session : BitVec 32
  deriving DecidableEq, Repr

namespace WideTriple

/-- The enumerators fit a byte. -/
def InRange (f : WideTriple) : Prop := f.channel.toNat < 256 ∧ f.session.toNat < 256

/-- The bytes of the enumerations. -/
def narrow (f : WideTriple) : Triple := ⟨f.status, f.channel.truncate 8, f.session.truncate 8⟩

end WideTriple

/-- A triple as the code has it. -/
def Triple.widen (f : Triple) : WideTriple :=
  ⟨f.status, f.channel.zeroExtend 32, f.session.zeroExtend 32⟩

/-- The fields of the word with 32-bit enumerations. -/
structure WideFields where
  triple : WideTriple
  version : BitVec 16
  deriving DecidableEq, Repr

/-- `packState`. -/
def packWide (f : WideTriple) (version : BitVec 16) : BitVec 64 :=
  (version.zeroExtend 64 <<< 48) ||| (f.status.zeroExtend 64 <<< 16) |||
    (f.channel.zeroExtend 64 <<< 8) ||| (f.session.zeroExtend 64 <<< 0)

/-- `unpackState`. -/
def unpackWide (v : BitVec 64) : WideFields where
  triple :=
    { status := ((v >>> 16) &&& 0xFFFFFFFF).truncate 32
      channel := ((v >>> 8) &&& 0xFF).truncate 32
      session := ((v >>> 0) &&& 0xFF).truncate 32 }
  version := ((v &&& (0xFFFF <<< 48)) >>> 48).truncate 16

/-! ### Agreement with the bytes -/

/-- A byte of 32 bits is its low byte. -/
theorem zeroExtend_truncate {x : BitVec 32} (h : x.toNat < 256) :
    ((x.truncate 8 : BitVec 8).zeroExtend 32 : BitVec 32) = x := by
  apply BitVec.eq_of_toNat_eq
  rw [BitVec.zeroExtend, BitVec.truncate, BitVec.toNat_setWidth, BitVec.toNat_setWidth]
  omega

/-- What is masked to a byte is a byte. -/
theorem truncate_mask (v : BitVec 64) :
    (v &&& 0xFF).truncate 32 = ((v &&& 0xFF).truncate 8 : BitVec 8).zeroExtend 32 := by
  have hmask : (v &&& 0xFF).toNat = v.toNat % 2 ^ 8 := by
    rw [BitVec.toNat_and]
    exact Nat.and_two_pow_sub_one_eq_mod v.toNat 8
  apply BitVec.eq_of_toNat_eq
  simp only [BitVec.truncate, BitVec.zeroExtend, BitVec.toNat_setWidth, hmask]
  omega

/-- A triple of bytes is in range. -/
theorem Triple.inRange_widen (f : Triple) : f.widen.InRange := by
  constructor
  · simp [Triple.widen]
    omega
  · simp [Triple.widen]
    omega

theorem widen_narrow {f : WideTriple} (h : f.InRange) : f.narrow.widen = f := by
  obtain ⟨status, channel, session⟩ := f
  simp only [WideTriple.narrow, Triple.widen, zeroExtend_truncate h.1, zeroExtend_truncate h.2]

/-- The encoder on bytes. -/
theorem packWide_widen (f : Triple) (version : BitVec 16) :
    packWide f.widen version = f.pack version := by
  unfold packWide Triple.widen Triple.pack packState
  simp

/-- The decoder yields bytes. -/
theorem unpackWide_eq (v : BitVec 64) :
    unpackWide v = ⟨(unpackState v).triple.widen, (unpackState v).version⟩ := by
  unfold unpackWide unpackState StateFields.triple Triple.widen
  simp only [truncate_mask]

/-- What is packed is unpacked again, if the enumerators fit. -/
theorem unpackWide_packWide {f : WideTriple} (h : f.InRange) (version : BitVec 16) :
    unpackWide (packWide f version) = ⟨f, version⟩ := by
  rw [← widen_narrow h, packWide_widen, unpackWide_eq, Triple.triple_unpackState_pack,
    Triple.version_unpackState_pack]

/-- Every word is the packing of its fields. -/
theorem packWide_unpackWide (v : BitVec 64) :
    packWide (unpackWide v).triple (unpackWide v).version = v := by
  rw [unpackWide_eq, packWide_widen]
  exact packState_unpackState v

namespace Impl

/-! ### The writers -/

/-- `updatePacked`, with the mutation of the triple that the caller passes. -/
def updatePackedWith (mutate : WideTriple → WideTriple) : Impl Unit := do
  let old ← load .statePacked
  Proc.loop old fun old => do
    let f := unpackWide old
    let r ← casWeak .statePacked old (packWide (mutate f.triple) (f.version + 1))
    match r with
    | .ok () => pure (.inr ())
    | .error observed => pure (.inl observed)

/-- `tryPublishIfUnchanged`. -/
def tryPublishWide (expected : BitVec 64) (f : WideTriple) : Impl Bool := do
  let r ← casStrong .statePacked expected (packWide f ((unpackWide expected).version + 1))
  match r with
  | .ok () => pure true
  | .error _ => pure false

/-- The callback replaces the triple by the one that it reports. -/
theorem updatePacked_eq (f : Triple) : updatePacked f = updatePackedWith fun _ => f.widen := by
  simp only [updatePackedWith, unpackWide_eq, packWide_widen]
  rfl

/-- The probe publishes the triple that the SDK answered. -/
theorem tryPublishIfUnchanged_eq (expected : BitVec 64) (f : Triple) :
    tryPublishIfUnchanged expected f = tryPublishWide expected f.widen := by
  simp only [tryPublishWide, unpackWide_eq, packWide_widen]
  rfl

end Impl

/-! ### What they store -/

/-- The word `w'` stores the mutation of the triple of `w`, and the next version. -/
def StoresNext (mutate : WideTriple → WideTriple) (w w' : BitVec 64) : Prop :=
  unpackWide w' = ⟨mutate (unpackWide w).triple, (unpackWide w).version + 1⟩

/-- What the decoder yields is in range. -/
theorem inRange_unpackWide (w : BitVec 64) : (unpackWide w).triple.InRange := by
  rw [unpackWide_eq]
  exact Triple.inRange_widen _

/-- The next word stores the mutation. -/
theorem storesNext_packWide {mutate : WideTriple → WideTriple}
    (hmutate : ∀ f, f.InRange → (mutate f).InRange) (w : BitVec 64) :
    StoresNext mutate w
      (packWide (mutate (unpackWide w).triple) ((unpackWide w).version + 1)) :=
  unpackWide_packWide (hmutate _ (inRange_unpackWide w)) _

/-- So does the packing of a triple of bytes. -/
theorem storesNext_pack (f : Triple) (w : BitVec 64) :
    StoresNext (fun _ => f.widen) w (f.pack ((unpackState w).version + 1)) := by
  have hstores := storesNext_packWide (fun _ _ => f.inRange_widen) w
  rwa [packWide_widen, unpackWide_eq w] at hstores

/-! ### The exchanges of a thread -/

/-- A compare-exchange of the word: what it found there and what it left. -/
structure WordExchange where
  found : BitVec 64
  left : BitVec 64
  deriving DecidableEq, Repr

/-- The exchange that an operation is; one that fails leaves what it found. -/
def wordExchange : (o : ImplOp) → o.Resp → Option WordExchange
  | .casWeak .statePacked e d, .ok () | .casStrong .statePacked e d, .ok () => some ⟨e, d⟩
  | .casWeak .statePacked _ _, .error v | .casStrong .statePacked _ _, .error v => some ⟨v, v⟩
  | _, _ => none

/-- How an operation adds to the exchanges of its thread. -/
def WordExchange.track (_ : History) (ℓ : List WordExchange) (o : ImplOp) (r : o.Resp) :
    List WordExchange :=
  (wordExchange o r).toList ++ ℓ

/-- The exchanges of thread `t`, newest first. -/
def wordExchanges (t : Tid) (es : History) : List WordExchange :=
  Event.stage WordExchange.track [] t es

/-- The protocol that counts the exchanges of a thread. -/
abbrev wordExchangeProtocol : Protocol ImplSig (Traced ImplSig ImplState) (List WordExchange) :=
  Protocol.own ImplState.exec WordExchange.track fun _ => []

/-- The operations of the two writers with a mutation. -/
def ImplOp.Mutates (mutate : WideTriple → WideTriple) : ImplOp → Prop
  | .load _ => True
  | .casWeak .statePacked e d | .casStrong .statePacked e d =>
      d = packWide (mutate (unpackWide e).triple) ((unpackWide e).version + 1)
  | _ => False

/-- What an operation of a writer does to the word: nothing, or an exchange that leaves it or stores
the mutation of its triple. -/
def ExchangesWord (mutate : WideTriple → WideTriple) (o : ImplOp) (r : o.Resp) (w w' : BitVec 64) :
    Prop :=
  (wordExchange o r = none ∧ w' = w) ∨
    (wordExchange o r = some ⟨w, w'⟩ ∧ (w' = w ∨ StoresNext mutate w w'))

/-- They do no more than that. -/
theorem ImplOp.Mutates.exec {mutate : WideTriple → WideTriple}
    (hmutate : ∀ f, f.InRange → (mutate f).InRange) {t : Tid} {o : ImplOp} {r : o.Resp}
    {s s' : ImplState} (ho : o.Mutates mutate) (h : ImplState.exec t o r s = some s') :
    ExchangesWord mutate o r s.statePacked s'.statePacked := by
  cases o with
  | load a =>
      obtain ⟨-, rfl⟩ := ImplState.whenever_eq_some.mp h
      exact .inl ⟨rfl, rfl⟩
  | casWeak a e d | casStrong a e d =>
      cases a with
      | statePacked =>
          obtain rfl : d = packWide (mutate (unpackWide e).triple) ((unpackWide e).version + 1) :=
            ho
          rcases ImplState.cas_eq_some.mp h with ⟨rfl, rfl, rfl⟩ | ⟨rfl, -, rfl⟩
          · exact .inr ⟨rfl, .inr (storesNext_packWide hmutate s.statePacked)⟩
          · exact .inr ⟨rfl, .inl rfl⟩
      | _ => exact ho.elim
  | _ => exact ho.elim

namespace Impl

variable {t : Tid}

/-- `updatePacked` uses these operations. -/
theorem uses_updatePackedWith (mutate : WideTriple → WideTriple) :
    Uses (ImplOp.Mutates mutate) _ (updatePackedWith mutate) := by
  have hK := @Proc.closed_uses ImplSig Exn (ImplOp.Mutates mutate)
  refine hK.bind (uses_perform (o := .load .statePacked) trivial) fun old => hK.loop fun old => ?_
  refine hK.bind (uses_perform (o := .casWeak .statePacked _ _) rfl) fun r => ?_
  cases r <;> exact hK.pure _

/-- So does `tryPublishIfUnchanged`; its mutation forgets the old triple. -/
theorem uses_tryPublishWide (expected : BitVec 64) (f : WideTriple) :
    Uses (ImplOp.Mutates fun _ => f) _ (tryPublishWide expected f) := by
  have hK := @Proc.closed_uses ImplSig Exn (ImplOp.Mutates fun _ => f)
  refine hK.bind (uses_perform (o := .casStrong .statePacked _ _) rfl) fun r => ?_
  cases r <;> exact hK.pure _

/-- `updatePacked` goes on until one of its exchanges stores the mutation. -/
theorem exchanges_updatePackedWith {mutate : WideTriple → WideTriple}
    (hmutate : ∀ f, f.InRange → (mutate f).InRange) (ℓ : List WordExchange) :
    wordExchangeProtocol.Follows t (updatePackedWith mutate)
      (fun r ℓ' => r = .ok () ∧ ∃ x missed, ℓ' = x :: missed ++ ℓ ∧
        StoresNext mutate x.found x.left ∧ ∀ y ∈ missed, y.left = y.found) ℓ := by
  refine Protocol.follows_own_op fun es old => ?_
  refine Protocol.Follows.loop
    (fun _ ℓ' => ∃ missed, ℓ' = missed ++ ℓ ∧ ∀ y ∈ missed, y.left = y.found)
    ⟨[], rfl, by simp⟩ ?_
  rintro old _ ⟨missed, rfl, hmissed⟩
  refine Protocol.follows_own_op fun es' r => ?_
  rcases r with observed | u
  · exact ⟨⟨observed, observed⟩ :: missed, rfl, List.forall_mem_cons.mpr ⟨rfl, hmissed⟩⟩
  · exact ⟨rfl, ⟨old, _⟩, missed, rfl, storesNext_packWide hmutate old, hmissed⟩

/-- `tryPublishIfUnchanged` makes one exchange, which stores the triple if it finds the word that is
expected. -/
theorem exchanges_tryPublishWide {f : WideTriple} (hf : f.InRange) (expected : BitVec 64)
    (ℓ : List WordExchange) :
    wordExchangeProtocol.Follows t (tryPublishWide expected f)
      (fun r ℓ' => ∃ x, ℓ' = x :: ℓ ∧
        (x.found = expected ∧ StoresNext (fun _ => f) x.found x.left ∧ r = .ok true ∨
          x.found ≠ expected ∧ x.left = x.found ∧ r = .ok false)) ℓ := by
  refine Protocol.follows_own_exec fun w es r w' hexec => ?_
  rcases ImplState.cas_eq_some.mp hexec with ⟨rfl, -, -⟩ | ⟨rfl, hne, -⟩
  · exact ⟨⟨expected, _⟩, rfl, .inl ⟨rfl, storesNext_packWide (fun _ _ => hf) expected, rfl⟩⟩
  · exact ⟨⟨_, _⟩, rfl, .inr ⟨hne.resolve_left nofun, rfl, rfl⟩⟩

end Impl

/-- Every operation that thread `t` performs in a run from `c` leaves the word, or is an exchange of
it that stores the mutation of its triple. The other threads do what they like. -/
def Stores {ρ : Type} (mutate : WideTriple → WideTriple) (t : Tid)
    (c : Config ImplSig (Traced ImplSig ImplState) ρ) : Prop :=
  ∀ d e o r, Config.Reach (Traced.Step ImplState.exec) c d →
    Config.Moves (Traced.Step ImplState.exec) (.perform ⟨t, o, r⟩) d e →
    ExchangesWord mutate o r d.state.world.statePacked e.state.world.statePacked

/-- A thread that uses these operations stores the mutation. -/
theorem stores_of_uses {ρ : Type} {mutate : WideTriple → WideTriple}
    (hmutate : ∀ f, f.InRange → (mutate f).InRange) {t : Tid}
    {c : Config ImplSig (Traced ImplSig ImplState) ρ}
    (hc : (c.pool t).Uses (ImplOp.Mutates mutate)) : Stores mutate t c := by
  intro d e o r hd he
  have huses := hd.uses_thread hc
  cases he with
  | perform hp hs =>
      rw [hp] at huses
      exact huses.1.exec hmutate hs.exec_eq

/-- Thread `t`, which is at the beginning of `updatePacked` with the mutation, does in a run from
`c` what that is for. -/
structure Updates (mutate : WideTriple → WideTriple) (t : Tid)
    (c : Config ImplSig (Traced ImplSig ImplState) (Except Exn Unit)) : Prop where
  stores : Stores mutate t c
  /-- When it has returned, its last exchange has stored the mutation, and no other has. -/
  returned : ∀ d a, Config.Reach (Traced.Step ImplState.exec) c d → d.Returned t a →
    a = .ok () ∧ ∃ x missed,
      wordExchanges t d.state.history = x :: missed ++ wordExchanges t c.state.history ∧
        StoresNext mutate x.found x.left ∧ ∀ y ∈ missed, y.left = y.found

/-- The same of `tryPublishIfUnchanged` with a triple. -/
structure Publishes (expected : BitVec 64) (f : WideTriple) (t : Tid)
    (c : Config ImplSig (Traced ImplSig ImplState) (Except Exn Bool)) : Prop where
  stores : Stores (fun _ => f) t c
  /-- When it has returned, it has made one exchange; it returns true if that has found the expected
  word and stored the triple, and false if it has found another and left it. -/
  returned : ∀ d a, Config.Reach (Traced.Step ImplState.exec) c d → d.Returned t a →
    ∃ x, wordExchanges t d.state.history = x :: wordExchanges t c.state.history ∧
      (x.found = expected ∧ StoresNext (fun _ => f) x.found x.left ∧ a = .ok true ∨
        x.found ≠ expected ∧ x.left = x.found ∧ a = .ok false)

/-- A thread at the beginning of `updatePacked`. -/
theorem updates_of_pool {mutate : WideTriple → WideTriple}
    (hmutate : ∀ f, f.InRange → (mutate f).InRange) {t : Tid}
    {c : Config ImplSig (Traced ImplSig ImplState) (Except Exn Unit)}
    (hc : c.pool t = Impl.updatePackedWith mutate) : Updates mutate t c where
  stores := stores_of_uses hmutate (hc ▸ Impl.uses_updatePackedWith mutate)
  returned _ _ hd ha :=
    Protocol.own_returned (hc ▸ Impl.exchanges_updatePackedWith hmutate _) hd ha

/-- One at the beginning of `tryPublishIfUnchanged`. -/
theorem publishes_of_pool {expected : BitVec 64} {f : WideTriple} (hf : f.InRange) {t : Tid}
    {c : Config ImplSig (Traced ImplSig ImplState) (Except Exn Bool)}
    (hc : c.pool t = Impl.tryPublishWide expected f) : Publishes expected f t c where
  stores := stores_of_uses (fun _ _ => hf) (hc ▸ Impl.uses_tryPublishWide expected f)
  returned _ _ hd ha :=
    Protocol.own_returned (hc ▸ Impl.exchanges_tryPublishWide hf expected _) hd ha

/-! ### What the calls store -/

/-- The SDK has reported the triple to the thread: in a callback, or as an answer. -/
def Reported (t : Tid) (f : Triple) (h : History) : Prop :=
  ⟨t, .callback (.state f), ()⟩ ∈ h ∨ ∃ client, ⟨t, .sdkReturn client .getState, .ok f⟩ ∈ h

theorem Reported.cons {t : Tid} {f : Triple} {h : History} (hf : Reported t f h)
    (e : Event ImplSig) : Reported t f (e :: h) := by
  rcases hf with hf | ⟨client, hf⟩
  · exact .inl (List.mem_cons_of_mem e hf)
  · exact .inr ⟨client, List.mem_cons_of_mem e hf⟩

/-- The triple that a thread may write at a stage: the answer to its probe, or what the callback
that it delivers reports. -/
def ProbeView.Carries (ℓ : ProbeView) (f : Triple) : Prop :=
  (∃ since word time, ℓ.probe = .answered since word ⟨time, f⟩) ∨ ∃ time, ℓ.pending = some ⟨time, f⟩

namespace ProbeView

variable {t : Tid} {o : ImplOp} {r : o.Resp} {es : History} {ℓ : ProbeView} {f : Triple}

/-- A probe comes to be answered by what is reported to it. -/
theorem answered_track {since : History} {word : BitVec 64} {time : Nat}
    (hf : (ℓ.track es o r).probe = .answered since word ⟨time, f⟩) :
    ℓ.probe = .answered since word ⟨time, f⟩ ∨ Reported t f (⟨t, o, r⟩ :: es) := by
  obtain ⟨probe, pending⟩ := ℓ
  cases o with
  | load a =>
      cases a with
      | statePacked =>
          cases pending with
          | none => cases hf
          | some report => exact .inl hf
      | _ => exact .inl hf
  | sdkCall client c =>
      cases c with
      | getState => cases probe <;> first | exact .inl hf | cases hf
      | _ => exact .inl hf
  | sdkReturn client c =>
      cases c with
      | getState =>
          rcases r with e | f'
          · cases hf
          · cases probe with
            | asked since' word' time' =>
                cases hf
                exact .inr (.inr ⟨client, List.mem_cons_self⟩)
            | _ => exact .inl hf
      | _ => exact .inl hf
  | casStrong a e d =>
      cases a with
      | statePacked => cases hf
      | _ => exact .inl hf
  | casWeak a e d =>
      cases a with
      | statePacked => cases r <;> exact .inl hf
      | _ => exact .inl hf
  | callback cb => cases cb <;> exact .inl hf
  | _ => exact .inl hf

/-- A callback that is being delivered was reported when it began. -/
theorem pending_track {time : Nat} (hf : (ℓ.track es o r).pending = some ⟨time, f⟩) :
    ℓ.pending = some ⟨time, f⟩ ∨ Reported t f (⟨t, o, r⟩ :: es) := by
  obtain ⟨probe, pending⟩ := ℓ
  cases o with
  | load a =>
      cases a with
      | statePacked =>
          cases pending with
          | none => cases hf
          | some report => exact .inl hf
      | _ => exact .inl hf
  | sdkCall client c => cases c <;> exact .inl hf
  | sdkReturn client c =>
      cases c with
      | getState => cases r <;> exact .inl hf
      | _ => exact .inl hf
  | casStrong a e d => cases a <;> exact .inl hf
  | casWeak a e d =>
      cases a with
      | statePacked =>
          rcases r with v | u
          · exact .inl hf
          · cases hf
      | _ => exact .inl hf
  | callback cb =>
      cases cb with
      | state f' =>
          cases hf
          exact .inr (.inl List.mem_cons_self)
      | inactivity => exact .inl hf
  | _ => exact .inl hf

/-- It comes to carry what is reported to it. -/
theorem carries_track (hf : (ℓ.track es o r).Carries f) :
    ℓ.Carries f ∨ Reported t f (⟨t, o, r⟩ :: es) := by
  rcases hf with ⟨since, word, time, hf⟩ | ⟨time, hf⟩
  · exact (answered_track hf).imp_left fun h => .inl ⟨since, word, time, h⟩
  · exact (pending_track hf).imp_left fun h => .inr ⟨time, h⟩

end ProbeView

/-- So what a thread carries was reported to it. -/
theorem reported_of_carries {t : Tid} {h : History} {f : Triple}
    (hf : (probeView t h).Carries f) : Reported t f h := by
  induction h with
  | nil => rcases hf with ⟨_, _, _, hf⟩ | ⟨_, hf⟩ <;> cases hf
  | cons e es ih =>
      obtain ⟨u, o, r⟩ := e
      by_cases hu : u = t
      · subst hu
        rw [probeView_cons_self] at hf
        rcases ProbeView.carries_track hf with hf | hf
        · exact (ih hf).cons _
        · exact hf
      · rw [probeView_cons_ne hu] at hf
        exact (ih hf).cons _

/-- What a thread may write is the packing of a triple that was reported to it. -/
theorem ProbeView.reported_of_allows {t : Tid} {o : ImplOp} {r : o.Resp} {es : History}
    {w w' : BitVec 64} (hallows : (probeView t es).Allows o r) (hobs : ObservesWord w o r)
    (hw : writtenWord o r = some w') :
    ∃ f, Reported t f es ∧ w' = f.pack ((unpackState w).version + 1) := by
  rcases write_cases (e := ⟨t, o, r⟩) hobs hw with ⟨u, e, heq⟩ | ⟨u, e, heq⟩
  · cases heq
    obtain ⟨rfl, -⟩ := hobs
    obtain ⟨report, hpending, rfl⟩ := hallows
    exact ⟨report.triple, reported_of_carries (.inr ⟨report.time, hpending⟩), rfl⟩
  · cases heq
    obtain ⟨rfl, -⟩ := hobs
    obtain ⟨since, report, hview, rfl⟩ := hallows
    refine ⟨report.triple, reported_of_carries (.inl ⟨since, e, report.time, ?_⟩), rfl⟩
    rw [hview]

/-- In every run of calls, an operation leaves the word, or stores a triple that the SDK has
reported to its thread. -/
theorem storesNext_of_calls {calls : Tid → Option ImplCall} {s : ImplState} {c d : ImplPool}
    {t : Tid} {o : ImplOp} {r : o.Resp} (hc : ImplPool.Reach (ImplPool.start calls s) c)
    (hd : Config.Moves (Traced.Step ImplState.exec) (.perform ⟨t, o, r⟩) c d) :
    d.state.world.statePacked = c.state.world.statePacked ∨
      ∃ f : Triple, Reported t f c.state.history ∧
        StoresNext (fun _ => f.widen) c.state.world.statePacked d.state.world.statePacked := by
  have hhistory := (probeHistory_of_reach (hc.trans hd.reach)).1
  have huses := uses_of_reach hc t
  cases hd with
  | @perform _ _ _ k _ s' hp hs =>
      rw [hp] at huses
      simp only [hs.history_eq] at hhistory
      obtain ⟨hobs, hnext⟩ := observesWord_of_exec huses.1 hs.exec_eq
      dsimp only
      cases hw : writtenWord o r with
      | none => exact .inl (by rw [hnext, hw, Option.getD_none])
      | some w' =>
          obtain ⟨f, hf, rfl⟩ :=
            ProbeView.reported_of_allows (Event.each_cons.mp hhistory).1 hobs hw
          refine .inr ⟨f, hf, ?_⟩
          rw [hnext, hw, Option.getD_some]
          exact storesNext_pack f _

/-- The state word is a faithful encoding: nothing is lost on the way in or out, and each writer
stores exactly its triple and the next version. -/
structure StateWordFaithful : Prop where
  unpack_pack : ∀ f version, f.InRange → unpackWide (packWide f version) = ⟨f, version⟩
  pack_unpack : ∀ w, packWide (unpackWide w).triple (unpackWide w).version = w
  update : ∀ (mutate : WideTriple → WideTriple), (∀ f, f.InRange → (mutate f).InRange) →
    ∀ t c, c.pool t = Impl.updatePackedWith mutate → Updates mutate t c
  /-- That of the callback replaces the triple. -/
  updatePacked : ∀ (f : Triple) t c, c.pool t = Impl.updatePacked f → Updates (fun _ => f.widen) t c
  publish : ∀ (expected : BitVec 64) (f : WideTriple), f.InRange →
    ∀ t c, c.pool t = Impl.tryPublishWide expected f → Publishes expected f t c
  /-- That of the probe publishes a triple of bytes. -/
  tryPublishIfUnchanged : ∀ (expected : BitVec 64) (f : Triple) t c,
    c.pool t = Impl.tryPublishIfUnchanged expected f → Publishes expected f.widen t c
  /-- In every run of calls, the word stays, or stores what the SDK has reported to the writer. -/
  calls : ∀ (calls : Tid → Option ImplCall) (s : ImplState) (c d : ImplPool) t o r,
    ImplPool.Reach (ImplPool.start calls s) c →
    Config.Moves (Traced.Step ImplState.exec) (.perform ⟨t, o, r⟩) c d →
    d.state.world.statePacked = c.state.world.statePacked ∨
      ∃ f : Triple, Reported t f c.state.history ∧
        StoresNext (fun _ => f.widen) c.state.world.statePacked d.state.world.statePacked

/-- It is one. -/
theorem stateWord_faithful : StateWordFaithful where
  unpack_pack _ version h := unpackWide_packWide h version
  pack_unpack := packWide_unpackWide
  update _ hmutate _ _ hc := updates_of_pool hmutate hc
  updatePacked f _ _ hc :=
    updates_of_pool (fun _ _ => f.inRange_widen) (hc.trans (Impl.updatePacked_eq f))
  publish _ _ hf _ _ hc := publishes_of_pool hf hc
  tryPublishIfUnchanged expected f _ _ hc :=
    publishes_of_pool f.inRange_widen (hc.trans (Impl.tryPublishIfUnchanged_eq expected f))
  calls _ _ _ _ _ _ _ hc hd := storesNext_of_calls hc hd

end OPCUAPacking
