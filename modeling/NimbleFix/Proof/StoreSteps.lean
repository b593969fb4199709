import NimbleFix.Spec.StoreMirror

/-!
# What the primitive operations do to the mirror

Operations that touch neither the outbound number nor the store keep it; a save makes it complete;
a send adds its frame; a reset empties it.
-/

namespace NimbleFix

open Fallible
open MemorySessionStore (upsertBySequence)

/-! ## What the mirror reads -/

section

variable {σ : Type}

/-- The part of the state that `Mirrors` reads. -/
def AdminProtocol.ledger (p : AdminProtocol σ) : Nat × Nat × Option σ × Nat :=
  (p.session.config.sessionId, p.session.nextOutSeq, p.store, p.storeResets)

/-- The part of the state that `Synced` reads. -/
def AdminProtocol.books (p : AdminProtocol σ) : (Nat × Nat × Option σ × Nat) × Nat :=
  (p.ledger, p.session.nextInSeq)

variable {env : ProtocolEnv} {content : StoreContent σ} {bound : Bool} {sent : List EncodedFrame}
  {p p' : AdminProtocol σ}

theorem Mirrors.of_ledger (h : Mirrors env content bound sent p) (hl : p'.ledger = p.ledger) :
    Mirrors env content bound sent p' := by
  obtain ⟨hid, hout, hstore, hresets⟩ : p'.session.config.sessionId = p.session.config.sessionId ∧
      p'.session.nextOutSeq = p.session.nextOutSeq ∧ p'.store = p.store ∧
      p'.storeResets = p.storeResets := by simpa [AdminProtocol.ledger] using hl
  exact
    { bound_eq := by rw [hstore]; exact h.bound_eq
      session := hid.trans h.session
      positive := by rw [hout]; exact h.positive
      epochs := by rw [hresets]; exact h.epochs
      built := h.built
      numbers := by rw [hresets, hout]; exact h.numbers
      ascending := by rw [hstore]; exact h.ascending
      stored := by rw [hstore, hresets]; exact h.stored }

theorem Synced.of_books (h : Synced env content bound sent p) (hb : p'.books = p.books) :
    Synced env content bound sent p' := by
  obtain ⟨hl, hin⟩ : p'.ledger = p.ledger ∧ p'.session.nextInSeq = p.session.nextInSeq := by
    simpa [AdminProtocol.books] using hb
  refine ⟨h.toMirrors.of_ledger hl, ?_⟩
  obtain ⟨-, hout, hstore, hresets⟩ : p'.session.config.sessionId = p.session.config.sessionId ∧
      p'.session.nextOutSeq = p.session.nextOutSeq ∧ p'.store = p.store ∧
      p'.storeResets = p.storeResets := by simpa [AdminProtocol.ledger] using hl
  have hs := h.saved
  unfold Saved at hs ⊢
  rw [hstore, hresets, hout, hin]
  exact hs

/-! ## Frames without a number of their own -/

theorem currentFrames_append (epoch : Nat) (sent frames : List EncodedFrame) :
    currentFrames epoch (sent ++ frames) = currentFrames epoch sent ++ currentFrames epoch frames :=
  List.filter_append ..

variable {epoch : Nat} {frames : List EncodedFrame}

theorem currentFrames_of_stale (h : ∀ f ∈ frames, f.fresh = false) :
    currentFrames epoch frames = [] := by
  refine List.filter_eq_nil_iff.2 fun f hf => ?_
  simp [h f hf]

theorem currentFrames_append_stale (h : ∀ f ∈ frames, f.fresh = false) :
    currentFrames epoch (sent ++ frames) = currentFrames epoch sent := by
  rw [currentFrames_append, currentFrames_of_stale h, List.append_nil]

theorem currentFrames_of_epoch_lt (h : ∀ f ∈ frames, f.epoch < epoch) :
    currentFrames epoch frames = [] := by
  refine List.filter_eq_nil_iff.2 fun f hf => ?_
  have := h f hf
  simp
  omega

theorem Mirrors.append_stale (h : Mirrors env content bound sent p)
    (hstale : ∀ f ∈ frames, f.fresh = false) (hepoch : ∀ f ∈ frames, f.epoch ≤ p.storeResets) :
    Mirrors env content bound (sent ++ frames) p where
  bound_eq := h.bound_eq
  session := h.session
  positive := h.positive
  epochs f hf := (List.mem_append.1 hf).elim (h.epochs f) (hepoch f)
  built f hf hfresh := (List.mem_append.1 hf).elim (fun hf => h.built f hf hfresh) fun hf => by
    rw [hstale f hf] at hfresh
    cases hfresh
  numbers := by rw [currentFrames_append_stale hstale]; exact h.numbers
  ascending := h.ascending
  stored := by rw [currentFrames_append_stale hstale]; exact h.stored

theorem Saved.append_stale (h : Saved env content sent p) (hstale : ∀ f ∈ frames, f.fresh = false) :
    Saved env content (sent ++ frames) p := by
  unfold Saved
  rw [currentFrames_append_stale hstale]
  exact h

theorem Synced.append_stale (h : Synced env content bound sent p)
    (hstale : ∀ f ∈ frames, f.fresh = false) (hepoch : ∀ f ∈ frames, f.epoch ≤ p.storeResets) :
    Synced env content bound (sent ++ frames) p :=
  ⟨h.toMirrors.append_stale hstale hepoch, h.saved.append_stale hstale⟩

theorem Mirrors.seqNum_lt (h : Mirrors env content bound sent p) {f : EncodedFrame}
    (hf : f ∈ currentFrames p.storeResets sent) :
    0 < f.seqNum ∧ f.seqNum < p.session.nextOutSeq := by
  obtain ⟨first, hpos, hnext, hnums⟩ := h.numbers
  have hmem : f.seqNum ∈ (currentFrames p.storeResets sent).map (·.seqNum) :=
    List.mem_map_of_mem hf
  rw [hnums, List.mem_range'_1] at hmem
  omega

/-! ## Writes and restored counters -/

variable {st : σ} {nextIn nextOut : Nat}

theorem onStore_ok {α : Type} {absent a : α} {m : SessionCore → Method σ α}
    (h : onStore absent m p = (.ok a, p')) :
    (p.store = none ∧ p' = p) ∨
      ∃ st st', p.store = some st ∧ m p.session st = (.ok a, st') ∧
        p' = { p with store := some st' } := by
  unfold onStore at h
  cases hst : p.store with
  | none =>
    rw [hst] at h
    exact .inl ⟨rfl, (congrArg Prod.snd h).symm⟩
  | some st =>
    rw [hst] at h
    obtain ⟨hval, hp'⟩ := Prod.mk.inj h
    exact .inr ⟨st, (m p.session st).2, rfl, Prod.ext hval rfl, hp'.symm⟩

theorem onStore_isSome {α : Type} {absent : α} {m : SessionCore → Method σ α} :
    Preserves (fun p : AdminProtocol σ => p.store.isSome) (onStore absent m) := by
  intro p
  unfold onStore
  split
  · rfl
  · rename_i hst
    simp only [hst, Option.isSome_some]

theorem Mirrors.of_outbound {st' : σ} (h : Mirrors env content bound sent p)
    (hst : p.store = some st)
    (hout : content.outbound env.config.session.sessionId st' =
      content.outbound env.config.session.sessionId st) :
    Mirrors env content bound sent { p with store := some st' } := by
  refine ⟨by rw [← h.bound_eq, hst]; rfl, h.session, h.positive, h.epochs, h.built, h.numbers, ?_, ?_⟩
  · rintro _ ⟨⟩
    rw [hout]
    exact h.ascending st hst
  · rintro _ ⟨⟩
    rw [hout]
    exact h.stored st hst

/-- A write that keeps the sent records and sets the recovery state completes the mirror. -/
theorem Mirrors.saved_of_write {m : SessionCore → Method σ Unit} (h : Mirrors env content bound sent p)
    (hwrite : ∀ st st', m p.session st = (.ok (), st') →
      content.outbound env.config.session.sessionId st' =
          content.outbound env.config.session.sessionId st ∧
        content.recovery env.config.session.sessionId st' = some p.session.recoveryState) :
    Ensures (onStore () m) p fun _ p' => Synced env content bound sent p' := by
  intro _ p' hp'
  rcases onStore_ok hp' with ⟨hnone, rfl⟩ | ⟨st, st', hst, hm, rfl⟩
  · exact ⟨h, fun st hst => by rw [hnone] at hst; cases hst⟩
  · obtain ⟨hout, hrec⟩ := hwrite st st' hm
    refine ⟨h.of_outbound hst hout, ?_⟩
    rintro _ ⟨⟩
    rw [hrec]
    exact ⟨rfl, rfl⟩

theorem takeSeq_ok {params : FrameParams} {n : Nat} (halloc : params.allocateSeq)
    (h : takeSeq params p = (.ok n, p')) : n = p.session.nextOutSeq ∧
      p' = { p with session := { p.session with nextOutSeq := p.session.nextOutSeq + 1 } } := by
  unfold takeSeq at h
  rw [if_pos halloc] at h
  have h₁ := congrArg Prod.fst h
  have h₂ := congrArg Prod.snd h
  simp only [onSession, zoom_apply, SessionCore.allocateOutboundSeq] at h₁ h₂
  split at h₁
  · cases h₁
  · rename_i hst
    rw [if_neg hst] at h₂
    split at h₁
    · cases h₁
    · rename_i hmax
      rw [if_neg hmax] at h₂
      exact ⟨(Except.ok.inj h₁).symm, h₂.symm⟩

theorem Mirrors.append_sent {f : EncodedFrame} (ts : Nat) (h : Mirrors env content bound sent p)
    (hbound : p'.store.isSome = p.store.isSome)
    (hsession : p'.session.config.sessionId = p.session.config.sessionId)
    (hnext : p'.session.nextOutSeq = p.session.nextOutSeq + 1)
    (hresets : p'.storeResets = p.storeResets) (hnum : f.seqNum = p.session.nextOutSeq)
    (hfresh : f.fresh) (hepoch : f.epoch = p.storeResets) (hbuilt : Built env f)
    (hstore : ∀ st', p'.store = some st' → ∃ st, p.store = some st ∧
      content.outbound env.config.session.sessionId st' =
        upsertBySequence (f.record env.config.session.sessionId ts)
          (content.outbound env.config.session.sessionId st)) :
    Mirrors env content bound (sent ++ [f]) p' := by
  have hcur : currentFrames p.storeResets (sent ++ [f]) = currentFrames p.storeResets sent ++ [f] := by
    rw [currentFrames_append]
    simp [currentFrames, hfresh, hepoch]
  obtain ⟨first, hpos, hlen, hnums⟩ := h.numbers
  refine
    { bound_eq := hbound.trans h.bound_eq
      session := hsession.trans h.session
      positive := by omega
      epochs := ?_
      built := ?_
      numbers := ⟨first, hpos, ?_, ?_⟩
      ascending := ?_
      stored := ?_ }
  · intro g hg
    rw [hresets]
    rcases List.mem_append.1 hg with hg | hg
    · exact h.epochs g hg
    · rw [List.mem_singleton.1 hg]
      exact Nat.le_of_eq hepoch
  · intro g hg hgf
    rcases List.mem_append.1 hg with hg | hg
    · exact h.built g hg hgf
    · rw [List.mem_singleton.1 hg]
      exact hbuilt
  · rw [hresets, hcur, List.length_append, List.length_singleton, hnext]
    omega
  · rw [hresets, hcur, List.map_append, hnums, List.length_append, List.length_singleton,
      List.range'_1_concat, hlen]
    simp [hnum]
  · intro st' hst'
    obtain ⟨st, hst, hout⟩ := hstore st' hst'
    rw [hout]
    exact ascending_upsertBySequence _ (h.ascending st hst)
  · intro st' hst' g hg
    obtain ⟨st, hst, hout⟩ := hstore st' hst'
    rw [hresets, hcur] at hg
    rw [hout]
    rcases List.mem_append.1 hg with hg | hg
    · obtain ⟨ts', hr⟩ := h.stored st hst g hg
      have hlt := h.seqNum_lt hg
      refine ⟨ts', (mem_upsertBySequence (h.ascending st hst)).2 (.inr ⟨hr, ?_⟩)⟩
      change g.seqNum ≠ f.seqNum
      omega
    · rw [List.mem_singleton.1 hg]
      exact ⟨ts, (mem_upsertBySequence (h.ascending st hst)).2 (.inl rfl)⟩

theorem books_eq (h : p'.books = p.books) :
    p'.session.config.sessionId = p.session.config.sessionId ∧
      p'.session.nextOutSeq = p.session.nextOutSeq ∧ p'.store = p.store ∧
      p'.storeResets = p.storeResets ∧ p'.session.nextInSeq = p.session.nextInSeq := by
  simpa [AdminProtocol.books, AdminProtocol.ledger, and_assoc] using h

theorem restoreSequenceState_ok
    (h : onSession (SessionCore.restoreSequenceState nextIn nextOut) p = (.ok (), p')) :
    0 < nextOut ∧ p' = { p with
      session := { p.session with
        nextInSeq := nextIn, nextOutSeq := nextOut, pendingResend := none } } := by
  have h₁ := congrArg Prod.fst h
  have h₂ := congrArg Prod.snd h
  simp only [onSession, zoom_apply, SessionCore.restoreSequenceState] at h₁ h₂
  split at h₁
  · cases h₁
  · rename_i hst
    rw [if_neg hst] at h₂
    split at h₁
    · cases h₁
    · rename_i hzero
      rw [if_neg hzero] at h₂
      exact ⟨by omega, h₂.symm⟩

theorem Mirrors.restore (h : Mirrors env content bound sent p)
    (hout : nextOut = p.session.nextOutSeq ∨ currentFrames p.storeResets sent = []) :
    Ensures (onSession (SessionCore.restoreSequenceState nextIn nextOut)) p fun _ p' =>
      Mirrors env content bound sent p' ∧ p'.session.nextOutSeq = nextOut ∧
        p'.session.nextInSeq = nextIn ∧ p'.store = p.store ∧ p'.storeResets = p.storeResets := by
  intro _ p' hp'
  obtain ⟨hpos, rfl⟩ := restoreSequenceState_ok hp'
  refine ⟨⟨h.bound_eq, h.session, hpos, h.epochs, h.built, ?_, h.ascending, h.stored⟩,
    rfl, rfl, rfl, rfl⟩
  rcases hout with rfl | hnil
  · exact h.numbers
  · simp only [hnil]
    exact ⟨nextOut, hpos, rfl, rfl⟩

theorem Synced.of_same {st' : σ} (h : Synced env content bound sent p) (hst : p.store = some st)
    (hsame : content.Same env.config.session.sessionId st st') :
    Synced env content bound sent { p with store := some st' } := by
  refine ⟨h.toMirrors.of_outbound hst hsame.1, ?_⟩
  rintro _ ⟨⟩
  rw [hsame.2]
  exact h.saved st hst

theorem Synced.restore (h : Synced env content bound sent p) (hst : p.store = some st)
    (hread : match content.recovery env.config.session.sessionId st with
      | some r => nextIn = r.nextInSeq ∧ nextOut = r.nextOutSeq
      | none => True) :
    Ensures (onSession (SessionCore.restoreSequenceState nextIn nextOut)) p fun _ p' =>
      Synced env content bound sent p' ∧ (p'.session.nextOutSeq = p.session.nextOutSeq ∨
        currentFrames p'.storeResets sent = []) := by
  have hsaved := h.saved st hst
  intro _ p' hp'
  cases hrec : content.recovery env.config.session.sessionId st with
  | some r =>
    rw [hrec] at hread hsaved
    obtain ⟨h', hnext, hin, hstore, -⟩ :=
      h.toMirrors.restore (.inl (hread.2.trans hsaved.2)) _ _ hp'
    refine ⟨⟨h', fun st' hst' => ?_⟩, .inl (hnext.trans (hread.2.trans hsaved.2))⟩
    rw [hstore, hst] at hst'
    cases hst'
    rw [hrec, hnext, hin]
    exact ⟨hread.1.symm, hread.2.symm⟩
  | none =>
    rw [hrec] at hsaved
    obtain ⟨h', hnext, hin, hstore, hresets⟩ := h.toMirrors.restore (.inr hsaved) _ _ hp'
    refine ⟨⟨h', fun st' hst' => ?_⟩, .inr (by rw [hresets]; exact hsaved)⟩
    rw [hstore, hst] at hst'
    cases hst'
    rw [hrec, hresets]
    exact hsaved

theorem Synced.restoreFromRecovery {recovery : Except Status SessionRecoveryState}
    (h : Synced env content bound sent p) (hst : p.store = some st)
    (hok : ∀ r, recovery = .ok r → content.recovery env.config.session.sessionId st = some r)
    (herror : ∀ e, recovery = .error e → e.code = .notFound →
      content.recovery env.config.session.sessionId st = none) :
    Ensures (restoreFromRecovery recovery) p fun _ p' => Synced env content bound sent p' ∧
      (p'.session.nextOutSeq = p.session.nextOutSeq ∨ currentFrames p'.storeResets sent = []) := by
  cases recovery with
  | ok r =>
    refine h.restore hst ?_
    rw [hok r rfl]
    exact ⟨rfl, rfl⟩
  | error e =>
    refine .ite (fun hcode => h.restore hst ?_) fun _ => .fail e
    rw [herror e rfl hcode]
    trivial

/-! ## Saves -/

variable [SessionStore σ] {msgType : Bytes} {encode : EncodeOptions → Except Status Bytes}

/-- A frame that was returned: the number was taken, the bytes encoded under it and saved. -/
theorem encodeFrameWith_saved {params : FrameParams} {ts : Nat} {f : EncodedFrame}
    (h : encodeFrameWith env msgType encode params ts p = (.ok f, p')) :
    ∃ p₁ p₂ time, takeSeq params p = (.ok f.seqNum, p₁) ∧
      encode (frameOptions env params f.seqNum time) = .ok f.bytes ∧
      p₂.books = p₁.books ∧ saveEncodedFrame params f.seqNum ts f.bytes p₂ = (.ok (), p') ∧
      f = ⟨f.bytes, msgType, params.admin, f.seqNum, params.allocateSeq, p'.storeResets⟩ := by
  obtain ⟨n, p₁, hseq, h⟩ := bind_ok h
  obtain ⟨time, p₂, htime, h⟩ := bind_ok h
  obtain ⟨bytes, p₃, hbytes, h⟩ := bind_ok h
  obtain ⟨_, p₄, hrecord, h⟩ := bind_ok h
  obtain ⟨_, p₅, hsave, h⟩ := bind_ok h
  obtain ⟨_, _, ⟨⟩, ⟨⟩⟩ := bind_ok h
  refine ⟨p₁, p₄, time, hseq, congrArg Prod.fst hbytes, ?_, hsave, rfl⟩
  have h₂ : (readClock env p₁).2 = p₂ := congrArg Prod.snd htime
  have h₃ : p₂ = p₃ := congrArg Prod.snd hbytes
  have h₄ : (recordOutbound ts p₃).2 = p₄ := congrArg Prod.snd hrecord
  rw [← h₄, ← h₃, ← h₂]
  rfl

/-- A frame with a number of its own was sent: the next number was taken, the frame encoded under it
and, if there is a store, saved with the counters. -/
structure SendEffect (env : ProtocolEnv) (content : StoreContent σ) (ts : Nat) (f : EncodedFrame)
    (p p' : AdminProtocol σ) : Prop where
  session : p'.session.config.sessionId = p.session.config.sessionId
  next : p'.session.nextOutSeq = p.session.nextOutSeq + 1
  resets : p'.storeResets = p.storeResets
  bound : p'.store.isSome = p.store.isSome
  seqNum : f.seqNum = p.session.nextOutSeq
  fresh : f.fresh
  epoch : f.epoch = p.storeResets
  built : Built env f
  stored : ∀ st', p'.store = some st' → (∃ st, p.store = some st ∧
    content.outbound env.config.session.sessionId st' =
      upsertBySequence (f.record env.config.session.sessionId ts)
        (content.outbound env.config.session.sessionId st)) ∧
    content.recovery env.config.session.sessionId st' = some p'.session.recoveryState

variable (laws : Persists content env.config.session.sessionId)

include laws

theorem Mirrors.persist (h : Mirrors env content bound sent p) :
    Ensures persistRecoveryState p fun _ p' => Synced env content bound sent p' :=
  h.saved_of_write fun _ _ hm => laws.saveRecovery h.session hm

theorem Mirrors.commit (h : Mirrors env content bound sent p) (d : DecodedMessageView) (ts : Nat) :
    Ensures (commitInboundPersistence d ts) p fun _ p' => Synced env content bound sent p' := by
  refine .bind (P := fun _ p' => Mirrors env content bound sent p') ?_ fun _ p₁ h₁ => ?_
  · rintro _ _ ⟨⟩
    exact h.of_ledger rfl
  · exact h₁.saved_of_write fun _ _ hm => laws.saveInbound h₁.session h₁.session hm

/-! ## Sends -/

theorem encodeFrameWith_sends {admin : Bool} {envelope : SessionSendEnvelope}
    (henc : EncodesAs env msgType encode) (hadmin : admin → msgType ∈ adminFrameTypes)
    (hsid : p.session.config.sessionId = env.config.session.sessionId) (ts : Nat) :
    Ensures (encodeFrameWith env msgType encode { admin, envelope } ts) p
      fun f p' => SendEffect env content ts f p p' := by
  intro f p' hf
  obtain ⟨p₁, p₂, time, hseq, hbytes, hbooks, hsave, heq⟩ := encodeFrameWith_saved hf
  obtain ⟨hnum, rfl⟩ := takeSeq_ok rfl hseq
  obtain ⟨hid, hout, hstore, hresets, -⟩ := books_eq hbooks
  have hsession : p₂.session.config.sessionId = env.config.session.sessionId := hid.trans hsid
  have hbuilt : Built env f := by
    rw [heq]
    exact ⟨hadmin, encode, envelope, time, henc, hbytes⟩
  unfold saveEncodedFrame at hsave
  rw [if_pos rfl] at hsave
  have hbound : p'.store.isSome = p.store.isSome :=
    (onStore_isSome.ensures p₂ _ _ hsave).trans (congrArg Option.isSome hstore)
  rcases onStore_ok hsave with ⟨hnone, rfl⟩ | ⟨st, st', hst, hm, rfl⟩
  · refine ⟨hid, hout, hresets, hbound, hnum, by rw [heq], by rw [heq]; exact hresets, hbuilt, ?_⟩
    intro st hst
    rw [hnone] at hst
    cases hst
  · obtain ⟨hrecords, hrecovery⟩ := laws.saveOutbound hsession hsession hm
    refine ⟨hid, hout, hresets, hbound, hnum, by rw [heq], by rw [heq]; exact hresets, hbuilt, ?_⟩
    rintro _ ⟨⟩
    refine ⟨⟨st, hstore.symm.trans hst, hrecords.trans ?_⟩, hrecovery⟩
    rw [← hsession, heq]
    rfl

theorem Mirrors.send {admin : Bool} {envelope : SessionSendEnvelope}
    (henc : EncodesAs env msgType encode) (hadmin : admin → msgType ∈ adminFrameTypes)
    (h : Mirrors env content bound sent p) (ts : Nat) :
    Ensures (encodeFrameWith env msgType encode { admin, envelope } ts) p
      fun f p' => Synced env content bound (sent ++ [f]) p' := by
  refine (encodeFrameWith_sends laws henc hadmin h.session ts).mono fun f p' e => ?_
  refine ⟨h.append_sent ts e.bound e.session e.next e.resets e.seqNum e.fresh e.epoch e.built
    fun st' hst' => (e.stored st' hst').1, fun st' hst' => ?_⟩
  rw [(e.stored st' hst').2]
  exact ⟨rfl, rfl⟩

theorem Mirrors.gapFill (h : Mirrors env content bound sent p) (beginSeq ts : Nat) :
    Ensures (encodeFrameWith env msgType encode (gapFillParams beginSeq) ts) p
      fun f p' => Synced env content bound (sent ++ [f]) p' := by
  intro f p' hf
  obtain ⟨p₁, p₂, time, hseq, -, hbooks, hsave, heq⟩ := encodeFrameWith_saved hf
  obtain rfl : p = p₁ := congrArg Prod.snd hseq
  have h₂ := h.of_ledger (congrArg Prod.fst hbooks)
  refine (h₂.persist laws _ _ hsave).append_stale (fun g hg => ?_) fun g hg => ?_
  · rw [List.mem_singleton.1 hg, heq]
    rfl
  · rw [List.mem_singleton.1 hg, heq]

/-! ## Resets and refreshes -/

theorem Mirrors.resetStore (h : Mirrors env content bound sent p) :
    Ensures (resetStore true) p fun _ p' => Mirrors env content bound sent p' ∧
      currentFrames p'.storeResets sent = [] := by
  unfold NimbleFix.resetStore
  rw [if_pos rfl]
  have hempty : currentFrames (p.storeResets + 1) sent = [] :=
    currentFrames_of_epoch_lt fun f hf => Nat.lt_succ_of_le (h.epochs f hf)
  refine .bind (P := fun _ p' => p'.store.isSome = p.store.isSome ∧ p'.session = p.session ∧
    p'.storeResets = p.storeResets ∧
      ∀ st, p'.store = some st → content.outbound env.config.session.sessionId st = []) ?_ ?_
  · intro _ p' hp'
    rcases onStore_ok hp' with ⟨hnone, rfl⟩ | ⟨st, st', hst, hm, rfl⟩
    · exact ⟨rfl, rfl, rfl, fun st hst => by rw [hnone] at hst; cases hst⟩
    · rw [h.session] at hm
      refine ⟨by rw [hst]; rfl, rfl, rfl, ?_⟩
      rintro _ ⟨⟩
      exact (laws.reset hm).1
  · rintro _ p₁ ⟨hbound, hsession, hresets, hstore⟩ _ _ ⟨⟩
    rw [← hresets] at hempty
    refine ⟨⟨hbound.trans h.bound_eq, by rw [hsession]; exact h.session,
      by rw [hsession]; exact h.positive, ?_, h.built, ?_, ?_, ?_⟩, hempty⟩
    · intro f hf
      have := h.epochs f hf
      simp only [hresets]
      omega
    · simp only [hempty]
      exact ⟨p₁.session.nextOutSeq, by rw [hsession]; exact h.positive, rfl, rfl⟩
    · intro st hst
      rw [hstore st hst]
      exact List.Pairwise.nil
    · intro st hst f hf
      simp only [hempty] at hf
      cases hf

theorem Mirrors.resetSessionState {reset : Bool} (h : Mirrors env content bound sent p)
    (hout : reset = false →
      nextOut = p.session.nextOutSeq ∨ currentFrames p.storeResets sent = []) :
    Ensures (resetSessionState nextIn nextOut reset) p fun _ p' =>
      Synced env content bound sent p' ∧ p'.session.nextOutSeq = nextOut := by
  refine .bind (P := fun _ p' => Mirrors env content bound sent p' ∧
    (nextOut = p'.session.nextOutSeq ∨ currentFrames p'.storeResets sent = [])) ?_ ?_
  · cases reset with
    | false => exact .pure ⟨h, hout rfl⟩
    | true => exact (h.resetStore laws).mono fun _ _ h => ⟨h.1, .inr h.2⟩
  · intro _ p₁ ⟨h₁, hout₁⟩
    refine .bind (h₁.restore hout₁) fun _ p₂ ⟨h₂, hnext, _⟩ => ?_
    intro _ p₃ hp₃
    refine ⟨h₂.persist laws _ _ hp₃, ?_⟩
    rw [← hnext]
    unfold persistRecoveryState at hp₃
    rcases onStore_ok hp₃ with ⟨-, rfl⟩ | ⟨_, _, -, -, rfl⟩ <;> rfl

/-- A refresh that keeps the content leaves the counters, unless nothing was sent. -/
theorem Synced.refresh (h : Synced env content bound sent p)
    (hrefresh : RefreshKeeps content env.config.session.sessionId) :
    Ensures refreshSessionStateFromStore p fun _ p' => Synced env content bound sent p' ∧
      (p'.session.nextOutSeq = p.session.nextOutSeq ∨ currentFrames p'.storeResets sent = []) := by
  intro _ p' hp'
  unfold refreshSessionStateFromStore at hp'
  cases hst : p.store with
  | none =>
    rw [hst] at hp'
    obtain ⟨-, rfl⟩ := Prod.mk.inj hp'
    exact ⟨h, .inl rfl⟩
  | some st =>
    rw [hst] at hp'
    obtain ⟨_, p₁, h₁, hp'⟩ := bind_ok hp'
    rcases onStore_ok h₁ with ⟨hnone, -⟩ | ⟨st₀, st₁, hst₀, hm, rfl⟩
    · rw [hst] at hnone
      cases hnone
    rw [hst] at hst₀
    cases hst₀
    have hs₁ := h.of_same hst (hrefresh st st₁ hm)
    obtain ⟨recovery, p₂, h₂, hp'⟩ := bind_ok hp'
    obtain ⟨hr, rfl⟩ := Prod.mk.inj h₂
    obtain rfl := Except.ok.inj hr
    have hsame : content.Same env.config.session.sessionId st₁
        (SessionStore.loadRecoveryState p.session.config.sessionId st₁).2 := by
      rw [h.session]
      exact laws.loadRecovery_same st₁
    refine (hs₁.of_same rfl hsame).restoreFromRecovery rfl (fun r hr => ?_) (fun e he hcode => ?_)
      _ _ hp'
    · rw [hsame.2]
      exact laws.loadRecovery_ok (h.session ▸ hr)
    · rw [hsame.2]
      exact laws.loadRecovery_notFound (h.session ▸ he) hcode

end

end NimbleFix
