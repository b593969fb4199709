import NimbleFix.Store.Memory

/-!
# What a store holds

`LawfulSessionStore` gives the sent records of each session and says that a range is loaded from
them. `Persists` is the contract of the whole interface: a store holds for each session the sent
records and the recovery state, and an operation that succeeds acts on them as it should, `refresh`
left out. Both hold for the store in memory.
-/

namespace NimbleFix

/-- The records are ascending by number, with each number once. -/
def Ascending (records : List MessageRecord) : Prop :=
  records.Pairwise fun r r' => r.seqNum < r'.seqNum

def MessageRecord.inRange (beginSeq endSeq : Nat) (r : MessageRecord) : Bool :=
  beginSeq ≤ r.seqNum && r.seqNum ≤ endSeq

class LawfulSessionStore (σ : Type) [SessionStore σ] where
  /-- The sent records of a session. -/
  outbound : Nat → σ → List MessageRecord
  loadOutboundRange_eq {sessionId beginSeq endSeq : Nat} {s : σ} {records : List MessageRecord} :
    Ascending (outbound sessionId s) →
    (SessionStore.loadOutboundRange sessionId beginSeq endSeq s).1 = .ok records →
    records = (outbound sessionId s).filter (·.inRange beginSeq endSeq)

/-- What a store holds for each session. -/
structure StoreContent (σ : Type) where
  outbound : Nat → σ → List MessageRecord
  recovery : Nat → σ → Option SessionRecoveryState

/-- The session's content is the same in both states. -/
def StoreContent.Same {σ : Type} (content : StoreContent σ) (sessionId : Nat) (s s' : σ) : Prop :=
  content.outbound sessionId s' = content.outbound sessionId s ∧
    content.recovery sessionId s' = content.recovery sessionId s

open MemorySessionStore (upsertBySequence)

/-- What an operation that succeeds does to the content of the session. -/
structure Persists {σ : Type} [SessionStore σ] (content : StoreContent σ) (sessionId : Nat) :
    Prop where
  saveOutbound {record : MessageRecord} {state : SessionRecoveryState} {s s' : σ} :
    record.sessionId = sessionId → state.sessionId = sessionId →
    SessionStore.saveOutboundViewAndRecoveryState record state s = (.ok (), s') →
    content.outbound sessionId s' = upsertBySequence record (content.outbound sessionId s) ∧
      content.recovery sessionId s' = some state
  saveInbound {record : MessageRecord} {state : SessionRecoveryState} {s s' : σ} :
    record.sessionId = sessionId → state.sessionId = sessionId →
    SessionStore.saveInboundViewAndRecoveryState record state s = (.ok (), s') →
    content.outbound sessionId s' = content.outbound sessionId s ∧
      content.recovery sessionId s' = some state
  saveRecovery {state : SessionRecoveryState} {s s' : σ} : state.sessionId = sessionId →
    SessionStore.saveRecoveryState state s = (.ok (), s') →
    content.outbound sessionId s' = content.outbound sessionId s ∧
      content.recovery sessionId s' = some state
  reset {s s' : σ} : SessionStore.resetSession sessionId s = (.ok (), s') →
    content.outbound sessionId s' = [] ∧ content.recovery sessionId s' = none
  loadOutbound_same (beginSeq endSeq : Nat) (s : σ) :
    content.Same sessionId s (SessionStore.loadOutboundRange sessionId beginSeq endSeq s).2
  loadOutbound {beginSeq endSeq : Nat} {s : σ} : Ascending (content.outbound sessionId s) →
    0 < beginSeq → beginSeq ≤ endSeq →
    (SessionStore.loadOutboundRange sessionId beginSeq endSeq s).1 =
      .ok ((content.outbound sessionId s).filter (·.inRange beginSeq endSeq))
  loadRecovery_same (s : σ) :
    content.Same sessionId s (SessionStore.loadRecoveryState sessionId s).2
  loadRecovery_ok {s : σ} {r : SessionRecoveryState} :
    (SessionStore.loadRecoveryState sessionId s).1 = .ok r → content.recovery sessionId s = some r
  loadRecovery_notFound {s : σ} {e : Status} :
    (SessionStore.loadRecoveryState sessionId s).1 = .error e → e.code = .notFound →
    content.recovery sessionId s = none

/-- Refreshing the store keeps what it holds for the session. -/
def RefreshKeeps {σ : Type} [SessionStore σ] (content : StoreContent σ) (sessionId : Nat) : Prop :=
  ∀ s s' : σ, SessionStore.refresh s = (.ok (), s') → content.Same sessionId s s'

/-- What an operation does to the recovery state of the session, whether it succeeds or fails: a
save sets it or leaves it, a load and a refresh that fails leave it. -/
structure SavesOrKeeps {σ : Type} [SessionStore σ] (content : StoreContent σ) (sessionId : Nat) :
    Prop where
  saveOutbound {record : MessageRecord} {state : SessionRecoveryState} (s : σ) :
    record.sessionId = sessionId → state.sessionId = sessionId →
    content.recovery sessionId (SessionStore.saveOutboundViewAndRecoveryState record state s).2 ∈
      [some state, content.recovery sessionId s]
  saveInbound {record : MessageRecord} {state : SessionRecoveryState} (s : σ) :
    record.sessionId = sessionId → state.sessionId = sessionId →
    content.recovery sessionId (SessionStore.saveInboundViewAndRecoveryState record state s).2 ∈
      [some state, content.recovery sessionId s]
  saveRecovery {state : SessionRecoveryState} (s : σ) : state.sessionId = sessionId →
    content.recovery sessionId (SessionStore.saveRecoveryState state s).2 ∈
      [some state, content.recovery sessionId s]
  refresh_error {s s' : σ} {e : Status} : SessionStore.refresh s = (.error e, s') →
    content.recovery sessionId s' = content.recovery sessionId s

/-! ## Upserts -/

theorem mem_upsertBySequence {record r : MessageRecord} : ∀ {records : List MessageRecord},
    Ascending records → (r ∈ upsertBySequence record records ↔
      r = record ∨ (r ∈ records ∧ r.seqNum ≠ record.seqNum))
  | [], _ => by simp [upsertBySequence]
  | x :: xs, h => by
    obtain ⟨hx, hxs⟩ := List.pairwise_cons.1 h
    have ih := @mem_upsertBySequence record r _ hxs
    have hne : ∀ y ∈ xs, record.seqNum ≤ x.seqNum → y.seqNum ≠ record.seqNum := by
      intro y hy hle
      have := hx y hy
      omega
    unfold upsertBySequence
    split
    · rw [List.mem_cons, ih, List.mem_cons]
      constructor
      · rintro (rfl | rfl | ⟨hr, hn⟩)
        · exact .inr ⟨.inl rfl, by omega⟩
        · exact .inl rfl
        · exact .inr ⟨.inr hr, hn⟩
      · rintro (rfl | ⟨rfl | hr, hn⟩)
        · exact .inr (.inl rfl)
        · exact .inl rfl
        · exact .inr (.inr ⟨hr, hn⟩)
    · split
      · rename_i heq
        rw [List.mem_cons, List.mem_cons]
        constructor
        · rintro (rfl | hr)
          · exact .inl rfl
          · exact .inr ⟨.inr hr, hne r hr (by omega)⟩
        · rintro (rfl | ⟨rfl | hr, hn⟩)
          · exact .inl rfl
          · exact absurd heq hn
          · exact .inr hr
      · rw [List.mem_cons, List.mem_cons]
        constructor
        · rintro (rfl | rfl | hr)
          · exact .inl rfl
          · exact .inr ⟨.inl rfl, by omega⟩
          · exact .inr ⟨.inr hr, hne r hr (by omega)⟩
        · rintro (rfl | ⟨hr, -⟩)
          · exact .inl rfl
          · exact .inr hr

theorem ascending_upsertBySequence (record : MessageRecord) : ∀ {records : List MessageRecord},
    Ascending records → Ascending (upsertBySequence record records)
  | [], _ => List.pairwise_singleton _ _
  | x :: xs, h => by
    obtain ⟨hx, hxs⟩ := List.pairwise_cons.1 h
    unfold upsertBySequence
    split
    · refine List.pairwise_cons.2 ⟨fun y hy => ?_, ascending_upsertBySequence record hxs⟩
      rcases (mem_upsertBySequence hxs).1 hy with rfl | ⟨hy, -⟩
      · assumption
      · exact hx y hy
    · split
      · rename_i heq
        exact List.pairwise_cons.2 ⟨fun y hy => heq ▸ hx y hy, hxs⟩
      · refine List.pairwise_cons.2 ⟨fun y hy => ?_, h⟩
        rcases List.mem_cons.1 hy with rfl | hy
        · omega
        · have := hx y hy
          omega

namespace MemorySessionStore

theorem validateRecordView_ok {record : MessageRecord} (hid : record.sessionId ≠ 0)
    (hseq : record.seqNum ≠ 0) : validateRecordView record = .ok () := by
  unfold validateRecordView
  rw [if_neg hid, if_neg hseq]

theorem saveOutboundView_apply {record : MessageRecord} (h : validateRecordView record = .ok ())
    (s : MemorySessionStore) : saveOutboundView record s =
      (.ok (), modifySession record.sessionId
        (fun d => { d with outbound := upsertBySequence record d.outbound }) s) := by
  unfold saveOutboundView
  rw [h]
  rfl

theorem saveInboundViewAndRecoveryState_apply {record : MessageRecord}
    (h : validateRecordView record = .ok ()) (state : SessionRecoveryState)
    (s : MemorySessionStore) : saveInboundViewAndRecoveryState record state s =
      (.ok (), modifySession record.sessionId
        (fun d => { d with inbound := d.inbound ++ [record], recovery := some state }) s) := by
  unfold saveInboundViewAndRecoveryState
  rw [h]
  rfl

theorem saveRecoveryState_apply {state : SessionRecoveryState} (h : state.sessionId ≠ 0)
    (s : MemorySessionStore) : saveRecoveryState state s =
      (.ok (), modifySession state.sessionId (fun d => { d with recovery := some state }) s) := by
  unfold saveRecoveryState
  rw [if_neg h]

theorem scanRange_eq_filter (beginSeq endSeq : Nat) : ∀ {records : List MessageRecord},
    Ascending records →
      scanRange beginSeq endSeq records = records.filter (·.inRange beginSeq endSeq)
  | [], _ => rfl
  | r :: rs, h => by
    obtain ⟨hr, hrs⟩ := List.pairwise_cons.1 h
    have ih := scanRange_eq_filter beginSeq endSeq hrs
    unfold scanRange
    split
    · rw [ih, List.filter_cons_of_neg]
      simp only [MessageRecord.inRange, Bool.and_eq_true, decide_eq_true_eq]
      omega
    · split
      · rename_i hend
        refine (List.filter_eq_nil_iff.2 fun r' hr' => ?_).symm
        simp only [MessageRecord.inRange, Bool.and_eq_true, decide_eq_true_eq]
        rcases List.mem_cons.1 hr' with rfl | hmem
        · omega
        · have := hr r' hmem
          omega
      · rw [ih, List.filter_cons_of_pos]
        simp only [MessageRecord.inRange, Bool.and_eq_true, decide_eq_true_eq]
        omega

def content : StoreContent MemorySessionStore where
  outbound sessionId s := (s.sessions sessionId).outbound
  recovery sessionId s := (s.sessions sessionId).recovery

theorem validateRecordView_of_ok {record : MessageRecord} {α : Type}
    {m : Method MemorySessionStore α} {a : α} {s s' : MemorySessionStore}
    (h : (do Fallible.ofExcept (validateRecordView record); m :
      Method MemorySessionStore α) s = (.ok a, s')) : validateRecordView record = .ok () := by
  obtain ⟨_, _, h, -⟩ := Fallible.bind_ok h
  exact congrArg Prod.fst h

theorem saveRecoveryState_content {state : SessionRecoveryState} {s s' : MemorySessionStore}
    (h : saveRecoveryState state s = (.ok (), s')) :
    content.outbound state.sessionId s' = content.outbound state.sessionId s ∧
      content.recovery state.sessionId s' = some state := by
  unfold saveRecoveryState at h
  split at h
  · cases h
  · cases h
    simp [content, modifySession]

theorem persists (sessionId : Nat) : Persists content sessionId where
  saveOutbound {record state s s'} hid hstate h := by
    obtain ⟨_, s₁, h₁, h₂⟩ := Fallible.bind_ok h
    have hs₁ := (saveOutboundView_apply (validateRecordView_of_ok h₁) s).symm.trans h₁
    cases hs₁
    obtain ⟨ho, hr⟩ := saveRecoveryState_content h₂
    rw [hstate] at ho hr
    refine ⟨?_, hr⟩
    rw [ho, ← hid]
    simp [content, modifySession]
  saveInbound {record state s s'} hid _ h := by
    have hs := (saveInboundViewAndRecoveryState_apply
      (validateRecordView_of_ok h) state s).symm.trans h
    cases hs
    rw [← hid]
    simp [content, modifySession]
  saveRecovery hid h := hid ▸ saveRecoveryState_content h
  reset {s s'} h := by
    cases h
    simp [content, modifySession]
  loadOutbound_same beginSeq endSeq s := by
    change content.Same sessionId s (loadOutboundRange sessionId beginSeq endSeq s).2
    unfold loadOutboundRange
    split <;> exact ⟨rfl, rfl⟩
  loadOutbound {beginSeq endSeq s} hasc h₁ h₂ := by
    change (loadOutboundRange sessionId beginSeq endSeq s).1 = _
    unfold loadOutboundRange
    rw [if_neg (by omega)]
    exact congrArg Except.ok (scanRange_eq_filter beginSeq endSeq hasc)
  loadRecovery_same s := by
    change content.Same sessionId s (loadRecoveryState sessionId s).2
    unfold loadRecoveryState
    split <;> exact ⟨rfl, rfl⟩
  loadRecovery_ok {s r} h := by
    change (loadRecoveryState sessionId s).1 = .ok r at h
    unfold loadRecoveryState at h
    split at h
    · cases h
    · cases h
      assumption
  loadRecovery_notFound {s e} h _ := by
    change (loadRecoveryState sessionId s).1 = .error e at h
    unfold loadRecoveryState at h
    split at h
    · assumption
    · cases h

theorem saveRecoveryState_recovery {state : SessionRecoveryState} (s : MemorySessionStore) :
    content.recovery state.sessionId (saveRecoveryState state s).2 ∈
      [some state, content.recovery state.sessionId s] := by
  unfold saveRecoveryState
  split
  · simp
  · simp [content, modifySession]

theorem savesOrKeeps (sessionId : Nat) : SavesOrKeeps content sessionId where
  saveOutbound {record state} s hid hstate := by
    subst hstate
    change content.recovery state.sessionId ((do saveOutboundView record; saveRecoveryState state :
      Method MemorySessionStore Unit) s).2 ∈ _
    cases hvalid : validateRecordView record with
    | error e =>
      have hsave : saveOutboundView record s = (.error e, s) := by
        unfold saveOutboundView
        rw [hvalid]
        rfl
      rw [Fallible.bind_of_error hsave]
      simp
    | ok _ =>
      rw [Fallible.bind_of_ok (saveOutboundView_apply hvalid s)]
      have hkept : content.recovery state.sessionId (modifySession record.sessionId
          (fun d => { d with outbound := upsertBySequence record d.outbound }) s) =
            content.recovery state.sessionId s := by
        rw [← hid]
        simp [content, modifySession]
      exact hkept ▸ saveRecoveryState_recovery _
  saveInbound {record state} s hid hstate := by
    change content.recovery sessionId (saveInboundViewAndRecoveryState record state s).2 ∈ _
    cases hvalid : validateRecordView record with
    | error e =>
      have hsave : saveInboundViewAndRecoveryState record state s = (.error e, s) := by
        unfold saveInboundViewAndRecoveryState
        rw [hvalid]
        rfl
      rw [hsave]
      simp
    | ok _ =>
      rw [saveInboundViewAndRecoveryState_apply hvalid, ← hid]
      simp [content, modifySession]
  saveRecovery s hid := hid ▸ saveRecoveryState_recovery s
  refresh_error h := by cases h

theorem refreshKeeps (sessionId : Nat) : RefreshKeeps content sessionId := by
  intro s s' h
  cases h
  exact ⟨rfl, rfl⟩

instance : LawfulSessionStore MemorySessionStore where
  outbound sessionId s := (s.sessions sessionId).outbound
  loadOutboundRange_eq := by
    intro sessionId beginSeq endSeq s records hasc hload
    change (loadOutboundRange sessionId beginSeq endSeq s).1 = .ok records at hload
    unfold loadOutboundRange at hload
    split at hload
    · cases hload
    · cases hload
      exact scanRange_eq_filter beginSeq endSeq hasc

end MemorySessionStore

end NimbleFix
