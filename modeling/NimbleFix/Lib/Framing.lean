import NimbleFix.Lib.Fallible

/-!
# Frames out of a stream that arrives in chunks

A reader keeps what it received and hands out the frames at its front; when no frame is complete it
asks its source for more, which answers with a chunk or with nothing for now. `probe` decides from
the bytes at hand: `0` for too few, the length of the first frame, or an error.

* `SelfDelimiting probe f`: `probe` finds `f` at the front of any stream, and asks for more as long
  as a part of `f` is missing.
* `Reader.Lawful`: the reader hands out what `probe` says, however it stores what it received.
* `Reader.Lawful.receiveAll_eq`: a lawful reader returns the frames of a stream of self-delimiting
  frames, wherever the stream was cut; `Reader.Lawful.probe_of_mem`: what a lawful reader returns
  was found by `probe`.
-/

namespace Framing

variable {α ε σ : Type}

/-! ## Self-delimiting frames -/

structure SelfDelimiting (probe : List α → Except ε Nat) (f : List α) : Prop where
  ne_nil : f ≠ []
  whole : ∀ more, probe (f ++ more) = .ok f.length
  part : ∀ p, p <+: f → p ≠ f → probe p = .ok 0

/-- At the front of a stream of frames, the first frame is there or a part of it is missing. -/
theorem SelfDelimiting.probe_eq {probe : List α → Except ε Nat} {f u rest : List α}
    (hf : SelfDelimiting probe f) (hu : u <+: f ++ rest) :
    (∃ more, u = f ++ more ∧ probe u = .ok f.length) ∨
      u.length < f.length ∧ probe u = .ok 0 := by
  rcases List.prefix_or_prefix_of_prefix hu (List.prefix_append f rest) with huf | hfu
  · by_cases heq : u = f
    · subst heq
      have hwhole := hf.whole []
      rw [List.append_nil] at hwhole
      exact .inl ⟨[], (List.append_nil u).symm, hwhole⟩
    · refine .inr ⟨?_, hf.part u huf heq⟩
      exact Nat.lt_of_le_of_ne huf.length_le fun hlen => heq (huf.eq_of_length hlen)
  · obtain ⟨more, rfl⟩ := hfu
    exact .inl ⟨more, rfl, hf.whole more⟩

/-! ## Readers -/

/-- What the source of the stream answers. -/
inductive Answer (α : Type)
  | chunk (items : List α)
  | wouldBlock

def Answer.items : Answer α → List α
  | chunk items => items
  | wouldBlock => []

/-- All that arrives with the answers. -/
def arriving (answers : List (Answer α)) : List α := answers.flatMap Answer.items

/-- `receive` takes in what the source answers, and says whether anything came. -/
structure Reader (α ε σ : Type) where
  extract : Fallible ε σ (Option (List α))
  receive : Answer α → Fallible ε σ Bool

namespace Reader

variable (r : Reader α ε σ)

/-- Hand out a frame, or receive chunks until there is one or the source has nothing. -/
def next (answers : List (Answer α)) (s : σ) :
    Except ε (Option (List α)) × σ × List (Answer α) :=
  match r.extract s with
  | (.error e, s) => (.error e, s, answers)
  | (.ok (some f), s) => (.ok (some f), s, answers)
  | (.ok none, s) =>
    match answers with
    | [] => (.ok none, s, [])
    | answer :: rest =>
      match r.receive answer s with
      | (.error e, s) => (.error e, s, rest)
      | (.ok false, s) => (.ok none, s, rest)
      | (.ok true, s) => next rest s

/-- The frames of `n` calls, up to the first error. -/
def receiveAll : Nat → List (Answer α) → σ → Except ε (List (List α))
  | 0, _, _ => .ok []
  | n + 1, answers, s =>
    match r.next answers s with
    | (.error e, _, _) => .error e
    | (.ok none, s, rest) => receiveAll n rest s
    | (.ok (some f), s, rest) => (receiveAll n rest s).map (f :: ·)

/-- The chunks one call receives, each with the state it is received in. -/
def nextReceives (answers : List (Answer α)) (s : σ) : List (List α × σ) :=
  match r.extract s with
  | (.ok none, s) =>
    match answers with
    | .chunk items :: rest =>
      (items, s) ::
        match r.receive (.chunk items) s with
        | (.ok true, s) => nextReceives rest s
        | _ => []
    | _ => []
  | _ => []

/-- The same for `n` calls. -/
def receives : Nat → List (Answer α) → σ → List (List α × σ)
  | 0, _, _ => []
  | n + 1, answers, s =>
    r.nextReceives answers s ++
      match r.next answers s with
      | (.error _, _, _) => []
      | (.ok _, s, rest) => receives n rest s

/-- What the reader does with the bytes `unread` that `probe` sees, in states with `I` and for
chunks that fit. -/
structure Lawful (probe : List α → Except ε Nat) (unread : σ → List α) (I : σ → Prop)
    (fits : List α → σ → Prop) : Prop where
  fails : ∀ {s e}, I s → probe (unread s) = .error e → (r.extract s).1 = .error e
  waits : ∀ {s}, I s → probe (unread s) = .ok 0 →
    ∃ s', r.extract s = (.ok none, s') ∧ I s' ∧ unread s' = unread s
  hands : ∀ {s n}, I s → probe (unread s) = .ok n → n ≠ 0 →
    ∃ s', r.extract s = (.ok (some ((unread s).take n)), s') ∧ I s' ∧
      unread s' = (unread s).drop n
  receives : ∀ {s items}, I s → fits items s →
    ∃ s', r.receive (.chunk items) s = (.ok true, s') ∧ I s' ∧ unread s' = unread s ++ items
  blocks : ∀ {s}, I s →
    ∃ s', r.receive .wouldBlock s = (.ok false, s') ∧ I s' ∧ unread s' = unread s

end Reader

/-! ## A lawful reader returns the frames -/

namespace Reader.Lawful

variable {r : Reader α ε σ} {probe : List α → Except ε Nat} {unread : σ → List α} {I : σ → Prop}
  {fits : List α → σ → Prop}

/-- One call on a stream of frames: the first frame, or nothing and no more answers than before. -/
theorem next_cases (h : r.Lawful probe unread I fits) (hnil : probe [] = .ok 0)
    {frames : List (List α)} (hframes : ∀ f ∈ frames, SelfDelimiting probe f) :
    ∀ {answers : List (Answer α)} {s : σ}, I s →
      unread s ++ arriving answers = frames.flatten →
      (∀ p ∈ r.nextReceives answers s, fits p.1 p.2) →
      ∃ s' rest, I s' ∧
        ((∃ f fs, frames = f :: fs ∧ r.next answers s = (.ok (some f), s', rest) ∧
            unread s' ++ arriving rest = fs.flatten ∧ rest.length ≤ answers.length) ∨
          (r.next answers s = (.ok none, s', rest) ∧
            unread s' ++ arriving rest = frames.flatten ∧
            (rest.length < answers.length ∨ rest = [] ∧ frames = []))) := by
  intro answers
  induction answers with
  | nil =>
    intro s hI hstream _
    rw [arriving, List.flatMap_nil, List.append_nil] at hstream
    cases frames with
    | nil =>
      have hunread : unread s = [] := hstream
      obtain ⟨s', hextract, hI', hsame⟩ := h.waits hI (by rw [hunread]; exact hnil)
      refine ⟨s', [], hI', .inr ⟨?_, ?_, .inr ⟨rfl, rfl⟩⟩⟩
      · unfold Reader.next
        rw [hextract]
      · rw [hsame, hunread]
        rfl
    | cons f fs =>
      -- all of the stream is there, so its first frame is
      have hf := hframes f List.mem_cons_self
      have hunread : unread s = f ++ fs.flatten := by rw [hstream]; rfl
      have hprobe : probe (unread s) = .ok f.length := by rw [hunread]; exact hf.whole _
      obtain ⟨s', hextract, hI', hrest⟩ := h.hands hI hprobe
        (fun hzero => hf.ne_nil (List.length_eq_zero_iff.1 hzero))
      rw [hunread, List.take_left] at hextract
      rw [hunread, List.drop_left] at hrest
      refine ⟨s', [], hI', .inl ⟨f, fs, rfl, ?_, ?_, Nat.le_refl _⟩⟩
      · unfold Reader.next
        rw [hextract]
      · rw [hrest, arriving, List.flatMap_nil, List.append_nil]
  | cons answer answers ih =>
    intro s hI hstream hfits
    -- `probe` waits, or the first frame is complete
    have hcases : (∃ f fs more, frames = f :: fs ∧ unread s = f ++ more ∧
        probe (unread s) = .ok f.length) ∨ probe (unread s) = .ok 0 := by
      cases frames with
      | nil =>
        have hunread : unread s = [] := (List.append_eq_nil_iff.1 hstream).1
        exact .inr (by rw [hunread]; exact hnil)
      | cons f fs =>
        rw [List.flatten_cons] at hstream
        rcases (hframes f List.mem_cons_self).probe_eq ⟨_, hstream⟩ with
          ⟨more, hunread, hprobe⟩ | ⟨-, hprobe⟩
        · exact .inl ⟨f, fs, more, rfl, hunread, hprobe⟩
        · exact .inr hprobe
    rcases hcases with ⟨f, fs, more, rfl, hunread, hprobe⟩ | hprobe
    · have hf := hframes f List.mem_cons_self
      obtain ⟨s', hextract, hI', hrest⟩ := h.hands hI hprobe
        (fun hzero => hf.ne_nil (List.length_eq_zero_iff.1 hzero))
      rw [hunread, List.take_left] at hextract
      rw [hunread, List.drop_left] at hrest
      rw [hunread, List.flatten_cons, List.append_assoc] at hstream
      refine ⟨s', answer :: answers, hI', .inl ⟨f, fs, rfl, ?_, ?_, Nat.le_refl _⟩⟩
      · unfold Reader.next
        rw [hextract]
      · rw [hrest]
        exact List.append_cancel_left hstream
    · obtain ⟨s₁, hextract, hI₁, hsame⟩ := h.waits hI hprobe
      unfold Reader.next
      unfold Reader.nextReceives at hfits
      rw [hextract] at hfits ⊢
      cases answer with
      | wouldBlock =>
        obtain ⟨s₂, hblocked, hI₂, hkept⟩ := h.blocks hI₁
        refine ⟨s₂, answers, hI₂, .inr ⟨by simp only [hblocked], ?_, .inl (Nat.lt_succ_self _)⟩⟩
        rw [hkept, hsame]
        exact hstream
      | chunk items =>
        dsimp only at hfits ⊢
        obtain ⟨s₂, hreceive, hI₂, hmore⟩ := h.receives hI₁ (hfits _ List.mem_cons_self)
        rw [hreceive] at hfits ⊢
        have hstream₂ : unread s₂ ++ arriving answers = frames.flatten := by
          rw [hmore, hsame, List.append_assoc]
          exact hstream
        obtain ⟨s', rest, hI', hnext⟩ := ih hI₂ hstream₂
          (fun p hp => hfits p (List.mem_cons_of_mem _ hp))
        refine ⟨s', rest, hI', ?_⟩
        rcases hnext with ⟨f, fs, hfs, hresult, hrest, hlen⟩ | ⟨hresult, hrest, hlen⟩
        · exact .inl ⟨f, fs, hfs, hresult, hrest, Nat.le_succ_of_le hlen⟩
        · exact .inr ⟨hresult, hrest, hlen.imp_left Nat.lt_succ_of_lt⟩

/-- Enough calls return the frames, wherever the stream was cut. -/
theorem receiveAll_eq (h : r.Lawful probe unread I fits) (hnil : probe [] = .ok 0) :
    ∀ {n : Nat} {frames : List (List α)} {answers : List (Answer α)} {s : σ}, I s →
      (∀ f ∈ frames, SelfDelimiting probe f) → unread s ++ arriving answers = frames.flatten →
      (∀ p ∈ r.receives n answers s, fits p.1 p.2) → frames.length + answers.length ≤ n →
      r.receiveAll n answers s = .ok frames
  | 0, frames, answers, s, _, _, _, _, hn => by
    have hframes : frames = [] := List.length_eq_zero_iff.1 (by omega)
    rw [hframes]
    rfl
  | n + 1, frames, answers, s, hI, hframes, hstream, hfits, hn => by
    unfold Reader.receives at hfits
    obtain ⟨s', rest, hI', hnext⟩ := h.next_cases hnil hframes hI hstream
      (fun p hp => hfits p (List.mem_append_left _ hp))
    unfold Reader.receiveAll
    rcases hnext with ⟨f, fs, rfl, hresult, hrest, hlen⟩ | ⟨hresult, hrest, hlen⟩
    · rw [hresult] at hfits ⊢
      have htail := receiveAll_eq h hnil hI' (fun g hg => hframes g (List.mem_cons_of_mem _ hg))
        hrest (fun p hp => hfits p (List.mem_append_right _ hp))
        (by rw [List.length_cons] at hn; omega)
      dsimp only
      rw [htail]
      rfl
    · rw [hresult] at hfits ⊢
      refine receiveAll_eq h hnil hI' hframes hrest
        (fun p hp => hfits p (List.mem_append_right _ hp)) ?_
      rcases hlen with hlen | ⟨rfl, rfl⟩
      · omega
      · exact Nat.zero_le n

/-! ## What is returned was found -/

/-- `probe` found the frame at the front of some stream. -/
def Found (probe : List α → Except ε Nat) (f : List α) : Prop :=
  f ≠ [] ∧ ∃ more, probe (f ++ more) = .ok f.length

/-- What the probe says never exceeds what it saw. -/
def Bounded (probe : List α → Except ε Nat) : Prop := ∀ u n, probe u = .ok n → n ≤ u.length

theorem extract_found (h : r.Lawful probe unread I fits) (hbound : Bounded probe) {s : σ}
    (hI : I s) :
    (∃ f s', r.extract s = (.ok (some f), s') ∧ I s' ∧ Found probe f) ∨
      (∃ s', r.extract s = (.ok none, s') ∧ I s') ∨ ∃ e, (r.extract s).1 = .error e := by
  cases hprobe : probe (unread s) with
  | error e => exact .inr (.inr ⟨e, h.fails hI hprobe⟩)
  | ok n =>
    by_cases hn : n = 0
    · subst hn
      obtain ⟨s', hextract, hI', -⟩ := h.waits hI hprobe
      exact .inr (.inl ⟨s', hextract, hI'⟩)
    · obtain ⟨s', hextract, hI', -⟩ := h.hands hI hprobe hn
      have hlen : ((unread s).take n).length = n := List.length_take_of_le (hbound _ _ hprobe)
      refine .inl ⟨_, s', hextract, hI', ?_, (unread s).drop n, ?_⟩
      · intro hnil
        rw [hnil] at hlen
        exact hn hlen.symm
      · rw [List.take_append_drop, hlen]
        exact hprobe

theorem next_found (h : r.Lawful probe unread I fits) (hbound : Bounded probe) :
    ∀ {answers : List (Answer α)} {s : σ}, I s →
      (∀ p ∈ r.nextReceives answers s, fits p.1 p.2) → ∀ {x s' rest},
      r.next answers s = (.ok x, s', rest) → I s' ∧ ∀ f ∈ x, Found probe f := by
  intro answers
  induction answers with
  | nil =>
    intro s hI _ x s' rest hnext
    unfold Reader.next at hnext
    rcases h.extract_found hbound hI with
      ⟨f, s₁, hextract, hI₁, hfound⟩ | ⟨s₁, hextract, hI₁⟩ | ⟨e, herror⟩
    · rw [hextract] at hnext
      cases hnext
      exact ⟨hI₁, fun g hg => by cases hg; exact hfound⟩
    · rw [hextract] at hnext
      cases hnext
      exact ⟨hI₁, fun g hg => by cases hg⟩
    · rw [show r.extract s = (.error e, (r.extract s).2) from Prod.ext herror rfl] at hnext
      cases hnext
  | cons answer answers ih =>
    intro s hI hfits x s' rest hnext
    unfold Reader.next at hnext
    unfold Reader.nextReceives at hfits
    rcases h.extract_found hbound hI with
      ⟨f, s₁, hextract, hI₁, hfound⟩ | ⟨s₁, hextract, hI₁⟩ | ⟨e, herror⟩
    · rw [hextract] at hnext
      cases hnext
      exact ⟨hI₁, fun g hg => by cases hg; exact hfound⟩
    · rw [hextract] at hnext hfits
      cases answer with
      | wouldBlock =>
        obtain ⟨s₂, hblocked, hI₂, -⟩ := h.blocks hI₁
        simp only [hblocked] at hnext
        cases hnext
        exact ⟨hI₂, fun g hg => by cases hg⟩
      | chunk items =>
        dsimp only at hnext hfits
        obtain ⟨s₂, hreceive, hI₂, -⟩ := h.receives hI₁ (hfits _ List.mem_cons_self)
        rw [hreceive] at hnext hfits
        exact ih hI₂ (fun p hp => hfits p (List.mem_cons_of_mem _ hp)) hnext
    · rw [show r.extract s = (.error e, (r.extract s).2) from Prod.ext herror rfl] at hnext
      cases hnext

/-- Every frame that is returned was found by `probe`. -/
theorem probe_of_mem (h : r.Lawful probe unread I fits) (hbound : Bounded probe) :
    ∀ {n : Nat} {answers : List (Answer α)} {s : σ} {frames : List (List α)}, I s →
      (∀ p ∈ r.receives n answers s, fits p.1 p.2) → r.receiveAll n answers s = .ok frames →
      ∀ f ∈ frames, Found probe f
  | 0, answers, s, frames, _, _, hall, f, hf => by
    cases hall
    cases hf
  | n + 1, answers, s, frames, hI, hfits, hall, f, hf => by
    unfold Reader.receiveAll at hall
    unfold Reader.receives at hfits
    have hnext : ∀ {x s' rest}, r.next answers s = (.ok x, s', rest) →
        I s' ∧ ∀ f ∈ x, Found probe f :=
      h.next_found hbound hI fun p hp => hfits p (List.mem_append_left _ hp)
    match hresult : r.next answers s with
    | (.error e, _, _) =>
      rw [hresult] at hall
      cases hall
    | (.ok none, s', rest) =>
      rw [hresult] at hall hfits
      exact probe_of_mem h hbound (hnext hresult).1
        (fun p hp => hfits p (List.mem_append_right _ hp)) hall f hf
    | (.ok (some g), s', rest) =>
      rw [hresult] at hall hfits
      dsimp only at hall
      cases htail : r.receiveAll n rest s' with
      | error e =>
        rw [htail] at hall
        cases hall
      | ok tail =>
        rw [htail] at hall
        cases hall
        rcases List.mem_cons.1 hf with rfl | hf
        · exact (hnext hresult).2 _ rfl
        · exact probe_of_mem h hbound (hnext hresult).1
            (fun p hp => hfits p (List.mem_append_right _ hp)) htail f hf

end Reader.Lawful

end Framing
