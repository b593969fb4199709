import NimbleFix.Codec.ViewEncode
import NimbleFix.Session.Sample
import NimbleFix.Transport.ReadBuffer

/-!
# Every frame that was sent is received

The encoders write one shape of frame. Where `BeginString` has no `SOH` in it, the two fields in
front tell where the frame ends, so it is self-delimiting and both transports hand out the frames
of a stream as they were written, wherever the stream was cut and whenever the consumed front of
the buffer is dropped.
-/

namespace NimbleFix

open Framing

/-! ## Frames that say their length -/

/-- A frame as its receiver sees it: two fields, the second of which counts the bytes from there to
the trailer of seven bytes. -/
structure FrameShape (version digits rest : Bytes) (bodyLength : Nat) : Prop where
  version_notMem : soh ∉ version
  digits_notMem : soh ∉ digits
  digits_eq : parseUnsigned digits "BodyLength" = .ok bodyLength
  rest_length : rest.length = bodyLength + kChecksumFieldWireSize

/-- The two fields in front and what follows. -/
def shapeText (version digits rest : Bytes) : Bytes :=
  ascii "8=" ++ version ++ soh :: (ascii "9=" ++ digits ++ soh :: rest)

def Framed (f : Bytes) : Prop :=
  ∃ version digits rest bodyLength, FrameShape version digits rest bodyLength ∧
    f = shapeText version digits rest

variable {b : Byte} {xs version p : Bytes}

theorem findByte_append (h : b ∉ xs) (ys : Bytes) : findByte b (xs ++ b :: ys) = xs.length := by
  unfold findByte
  rw [List.findIdx_append, List.findIdx_cons]
  have hall : ∀ x ∈ xs, (x == b) = false := by
    intro x hx
    exact beq_false_of_ne fun heq => h (heq ▸ hx)
  rw [List.findIdx_eq_length_of_false hall]
  simp

theorem findByte_of_notMem (h : b ∉ xs) : findByte b xs = xs.length := by
  unfold findByte
  refine List.findIdx_eq_length_of_false fun x hx => ?_
  exact beq_false_of_ne fun heq => h (heq ▸ hx)

theorem findByte_split (h : findByte b xs < xs.length) :
    ∃ before after, xs = before ++ b :: after ∧ b ∉ before ∧ before.length = findByte b xs := by
  have hmem : b ∈ xs := by
    by_contra hnot
    rw [findByte_of_notMem hnot] at h
    exact Nat.lt_irrefl _ h
  obtain ⟨before, after, rfl, hbefore⟩ := List.eq_append_cons_of_mem hmem
  exact ⟨before, after, rfl, hbefore, (findByte_append hbefore after).symm⟩

/-! ## What the extractor says -/

theorem shapeText_length (version digits rest : Bytes) :
    (shapeText version digits rest).length = version.length + digits.length + 6 + rest.length := by
  simp only [shapeText, List.length_append, List.length_cons]
  have h8 : (ascii "8=").length = 2 := by decide
  have h9 : (ascii "9=").length = 2 := by decide
  omega

theorem soh_notMem_first (h : soh ∉ version) : soh ∉ ascii "8=" ++ version := by
  rw [List.mem_append, not_or]
  exact ⟨by decide, h⟩

theorem parseUnsigned_ne_nil {text : Bytes} {label : String} {n : Nat}
    (h : parseUnsigned text label = .ok n) : text ≠ [] := by
  rintro rfl
  cases h

/-- On a buffer with both fields in front, the extractor waits for the rest. -/
theorem tryExtractFrame_shapeText {digits tail : Bytes} {bodyLength : Nat}
    (hversion : soh ∉ version) (hdigits : soh ∉ digits)
    (hparse : parseUnsigned digits "BodyLength" = .ok bodyLength) :
    tryExtractFrame (shapeText version digits tail) =
      .ok (if tail.length < bodyLength + kChecksumFieldWireSize then 0
        else version.length + digits.length + 6 + (bodyLength + kChecksumFieldWireSize)) := by
  have hlength := shapeText_length version digits tail
  have hpos : 0 < digits.length := List.length_pos_iff.2 (parseUnsigned_ne_nil hparse)
  have hfirst : findByte soh (shapeText version digits tail) = version.length + 2 := by
    unfold shapeText
    rw [findByte_append (soh_notMem_first hversion), List.length_append, Nat.add_comm]
    rfl
  have hfront : (shapeText version digits tail).take 2 = ascii "8=" := by
    unfold shapeText
    rw [List.append_assoc]
    exact List.take_left' rfl
  have hsecond : (shapeText version digits tail).drop (version.length + 2 + 1) =
      ascii "9=" ++ (digits ++ soh :: tail) := by
    rw [show shapeText version digits tail =
      (ascii "8=" ++ version ++ [soh]) ++ (ascii "9=" ++ (digits ++ soh :: tail)) by
        simp [shapeText]]
    refine List.drop_left' ?_
    simp only [List.length_append, List.length_cons, List.length_nil]
    rw [show (ascii "8=").length = 2 from rfl]
    omega
  have hscan : (shapeText version digits tail).drop
      (version.length + 2 + kBodyLengthFieldPrefixSize) = digits ++ soh :: tail := by
    rw [show version.length + 2 + kBodyLengthFieldPrefixSize = version.length + 2 + 1 + 2 from rfl,
      ← List.drop_drop, hsecond]
    exact List.drop_left' rfl
  have hmin : kMinimumFrameProbeBytes = 12 := rfl
  have hskip : kBodyLengthFieldPrefixSize = 3 := rfl
  have hsum : kChecksumFieldWireSize = 7 := rfl
  unfold tryExtractFrame
  dsimp only
  rw [hfirst, hfront, hsecond, hscan, hlength, findByte_append hdigits, List.take_left, hparse,
    show (ascii "9=" ++ (digits ++ soh :: tail)).take 2 = ascii "9=" from List.take_left' rfl]
  dsimp only
  by_cases hshort : version.length + digits.length + 6 + tail.length < kMinimumFrameProbeBytes
  · rw [if_pos hshort, if_pos (by omega)]
  rw [if_neg hshort, if_neg (not_not.2 rfl), if_neg (by omega), if_neg (by omega),
    if_neg (not_not.2 rfl), if_neg (by omega)]
  by_cases htail : tail.length < bodyLength + kChecksumFieldWireSize
  · rw [if_pos (by omega), if_pos htail]
  · rw [if_neg (by omega), if_neg htail]
    congr 1
    omega

theorem tryExtractFrame_first (h : soh ∉ p) (hfront : p.take 2 = ascii "8=" ∨ p.length < 2) :
    tryExtractFrame p = .ok 0 := by
  unfold tryExtractFrame
  by_cases hshort : p.length < kMinimumFrameProbeBytes
  · rw [if_pos hshort]
  have hfront' : p.take 2 = ascii "8=" := by
    rcases hfront with hfront | hfront
    · exact hfront
    · exact absurd (Nat.lt_trans hfront (by decide)) hshort
  rw [if_neg hshort, if_neg (not_not.2 hfront'), findByte_of_notMem h]
  dsimp only
  rw [if_pos (Nat.le_refl _)]

theorem tryExtractFrame_second (hversion : soh ∉ version) (hp : soh ∉ p)
    (hfront : p.take 2 = ascii "9=" ∨ p.length ≤ 2) :
    tryExtractFrame (ascii "8=" ++ version ++ soh :: p) = .ok 0 := by
  unfold tryExtractFrame
  by_cases hshort : (ascii "8=" ++ version ++ soh :: p).length < kMinimumFrameProbeBytes
  · rw [if_pos hshort]
  have hlength : (ascii "8=" ++ version ++ soh :: p).length = version.length + 3 + p.length := by
    simp only [List.length_append, List.length_cons]
    rw [show (ascii "8=").length = 2 from rfl]
    omega
  have hfirst : findByte soh (ascii "8=" ++ version ++ soh :: p) = version.length + 2 := by
    rw [findByte_append (soh_notMem_first hversion), List.length_append, Nat.add_comm]
    rfl
  have hdrop : (ascii "8=" ++ version ++ soh :: p).drop (version.length + 2 + 1) = p := by
    rw [List.append_cons]
    refine List.drop_left' ?_
    simp only [List.length_append, List.length_cons, List.length_nil]
    rw [show (ascii "8=").length = 2 from rfl]
    omega
  have hbegin : (ascii "8=" ++ version ++ soh :: p).take 2 = ascii "8=" := by
    rw [List.append_assoc]
    exact List.take_left' rfl
  rw [if_neg hshort, if_neg (not_not.2 hbegin)]
  dsimp only
  rw [hfirst, if_neg (by omega)]
  by_cases hsecond : (ascii "8=" ++ version ++ soh :: p).length ≤
      version.length + 2 + kBodyLengthFieldPrefixSize
  · rw [if_pos hsecond]
  have hfront' : p.take 2 = ascii "9=" := by
    rcases hfront with hfront | hfront
    · exact hfront
    · rw [hlength, kBodyLengthFieldPrefixSize] at hsecond
      omega
  have hscan : (ascii "8=" ++ version ++ soh :: p).drop
      (version.length + 2 + kBodyLengthFieldPrefixSize) = p.drop 2 := by
    rw [show version.length + 2 + kBodyLengthFieldPrefixSize = version.length + 2 + 1 + 2 from rfl,
      ← List.drop_drop, hdrop]
  have hnone : soh ∉ p.drop 2 := fun hmem => hp (List.mem_of_mem_drop hmem)
  rw [if_neg hsecond, hdrop, if_neg (not_not.2 hfront'), hscan, findByte_of_notMem hnone,
    if_pos (by rw [hlength, List.length_drop, kBodyLengthFieldPrefixSize]; omega)]

theorem prefix_append_cases {α : Type} {p a b : List α} (h : p <+: a ++ b) :
    p <+: a ∨ ∃ q, p = a ++ q ∧ q <+: b := by
  rcases List.prefix_or_prefix_of_prefix h (List.prefix_append a b) with hpa | ⟨q, rfl⟩
  · exact .inl hpa
  · exact .inr ⟨q, rfl, (List.prefix_append_right_inj a).1 h⟩

theorem take_two_of_isPrefixOf {front rest : Bytes} (h : p <+: front ++ rest)
    (hfront : front.length = 2) : p.take 2 = front ∨ p.length < 2 := by
  by_cases hlen : p.length < 2
  · exact .inr hlen
  · obtain ⟨more, heq⟩ := h
    left
    calc p.take 2 = (p ++ more).take 2 := (List.take_append_of_le_length (by omega)).symm
      _ = front := by rw [heq, ← hfront, List.take_left]

/-- The extractor finds a framed frame in front of any bytes, and waits for the missing part. -/
theorem Framed.selfDelimiting {f : Bytes} (h : Framed f) : SelfDelimiting tryExtractFrame f := by
  obtain ⟨version, digits, rest, bodyLength, hshape, rfl⟩ := h
  have hlength := shapeText_length version digits rest
  have hdigitsPos : 0 < digits.length :=
    List.length_pos_iff.2 (parseUnsigned_ne_nil hshape.digits_eq)
  refine ⟨?_, ?_, ?_⟩
  · intro hnil
    rw [hnil, List.length_nil] at hlength
    omega
  · intro more
    rw [show shapeText version digits rest ++ more = shapeText version digits (rest ++ more) by
        simp [shapeText],
      tryExtractFrame_shapeText hshape.version_notMem hshape.digits_notMem hshape.digits_eq,
      if_neg (by rw [List.length_append, hshape.rest_length]; omega), hlength, hshape.rest_length]
  · intro p hp hne
    have hsecondFree : soh ∉ ascii "9=" ++ digits := by
      rw [List.mem_append, not_or]
      exact ⟨by decide, hshape.digits_notMem⟩
    unfold shapeText at hp
    rcases prefix_append_cases hp with hfirst | ⟨q, rfl, hq⟩
    · exact tryExtractFrame_first
        (fun hmem => soh_notMem_first hshape.version_notMem (hfirst.subset hmem))
        (take_two_of_isPrefixOf hfirst rfl)
    rw [show soh :: (ascii "9=" ++ digits ++ soh :: rest) =
      [soh] ++ (ascii "9=" ++ digits ++ soh :: rest) from rfl] at hq
    rcases prefix_append_cases hq with hq | ⟨second, rfl, hsecond⟩
    · -- the part ends with the first field or right after it
      cases q with
      | nil =>
        rw [List.append_nil]
        exact tryExtractFrame_first (soh_notMem_first hshape.version_notMem) (.inl rfl)
      | cons b q =>
        obtain ⟨rfl, hnil⟩ := List.cons_prefix_cons.1 hq
        obtain rfl := List.prefix_nil.1 hnil
        exact tryExtractFrame_second hshape.version_notMem List.not_mem_nil (.inr (Nat.zero_le 2))
    rcases prefix_append_cases hsecond with hsecond | ⟨tail, rfl, htail⟩
    · refine tryExtractFrame_second hshape.version_notMem
        (fun hmem => hsecondFree (hsecond.subset hmem)) ?_
      exact (take_two_of_isPrefixOf hsecond rfl).imp_right Nat.le_of_lt
    · cases tail with
      | nil =>
        rw [List.append_nil]
        exact tryExtractFrame_second hshape.version_notMem hsecondFree (.inl rfl)
      | cons b tail =>
        obtain ⟨rfl, hrest⟩ := List.cons_prefix_cons.1 htail
        rw [show ascii "8=" ++ version ++ ([soh] ++ (ascii "9=" ++ digits ++ soh :: tail)) =
          shapeText version digits tail from rfl] at hne ⊢
        have hshort : tail.length < rest.length :=
          Nat.lt_of_le_of_ne hrest.length_le fun hlen => hne (by rw [hrest.eq_of_length hlen])
        rw [tryExtractFrame_shapeText hshape.version_notMem hshape.digits_notMem hshape.digits_eq,
          if_pos (by rw [← hshape.rest_length]; exact hshort)]

theorem tryExtractFrame_bounded : Reader.Lawful.Bounded tryExtractFrame := by
  intro u n h
  unfold tryExtractFrame at h
  obtain ⟨-, h⟩ | ⟨-, h⟩ := except_ite_ok h
  · cases h
    exact Nat.zero_le _
  obtain ⟨-, h⟩ := except_guard_ok h
  iterate 2
    obtain ⟨-, h⟩ | ⟨-, h⟩ := except_ite_ok h
    · cases h
      exact Nat.zero_le _
  obtain ⟨-, h⟩ := except_guard_ok h
  obtain ⟨-, h⟩ | ⟨-, h⟩ := except_ite_ok h
  · cases h
    exact Nat.zero_le _
  split at h
  · cases h
  · obtain ⟨-, h⟩ | ⟨hle, h⟩ := except_ite_ok h
    · cases h
      exact Nat.zero_le _
    · cases h
      exact Nat.le_of_not_lt hle

theorem tryExtractFrame_ok {buffer : Bytes} {n : Nat} (h : tryExtractFrame buffer = .ok n)
    (hn : n ≠ 0) : ∃ version digits tail bodyLength, soh ∉ version ∧ soh ∉ digits ∧
      parseUnsigned digits "BodyLength" = .ok bodyLength ∧
      buffer = shapeText version digits tail := by
  unfold tryExtractFrame at h
  obtain ⟨-, h⟩ | ⟨-, h⟩ := except_ite_ok h
  · cases h
    exact absurd rfl hn
  obtain ⟨hbegin, h⟩ := except_guard_ok h
  obtain ⟨-, h⟩ | ⟨hfirst, h⟩ := except_ite_ok h
  · cases h
    exact absurd rfl hn
  obtain ⟨-, h⟩ | ⟨-, h⟩ := except_ite_ok h
  · cases h
    exact absurd rfl hn
  obtain ⟨hsecond, h⟩ := except_guard_ok h
  obtain ⟨-, h⟩ | ⟨hscan, h⟩ := except_ite_ok h
  · cases h
    exact absurd rfl hn
  obtain ⟨first, after, rfl, hfree, hlen⟩ := findByte_split (Nat.lt_of_not_le hfirst)
  rw [← hlen] at hsecond hscan h
  have hafter : (first ++ soh :: after).drop (first.length + 1) = after := by
    rw [List.append_cons]
    exact List.drop_left' (by simp)
  have hscanEq : (first ++ soh :: after).drop (first.length + kBodyLengthFieldPrefixSize) =
      after.drop 2 := by
    rw [show first.length + kBodyLengthFieldPrefixSize = first.length + 1 + 2 from rfl,
      ← List.drop_drop, hafter]
  rw [hafter] at hsecond
  rw [hscanEq] at hscan h
  have hfound : findByte soh (after.drop 2) < (after.drop 2).length := by
    rw [List.length_drop]
    rw [List.length_append, List.length_cons, kBodyLengthFieldPrefixSize] at hscan
    omega
  obtain ⟨digits, tail, hdigits, hdigitsFree, hdigitsLen⟩ := findByte_split hfound
  rw [← hdigitsLen, show (after.drop 2).take digits.length = digits by
    rw [hdigits, List.take_left]] at h
  -- the first field starts with `8=`
  obtain ⟨version, rfl⟩ : ∃ version, first = ascii "8=" ++ version := by
    match first, hfree, not_not.1 hbegin with
    | [], _, hbegin => cases hbegin
    | [b], _, hbegin => cases hbegin
    | b :: c :: version, _, hbegin =>
      refine ⟨version, ?_⟩
      rw [← hbegin]
      rfl
  cases hparse : parseUnsigned digits "BodyLength" with
  | error e =>
    rw [hparse] at h
    cases h
  | ok bodyLength =>
    refine ⟨version, digits, tail, bodyLength, fun hmem => hfree (List.mem_append_right _ hmem),
      hdigitsFree, hparse, ?_⟩
    rw [shapeText, List.append_assoc (ascii "9="), ← hdigits, ← not_not.1 hsecond,
      List.take_append_drop]

theorem framed_of_found {f : Bytes} (h : Reader.Lawful.Found tryExtractFrame f) : Framed f := by
  obtain ⟨hne, more, hfound⟩ := h
  have hpos : f.length ≠ 0 := fun hzero => hne (List.length_eq_zero_iff.1 hzero)
  obtain ⟨version, digits, tail, bodyLength, hversion, hdigits, hparse, hbuffer⟩ :=
    tryExtractFrame_ok hfound hpos
  rw [hbuffer, tryExtractFrame_shapeText hversion hdigits hparse] at hfound
  have hlength : f.length =
      version.length + digits.length + 6 + (bodyLength + kChecksumFieldWireSize) ∧
      bodyLength + kChecksumFieldWireSize ≤ tail.length := by
    by_cases hshort : tail.length < bodyLength + kChecksumFieldWireSize
    · rw [if_pos hshort] at hfound
      exact absurd (Except.ok.inj hfound).symm hpos
    · rw [if_neg hshort] at hfound
      exact ⟨(Except.ok.inj hfound).symm, Nat.le_of_not_lt hshort⟩
  refine ⟨version, digits, tail.take (bodyLength + kChecksumFieldWireSize), bodyLength,
    ⟨hversion, hdigits, hparse, List.length_take_of_le hlength.2⟩, ?_⟩
  have hsplit : f ++ more = shapeText version digits
      (tail.take (bodyLength + kChecksumFieldWireSize)) ++
        tail.drop (bodyLength + kChecksumFieldWireSize) := by
    rw [hbuffer]
    simp [shapeText]
  refine (List.append_inj hsplit ?_).1
  rw [shapeText_length, List.length_take_of_le hlength.2, hlength.1]

/-! ## The two transports -/

namespace ReadBuffer

/-- The cursor is inside the buffer, and the buffer below its cap. -/
def Sound (b : ReadBuffer) : Prop :=
  b.cursor ≤ b.bytes.length ∧ b.bytes.length < kMaxReadBufferSize

/-- A received chunk leaves the buffer below its cap. -/
def BelowCap (chunk : Bytes) (b : ReadBuffer) : Prop :=
  chunk ≠ [] ∧ b.bytes.length + chunk.length < kMaxReadBufferSize

instance (chunk : Bytes) (b : ReadBuffer) : Decidable (BelowCap chunk b) :=
  inferInstanceAs (Decidable (_ ∧ _))

variable {b : ReadBuffer}

theorem sound_nil (capacity : Nat) : Sound { capacity } :=
  ⟨Nat.le_refl 0, show 0 < kMaxReadBufferSize by decide⟩

theorem eraseFront_sound (h : b.Sound) :
    b.eraseFront.Sound ∧ b.eraseFront.unread = b.unread ∧
      b.eraseFront.bytes.length ≤ b.bytes.length := by
  unfold eraseFront
  split
  · have hle : (b.bytes.drop b.cursor).length ≤ b.bytes.length := by
      rw [List.length_drop]
      exact Nat.sub_le ..
    exact ⟨⟨Nat.zero_le _, Nat.lt_of_le_of_lt hle h.2⟩, rfl, hle⟩
  · exact ⟨h, rfl, Nat.le_refl _⟩

theorem append_sound (h : b.Sound) (chunk : Bytes)
    (hcap : b.bytes.length + chunk.length < kMaxReadBufferSize) :
    (b.append chunk).Sound ∧ (b.append chunk).unread = b.unread ++ chunk := by
  refine ⟨?_, List.drop_append_of_le_length h.1⟩
  unfold Sound append
  rw [List.length_append]
  exact ⟨Nat.le_add_right_of_le h.1, hcap⟩

theorem advance_sound {n : Nat} (h : b.Sound) (hn : tryExtractFrame b.unread = .ok n) :
    ({ b with cursor := b.cursor + n } : ReadBuffer).Sound ∧
      ({ b with cursor := b.cursor + n } : ReadBuffer).unread = b.unread.drop n := by
  have hle := tryExtractFrame_bounded _ _ hn
  unfold unread at hle ⊢
  rw [List.length_drop] at hle
  unfold Sound at h ⊢
  exact ⟨⟨by dsimp only; omega, h.2⟩, List.drop_drop.symm⟩

end ReadBuffer

namespace Tcp

theorem compact_sound {b : ReadBuffer} (h : b.Sound) :
    (compactConsumedReadBuffer b).Sound ∧ (compactConsumedReadBuffer b).unread = b.unread ∧
      (compactConsumedReadBuffer b).bytes.length ≤ b.bytes.length := by
  unfold compactConsumedReadBuffer
  split
  · exact ⟨h, rfl, Nat.le_refl _⟩
  split
  · rename_i hall
    refine ⟨ReadBuffer.sound_nil _, ?_, Nat.zero_le _⟩
    exact (List.drop_eq_nil_of_le hall).symm
  · exact ReadBuffer.eraseFront_sound h

theorem reader_lawful (grow : Nat → Nat → Nat) :
    (reader grow).Lawful tryExtractFrame ReadBuffer.unread ReadBuffer.Sound
      ReadBuffer.BelowCap where
  fails {b e} hb hprobe := by
    obtain ⟨-, hunread, -⟩ := compact_sound hb
    simp only [reader, tryExtractBufferedFrameView, hunread, hprobe]
  waits {b} hb hprobe := by
    obtain ⟨hsound, hunread, -⟩ := compact_sound hb
    refine ⟨compactConsumedReadBuffer b, ?_, hsound, hunread⟩
    simp only [reader, tryExtractBufferedFrameView, hunread, hprobe, if_true]
  hands {b n} hb hprobe hn := by
    obtain ⟨hsound, hunread, -⟩ := compact_sound hb
    rw [← hunread] at hprobe
    obtain ⟨hsound', hunread'⟩ := ReadBuffer.advance_sound hsound hprobe
    rw [hunread] at hunread'
    refine ⟨_, ?_, hsound', hunread'⟩
    simp only [reader, tryExtractBufferedFrameView, hprobe, if_neg hn]
    rw [hunread]
  receives {b chunk} hb hfits := by
    obtain ⟨hsound, hunread, hlen⟩ := compact_sound hb
    obtain ⟨hne, hcap⟩ := hfits
    obtain ⟨byte, rest, rfl⟩ := List.exists_cons_of_ne_nil hne
    let reserved := (compactConsumedReadBuffer b).reserve grow
      (writableSize (compactConsumedReadBuffer b))
    obtain ⟨hsound', hunread'⟩ := ReadBuffer.append_sound (b := reserved) hsound (byte :: rest)
      (Nat.lt_of_le_of_lt (Nat.add_le_add_right hlen _) hcap)
    refine ⟨reserved.append (byte :: rest), ?_, hsound', hunread'.trans (by rw [← hunread]; rfl)⟩
    simp only [reader, readAvailableBytes]
    rw [if_neg (Nat.not_le_of_lt hsound.2)]
  blocks {b} hb := by
    obtain ⟨hsound, hunread, -⟩ := compact_sound hb
    refine ⟨(compactConsumedReadBuffer b).reserve grow
      (writableSize (compactConsumedReadBuffer b)), ?_, hsound, hunread⟩
    simp only [reader, readAvailableBytes]
    rw [if_neg (Nat.not_le_of_lt hsound.2)]

end Tcp

namespace Tls

theorem compact_sound {b : ReadBuffer} {n : Nat}
    (h : ({ b with cursor := b.cursor + n } : ReadBuffer).Sound) :
    (compactReadBuffer n b).Sound ∧
      (compactReadBuffer n b).unread = b.bytes.drop (b.cursor + n) := by
  unfold compactReadBuffer
  dsimp only
  split
  · rename_i hall
    exact ⟨ReadBuffer.sound_nil _, (List.drop_eq_nil_of_le (Nat.le_of_eq hall.symm)).symm⟩
  · obtain ⟨hsound, hunread, -⟩ := ReadBuffer.eraseFront_sound h
    exact ⟨hsound, hunread⟩

theorem reader_lawful (grow : Nat → Nat → Nat) :
    (reader grow).Lawful tryExtractFrame ReadBuffer.unread ReadBuffer.Sound
      ReadBuffer.BelowCap where
  fails {b e} _ hprobe := by
    simp only [reader, tryExtractBuffered, hprobe]
  waits {b} hb hprobe := by
    refine ⟨b, ?_, hb, rfl⟩
    simp only [reader, tryExtractBuffered, hprobe, if_true]
  hands {b n} hb hprobe hn := by
    obtain ⟨hsound, hunread⟩ := ReadBuffer.advance_sound hb hprobe
    obtain ⟨hsound', hunread'⟩ := compact_sound hsound
    refine ⟨compactReadBuffer n b, ?_, hsound', hunread'.trans hunread⟩
    simp only [reader, tryExtractBuffered, hprobe, if_neg hn]
  receives {b chunk} hb hfits := by
    obtain ⟨hne, hcap⟩ := hfits
    obtain ⟨byte, rest, rfl⟩ := List.exists_cons_of_ne_nil hne
    obtain ⟨hsound, hunread⟩ :=
      ReadBuffer.append_sound (b := b.reserve grow (rest.length + 1)) hb _ hcap
    refine ⟨(b.reserve grow (rest.length + 1)).append (byte :: rest), ?_, hsound, hunread⟩
    simp only [reader, readDecryptedBytes]
    rw [if_neg (Nat.not_lt_of_lt hsound.2)]
  blocks {b} hb := ⟨b, rfl, hb, rfl⟩

end Tls

/-! ## The frames of the encoders -/

/-- The calls of the engine that write a frame, but for those of a `FixedLayoutWriter`. -/
inductive EncoderCall
  | message (d : Dictionary) (v : MessageView) (o : EncodeOptions)
  | template (t : FrameEncodeTemplate) (v : MessageView) (o : EncodeOptions)
  | preEncoded (m : EncodedApplicationMessage) (o : EncodeOptions)
  | forwarded (inbound : RawPassThroughView) (o : ForwardingOptions)
  | replay (stored : RawPassThroughView) (o : ReplayOptions)

namespace EncoderCall

def run : EncoderCall → Except Status Bytes
  | message d v o => encodeViewGeneric d v o
  | template t v o => t.encodeToBuffer v o
  | preEncoded m o => encodePreEncodedApplication m o
  | forwarded inbound o => encodeForwarded inbound o
  | replay stored o => .ok (encodeReplayInto stored o)

def delimiter : EncoderCall → Byte
  | message _ _ o => normalizeDelimiter o.delimiter
  | template t _ _ => t.delimiter
  | preEncoded _ o => o.delimiter
  | forwarded _ o => normalizeDelimiter o.delimiter
  | replay _ o => o.delimiter

/-- The `BeginString` that is written. -/
def beginString : EncoderCall → Bytes
  | message _ _ o => resolvedBeginString o.beginString
  | template t _ _ => t.beginString
  | preEncoded _ o => resolvedBeginString o.beginString
  | forwarded inbound o => if o.beginString = [] then inbound.beginString else o.beginString
  | replay stored o => if o.beginString = [] then stored.beginString else o.beginString

theorem assembleFrame_ok {delim : Byte} {beginString body bytes : Bytes}
    (h : assembleFrame delim beginString body = .ok bytes) :
    bytes = frameBeforeTrailer delim beginString body ++
      trailerField delim (frameBeforeTrailer delim beginString body) := by
  unfold assembleFrame at h
  obtain ⟨-, h⟩ | ⟨-, h⟩ := except_ite_ok h
  · cases h
  · cases h
    rfl

theorem run_ok {c : EncoderCall} {bytes : Bytes} (h : c.run = .ok bytes) :
    ∃ body, bytes = frameBeforeTrailer c.delimiter c.beginString body ++
      trailerField c.delimiter (frameBeforeTrailer c.delimiter c.beginString body) := by
  cases c with
  | message d v o =>
    unfold run encodeViewGeneric at h
    exact ⟨_, assembleFrame_ok h⟩
  | template t v o =>
    obtain ⟨-, -, hframe⟩ := FrameEncodeTemplate.encodeToBuffer_ok h
    exact ⟨_, assembleFrame_ok hframe⟩
  | preEncoded m o =>
    unfold run encodePreEncodedApplication at h
    obtain ⟨-, h⟩ := except_guard_ok h
    exact ⟨_, assembleFrame_ok h⟩
  | forwarded inbound o =>
    unfold run encodeForwarded Except.mapError at h
    dsimp only at h
    split at h
    · cases h
    · rename_i hframe
      cases h
      exact ⟨_, assembleFrame_ok hframe⟩
  | replay stored o =>
    cases h
    exact ⟨_, rfl⟩

end EncoderCall

/-- A frame an encoder of the engine wrote with `SOH` for the delimiter. -/
structure WrittenFrame where
  call : EncoderCall
  bytes : Bytes
  delimiter_eq : call.delimiter = soh
  encoded : call.run = .ok bytes

theorem WrittenFrame.framed (f : WrittenFrame) (hbegin : soh ∉ f.call.beginString)
    (hsize : f.bytes.length < 2 ^ 32) : Framed f.bytes := by
  obtain ⟨body, hbytes⟩ := EncoderCall.run_ok f.encoded
  rw [f.delimiter_eq] at hbytes
  have htrailer : (trailerField soh (frameBeforeTrailer soh f.call.beginString body)).length =
      kChecksumFieldWireSize := rfl
  have hlt : body.length < 2 ^ 32 := by
    refine Nat.lt_of_le_of_lt ?_ hsize
    rw [hbytes, frameBeforeTrailer]
    simp only [List.length_append]
    omega
  refine ⟨f.call.beginString, decimal body.length,
    body ++ trailerField soh (frameBeforeTrailer soh f.call.beginString body), body.length,
    ⟨hbegin, notMem_decimal rfl _, ?_, ?_⟩, ?_⟩
  · unfold parseUnsigned
    rw [parseNat_decimal]
    exact if_pos hlt
  · rw [List.length_append, htrailer]
  · have hfirst : field soh Tag.beginString f.call.beginString =
        ascii "8=" ++ f.call.beginString ++ [soh] := rfl
    have hsecond : field soh Tag.bodyLength (decimal body.length) =
        ascii "9=" ++ decimal body.length ++ [soh] := rfl
    rw [hbytes]
    generalize htail : trailerField soh _ = tail
    rw [frameBeforeTrailer, wrap32_of_lt hlt, hfirst, hsecond, shapeText]
    simp only [List.append_assoc, List.cons_append, List.nil_append]

/-! ## Frames in, frames out -/

theorem received_iff {r : Reader Byte Status ReadBuffer}
    (hr : r.Lawful tryExtractFrame ReadBuffer.unread ReadBuffer.Sound ReadBuffer.BelowCap)
    {capacity calls : Nat} {frames : List Bytes} {answers : List (Answer Byte)}
    (hcut : arriving answers = frames.flatten) (hcalls : frames.length + answers.length ≤ calls)
    (hbelow : ∀ p ∈ r.receives calls answers { capacity }, p.2.BelowCap p.1) :
    r.receiveAll calls answers { capacity } = .ok frames ↔ ∀ f ∈ frames, Framed f := by
  have hsound := ReadBuffer.sound_nil capacity
  constructor
  · intro hall f hf
    exact framed_of_found (hr.probe_of_mem tryExtractFrame_bounded hsound hbelow hall f hf)
  · intro hframed
    exact hr.receiveAll_eq rfl hsound (fun f hf => (hframed f hf).selfDelimiting) hcut hbelow hcalls

/-- Both transports return the frames of a stream as they were written, for every cut of the
stream that keeps the buffer below its cap, if and only if every frame says its length; frames
below 4 GiB without `SOH` in `BeginString` do. -/
theorem frames_received_iff (grow : Nat → Nat → Nat) (capacity : Nat) (frames : List WrittenFrame)
    (answers : List (Answer Byte)) (calls : Nat)
    (hcut : arriving answers = (frames.map WrittenFrame.bytes).flatten)
    (hcalls : frames.length + answers.length ≤ calls) :
    ((∀ p ∈ (Tcp.reader grow).receives calls answers { capacity }, p.2.BelowCap p.1) →
      ((Tcp.reader grow).receiveAll calls answers { capacity } =
          .ok (frames.map WrittenFrame.bytes) ↔ ∀ f ∈ frames, Framed f.bytes)) ∧
    ((∀ p ∈ (Tls.reader grow).receives calls answers { capacity }, p.2.BelowCap p.1) →
      ((Tls.reader grow).receiveAll calls answers { capacity } =
          .ok (frames.map WrittenFrame.bytes) ↔ ∀ f ∈ frames, Framed f.bytes)) ∧
    ∀ f ∈ frames, soh ∉ f.call.beginString → f.bytes.length < 2 ^ 32 → Framed f.bytes := by
  have hmap : (∀ b ∈ frames.map WrittenFrame.bytes, Framed b) ↔ ∀ f ∈ frames, Framed f.bytes :=
    List.forall_mem_map
  have hlen : (frames.map WrittenFrame.bytes).length + answers.length ≤ calls := by
    rwa [List.length_map]
  refine ⟨fun hbelow => ?_, fun hbelow => ?_, fun f _ => f.framed⟩
  · rw [received_iff (Tcp.reader_lawful grow) hcut hlen hbelow, hmap]
  · rw [received_iff (Tls.reader_lawful grow) hcut hlen hbelow, hmap]

open Sample

/-- An order under the given `BeginString`. -/
def Sample.orderCall (beginString : Bytes) : EncoderCall :=
  .preEncoded { msgType := ascii "D", body := field soh 11 (ascii "order") }
    { beginString, senderCompId := ascii "I", targetCompId := ascii "A", msgSeqNum := 2
      sendingTime := sendingTime }

/-- The frame of a call that succeeds. -/
def EncoderCall.written (c : EncoderCall) (hdelim : c.delimiter = soh) (hok : c.run.isOk = true) :
    WrittenFrame :=
  match h : c.run with
  | .ok bytes => ⟨c, bytes, hdelim, h⟩
  | .error _ => absurd hok (by rw [h]; exact Bool.false_ne_true)

theorem EncoderCall.written_call (c : EncoderCall) (hdelim : c.delimiter = soh)
    (hok : c.run.isOk = true) : (c.written hdelim hok).call = c := by
  unfold EncoderCall.written
  split
  · rfl
  · rename_i e h
    rw [h] at hok
    cases hok

def Sample.writtenOrder : WrittenFrame :=
  (orderCall (ascii "FIX.4.4")).written rfl (by decide +kernel)

/-- An order cut inside its first field and once more. -/
def Sample.orderInParts : List (Answer Byte) :=
  [.chunk (writtenOrder.bytes.take 5), .wouldBlock,
    .chunk ((writtenOrder.bytes.drop 5).take 20), .chunk (writtenOrder.bytes.drop 25)]

theorem frames_received_iff_order :
    (Tcp.reader max).receiveAll 5 orderInParts {} = .ok [writtenOrder.bytes] ∧
      (Tls.reader max).receiveAll 5 orderInParts {} = .ok [writtenOrder.bytes] := by
  obtain ⟨htcp, htls, hframed⟩ := frames_received_iff max kDefaultReadBufferCapacity
    [writtenOrder] orderInParts 5 (by decide +kernel) (by decide)
  have hall : ∀ f ∈ [writtenOrder], Framed f.bytes := by
    intro f hf
    rw [List.mem_singleton] at hf
    subst hf
    exact hframed _ (List.mem_singleton_self _) (by decide +kernel) (by decide +kernel)
  exact ⟨(htcp (by decide +kernel)).2 hall, (htls (by decide +kernel)).2 hall⟩

/-- A `BeginString` with `SOH` in it: the engine writes the frame and neither transport can receive
it. -/
theorem frame_with_soh_not_received :
    ∃ f : WrittenFrame, f.call = orderCall (ascii "FIX" ++ soh :: ascii "4.4") ∧
      (∀ p ∈ (Tcp.reader max).receives 2 [.chunk f.bytes] {}, p.2.BelowCap p.1) ∧
      (Tcp.reader max).receiveAll 2 [.chunk f.bytes] {} = .error
        (.FormatError "FIX frame must place BodyLength immediately after BeginString") ∧
      (Tls.reader max).receiveAll 2 [.chunk f.bytes] {} = .error
        (.FormatError "FIX frame must place BodyLength immediately after BeginString") := by
  refine ⟨(orderCall (ascii "FIX" ++ soh :: ascii "4.4")).written rfl (by decide +kernel),
    EncoderCall.written_call .., ?_⟩
  decide +kernel

end NimbleFix
