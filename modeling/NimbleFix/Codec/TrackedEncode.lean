import NimbleFix.Codec.FastIntFormat
import NimbleFix.Codec.SimdScan
import NimbleFix.Codec.ViewEncode
import NimbleFix.Profile.Templates

/-!
# The running checksum of the template encoder (`codec/fix_codec.cpp`)

The template encoder adds every piece of text to a 32-bit sum as it appends it, and corrects the sum
when it replaces the placeholder of `BodyLength`. An encoder only appends, so it is given by the list
of its appends; `scopeAppends` is the one of `EncodeScopeTemplate`.
-/

namespace NimbleFix

open Simd

/-- The buffer and the sum of `EncodeToBuffer`. -/
structure TrackedBuffer where
  out : Bytes := []
  checksum : UInt32 := 0

/-- The calls that append: both overloads of `AppendTracked`, and the generic encoders, after which
the sum is taken of the range they have appended. -/
inductive TrackedAppend
  | text (piece : Bytes)
  | char (value : Byte)
  | generic (piece : Bytes)

def TrackedAppend.bytes : TrackedAppend → Bytes
  | text piece | generic piece => piece
  | char value => [value]

namespace TrackedBuffer

variable (sse2 : Bool)

def accumulateChecksum (text : Bytes) (b : TrackedBuffer) : TrackedBuffer :=
  { b with checksum := b.checksum + computeChecksumSIMD sse2 text }

def accumulateAppendedRange (startOffset : Nat) (b : TrackedBuffer) : TrackedBuffer :=
  if b.out.length ≤ startOffset then b else b.accumulateChecksum sse2 (b.out.drop startOffset)

def append (b : TrackedBuffer) : TrackedAppend → TrackedBuffer
  | .text piece => { b with out := b.out ++ piece }.accumulateChecksum sse2 piece
  | .char value => { out := b.out ++ [value], checksum := b.checksum + value.toUInt32 }
  | .generic piece => { b with out := b.out ++ piece }.accumulateAppendedRange sse2 b.out.length

def appendAll (appends : List TrackedAppend) (b : TrackedBuffer) : TrackedBuffer :=
  appends.foldl (append sse2) b

/-- `ReplaceUnsignedPlaceholder`. The sum of the old text is computed by the plain loop. -/
def replaceUnsignedPlaceholder (offset placeholderWidth : Nat) (value : UInt32)
    (b : TrackedBuffer) : TrackedBuffer :=
  let digits := formatUint32 value
  let text := digits.1.take digits.2
  let original := (b.out.drop offset).take placeholderWidth
  let tracked := { b with checksum := b.checksum - sumTail 0 original }.accumulateChecksum sse2 text
  { tracked with out := b.out.take offset ++ text ++ b.out.drop (offset + placeholderWidth) }

end TrackedBuffer

/-! ## The appends of a scope -/

def appendPrefixedFieldValue (delim : Byte) (tag : Nat) (value : ScalarValue) :
    List TrackedAppend :=
  [.text (makeTagPrefix tag),
    match value with
    | .char b => .char b
    | value => .text value.text,
    .char delim]

def appendPrefixedCountField (delim : Byte) (tag count : Nat) : List TrackedAppend :=
  [.text (makeTagPrefix tag), .text (decimal (wrap32 count)), .char delim]

mutual

/-- `EncodeScopeTemplate` on the scope compiled from `rules`. -/
def MessageView.scopeAppends (d : Dictionary) (delim : Byte) (rules : List FieldRule)
    (skipHeader : Bool) : MessageView → List TrackedAppend
  | .mk _ fields find groupCount chain =>
    let templated := templatedAppends d delim chain
    let plain := (plainViewTable delim chain).take groupCount
    let steps := scopeSteps skipHeader rules
    let groupTags := plain.map Prod.fst
    let isStep := fun tag => (ruleIndex steps tag).isSome
    let isGroupStep := fun tag => isStep tag && (d.findGroup tag).isSome
    (steps.flatMap fun step =>
      if (d.findGroup step.tag).isSome then (templated.lookup step.tag).getD []
      else
        match find step.tag with
        | some f =>
          if groupTags.contains f.tag then [] else appendPrefixedFieldValue delim step.tag f.value
        | none => []) ++
    ((fields.filter fun f => !isSkipped skipHeader groupTags f.tag && !isStep f.tag).map fun f =>
      .generic (encodeFieldValue delim f)) ++
    (plain.filter fun g => !isGroupStep g.1).map fun g => .generic g.2

def templatedAppends (d : Dictionary) (delim : Byte) :
    List GroupView → List (Nat × List TrackedAppend)
  | [] => []
  | g :: gs => (g.countTag, g.scopeAppends d delim) :: templatedAppends d delim gs

def GroupView.scopeAppends (d : Dictionary) (delim : Byte) : GroupView → List TrackedAppend
  | .mk countTag size entries =>
    appendPrefixedCountField delim countTag size ++
      match d.findGroup countTag with
      | some g => entryAppends d delim g.rules entries
      | none => []

def entryAppends (d : Dictionary) (delim : Byte) (rules : List FieldRule) :
    List MessageView → List TrackedAppend
  | [] => []
  | e :: es => e.scopeAppends d delim rules false ++ entryAppends d delim rules es

end

end NimbleFix
