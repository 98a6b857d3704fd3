/-!
# UTF-8

Decoding of octets to characters. The first octet of a character fixes how many follow and
which values the second one may take, so overlong forms, surrogates and values beyond the
last code point are refused there. A refusal names the place, the octets at fault and the
reason; an incomplete last character is at fault as a whole.
-/

namespace SourceGauge.Utf8

/-- Why octets are not text. -/
inductive Reason
  | invalidStart
  | invalidContinuation
  | unexpectedEnd
  deriving DecidableEq, Repr

/-- The octets that cannot be decoded, and where they start. -/
structure Fault where
  position : Nat
  octets : List UInt8
  reason : Reason
  deriving DecidableEq, Repr

/-- What a first octet announces: how many octets follow and the range of the first of them. -/
structure Lead where
  followers : Nat
  low : UInt8
  high : UInt8
  payload : Nat

/-- The announcement of a first octet; `none` for one that cannot start a character. -/
def lead? (octet : UInt8) : Option Lead :=
  if octet < 0x80 then some ⟨0, 0x80, 0xBF, octet.toNat⟩
  else if octet < 0xC2 then none
  else if octet < 0xE0 then some ⟨1, 0x80, 0xBF, octet.toNat - 0xC0⟩
  else if octet == 0xE0 then some ⟨2, 0xA0, 0xBF, 0⟩
  else if octet == 0xED then some ⟨2, 0x80, 0x9F, 0xD⟩
  else if octet < 0xF0 then some ⟨2, 0x80, 0xBF, octet.toNat - 0xE0⟩
  else if octet == 0xF0 then some ⟨3, 0x90, 0xBF, 0⟩
  else if octet == 0xF4 then some ⟨3, 0x80, 0x8F, 4⟩
  else if octet < 0xF4 then some ⟨3, 0x80, 0xBF, octet.toNat - 0xF0⟩
  else none

/-- Decode the octets from `position` on. `seen` holds the octets of a character that has been
started, last one first, and `pending` what it still needs. -/
def decodeAt (position : Nat) (seen : List UInt8) (pending : Lead) :
    List UInt8 → Except Fault (List Char)
  | [] =>
    if pending.followers == 0 then .ok []
    else .error ⟨position, seen.reverse, .unexpectedEnd⟩
  | octet :: rest =>
    if pending.followers == 0 then
      match lead? octet with
      | none => .error ⟨position, [octet], .invalidStart⟩
      | some lead =>
        if lead.followers == 0 then
          (decodeAt (position + 1) [] lead rest).map (Char.ofNat lead.payload :: ·)
        else decodeAt position [octet] lead rest
    else if pending.low ≤ octet && octet ≤ pending.high then
      let payload := pending.payload * 64 + (octet.toNat - 0x80)
      let next : Lead := ⟨pending.followers - 1, 0x80, 0xBF, payload⟩
      if next.followers == 0 then
        (decodeAt (position + seen.length + 1) [] next rest).map (Char.ofNat payload :: ·)
      else decodeAt position (octet :: seen) next rest
    else .error ⟨position, seen.reverse, .invalidContinuation⟩

/-- Decode octets to characters. -/
def decode (octets : List UInt8) : Except Fault (List Char) :=
  decodeAt 0 [] ⟨0, 0x80, 0xBF, 0⟩ octets

/-- The octets of a text. -/
def encode (s : String) : List UInt8 := s.toUTF8.toList

/-- The wording of a reason. -/
def Reason.message : Reason → String
  | .invalidStart => "invalid start byte"
  | .invalidContinuation => "invalid continuation byte"
  | .unexpectedEnd => "unexpected end of data"

end SourceGauge.Utf8
