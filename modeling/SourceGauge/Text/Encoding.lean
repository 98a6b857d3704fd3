import SourceGauge.Text.Basic
import SourceGauge.Text.Utf8

/-!
# Texts handed to the system

What of a text can be handed to the system, as a path or as the value of a variable, and the
octets that it becomes there. Characters are encoded. The surrogates of one range stand for
single octets, so that octets which are no text can be named; the other surrogates cannot be
handed over. Texts with the same octets are the same to the system, and it gives back the one
whose surrogates stand only for octets that encode no character.
-/

namespace SourceGauge.Text

/-- The code points of a text that cannot be encoded: where they start, how many there are, and
the number of the first one. -/
structure EncodingFault where
  start : Nat
  size : Nat
  first : Nat
  deriving DecidableEq, Repr

/-- Whether a path can hold a code point. -/
def isPathPoint (point : CodePoint) : Bool :=
  match point with
  | .char _ => true
  | .surrogate _ => 0xDC80 ≤ point.code && point.code ≤ 0xDCFF

/-- Whether a code point is a surrogate. -/
def isSurrogate : CodePoint → Bool
  | .char _ => false
  | .surrogate _ => true

/-- The first code point that a path cannot hold, and the surrogates that follow it. So many
code points as `start` stand before these. -/
def faultFrom? (start : Nat) : List CodePoint → Option EncodingFault
  | [] => none
  | point :: rest =>
    if isPathPoint point then faultFrom? (start + 1) rest
    else some ⟨start, (rest.takeWhile isSurrogate).length + 1, point.code⟩

/-- What a path cannot hold of a text. -/
def pathFault? (text : Text) : Option EncodingFault := faultFrom? 0 text.points

/-- What the number of a surrogate is above the octet that it stands for. -/
def octetOffset : Nat := 0xDC00

/-- The octets that a code point becomes. -/
def octetsOf (point : CodePoint) : List UInt8 :=
  match point with
  | .char c => String.utf8EncodeChar c
  | .surrogate _ => [UInt8.ofNat (point.code - octetOffset)]

/-- The octets that a text becomes. -/
def octets (text : Text) : List UInt8 := text.points.flatMap octetsOf

/-- The surrogate that stands for an octet. -/
def octetPoint (octet : UInt8) : CodePoint := .ofNat (octetOffset + octet.toNat)

/-- The code points of octets: the characters that they encode, and surrogates for the others. -/
def pointsOf : (fuel : Nat) → List UInt8 → List CodePoint
  | 0, _ => []
  | fuel + 1, octets =>
    match Utf8.decode octets with
    | .ok cs => cs.map .char
    | .error fault =>
      pointsOf fuel (octets.take fault.position) ++ fault.octets.map octetPoint ++
        pointsOf fuel (octets.drop (fault.position + fault.octets.length))

/-- The text that the system gives back for a text that it was handed. -/
def stored (text : Text) : Text := ⟨pointsOf (text.octets.length + 1) text.octets⟩

/-- There is no fault exactly if a path can hold every code point. -/
theorem faultFrom?_eq_none_iff {start : Nat} {points : List CodePoint} :
    faultFrom? start points = none ↔ ∀ point ∈ points, isPathPoint point = true := by
  induction points generalizing start with
  | nil => simp [faultFrom?]
  | cons point rest ih =>
    unfold faultFrom?
    split
    · rename_i hpoint
      simp [ih, hpoint]
    · rename_i hpoint
      simp [hpoint]

/-- A path can hold every string. -/
theorem pathFault?_ofString (s : String) : pathFault? (ofString s) = none := by
  refine faultFrom?_eq_none_iff.2 fun point hpoint => ?_
  obtain ⟨c, _, rfl⟩ := List.mem_map.1 hpoint
  rfl

end SourceGauge.Text
