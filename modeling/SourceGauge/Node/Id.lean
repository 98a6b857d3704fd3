import SourceGauge.Metric.Vocabulary
import SourceGauge.Text.Basic

/-!
# Node identifiers

A node is identified by its kind and its key. Keys are free texts, by convention the path of a
file or the place of a function or class in it; nodes of different kinds may share a key.
-/

namespace SourceGauge

/-- The identifier of a node. -/
structure NodeId where
  kind : NodeKind
  key : Text
  deriving DecidableEq, Repr

/-- The text of an identifier: the kind, a colon and the key. -/
def NodeId.text (id : NodeId) : Text := id.kind.name ++ ":" ++ id.key

/-- No kind has a colon in its name, and different kinds have different names. -/
theorem NodeKind.name_append_colon_inj {a b : NodeKind} {x y : List CodePoint}
    (h : a.name.toList.map .char ++ .char ':' :: x = b.name.toList.map .char ++ .char ':' :: y) :
    a = b ∧ x = y := by
  cases a <;> cases b <;> simp_all [NodeKind.name]

/-- Different identifiers have different texts. -/
theorem NodeId.text_injective {a b : NodeId} (h : a.text = b.text) : a = b := by
  have hpoints := congrArg Text.points h
  have hsplit := NodeKind.name_append_colon_inj (a := a.kind) (b := b.kind)
    (x := a.key.points) (y := b.key.points)
    (by simpa [NodeId.text, Text.ofString, Text.ofChars] using hpoints)
  obtain ⟨kind, key⟩ := a
  obtain ⟨otherKind, otherKey⟩ := b
  exact (NodeId.mk.injEq ..).mpr ⟨hsplit.1, Text.eq_of_points_eq hsplit.2⟩

end SourceGauge
