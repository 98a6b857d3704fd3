import SourceGauge.FileRecord
import SourceGauge.Proofs.Text.Splitting
import SourceGauge.Settings.Limits

/-!
# Paths seen from a base

The text of a path is read back as the path, whatever its root, since parts that are read carry
meaning and hold no slash. So the key of a record seen from a base directory undoes joining: below
the base it is the one text without superfluous parts that names a relative path and leads from the
base to the key. Anywhere else the key is left as it is.

All of this is said of paths as texts denote them. What double dots or links lead to in a file
system is not looked at.
-/

namespace SourceGauge

namespace Path

/-- The slashes at the start of a text. -/
def leadingSlashes (text : Text) : Nat := (text.points.takeWhile (· == .char '/')).length

/-- A text that can be a part of a path: it carries meaning and holds no slash. -/
structure IsPart (part : Text) : Prop where
  meaningful : isMeaningful part = true
  whole : CodePoint.char '/' ∉ part.points

/-- A path that a text can denote. -/
def IsNormal (path : Path) : Prop := ∀ part ∈ path.parts, IsPart part

/-- A text has no superfluous parts: it is a dot alone, or every part of it carries meaning. -/
def IsPlain (text : Text) : Prop :=
  text = "." ∨ ∀ part ∈ text.pieces '/', isMeaningful part = true

/-- A path lies below a base, or is the base: it starts where the base does, with its parts. -/
structure LiesBelow (base path : Path) : Prop where
  root : path.root = base.root
  parts : base.parts <+: path.parts

/-- A text names a relative path, without superfluous parts, that leads from a base to a path. -/
structure LeadsTo (base path : Path) (way : Text) : Prop where
  relative : (ofText way).root = .relative
  joined : base.join (ofText way) = path
  plain : IsPlain way

/-! ## Reading -/

/-- A list that does not start with an item has none of it at its start. -/
theorem takeWhile_eq_nil {points : List CodePoint} {point : CodePoint}
    (h : ∀ rest, points ≠ point :: rest) : points.takeWhile (· == point) = [] := by
  cases points with
  | nil => rfl
  | cons first rest =>
    have hfirst : first ≠ point := fun hsame => h rest (hsame ▸ rfl)
    rw [List.takeWhile_cons, beq_false_of_ne hfirst]
    rfl

/-- A text without a slash at its start denotes a relative path, one with exactly two has a root of
its own, and any other has the single root. -/
theorem root_ofText (text : Text) : (ofText text).root =
    if leadingSlashes text = 0 then .relative
    else if leadingSlashes text = 2 then .double else .single := by
  rw [ofText, leadingSlashes]
  dsimp only
  generalize text.points = points
  unfold rootOf
  split
  · simp
  · rename_i rest hthree
    rw [List.takeWhile_cons, List.takeWhile_cons,
      takeWhile_eq_nil fun more hmore => hthree more (hmore ▸ rfl)]
    rfl
  · rename_i rest hthree htwo
    rw [List.takeWhile_cons, takeWhile_eq_nil fun more hmore => htwo more (hmore ▸ rfl)]
    rfl
  · rename_i hthree htwo hone
    rw [takeWhile_eq_nil fun more hmore => hone more hmore]
    rfl

/-- The paths that texts denote are normal. -/
theorem isNormal_ofText (text : Text) : (ofText text).IsNormal := by
  intro part hpart
  obtain ⟨hpiece, hmeaningful⟩ := List.mem_filter.1 hpart
  obtain ⟨points, hpoints, rfl⟩ := List.mem_map.1 hpiece
  exact ⟨hmeaningful, Text.not_mem_of_mem_splitOn hpoints⟩

/-! ## Reading back -/

/-- Parts that are joined with slashes are found again. -/
theorem pieces_intercalate_parts {parts : List Text} (h : ∀ part ∈ parts, IsPart part)
    (hsome : parts ≠ []) :
    (Text.intercalate "/" parts).pieces '/' = parts := by
  have hpieces : ∀ piece ∈ parts.map Text.points, CodePoint.char '/' ∉ piece := by
    intro piece hpiece
    obtain ⟨part, hpart, rfl⟩ := List.mem_map.1 hpiece
    exact (h part hpart).whole
  have hsplit := Text.splitOn_intercalate hpieces (by simpa using hsome)
  rw [Text.pieces]
  calc (Text.splitOn (.char '/') (Text.intercalate "/" parts).points).map Text.mk
      = (parts.map Text.points).map Text.mk := congrArg (List.map Text.mk) hsplit
    _ = parts := by rw [List.map_map]; exact List.map_id parts

/-- Parts that carry meaning do not start with a slash when they are joined. -/
theorem head?_intercalate_ne {parts : List Text} (h : ∀ part ∈ parts, IsPart part) :
    (Text.intercalate "/" parts).points.head? ≠ some (.char '/') := by
  cases parts with
  | nil => exact fun hslash => nomatch hslash
  | cons part others =>
    obtain ⟨hmeaningful, hslash⟩ := h part List.mem_cons_self
    cases hpoints : part.points with
    | nil => simp [isMeaningful, Text.isEmpty, hpoints] at hmeaningful
    | cons point rest =>
      have hpoint : point ≠ .char '/' := by
        intro hsame
        rw [hpoints, hsame] at hslash
        exact hslash List.mem_cons_self
      have hhead : (Text.intercalate "/" (part :: others)).points.head? = some point := by
        cases others with
        | nil =>
          rw [Text.intercalate, List.map_cons, List.map_nil, List.intercalate_singleton, hpoints]
          rfl
        | cons next others =>
          rw [Text.intercalate, List.map_cons, List.map_cons, List.intercalate_cons_cons, hpoints]
          rfl
      rw [hhead]
      exact fun hsame => hpoint (Option.some.inj hsame)

/-- The root at the start of a text is found, if no other slash follows it. -/
theorem root_root_append (root : PathRoot) {text : Text}
    (h : text.points.head? ≠ some (.char '/')) :
    (ofText ((root.text : Text) ++ text)).root = root := by
  have hslashes : ∀ point ∈ (root.text : Text).points, (point == .char '/') = true := by
    cases root <;> decide
  have hnone : text.points.takeWhile (· == .char '/') = [] := by
    apply takeWhile_eq_nil
    intro rest hrest
    exact h (hrest ▸ rfl)
  -- A slash at the start of the text would be counted with those of the root.
  have hcount : leadingSlashes ((root.text : Text) ++ text) = (root.text : Text).points.length := by
    rw [leadingSlashes, Text.points_append, List.takeWhile_append_of_pos hslashes, hnone,
      List.append_nil]
  rw [root_ofText, hcount]
  cases root <;> rfl

/-- The slashes of a root hold no parts. -/
theorem parts_root_append (root : PathRoot) (text : Text) :
    (ofText ((root.text : Text) ++ text)).parts = (ofText text).parts := by
  cases root <;> rfl

/-- Parts that are joined with slashes are read back. -/
theorem parts_intercalate {parts : List Text} (h : ∀ part ∈ parts, IsPart part) :
    (ofText (Text.intercalate "/" parts)).parts = parts := by
  by_cases hsome : parts = []
  · rw [hsome]
    rfl
  · rw [ofText, pieces_intercalate_parts h hsome]
    exact List.filter_eq_self.2 fun part hpart => (h part hpart).meaningful

/-- The text of a normal path is read back as the path. -/
theorem ofText_text {path : Path} (h : path.IsNormal) : ofText path.text = path := by
  unfold text
  split
  · rename_i hdot
    cases path with
    | mk root parts =>
      obtain ⟨rfl, rfl⟩ := hdot
      rfl
  · have hroot : (ofText (path.root.text ++ Text.intercalate "/" path.parts)).root = path.root :=
      root_root_append path.root (head?_intercalate_ne h)
    have hparts : (ofText (path.root.text ++ Text.intercalate "/" path.parts)).parts = path.parts :=
      (parts_root_append path.root _).trans (parts_intercalate h)
    calc ofText (path.root.text ++ Text.intercalate "/" path.parts)
        = ⟨(ofText _).root, (ofText _).parts⟩ := rfl
      _ = path := by rw [hroot, hparts]

/-- The text of a normal relative path has no superfluous parts. -/
theorem isPlain_text {path : Path} (h : path.IsNormal) (hrelative : path.root = .relative) :
    IsPlain path.text := by
  unfold text
  split
  · exact .inl rfl
  · rename_i hdot
    have hsome : path.parts ≠ [] := fun hnone => hdot ⟨hrelative, hnone⟩
    apply Or.inr
    rw [hrelative]
    show ∀ part ∈ (Text.intercalate "/" path.parts).pieces '/', isMeaningful part = true
    rw [pieces_intercalate_parts h hsome]
    exact fun part hpart => (h part hpart).meaningful

/-- A text without superfluous parts that denotes a relative path is the text of that path. -/
theorem text_ofText {text : Text} (hrelative : (ofText text).root = .relative)
    (hplain : IsPlain text) : (ofText text).text = text := by
  rcases hplain with rfl | hmeaningful
  · rfl
  · have hparts : (ofText text).parts = text.pieces '/' := List.filter_eq_self.2 hmeaningful
    have hsome : text.pieces '/' ≠ [] := by
      rw [Text.pieces, Ne, List.map_eq_nil_iff]
      exact Text.splitOn_ne_nil (.char '/') text.points
    have hdot : ¬((ofText text).root = .relative ∧ (ofText text).parts = []) := by
      intro hnone
      exact hsome (hparts ▸ hnone.2)
    rw [Path.text, if_neg hdot, hrelative, hparts]
    apply Text.eq_of_points_eq
    show [CodePoint.char '/'].intercalate ((text.pieces '/').map Text.points) = text.points
    rw [Text.pieces, List.map_map]
    show [CodePoint.char '/'].intercalate ((Text.splitOn (.char '/') text.points).map id) = _
    rw [List.map_id, Text.intercalate_splitOn]

/-! ## Seen from a base -/

/-- A path is found from a base when it starts where the base does, with the parts of the base;
what is found has no root and the other parts. -/
theorem relativeTo?_eq_some_iff {path base rest : Path} :
    path.relativeTo? base = some rest ↔
      rest.root = .relative ∧ path.root = base.root ∧ path.parts = base.parts ++ rest.parts := by
  unfold relativeTo?
  split
  · rename_i hroot
    rw [Option.map_eq_some_iff]
    constructor
    · intro h
      obtain ⟨parts, hparts, rfl⟩ := h
      exact ⟨rfl, hroot, dropFront?_eq_some_iff.1 hparts⟩
    · intro h
      exact ⟨rest.parts, dropFront?_eq_some_iff.2 h.2.2, by rw [← h.1]⟩
  · rename_i hroot
    constructor
    · intro h
      contradiction
    · intro h
      exact absurd h.2.1 hroot

/-- What is found of a path from a base is found for the paths that lie below it. -/
theorem isSome_relativeTo? {path base : Path} :
    (path.relativeTo? base).isSome ↔ LiesBelow base path := by
  rw [Option.isSome_iff_exists]
  constructor
  · intro h
    obtain ⟨rest, hrest⟩ := h
    obtain ⟨-, hroot, hparts⟩ := relativeTo?_eq_some_iff.1 hrest
    exact ⟨hroot, rest.parts, hparts.symm⟩
  · intro h
    obtain ⟨parts, hparts⟩ := h.parts
    exact ⟨⟨.relative, parts⟩, relativeTo?_eq_some_iff.2 ⟨rfl, h.root, hparts.symm⟩⟩

/-- The text of what is found of a path from a base is the only one without superfluous parts
that leads there. -/
theorem leadsTo_iff {path base rest : Path} (hnormal : path.IsNormal)
    (hrest : path.relativeTo? base = some rest) (way : Text) :
    LeadsTo base path way ↔ way = rest.text := by
  obtain ⟨hrelative, hroot, hparts⟩ := relativeTo?_eq_some_iff.1 hrest
  have hrestNormal : rest.IsNormal := by
    intro part hpart
    exact hnormal part (hparts ▸ List.mem_append_right _ hpart)
  constructor
  · intro h
    have hjoin : base.join (ofText way) = ⟨base.root, base.parts ++ (ofText way).parts⟩ := by
      rw [join, isAbsolute, h.relative]
      rfl
    have hfound : path.relativeTo? base = some (ofText way) :=
      relativeTo?_eq_some_iff.2 ⟨h.relative, hroot, by rw [← h.joined, hjoin]⟩
    have hsame : rest = ofText way := Option.some.inj (hrest.symm.trans hfound)
    rw [hsame, text_ofText h.relative h.plain]
  · intro h
    subst h
    have hback : ofText rest.text = rest := ofText_text hrestNormal
    exact ⟨by rw [hback, hrelative], by rw [hback, join_relativeTo? hrest],
      isPlain_text hrestNormal hrelative⟩

/-- Exactly the base itself is found as a dot. -/
theorem text_eq_dot_iff {path base rest : Path} (hnormal : path.IsNormal)
    (hrest : path.relativeTo? base = some rest) : rest.text = "." ↔ path = base := by
  have hway : LeadsTo base path "." ↔ "." = rest.text := leadsTo_iff hnormal hrest "."
  have hstay : base.join (ofText ".") = base := by
    show (⟨base.root, base.parts ++ []⟩ : Path) = base
    rw [List.append_nil]
  constructor
  · intro h
    have hjoined := (hway.2 h.symm).joined
    rw [← hjoined, hstay]
  · intro h
    subst h
    exact (hway.1 ⟨rfl, hstay, .inl rfl⟩).symm

end Path

namespace FileRecord

/-- The key of a record seen from a base undoes joining. Below the base it is the one text without
superfluous parts that names a relative path and leads from the base to the key; it is a dot when
the key names the base itself. Anywhere else, and without a base, the key is as it is. -/
theorem resourcePath_undoes_join (record : FileRecord) (key : Text)
    (hkey : record.key = .text key) :
    (∀ base : Text, Path.LiesBelow (Path.ofText base) (Path.ofText key) →
      ∃ way, record.resourcePath (.text base) = .ok (.text way) ∧
        (∀ other, Path.LeadsTo (Path.ofText base) (Path.ofText key) other ↔ other = way) ∧
        (way = "." ↔ Path.ofText key = Path.ofText base)) ∧
    (∀ base : Text, ¬Path.LiesBelow (Path.ofText base) (Path.ofText key) →
      record.resourcePath (.text base) = .ok (.text key)) ∧
    record.resourcePath .null = .ok (.text key) := by
  have hbelow : ∀ base : Text, record.resourcePath (.text base) =
      .ok (.text (pathBelow (Path.ofText base) key)) := by
    intro base
    rw [resourcePath, hkey]
    · rfl
    · exact fun h => nomatch h
  refine ⟨?below, ?apart, congrArg Except.ok hkey⟩
  case below =>
    intro base h
    obtain ⟨rest, hrest⟩ := Option.isSome_iff_exists.1 (Path.isSome_relativeTo?.2 h)
    have hnormal : (Path.ofText key).IsNormal := Path.isNormal_ofText key
    refine ⟨rest.text, ?_, Path.leadsTo_iff hnormal hrest, Path.text_eq_dot_iff hnormal hrest⟩
    rw [hbelow, pathBelow, hrest]
  case apart =>
    intro base h
    have hnone : (Path.ofText key).relativeTo? (Path.ofText base) = none := by
      rw [← Option.not_isSome_iff_eq_none, Path.isSome_relativeTo?]
      exact h
    rw [hbelow, pathBelow, hnone]

/-- A key that is spelled with superfluous parts. -/
def spelledKey : Text := "/project//src/./simple.c"

/-- A record under that key. -/
def spelledRecord : FileRecord where
  key := .text spelledKey
  measures := .empty
  functionComplexity := .empty .functionComplexityDistribution Limits.standardFunctions
  fileComplexity := .empty .fileComplexityDistribution Limits.standardFiles

/-- The record is found below its project, and no text but the one without superfluous parts leads
there. -/
theorem resourcePath_spelledRecord :
    spelledRecord.key = .text spelledKey ∧
      Path.LiesBelow (Path.ofText "/project/") (Path.ofText spelledKey) ∧
      spelledRecord.resourcePath (.text "/project/") = .ok (.text "src/simple.c") ∧
      ∀ other, Path.LeadsTo (Path.ofText "/project/") (Path.ofText spelledKey) other ↔
        other = "src/simple.c" := by
  have hlies : Path.LiesBelow (Path.ofText "/project/") (Path.ofText spelledKey) :=
    ⟨rfl, ["src", "simple.c"], by decide +kernel⟩
  have hleads : Path.LeadsTo (Path.ofText "/project/") (Path.ofText spelledKey) "src/simple.c" :=
    ⟨by decide +kernel, by decide +kernel, .inr (by decide +kernel)⟩
  obtain ⟨way, hway, hother, -⟩ :=
    (resourcePath_undoes_join spelledRecord spelledKey rfl).1 "/project/" hlies
  obtain rfl := (hother "src/simple.c").1 hleads
  exact ⟨rfl, hlies, hway, hother⟩

end FileRecord

end SourceGauge
