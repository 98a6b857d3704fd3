import SourceGauge.Text.Split

/-!
# Paths

Paths with slashes between their parts. Empty parts and single dots carry no meaning and are
dropped when a path is read; double dots are kept, since only the file system can say what
they lead to. A path that starts with exactly two slashes has a root of its own.
-/

namespace SourceGauge

/-- Where a path starts. -/
inductive PathRoot
  | relative
  | single
  | double
  deriving DecidableEq, Repr

/-- The slashes of a root. -/
def PathRoot.text : PathRoot → String
  | .relative => ""
  | .single => "/"
  | .double => "//"

/-- A root and the parts below it. -/
structure Path where
  root : PathRoot
  parts : List Text
  deriving DecidableEq, Repr

namespace Path

/-- The root that a text starts with. -/
def rootOf : List CodePoint → PathRoot
  | .char '/' :: .char '/' :: .char '/' :: _ => .single
  | .char '/' :: .char '/' :: _ => .double
  | .char '/' :: _ => .single
  | _ => .relative

/-- Whether a part carries meaning. -/
def isMeaningful (part : Text) : Bool := !part.isEmpty && part != "."

/-- The path a text denotes. -/
def ofText (text : Text) : Path := ⟨rootOf text.points, (text.pieces '/').filter isMeaningful⟩

/-- The text of a path; a relative path without parts is a dot. -/
def text (path : Path) : Text :=
  if path.root = .relative ∧ path.parts = [] then "."
  else path.root.text ++ Text.intercalate "/" path.parts

/-- Whether a path starts at a root. -/
def isAbsolute (path : Path) : Bool := path.root != .relative

/-- A path seen from a base: an absolute path stays as it is. -/
def join (base path : Path) : Path :=
  if path.isAbsolute then path else ⟨base.root, base.parts ++ path.parts⟩

/-- What remains of a list after another one at its front. -/
def dropFront? {α : Type} [DecidableEq α] : List α → List α → Option (List α)
  | [], rest => some rest
  | _ :: _, [] => none
  | a :: front, b :: rest => if a = b then dropFront? front rest else none

/-- The path from a base to a path below it; `none` if the path does not lie below the base. -/
def relativeTo? (path base : Path) : Option Path :=
  if path.root = base.root then (dropFront? base.parts path.parts).map fun rest =>
    ⟨.relative, rest⟩
  else none

/-- Parts with every double dot taking off the part before it, as far as there is one. -/
def collapse (parts : List Text) : List Text :=
  (parts.foldl (fun above (part : Text) => if part == ".." then above.drop 1 else part :: above)
    []).reverse

/-- An absolute path without double dots, found from its text alone. -/
def collapsed (path : Path) : Path := ⟨path.root, collapse path.parts⟩

/-- What remains after the front makes up the whole together with it. -/
theorem dropFront?_eq_some_iff {α : Type} [DecidableEq α] {front whole rest : List α} :
    dropFront? front whole = some rest ↔ whole = front ++ rest := by
  induction front generalizing whole with
  | nil => simp [dropFront?, eq_comm]
  | cons a front ih =>
    cases whole with
    | nil => simp [dropFront?]
    | cons b whole =>
      simp only [dropFront?, List.cons_append, List.cons.injEq]
      split
      · rename_i hab
        simp [ih, hab]
      · rename_i hab
        simp [Ne.symm hab]

/-- A path found relative to a base leads from the base back to the path. -/
theorem join_relativeTo? {path base rest : Path} (h : path.relativeTo? base = some rest) :
    base.join rest = path := by
  unfold relativeTo? at h
  split at h
  · rename_i hroot
    obtain ⟨parts, hparts, hrest⟩ := Option.map_eq_some_iff.1 h
    have hwhole := dropFront?_eq_some_iff.1 hparts
    subst hrest
    cases path
    cases base
    simp_all [join, isAbsolute]
  · contradiction

end Path

end SourceGauge
