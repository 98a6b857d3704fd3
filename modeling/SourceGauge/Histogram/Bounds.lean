import SourceGauge.Failure.Basic
import SourceGauge.Outcome

/-!
# Bucket bounds

The buckets of a histogram are given by their lower bounds: at least one finite number, truth
values excluded, in strictly increasing order. The order is exact over whole numbers and
reals. Only neighbours have to be compared when bounds are read, since the order of numbers is
transitive; the type keeps the order of every pair.
-/

namespace SourceGauge

/-- Whether a number can be a bound: it is finite and not a truth value. -/
def isBound : Number → Bool
  | .flag _ => false
  | n => n.isFinite? == some true

/-- Lower bounds of buckets. -/
structure Bounds where
  values : List Number
  nonempty : values ≠ []
  bound : ∀ b ∈ values, isBound b = true
  increasing : values.Pairwise fun a b => a.lt b = true

namespace Bounds

/-- The bound that a value is. -/
def toBound (all : List Value) (value : Value) : Except Failure Number :=
  match value with
  | .number (.flag _) => .error (.ofBounds all (.notFinite value))
  | .number n =>
    match n.isFinite? with
    | some true => .ok n
    | some false => .error (.ofBounds all (.notFinite value))
    | none => .error (.overflow .real)
  | _ => .error (.ofBounds all (.notFinite value))

/-- The first neighbours that do not increase. -/
def firstFall? : List Number → Option (Number × Number)
  | a :: b :: rest => if b.le a then some (a, b) else firstFall? (b :: rest)
  | _ => none

/-- What is accepted as a bound is one. -/
theorem isBound_of_toBound {all : List Value} {value : Value} {n : Number}
    (h : toBound all value = .ok n) : isBound n = true := by
  unfold toBound at h
  split at h
  · contradiction
  · rename_i m hflag
    split at h
    · rename_i hfinite
      injection h with h
      subst h
      cases m with
      | flag b => exact absurd rfl (hflag b)
      | int i => simp [isBound, hfinite]
      | real x => simp [isBound, hfinite]
    · contradiction
    · contradiction
  · contradiction

/-- A bound lies on the line. -/
theorem extent?_of_isBound {n : Number} (h : isBound n = true) : ∃ x, n.extent? = some x := by
  cases n with
  | flag b => simp [isBound] at h
  | int i => simp [Number.extent?]
  | real x =>
    cases x with
    | nan => simp [isBound, Number.isFinite?, Number.toBinary64?, Binary64.isFinite] at h
    | infinite s => simp [Number.extent?]
    | finite s u r => simp [Number.extent?]

/-- A bound is finite. -/
theorem isFinite?_of_isBound {n : Number} (h : isBound n = true) : n.isFinite? = some true := by
  cases n with
  | flag b => simp [isBound] at h
  | int i => exact beq_iff_eq.1 h
  | real x => exact beq_iff_eq.1 h

/-- Of two bounds one is at most the other or the other is less than it. -/
theorem lt_of_not_le {a b : Number} (ha : isBound a = true) (hb : isBound b = true)
    (h : b.le a = false) : a.lt b = true := by
  obtain ⟨x, hx⟩ := extent?_of_isBound ha
  obtain ⟨y, hy⟩ := extent?_of_isBound hb
  simpa [Number.lt, Number.le, hx, hy] using h

/-- Bounds whose neighbours increase are increasing throughout. -/
theorem pairwise_of_firstFall? {ns : List Number} (hbound : ∀ n ∈ ns, isBound n = true)
    (h : firstFall? ns = none) : ns.Pairwise fun a b => a.lt b = true := by
  induction ns with
  | nil => exact .nil
  | cons a rest ih =>
    cases rest with
    | nil => simp
    | cons b others =>
      unfold firstFall? at h
      split at h
      · contradiction
      · rename_i hba
        have hrest := ih (fun n hn => hbound n (List.mem_cons_of_mem a hn)) h
        have hab : a.lt b = true :=
          lt_of_not_le (hbound a (by simp)) (hbound b (by simp)) (by simpa using hba)
        refine List.pairwise_cons.2 ⟨fun c hc => ?_, hrest⟩
        rcases List.mem_cons.1 hc with rfl | hc
        · exact hab
        · exact Number.lt_trans hab ((List.pairwise_cons.1 hrest).1 c hc)

/-- Read bounds from a list of values. -/
def ofList (all : List Value) : Except Failure Bounds :=
  match all with
  | [] => .error (.bounds [] .empty)
  | _ :: _ =>
    match h : mapOk (toBound all) all with
    | .error failure => .error failure
    | .ok values =>
      match hfall : firstFall? values with
      | some (lower, upper) => .error (.ofBounds all (.notIncreasing lower upper))
      | none =>
        if hvalues : values = [] then .error (.ofBounds all .empty)
        else
          have hbound : ∀ b ∈ values, isBound b = true := fun _ hb =>
            let ⟨_, _, hok⟩ := exists_of_mem_mapOk h hb
            isBound_of_toBound hok
          .ok ⟨values, hvalues, hbound, pairwise_of_firstFall? hbound hfall⟩

/-- The bounds that are read are the values that were given, in their order. -/
theorem mapOk_of_ofList {all : List Value} {bounds : Bounds} (h : ofList all = .ok bounds) :
    mapOk (toBound all) all = .ok bounds.values := by
  unfold ofList at h
  split at h
  · contradiction
  · dsimp only at h
    split at h
    · contradiction
    · rename_i values hvalues
      split at h
      · contradiction
      · split at h
        · contradiction
        · injection h with h
          subst h
          exact hvalues

/-- Read bounds from a value. -/
def ofValue (value : Value) : Except Failure Bounds := value.elements.bind ofList

/-- The number of buckets. -/
def size (bounds : Bounds) : Nat := bounds.values.length

/-- There is at least one bucket. -/
theorem size_pos (bounds : Bounds) : 0 < bounds.size :=
  List.length_pos_iff.2 bounds.nonempty

/-- The lowest bound. -/
def lowest (bounds : Bounds) : Number := bounds.values.head bounds.nonempty

/-- Whether two numbers lists are numerically equal, place by place. -/
def sameNumbers : List Number → List Number → Bool
  | [], [] => true
  | a :: as, b :: bs => a.eqv b && sameNumbers as bs
  | _, _ => false

/-- Whether two lists of bounds are numerically equal. -/
def same (a b : Bounds) : Bool := sameNumbers a.values b.values

/-- The bounds as the search sees them: rounded to binary64. -/
def limits (bounds : Bounds) : List Binary64 := bounds.values.filterMap Number.toBinary64?

/-- A bound as written in the text of a histogram: whole numbers without a point. -/
def boundText (n : Number) : String :=
  match n with
  | .real x => match x.integer? with
    | some i => toString i
    | none => x.text
  | other => other.text

end Bounds

end SourceGauge
