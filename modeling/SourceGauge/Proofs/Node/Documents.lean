import SourceGauge.Node.Document
import SourceGauge.Proofs.Node.Reading
import SourceGauge.Proofs.Text.Decoding

/-!
# What loading a node dump document says about the file

The octets of a file that can be read decide what comes of loading it. Nodes are loaded exactly if
the octets are the encoding of some characters that are a document with a list of dumps, and each of
these is the dump of a node; then the nodes stand in the order of the list. Everything else is
refused, and each refusal has one cause.

Octets that are no text, a text that is no document and a document without a list of dumps are all
to be refused with the complaint that a description of nodes is malformed. The first of them are
not: that they cannot be decoded is let out as it is.
-/

namespace SourceGauge.NodeDocument

/-- Octets are the encoding of a text, line ends of whatever form being read as one character. -/
def IsText (octets : List UInt8) (cs : List Char) : Prop :=
  ∃ written, octets = Utf8.octetsOf written ∧ cs = Text.unifyLineEnds written

/-- A document has a list of dumps: it is one, or a table with one in its place. -/
inductive IsNodeList : Value → List Value → Prop
  | list (records : List Value) : IsNodeList (.list records) records
  | table {entries : List (Text × Value)} {records : List Value}
    (h : Value.lookup "nodes" entries = some (.list records)) : IsNodeList (.table entries) records

/-- Octets are a text that is a document. -/
def IsDocument (octets : List UInt8) (document : Value) : Prop :=
  ∃ cs, IsText octets cs ∧ Json.read cs = .ok document

/-- Octets are a document with a list of dumps that are those of nodes, in their order. -/
def HoldsNodes (octets : List UInt8) (nodes : List SourceNode) : Prop :=
  ∃ document records, IsDocument octets document ∧ IsNodeList document records ∧
    records.map SourceNode.ofValue = nodes.map .ok

/-- Octets are no document with a list of dumps: they are no text, or one that is no document, or a
document without such a list. -/
inductive HoldsNoList (octets : List UInt8) : Prop
  | noText (h : ∀ cs, ¬IsText octets cs)
  | noDocument {cs : List Char} {fault : Json.Fault} (htext : IsText octets cs)
    (h : Json.read cs = .error (.fault fault))
  | noList {document : Value} (hdocument : IsDocument octets document)
    (h : ∀ records, ¬IsNodeList document records)

/-- Why octets of a file at a path are refused, and what they are refused with: they are no text,
the text is no document, a number in it has too many digits or something in it is nested too deep,
the document has no list of dumps, or the first dump that is not accepted is refused. -/
inductive RefusalCause (path : Path) (octets : List UInt8) : Failure → Prop
  | noText {fault : Utf8.Fault} (htext : ∀ cs, ¬IsText octets cs)
    (h : Utf8.decode octets = .error fault) : RefusalCause path octets (.undecodable fault)
  | noDocument {cs : List Char} {fault : Json.Fault} (htext : IsText octets cs)
    (h : Json.read cs = .error (.fault fault)) :
    RefusalCause path octets (.node (.invalidDocument path fault) none)
  | tooManyDigits {cs : List Char} {count : Nat} (htext : IsText octets cs)
    (h : Json.read cs = .error (.tooManyDigits count)) :
    RefusalCause path octets (.value (.tooManyDigits count))
  | tooDeep {cs : List Char} {container : Json.Container} (htext : IsText octets cs)
    (h : Json.read cs = .error (.tooDeep container)) :
    RefusalCause path octets (.nesting (.dump container))
  | noList {document : Value} (hdocument : IsDocument octets document)
    (h : ∀ records, ¬IsNodeList document records) :
    RefusalCause path octets (.node (.noNodeList path) none)
  | dump {document record : Value} {before after : List Value} {failure : Failure}
    (hdocument : IsDocument octets document)
    (hlist : IsNodeList document (before ++ record :: after))
    (hbefore : ∀ other ∈ before, ∃ node, SourceNode.ofValue other = .ok node)
    (h : SourceNode.ofValue record = .error failure) : RefusalCause path octets failure

variable {host : Host} {path : Path} {octets : List UInt8} {failure : Failure}

/-! ## Steps -/

theorem recordsOf?_eq_some_iff {document : Value} {records : List Value} :
    recordsOf? document = some records ↔ IsNodeList document records := by
  constructor
  · intro h
    unfold recordsOf? at h
    split at h
    · obtain rfl := Option.some.inj h
      exact .list _
    · split at h
      · rename_i hlookup
        obtain rfl := Option.some.inj h
        exact .table hlookup
      · contradiction
    · contradiction
  · intro h
    cases h with
    | list => rfl
    | table h => rw [recordsOf?, h]

/-- A document without a list of dumps is one in which none is found. -/
theorem recordsOf?_eq_none_iff {document : Value} :
    recordsOf? document = none ↔ ∀ records, ¬IsNodeList document records := by
  rw [Option.eq_none_iff_forall_ne_some]
  exact forall_congr' fun records => recordsOf?_eq_some_iff.not

/-- The characters of a file that can be read are those that its octets are decoded to. -/
theorem readChars_of_readFile (h : host.readFile path = .ok octets) : readChars host path =
    ((Utf8.decode octets).mapError .undecodable).map Text.unifyLineEnds := by
  have htext : host.readText path = (Utf8.decode octets).mapError .undecodable := by
    rw [Host.readText, h]
    rfl
  rw [readChars, htext]
  cases Utf8.decode octets <;> rfl

theorem readChars_eq_ok_iff (h : host.readFile path = .ok octets) {cs : List Char} :
    readChars host path = .ok cs ↔ IsText octets cs := by
  rw [readChars_of_readFile h, map_eq_ok_iff]
  constructor
  · intro hchars
    obtain ⟨written, hwritten, hcs⟩ := hchars
    exact ⟨written, Utf8.decode_eq_ok_iff.1 (mapError_eq_ok_iff.1 hwritten), hcs.symm⟩
  · intro htext
    obtain ⟨written, hwritten, hcs⟩ := htext
    exact ⟨written, mapError_eq_ok_iff.2 (Utf8.decode_eq_ok_iff.2 hwritten), hcs.symm⟩

theorem readChars_eq_error_iff (h : host.readFile path = .ok octets) :
    readChars host path = .error failure ↔
      ∃ fault, Utf8.decode octets = .error fault ∧ .undecodable fault = failure := by
  rw [readChars_of_readFile h, map_eq_error_iff, mapError_eq_error_iff]

/-- Octets that cannot be decoded are no text. -/
theorem not_isText_of_decode {fault : Utf8.Fault} (h : Utf8.decode octets = .error fault)
    (cs : List Char) : ¬IsText octets cs := by
  intro htext
  obtain ⟨written, hwritten, -⟩ := htext
  rw [Utf8.decode_eq_ok_iff.2 hwritten] at h
  contradiction

theorem parse_eq_ok_iff {cs : List Char} {document : Value} :
    parse path cs = .ok document ↔ Json.read cs = .ok document := by
  rw [parse]
  cases Json.read cs with
  | ok value =>
    show Except.ok value = _ ↔ _
    rw [Except.ok.injEq, Except.ok.injEq]
  | error refusal => cases refusal <;> exact ⟨nofun, nofun⟩

/-- A document is read from octets exactly if they hold it. -/
theorem document_eq_ok_iff (h : host.readFile path = .ok octets) {document : Value} :
    (readChars host path).bind (parse path) = .ok document ↔ IsDocument octets document := by
  rw [bind_eq_ok_iff]
  simp only [readChars_eq_ok_iff h, parse_eq_ok_iff, IsDocument]

/-- Nodes are found in a document exactly if it lists their dumps in their order. -/
theorem nodesOf_eq_ok_iff {document : Value} {nodes : List SourceNode} :
    nodesOf path document = .ok nodes ↔ ∃ records, IsNodeList document records ∧
      records.map SourceNode.ofValue = nodes.map .ok := by
  rw [nodesOf]
  cases hrecords : recordsOf? document with
  | some records =>
    have hlist := recordsOf?_eq_some_iff.1 hrecords
    rw [mapOk_eq_ok_iff]
    constructor
    · intro h
      exact ⟨records, hlist, h⟩
    · intro h
      obtain ⟨others, hothers, h⟩ := h
      obtain rfl := Option.some.inj (hrecords.symm.trans (recordsOf?_eq_some_iff.2 hothers))
      exact h
  | none =>
    have hnone := recordsOf?_eq_none_iff.1 hrecords
    exact ⟨nofun, fun ⟨records, hlist, _⟩ => absurd hlist (hnone records)⟩

/-- A document is refused for want of a list, or for the first dump that is not accepted. -/
theorem nodesOf_eq_error_iff {document : Value} :
    nodesOf path document = .error failure ↔
      ((∀ records, ¬IsNodeList document records) ∧ .node (.noNodeList path) none = failure) ∨
      ∃ before record after, IsNodeList document (before ++ record :: after) ∧
        (∀ other ∈ before, ∃ node, SourceNode.ofValue other = .ok node) ∧
        SourceNode.ofValue record = .error failure := by
  rw [nodesOf]
  cases hrecords : recordsOf? document with
  | some records =>
    have hlist := recordsOf?_eq_some_iff.1 hrecords
    simp only [mapOk_eq_error_iff]
    constructor
    · intro h
      obtain ⟨before, record, after, rfl, h⟩ := h
      exact .inr ⟨before, record, after, hlist, h⟩
    · intro h
      rcases h with ⟨hnone, -⟩ | ⟨before, record, after, hothers, h⟩
      · exact absurd hlist (hnone records)
      · have hsame := Option.some.inj (hrecords.symm.trans (recordsOf?_eq_some_iff.2 hothers))
        exact ⟨before, record, after, hsame, h⟩
  | none =>
    have hnone := recordsOf?_eq_none_iff.1 hrecords
    constructor
    · intro h
      exact .inl ⟨hnone, Except.error.inj h⟩
    · intro h
      rcases h with ⟨-, rfl⟩ | ⟨before, record, after, hlist, -⟩
      · rfl
      · exact absurd hlist (hnone _)

/-! ## Loading -/

/-- What comes of loading, apart from the report. -/
theorem outcome_load (host : Host) (path : Path) : (load host path).outcome =
    ((readChars host path).bind (parse path)).bind (nodesOf path) := by
  have hread : read host path =
      (readChars host path).bind fun cs => (parse path cs).bind (nodesOf path) := rfl
  have hreport : (load host path).outcome = (read host path).bind .ok := by
    rw [load, Run.outcome_andThen]
    rfl
  rw [hreport, hread]
  cases readChars host path with
  | error failure => rfl
  | ok cs =>
    rw [ok_bind, ok_bind]
    cases parse path cs with
    | error failure => rfl
    | ok document =>
      rw [ok_bind]
      cases nodesOf path document <;> rfl

/-- Nodes are loaded exactly from octets that hold them. -/
theorem outcome_load_eq_ok_iff (h : host.readFile path = .ok octets) {nodes : List SourceNode} :
    (load host path).outcome = .ok nodes ↔ HoldsNodes octets nodes := by
  rw [outcome_load, bind_eq_ok_iff]
  simp only [document_eq_ok_iff h, nodesOf_eq_ok_iff]
  constructor
  · intro hloaded
    obtain ⟨document, hdocument, records, hrecords⟩ := hloaded
    exact ⟨document, records, hdocument, hrecords⟩
  · intro hholds
    obtain ⟨document, records, hdocument, hrecords⟩ := hholds
    exact ⟨document, hdocument, records, hrecords⟩

/-- No document is read from octets that are no text, or a text that is refused. -/
theorem document_eq_error_iff (h : host.readFile path = .ok octets) :
    (readChars host path).bind (parse path) = .error failure ↔
      (∃ fault, Utf8.decode octets = .error fault ∧ .undecodable fault = failure) ∨
        ∃ cs, IsText octets cs ∧ parse path cs = .error failure := by
  rw [bind_eq_error_iff, readChars_eq_error_iff h]
  simp only [readChars_eq_ok_iff h]

/-- A failure comes of loading exactly if there is a cause for it. -/
theorem outcome_load_eq_error_iff (h : host.readFile path = .ok octets) :
    (load host path).outcome = .error failure ↔ RefusalCause path octets failure := by
  rw [outcome_load, bind_eq_error_iff, document_eq_error_iff h]
  simp only [document_eq_ok_iff h, nodesOf_eq_error_iff]
  constructor
  · intro hfailed
    rcases hfailed with (⟨fault, hfault, rfl⟩ | ⟨cs, htext, hparse⟩) |
      ⟨document, hdocument, ⟨hnone, rfl⟩ | ⟨before, record, after, hlist, hbefore, hrecord⟩⟩
    · exact .noText (not_isText_of_decode hfault) hfault
    · unfold parse at hparse
      split at hparse
      · contradiction
      · rename_i hjson
        rw [← Except.error.inj hparse]
        exact .noDocument htext hjson
      · rename_i hjson
        rw [← Except.error.inj hparse]
        exact .tooManyDigits htext hjson
      · rename_i hjson
        rw [← Except.error.inj hparse]
        exact .tooDeep htext hjson
    · exact .noList hdocument hnone
    · exact .dump hdocument hlist hbefore hrecord
  · intro hcause
    cases hcause with
    | noText _ hfault => exact .inl (.inl ⟨_, hfault, rfl⟩)
    | noDocument htext hjson => exact .inl (.inr ⟨_, htext, by rw [parse, hjson]⟩)
    | tooManyDigits htext hjson => exact .inl (.inr ⟨_, htext, by rw [parse, hjson]⟩)
    | tooDeep htext hjson => exact .inl (.inr ⟨_, htext, by rw [parse, hjson]⟩)
    | noList hdocument hnone => exact .inr ⟨_, hdocument, .inl ⟨hnone, rfl⟩⟩
    | dump hdocument hlist hbefore hrecord =>
      exact .inr ⟨_, hdocument, .inr ⟨_, _, _, hlist, hbefore, hrecord⟩⟩

/-- Only a text is refused with the complaint that a description of nodes is malformed. -/
theorem RefusalCause.exists_isText (hcause : RefusalCause path octets failure)
    (hmalformed : failure.isMalformedNode = true) : ∃ cs, IsText octets cs := by
  cases hcause with
  | noText => contradiction
  | noDocument htext => exact ⟨_, htext⟩
  | tooManyDigits htext => exact ⟨_, htext⟩
  | tooDeep htext => exact ⟨_, htext⟩
  | noList hdocument => exact hdocument.imp fun _ => And.left
  | dump hdocument => exact hdocument.imp fun _ => And.left

/-- A text without a list of dumps is refused with that complaint. -/
theorem HoldsNoList.exists_malformed (hnone : HoldsNoList octets) {cs : List Char}
    (htext : IsText octets cs) :
    ∃ failure, RefusalCause path octets failure ∧ failure.isMalformedNode = true := by
  cases hnone with
  | noText hno => exact absurd htext (hno cs)
  | noDocument hother hjson => exact ⟨_, .noDocument hother hjson, rfl⟩
  | noList hdocument hno => exact ⟨_, .noList hdocument hno, rfl⟩

/-- The octets of a file that can be read decide what comes of loading it: nodes, exactly if the
octets hold them, and a failure, exactly if there is a cause for it. Octets without a list of dumps
are refused with the complaint that a description of nodes is malformed if and only if they are a
text. -/
theorem load_of_readFile (host : Host) (path : Path) (octets : List UInt8)
    (h : host.readFile path = .ok octets) :
    (∀ nodes, (load host path).outcome = .ok nodes ↔ HoldsNodes octets nodes) ∧
    (∀ failure, (load host path).outcome = .error failure ↔ RefusalCause path octets failure) ∧
    (HoldsNoList octets →
      ((∃ failure, (load host path).outcome = .error failure ∧ failure.isMalformedNode = true) ↔
        ∃ cs, IsText octets cs)) := by
  refine ⟨fun nodes => outcome_load_eq_ok_iff h, fun failure => outcome_load_eq_error_iff h, ?_⟩
  intro hnone
  simp only [outcome_load_eq_error_iff h]
  constructor
  · intro hfailed
    obtain ⟨failure, hcause, hmalformed⟩ := hfailed
    exact hcause.exists_isText hmalformed
  · intro htext
    obtain ⟨cs, htext⟩ := htext
    exact hnone.exists_malformed htext

/-- The name of a dump file. -/
def dumpName : Text := "nodes.json"

/-- A host with nothing but a dump file. -/
def dumpHost (octets : List UInt8) : Host where
  tree := FileTree.empty.writeFile [dumpName] octets
  workingDirectory := []
  home := none
  environment := []
  time := ""

theorem readFile_dumpHost (octets : List UInt8) :
    (dumpHost octets).readFile (.ofText dumpName) = .ok octets := rfl

/-- A file node that nothing was measured of. -/
def bareFile (key : Text) : SourceNode where
  id := ⟨.file, key⟩
  metrics := .empty
  parent := none
  valid := SourceNode.valid_empty

/-- The text of a dump of a file node. -/
def dumpText (key : Char) : List Char :=
  ['{', '"', 'k', 'i', 'n', 'd', '"', ':', '"', 'f', 'i', 'l', 'e', '"', ',',
    '"', 'k', 'e', 'y', '"', ':', '"', key, '"', '}']

/-- The text of a list of two dumps. -/
def twoDumps : List Char := '[' :: dumpText 'b' ++ ',' :: dumpText 'a' ++ [']']

/-- The two dumps. -/
def twoTables : List Value :=
  [.table [("kind", .text "file"), ("key", .text "b")],
    .table [("kind", .text "file"), ("key", .text "a")]]

/-- Two dumps are loaded as two nodes, in their order. -/
theorem load_twoDumps :
    (dumpHost (Utf8.octetsOf twoDumps)).readFile (.ofText dumpName) =
        .ok (Utf8.octetsOf twoDumps) ∧
      (load (dumpHost (Utf8.octetsOf twoDumps)) (.ofText dumpName)).outcome =
        .ok [bareFile "b", bareFile "a"] := by
  have hread := readFile_dumpHost (Utf8.octetsOf twoDumps)
  have hjson : Json.read twoDumps = .ok (.list twoTables) := rfl
  have hnodes : twoTables.map SourceNode.ofValue = [bareFile "b", bareFile "a"].map .ok := rfl
  have hdocument : IsDocument (Utf8.octetsOf twoDumps) (.list twoTables) :=
    ⟨twoDumps, ⟨twoDumps, rfl, rfl⟩, hjson⟩
  exact ⟨hread, ((load_of_readFile _ _ _ hread).1 _).2
    ⟨_, _, hdocument, .list twoTables, hnodes⟩⟩

/-- A file that is no text lets out that it cannot be decoded. -/
theorem load_undecodable :
    HoldsNoList [0xFF] ∧
      (load (dumpHost [0xFF]) (.ofText dumpName)).outcome =
        .error (.undecodable ⟨0, [0xFF], .invalidStart⟩) ∧
      (Failure.undecodable ⟨0, [0xFF], .invalidStart⟩).isMalformedNode = false :=
  ⟨.noText (not_isText_of_decode rfl), rfl, rfl⟩

end SourceGauge.NodeDocument
