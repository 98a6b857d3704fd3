import SourceGauge.Proofs.Node.Acceptance
import SourceGauge.Proofs.Session.Conservation

/-!
# Histories of a session

What a session and its store come to over any sequence of calls, whatever each of them meets with:
a base directory that is not there, nodes that cannot be converted, collections that have no
index, metrics that are missing. A call that fails leaves the store as it was, and a call that
succeeds has saved the records that it returns, so that the store is always what saving the
returned records makes of the empty one. The index of the session goes by another rule: it is
replaced as soon as a new one is built, even if nothing is returned then.

Every call has surroundings of its own, and its conduct may be any at all. That a failure of
aggregation names a gap needs a conduct that can occur and fewer than `2 ^ 63` nodes.
-/

namespace SourceGauge

/-- Records go by texts, which strictly ascend. -/
def FileRecord.Ascending (records : List FileRecord) : Prop :=
  ∃ names : List Text, records.map FileRecord.key = names.map .text ∧
    names.Pairwise fun a b => a.le b = true ∧ a ≠ b

/-- The records of a pass ascend. -/
theorem Aggregator.ascending_of_outcome_aggregateBy {conduct : Conduct} {aggregator : Aggregator}
    {index : NodeIndex} {records : List FileRecord}
    (h : (aggregateBy conduct aggregator index).outcome = .ok records) :
    FileRecord.Ascending records := by
  refine ⟨(sortedFiles conduct index).map SourceNode.key, ?_, ?_⟩
  · rw [map_key_of_mapOk_measureFile (mapOk_of_outcome_aggregateBy h), List.map_map]
    rfl
  · exact List.pairwise_map.2 (pairwise_lt_sortedFiles conduct index)

namespace RecordStore

/-- Save records one after the other. -/
def saveAll (store : RecordStore) : List FileRecord → Run RecordStore
  | [] => .done store
  | record :: rest => (store.save record).andThen fun next => next.saveAll rest

theorem outcome_saveAll_append (store : RecordStore) (records others : List FileRecord) :
    (store.saveAll (records ++ others)).outcome =
      (store.saveAll records).outcome.bind fun next => (next.saveAll others).outcome := by
  induction records generalizing store with
  | nil => rfl
  | cons record rest ih =>
    simp only [List.cons_append, saveAll, Run.outcome_andThen, ih]
    cases (store.save record).outcome <;> rfl

/-- Records whose keys can be keys are all saved. -/
theorem outcome_saveAll_of_hashable (store : RecordStore) {records : List FileRecord}
    (h : ∀ record ∈ records, record.key.isHashable = true) :
    (store.saveAll records).outcome = .ok (store.putAll records) := by
  induction records generalizing store with
  | nil => rfl
  | cons record rest ih =>
    rw [saveAll, Run.outcome_andThen, store.save_outcome (h record List.mem_cons_self), ok_bind]
    exact ih (store.put record) fun other hother => h other (List.mem_cons_of_mem record hother)

/-- Records that go by texts are all saved. -/
theorem outcome_saveAll_of_texts (store : RecordStore) {records : List FileRecord}
    {names : List Text} (hkeys : records.map FileRecord.key = names.map .text) :
    (store.saveAll records).outcome = .ok (store.putAll records) := by
  refine outcome_saveAll_of_hashable store fun record hrecord => ?_
  have hkey : record.key ∈ names.map Value.text := hkeys ▸ List.mem_map_of_mem hrecord
  obtain ⟨name, _, hname⟩ := List.mem_map.1 hkey
  rw [← hname]
  rfl

end RecordStore

namespace Session

/-- One call of a session: the surroundings and the project that it meets with, what the scanner
converts for a request, up to the first node that cannot be converted, and the conduct by which an
index is aggregated. -/
structure Call where
  host : Host
  project : Project
  scan : ScanRequest → List (Except Failure SourceNode)
  conduct : NodeIndex → Conduct

namespace Call

/-- What the scanner is asked for in a call, if it is asked. -/
def request? (settings : Settings) (call : Call) : Option ScanRequest :=
  match call.project.configuration settings call.host with
  | .ok configuration => some ⟨call.project.files, configuration⟩
  | .error _ => none

/-- The index that is built in a call, if one is. -/
def index? (settings : Settings) (call : Call) : Option NodeIndex :=
  (call.request? settings).bind fun request => (NodeIndex.build (call.scan request)).outcome.toOption

/-- What a call of a session comes to. -/
def pass (ofMachine : Nat) (session : Session) (store : RecordStore) (call : Call) : Pass :=
  analyseBy call.conduct session call.host ofMachine call.project call.scan store

variable {ofMachine : Nat} {session : Session} {store : RecordStore} {call : Call}

/-- A call adds what it asks the scanner for to the requests, and replaces the index if it builds
one, however it ends. -/
theorem session_pass (ofMachine : Nat) (session : Session) (store : RecordStore) (call : Call) :
    (call.pass ofMachine session store).session =
      { session with
        index := (call.index? session.settings).or session.index
        requests := session.requests ++ (call.request? session.settings).toList } := by
  unfold pass analyseBy index? request?
  cases call.project.configuration session.settings call.host with
  | error failure => simp
  | ok configuration =>
    cases hbuild : (NodeIndex.build (call.scan ⟨call.project.files, configuration⟩)).outcome with
    | error failure =>
      simp only [hbuild, Option.bind_some, Except.toOption, Option.none_or, Option.toList_some]
    | ok index =>
      simp only [hbuild, Option.bind_some, Except.toOption, Option.some_or, Option.toList_some,
        Pass.after, finishBy]
      split <;> rfl

/-- A call without its base directory fails, and leaves the session and the store as they were:
the scanner is not asked. -/
theorem pass_of_no_directory
    (h : call.host.isDirectory call.project.baseDirectory = .ok false) :
    call.pass ofMachine session store =
      ⟨session, store, .fail (.path call.project.baseDirectory .noProject)⟩ := by
  have hconfiguration : call.project.configuration session.settings call.host =
      .error (.path call.project.baseDirectory .noProject) := by
    rw [Project.configuration, h]
    rfl
  rw [pass, analyseBy]
  simp only [hconfiguration]

/-- A call that succeeds returns ascending records and has saved them. -/
theorem saved_of_outcome_pass {records : List FileRecord}
    (h : (call.pass ofMachine session store).run.outcome = .ok records) :
    FileRecord.Ascending records ∧
      (store.saveAll records).outcome = .ok (call.pass ofMachine session store).store := by
  obtain ⟨_, _, index, _, haggregated⟩ := outcome_analyseBy_eq_ok_iff.1 h
  have hascending := Aggregator.ascending_of_outcome_aggregateBy haggregated
  refine ⟨hascending, ?_⟩
  obtain ⟨names, hkeys, _⟩ := hascending
  rw [store.outcome_saveAll_of_texts hkeys]
  exact congrArg Except.ok (store_analyseBy_of_ok h).symm

/-- Why a call can fail: its project has no configuration, a node was not converted, the nodes
before it have a fault, or a metric is missing. -/
inductive FailsFor (settings : Settings) (ofMachine : Nat) (call : Call) (failure : Failure) : Prop
  | unconfigured : call.project.configuration settings call.host = .error failure →
      FailsFor settings ofMachine call failure
  | unconverted (request : ScanRequest) (nodes : List SourceNode)
      (rest : List (Except Failure SourceNode)) : call.request? settings = some request →
      call.scan request = nodes.map .ok ++ rest → rest.head? = some (.error failure) →
        FailsFor settings ofMachine call failure
  | malformed (request : ScanRequest) (nodes : List SourceNode)
      (rest : List (Except Failure SourceNode)) : call.request? settings = some request →
      call.scan request = nodes.map .ok ++ rest → failure.NamesFirstFault nodes →
        FailsFor settings ofMachine call failure
  | unmeasured (index : NodeIndex) : call.index? settings = some index →
      (index.nodes.length < signedWordLimit →
        (call.conduct index).Occurs ((Session.new settings).aggregator ofMachine) index →
          failure.NamesGap index.nodes) → FailsFor settings ofMachine call failure

/-- A call fails for one of these reasons. -/
theorem failsFor_of_outcome_pass {failure : Failure}
    (h : (call.pass ofMachine session store).run.outcome = .error failure) :
    call.FailsFor session.settings ofMachine failure := by
  rw [pass, analyseBy] at h
  cases hconfiguration : call.project.configuration session.settings call.host with
  | error found =>
    simp only [hconfiguration, Run.outcome_fail, Except.error.injEq] at h
    exact .unconfigured (h ▸ hconfiguration)
  | ok configuration =>
    have hrequest : call.request? session.settings =
        some ⟨call.project.files, configuration⟩ := by rw [request?, hconfiguration]
    cases hbuild : (NodeIndex.build (call.scan ⟨call.project.files, configuration⟩)).outcome with
    | error found =>
      simp only [hconfiguration, hbuild, Except.error.injEq] at h
      subst h
      rw [NodeIndex.outcome_build] at hbuild
      obtain ⟨nodes, rest, hscan, hunconverted | hfault⟩ :=
        NodeIndex.failure_of_ofConverted hbuild
      · exact .unconverted _ nodes rest hrequest hscan hunconverted
      · exact .malformed _ nodes rest hrequest hscan hfault
    | ok index =>
      simp only [hconfiguration, hbuild, Pass.after, outcome_finishBy] at h
      refine .unmeasured index ?_ fun hsize hoccurs => ?_
      · rw [index?, hrequest, Option.bind_some, hbuild]
        rfl
      · exact Aggregator.namesGap_of_outcome_aggregateBy hoccurs hsize h

end Call

/-- A session and its store after some calls, with the outcomes of all of them in order. -/
structure History where
  session : Session
  store : RecordStore
  outcomes : List (Except Failure (List FileRecord))

namespace History

/-- The history of a new session and an empty store. -/
def new (settings : Settings) : History := ⟨.new settings, .empty, []⟩

/-- What one more call comes to. -/
def pass (ofMachine : Nat) (history : History) (call : Call) : Pass :=
  call.pass ofMachine history.session history.store

/-- One more call. -/
def add (ofMachine : Nat) (history : History) (call : Call) : History :=
  let pass := history.pass ofMachine call
  ⟨pass.session, pass.store, history.outcomes ++ [pass.run.outcome]⟩

/-- The history of some calls. -/
def ofCalls (settings : Settings) (ofMachine : Nat) (calls : List Call) : History :=
  calls.foldl (add ofMachine) (new settings)

/-- The records that a call has returned. -/
def returned : Except Failure (List FileRecord) → List FileRecord
  | .ok records => records
  | .error _ => []

/-- A history accounts for its calls: there is an outcome for each of them, the store holds what
saving the returned records makes of the empty store, all returned records ascend, the scanner was
asked once in every call with a configuration, and the index is the latest that was built. -/
structure Accounts (settings : Settings) (calls : List Call) (history : History) : Prop where
  length_eq : history.outcomes.length = calls.length
  saved : (RecordStore.empty.saveAll (history.outcomes.flatMap returned)).outcome =
    .ok history.store
  ascending : ∀ records, .ok records ∈ history.outcomes → FileRecord.Ascending records
  requests_eq : history.session.requests = calls.filterMap (Call.request? settings)
  index_eq : history.session.index = (calls.filterMap (Call.index? settings)).getLast?
  settings_eq : history.session.settings = settings

/-- A history without calls accounts for them. -/
theorem accounts_new (settings : Settings) : (new settings).Accounts settings [] where
  length_eq := rfl
  saved := rfl
  ascending := fun _ h => absurd h List.not_mem_nil
  requests_eq := rfl
  index_eq := rfl
  settings_eq := rfl

/-- One more call is accounted for. -/
theorem Accounts.add {settings : Settings} {calls : List Call} {history : History}
    (h : history.Accounts settings calls) (ofMachine : Nat) (call : Call) :
    (history.add ofMachine call).Accounts settings (calls ++ [call]) := by
  have hsession := call.session_pass ofMachine history.session history.store
  rw [h.settings_eq] at hsession
  refine
    { length_eq := by simp [History.add, h.length_eq]
      saved := ?_
      ascending := ?_
      requests_eq := ?_
      index_eq := ?_
      settings_eq := by rw [History.add, pass, hsession] }
  · rw [History.add, List.flatMap_append, RecordStore.outcome_saveAll_append, h.saved, ok_bind,
      List.flatMap_singleton]
    -- The last outcome adds its records, or nothing if it is a failure.
    cases houtcome : (history.pass ofMachine call).run.outcome with
    | ok records => exact (Call.saved_of_outcome_pass houtcome).2
    | error failure => exact congrArg Except.ok (store_analyseBy_of_error houtcome).symm
  · intro records hrecords
    rw [History.add, List.mem_append, List.mem_singleton] at hrecords
    rcases hrecords with hearlier | hlast
    · exact h.ascending records hearlier
    · exact (Call.saved_of_outcome_pass hlast.symm).1
  · rw [History.add, pass, hsession, List.filterMap_append, ← h.requests_eq]
    cases hrequest : call.request? settings <;> simp [hrequest]
  · rw [History.add, pass, hsession, List.filterMap_append, h.index_eq]
    cases hindex : call.index? settings with
    | none => simp [hindex]
    | some index => simp [hindex]

/-- Every history accounts for its calls. -/
theorem accounts_ofCalls (settings : Settings) (ofMachine : Nat) (calls : List Call) :
    (ofCalls settings ofMachine calls).Accounts settings calls := by
  -- From any history that accounts for the calls before it, not only from the new one.
  have hrun : ∀ (before later : List Call) (history : History), history.Accounts settings before →
      (later.foldl (History.add ofMachine) history).Accounts settings (before ++ later) := by
    intro before later
    induction later generalizing before with
    | nil =>
      intro history h
      rw [List.append_nil]
      exact h
    | cons call rest ih =>
      intro history h
      rw [List.append_cons]
      exact ih (before ++ [call]) (history.add ofMachine call) (h.add ofMachine call)
  exact hrun [] calls (new settings) (accounts_new settings)

/-- After every prefix of a sequence of calls the history accounts for them. A further call that
succeeds returns ascending records and saves them; one that fails leaves the store as it was and
fails for one of the four reasons; and one without its base directory changes nothing at all. -/
theorem ofCalls_accounts_for_calls (settings : Settings) (ofMachine : Nat) (calls : List Call) :
    (∀ before, before <+: calls →
      (ofCalls settings ofMachine before).Accounts settings before) ∧
    ∀ before call, before ++ [call] <+: calls →
      let history := ofCalls settings ofMachine before
      let pass := history.pass ofMachine call
      ofCalls settings ofMachine (before ++ [call]) =
        ⟨pass.session, pass.store, history.outcomes ++ [pass.run.outcome]⟩ ∧
      (∀ records, pass.run.outcome = .ok records →
        FileRecord.Ascending records ∧
          (history.store.saveAll records).outcome = .ok pass.store) ∧
      (∀ failure, pass.run.outcome = .error failure →
        pass.store = history.store ∧ call.FailsFor settings ofMachine failure) ∧
      (call.host.isDirectory call.project.baseDirectory = .ok false →
        pass = ⟨history.session, history.store,
          .fail (.path call.project.baseDirectory .noProject)⟩) := by
  refine ⟨fun before _ => accounts_ofCalls settings ofMachine before, fun before call _ => ?_⟩
  refine ⟨?_, fun _ hrecords => Call.saved_of_outcome_pass hrecords, fun failure hfailure => ?_,
    Call.pass_of_no_directory⟩
  · rw [ofCalls, List.foldl_append]
    rfl
  · have hreason := Call.failsFor_of_outcome_pass hfailure
    rw [(accounts_ofCalls settings ofMachine before).settings_eq] at hreason
    exact ⟨store_analyseBy_of_error hfailure, hreason⟩

end History

end Session

end SourceGauge
