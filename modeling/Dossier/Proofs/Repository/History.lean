/-
The history of an entity. The log of changes only grows: every call, failed or not, leaves what is in
it and appends the records that it makes. What the history of an entity yields are the records about
the entity that have ever been appended, in order of time; along calls whose times do not decrease
that is the order of writing, and each history goes on where an earlier one has ended.
-/
import Dossier.Proofs.Entity.Paging
import Dossier.Proofs.Repository.Customers
import Dossier.Proofs.Repository.Log

namespace Dossier

/-! ## Records in order of time -/

namespace ChangeRecord

/-- The order of records by time. -/
def compareTimes : ChangeRecord → ChangeRecord → Ordering := compareOn fun record => record.changedAt.toInt

instance : Std.TransCmp compareTimes := inferInstanceAs (Std.TransCmp (compareOn _))

/-- Records in order of time; those of the same time stay in the order in which they stand. -/
def inOrder (records : List ChangeRecord) : List ChangeRecord :=
  records.mergeSort fun a b => compareTimes a b != .gt

theorem compareTimes_ne_gt_iff {a b : ChangeRecord} : compareTimes a b ≠ .gt ↔ a.changedAt ≤ b.changedAt := by
  rw [Int64.le_iff_toInt_le]
  exact Int.compare_ne_gt

theorem compareTimes_eq_iff {a b : ChangeRecord} : compareTimes a b = .eq ↔ b.changedAt = a.changedAt := by
  rw [← Int64.toInt_inj, eq_comm (a := b.changedAt.toInt)]
  exact Std.compare_eq_iff_eq

/-- Documents of records are in order when the records are. -/
theorem compareDocuments_toValue (a b : ChangeRecord) :
    compareDocuments [⟨"changed_at", .ascending⟩] a.toValue b.toValue = compareTimes a b := by
  have hat : ∀ record : ChangeRecord, record.toValue.comparandAt "changed_at" = .instant record.changedAt := by
    intro record
    unfold Value.comparandAt
    rw [toValue_eq, Value.lookup_name (by decide), lookup_document]
    rfl
  unfold compareDocuments compareDocuments SortKey.compare
  dsimp only
  rw [hat, hat]
  unfold compareTimes compareOn Comparand.sortCompare
  simp [Comparand.rank, Comparand.compare?]

theorem sortDocuments_toValue (records : List ChangeRecord) :
    sortDocuments [⟨"changed_at", .ascending⟩] (records.map toValue) = (inOrder records).map toValue := by
  refine (List.map_mergeSort (s := fun a b => compareDocuments _ a b != .gt) fun a _ b _ => ?_).symm
  rw [compareDocuments_toValue]

theorem readAll_toValue (records : List ChangeRecord) :
    DocumentSet.readAll (records.map toValue) = .ok records := by
  have hread : Stored.ofValue? ∘ toValue = some := funext ofValue?_toValue
  rw [DocumentSet.readAll_of_readable, List.filterMap_map, hread, List.filterMap_some]
  intro doc hd
  obtain ⟨record, -, rfl⟩ := List.mem_map.1 hd
  exact Option.isSome_iff_exists.2 ⟨record, ofValue?_toValue record⟩

/-- Whether a record is about an entity of a collection. -/
def isAbout (collection : String) (id : Uuid) (record : ChangeRecord) : Bool :=
  record.entityCollection == collection && record.entityId == id

end ChangeRecord

/-- A history of records: none is lost or repeated, none stands before an earlier one, and those of one time stand
as they were written. -/
structure Chronicle (records history : List ChangeRecord) : Prop where
  perm : history.Perm records
  ordered : history.Pairwise fun a b => a.changedAt ≤ b.changedAt
  ties : ∀ record ∈ records, history.filter (·.changedAt == record.changedAt) =
    records.filter (·.changedAt == record.changedAt)

namespace ChangeRecord

theorem chronicle_inOrder (records : List ChangeRecord) : Chronicle records (inOrder records) where
  perm := List.mergeSort_perm ..
  ordered := (mergeSort_ordered records).imp compareTimes_ne_gt_iff.1
  ties record _ := by
    have htime : (compareTimes record · == .eq) = (·.changedAt == record.changedAt) := by
      funext other
      rw [Bool.eq_iff_iff, beq_iff_eq, beq_iff_eq, compareTimes_eq_iff]
    rw [← htime]
    exact mergeSort_ties records record

/-- Records that are in order stay as they stand. -/
theorem inOrder_of_ordered {records : List ChangeRecord}
    (h : records.Pairwise fun a b => a.changedAt ≤ b.changedAt) : inOrder records = records :=
  List.mergeSort_of_pairwise (h.imp fun hab => by simpa using compareTimes_ne_gt_iff.2 hab)

end ChangeRecord

namespace Repository

variable {E : Type} {r : Repository E} {records more : List ChangeRecord} {s t u : Store}

/-! ## Reading the history off the log -/

/-- What the log holds, in the order of writing. -/
def log (r : Repository E) (store : Store) : List Value := (store.rows r.config.auditCollection).map (·.doc)

variable [Entity E]

theorem eval_historyFilter (E : Type) [Entity E] (id : Uuid) (record : ChangeRecord) :
    (Expr.and [.eq "entity_collection" (.string (Stored.collection E)), .eq "entity_id" (.uuid id)]).eval
      record.toValue = .ok (record.isAbout (Stored.collection E) id) := by
  have hcollection : (Expr.eq "entity_collection" (.string (Stored.collection E))).holds record.toValue =
      (record.entityCollection == Stored.collection E) := by
    rw [ChangeRecord.toValue_eq, Expr.holds_eq_string (by decide) (ChangeRecord.lookup_document record _)]
    rfl
  have hid : (Expr.eq "entity_id" (.uuid id)).holds record.toValue = (record.entityId == id) := by
    rw [ChangeRecord.toValue_eq, Expr.holds_eq_uuid (by decide) (ChangeRecord.lookup_document record _)]
    rfl
  rw [Expr.eval_and_pair (Expr.eval_eq ..) (Expr.eval_eq ..), ← Expr.holds_of_eval (Expr.eval_eq ..), hcollection,
    ← Expr.holds_of_eval (Expr.eval_eq ..), hid]
  rfl

/-- The history of an entity is made of the records in the log that are about it. -/
theorem query_history (h : r.log s = records.map ChangeRecord.toValue) (id : Uuid) :
    r.auditLog.query (historyQuery E id) s =
      .ok (ChangeRecord.inOrder (records.filter (·.isAbout (Stored.collection E) id))) := by
  let filter : Expr := .and [.eq "entity_collection" (.string (Stored.collection E)), .eq "entity_id" (.uuid id)]
  have heval : ∀ record : ChangeRecord,
      filter.eval record.toValue = .ok (record.isAbout (Stored.collection E) id) := eval_historyFilter E id
  have hdecided : ∀ row ∈ s.rows r.config.auditCollection, filter.Decides row.doc := by
    intro row hr
    obtain ⟨record, -, hdoc⟩ := List.mem_map.1 (h ▸ List.mem_map_of_mem hr : row.doc ∈ records.map ChangeRecord.toValue)
    exact ⟨_, hdoc ▸ heval record⟩
  have hselected : ((s.rows r.config.auditCollection).filter fun row => filter.holds row.doc).map (·.doc) =
      (records.filter (·.isAbout (Stored.collection E) id)).map ChangeRecord.toValue := by
    calc ((s.rows r.config.auditCollection).filter fun row => filter.holds row.doc).map (·.doc)
      _ = (r.log s).filter filter.holds := by unfold log; rw [List.filter_map]; rfl
      _ = (records.filter (·.isAbout (Stored.collection E) id)).map ChangeRecord.toValue := by
        rw [h, List.filter_map]
        congr 1
        exact List.filter_congr fun record _ => Expr.holds_of_eval (heval record)
  have hquery : s.queryDocuments (historyQuery E id) r.config.auditCollection =
      .ok ((ChangeRecord.inOrder (records.filter (·.isAbout (Stored.collection E) id))).map ChangeRecord.toValue) := by
    unfold Store.queryDocuments Collection.query
    change (Collection.selectRows filter (s.rows r.config.auditCollection)).map _ = _
    rw [Collection.selectRows_total hdecided, ← ChangeRecord.sortDocuments_toValue, ← hselected]
    rfl
  unfold DocumentSet.query
  change s.queryDocuments (historyQuery E id) r.config.auditCollection >>= _ = _
  rw [hquery]
  exact ChangeRecord.readAll_toValue _

/-! ## Writing the log -/

/-- The log has grown by records and by nothing else. -/
def Logs (r : Repository E) (records : List ChangeRecord) (s t : Store) : Prop :=
  r.log t = r.log s ++ records.map ChangeRecord.toValue

omit [Entity E] in
theorem Logs.trans (h : r.Logs records s u) (h' : r.Logs more u t) : r.Logs (records ++ more) s t := by
  unfold Logs at *
  rw [h', h, List.append_assoc, List.map_append]

omit [Entity E] in
theorem Appends.logs (h : r.Appends records s t) : ∃ ids, r.Logs (numbered records ids) s t := by
  obtain ⟨added, ids, hrows, hdocs, -⟩ := h
  refine ⟨ids, ?_⟩
  have hadded : added.map (·.doc) = (numbered records ids).map ChangeRecord.toValue := by
    calc added.map (·.doc)
      _ = (added.map fun row => (row.id, row.doc)).map (·.2) := by rw [List.map_map]; rfl
      _ = (numbered records ids).map ChangeRecord.toValue := by
        rw [hdocs]
        unfold logEntries numbered
        rw [List.map_zipWith, List.map_zipWith]
  unfold Logs log
  rw [hrows, List.map_append, hadded]

theorem changedAt_numbered {record : ChangeRecord} : ∀ {records : List ChangeRecord} {ids : List Uuid},
    record ∈ numbered records ids → ∃ other ∈ records, other.changedAt = record.changedAt
  | other :: records, id :: ids, h => by
    rcases List.mem_cons.1 (by unfold numbered at h; exact h) with rfl | h
    · exact ⟨other, List.mem_cons_self .., rfl⟩
    · obtain ⟨another, ha, ht⟩ := changedAt_numbered h
      exact ⟨another, List.mem_cons_of_mem _ ha, ht⟩

/-- The steps of operations add to the log and take nothing from it. -/
theorem log_builtBySteps (ha : r.config.auditCollection ≠ Stored.collection E) (loggable : ChangeRecord → Prop) :
    r.BuiltBySteps loggable fun s t => ∃ records, r.Appends records s.store t.store ∧
      ∀ record ∈ records, loggable record where
  refl _ := ⟨[], .nothing rfl, List.forall_mem_nil _⟩
  trans := by
    rintro s u t ⟨records, h, hl⟩ ⟨more, h', hl'⟩
    refine ⟨records ++ more, h.trans h', fun record hr => ?_⟩
    exact (List.mem_append.1 hr).elim (hl record) (hl' record)
  draw _ _ := ⟨[], .nothing rfl, List.forall_mem_nil _⟩
  change _ _ h := ⟨[], .nothing (by unfold Store.rows; rw [← h _ ha]; rfl), List.forall_mem_nil _⟩
  log h hr := ⟨_, hr.appends, h⟩

end Repository

/-! ## Calls -/

namespace Call

variable {E : Type}

/-- The time of a call that may log something. -/
def time? : Call E → Option Int64
  | write _ ctx => some ctx.timestamp
  | bulkImport _ ctx _ => some ctx.timestamp
  | softDelete _ ctx => some ctx.timestamp
  | delete _ ctx => some ctx.timestamp
  | patchMany .. => none
  | reserve .. => none
  | assignSlugs .. => none

end Call

namespace Repository

variable {E : Type} [Entity E] {r : Repository E} {s : State} {calls first : List (Call E)}
  {written : List ChangeRecord}

/-- A call is built up by steps that log records of its time. -/
theorem BuiltBySteps.call {c : Call E} {R : State → State → Prop}
    (hR : r.BuiltBySteps (fun record => c.time? = some record.changedAt) R) (s : State) : R s (c.after r s) := by
  have timed : ∀ ctx : AuditContext, c.time? = some ctx.timestamp → r.BuiltBySteps (·.changedAt = ctx.timestamp) R :=
    fun ctx hc => hR.mono fun _ hat => hc.trans (congrArg some hat.symm)
  cases c with
  | write w ctx =>
    cases w with
    | save e => exact (timed ctx rfl).createOrOverwrite e s
    | patchById id requested properties => exact (timed ctx rfl).patch (hR.read _) requested properties s
    | patchBySlug slug requested properties => exact (timed ctx rfl).patch (hR.read _) requested properties s
    | patchByFilter filter requested properties => exact (timed ctx rfl).patch (hR.read _) requested properties s
  | bulkImport es ctx force => exact (timed ctx rfl).bulkImport es force s
  | patchMany filter requested properties => exact hR.patchMany filter requested properties s
  | softDelete id ctx => exact (timed ctx rfl).softDeleteById id s
  | delete id ctx => exact (timed ctx rfl).deleteById id s
  | reserve counter increment => exact hR.reserve counter increment s
  | assignSlugs es => exact hR.assignSlugs es s

/-- What a call logs bears its time. -/
theorem call_logs (ha : r.config.auditCollection ≠ Stored.collection E) (c : Call E) (s : State) :
    ∃ records, r.Logs records s.store (c.after r s).store ∧ ∀ record ∈ records, c.time? = some record.changedAt := by
  obtain ⟨records, happ, htime⟩ := (log_builtBySteps ha fun record => c.time? = some record.changedAt).call s
  obtain ⟨ids, hlogs⟩ := happ.logs
  refine ⟨_, hlogs, fun record hr => ?_⟩
  obtain ⟨other, ho, hat⟩ := changedAt_numbered hr
  rw [← hat]
  exact htime other ho

/-! ## Runs -/

/-- What calls have written to the log, one after the other: each call appends records of its time and leaves what
is there. -/
inductive RunLogs (r : Repository E) : State → List (Call E) → List ChangeRecord → Prop
  | nil (s : State) : RunLogs r s [] []
  | cons {s : State} {c : Call E} {calls : List (Call E)} {records written : List ChangeRecord}
      (h : r.Logs records s.store (c.after r s).store) (ht : ∀ record ∈ records, c.time? = some record.changedAt)
      (hrest : RunLogs r (c.after r s) calls written) : RunLogs r s (c :: calls) (records ++ written)

theorem run_logs (ha : r.config.auditCollection ≠ Stored.collection E) : ∀ (calls : List (Call E)) (s : State),
    ∃ written, RunLogs r s calls written
  | [], s => ⟨[], .nil s⟩
  | c :: calls, s => by
    obtain ⟨records, hlogs, htime⟩ := call_logs ha c s
    obtain ⟨written, hrest⟩ := run_logs ha calls (c.after r s)
    exact ⟨records ++ written, .cons hlogs htime hrest⟩

theorem RunLogs.logs (h : RunLogs r s calls written) : r.Logs written s.store (Call.afterAll r s calls).store := by
  induction h with
  | nil s => exact (List.append_nil _).symm
  | cons h _ _ ih => exact h.trans ih

/-- What the first calls of a run have written is what the run has written first. -/
theorem RunLogs.before (h : RunLogs r s calls written) (hfirst : first <+: calls) :
    ∃ earlier, RunLogs r s first earlier ∧ earlier <+: written := by
  induction h generalizing first with
  | nil s =>
    rw [List.prefix_nil.1 hfirst]
    exact ⟨[], .nil s, List.prefix_rfl⟩
  | @cons s c calls records written hlogs ht _ ih =>
    cases first with
    | nil => exact ⟨[], .nil s, List.nil_prefix⟩
    | cons c' first =>
      obtain ⟨rfl, hrest⟩ := List.cons_prefix_cons.1 hfirst
      obtain ⟨earlier, hrest, hpre⟩ := ih hrest
      exact ⟨records ++ earlier, .cons hlogs ht hrest, (List.prefix_append_right_inj records).2 hpre⟩

theorem RunLogs.time_mem (h : RunLogs r s calls written) :
    ∀ record ∈ written, record.changedAt ∈ calls.filterMap Call.time? := by
  induction h with
  | nil s => exact List.forall_mem_nil _
  | cons _ ht _ ih =>
    intro record hr
    rw [List.mem_filterMap]
    rcases List.mem_append.1 hr with hr | hr
    · exact ⟨_, List.mem_cons_self .., ht record hr⟩
    · obtain ⟨c, hc, hat⟩ := List.mem_filterMap.1 (ih record hr)
      exact ⟨c, List.mem_cons_of_mem _ hc, hat⟩

/-- When the times of calls do not decrease, records are written in order of time. -/
theorem RunLogs.ordered (h : RunLogs r s calls written) (ht : (calls.filterMap Call.time?).Pairwise (· ≤ ·)) :
    written.Pairwise fun a b => a.changedAt ≤ b.changedAt := by
  induction h with
  | nil s => exact .nil
  | @cons s c calls records written _ htime hrest ih =>
    rw [List.pairwise_append]
    cases hc : c.time? with
    | none =>
      rw [List.filterMap_cons_none hc] at ht
      rw [hc] at htime
      have hnone : records = [] := List.eq_nil_iff_forall_not_mem.2 fun record hr => nomatch htime record hr
      rw [hnone]
      exact ⟨.nil, ih ht, List.forall_mem_nil _⟩
    | some time =>
      rw [List.filterMap_cons_some hc, List.pairwise_cons] at ht
      have hsame : ∀ record ∈ records, record.changedAt = time := fun record hr =>
        Option.some.inj ((htime record hr).symm.trans hc)
      refine ⟨List.pairwise_of_forall_mem_list fun a ha b hb => ?_, ih ht.2, fun a ha b hb => ?_⟩
      · rw [hsame a ha, hsame b hb]
        exact Int64.le_refl time
      · rw [hsame a ha]
        exact ht.1 _ (hrest.time_mem b hb)

/-! ## Histories along a run -/

/-- The history of an entity in a state. -/
def HasHistory (r : Repository E) (s : State) (id : Uuid) (history : List ChangeRecord) : Prop :=
  r.history id s = .ok history s

/-- After a run from an empty store a history is made of what the run has written. -/
theorem RunLogs.history {ids : IdSupply} (h : RunLogs r { ids } calls written) (id : Uuid) :
    r.HasHistory (Call.afterAll r { ids } calls) id
      (ChangeRecord.inOrder (written.filter (·.isAbout (Stored.collection E) id))) :=
  Action.read_run (query_history h.logs id)

end Repository

namespace Customer

open Repository

variable {config : Config}

/-- The history of a customer after any run of calls from an empty store: the records about the customer that the
calls have written, by time. When the times of the calls do not decrease, they stand as they were written, and the
history after the first calls is the beginning of the history after all. -/
theorem history_of_run (ha : config.auditCollection ≠ Stored.collection Customer) (ids : IdSupply)
    (calls : List (Call Customer)) : ∃ written, RunLogs (repository config) { ids } calls written ∧
      ∀ id, ∃ history, (repository config).HasHistory (Call.afterAll (repository config) { ids } calls) id history ∧
        Chronicle (written.filter (·.isAbout (Stored.collection Customer) id)) history ∧
        ((calls.filterMap Call.time?).Pairwise (· ≤ ·) →
          history = written.filter (·.isAbout (Stored.collection Customer) id) ∧
          ∀ first, first <+: calls → ∃ earlier,
            (repository config).HasHistory (Call.afterAll (repository config) { ids } first) id earlier ∧
              earlier <+: history) := by
  obtain ⟨written, hrun⟩ := run_logs (r := repository config) ha calls { ids }
  refine ⟨written, hrun, fun id => ⟨_, hrun.history id, ChangeRecord.chronicle_inOrder _, fun ht => ?_⟩⟩
  have hordered := hrun.ordered ht
  have hinOrder : ∀ {records}, records <+: written → ChangeRecord.inOrder
      (records.filter (·.isAbout (Stored.collection Customer) id)) =
        records.filter (·.isAbout (Stored.collection Customer) id) := fun hpre =>
    ChangeRecord.inOrder_of_ordered ((hordered.sublist hpre.sublist).sublist List.filter_sublist)
  refine ⟨hinOrder List.prefix_rfl, fun first hfirst => ?_⟩
  obtain ⟨earlier, hbefore, hpre⟩ := hrun.before hfirst
  refine ⟨_, hbefore.history id, ?_⟩
  rw [hinOrder hpre, hinOrder List.prefix_rfl]
  exact hpre.filter _

/-- The customer is created, moves, and is deleted. -/
def lifetime : List (Call Customer) :=
  [.write (.save ann) { morning with timestamp := 1000 },
    .write (.patchById (.ofNat 1) { ann with city := some "Rome" } ["city"]) { morning with timestamp := 2000 },
    .delete (.ofNat 1) { morning with timestamp := 3000 }]

theorem history_of_lifetime : (lifetime.filterMap Call.time?).Pairwise (· ≤ ·) ∧
    ∃ written history, RunLogs (repository {}) { ids := { stream := fun n => .ofNat (n + 1) } } lifetime written ∧
      (repository {}).HasHistory (afterCalls {} lifetime) (.ofNat 1) history ∧
      history = written.filter (·.isAbout (Stored.collection Customer) (.ofNat 1)) ∧
      history.map (·.action) = [.create, .update, .delete] := by
  have htimes : (lifetime.filterMap Call.time?).Pairwise (· ≤ ·) := by decide
  have hlog : ({} : Config).auditCollection ≠ Stored.collection Customer := by decide
  obtain ⟨written, hrun, h⟩ := history_of_run hlog { stream := fun n => .ofNat (n + 1) } lifetime
  obtain ⟨history, hhistory, -, hordered⟩ := h (.ofNat 1)
  have hhistory' := (hordered htimes).1
  refine ⟨htimes, written, history, hrun, hhistory, hhistory', ?_⟩
  -- what has been written is read back from the log
  have hwritten : ((repository {}).log (afterCalls {} lifetime).store).filterMap ChangeRecord.ofValue? = written := by
    rw [show (repository {}).log (afterCalls {} lifetime).store = written.map ChangeRecord.toValue from hrun.logs,
      List.filterMap_map]
    simp [ChangeRecord.ofValue?_toValue]
  rw [hhistory', ← hwritten]
  decide +kernel

end Customer

end Dossier
