/-
Pages of active entities. They show the documents of a request that are marked as active, in the order
in which all documents of the request are shown. These are the documents of the active entities if and
only if every document is marked as its entity reports it: customers are, items are not.
-/
import Dossier.Proofs.Entity.Paging
import Dossier.Proofs.Filter.Compile
import Dossier.Proofs.Repository.Customers
import Dossier.Proofs.Repository.Items

namespace Dossier

theorem DocumentSet.matching_andAlso {E : Type} {c : DocumentSet E} {filter other : Expr} {store : Store}
    (hf : ∀ doc, filter.Decides doc) (ho : ∀ doc, other.Decides doc) :
    c.matching (filter.andAlso other) store = (c.matching filter store).filter other.holds := by
  unfold matching selection
  rw [List.filter_map, List.filter_filter]
  refine congrArg _ (List.filter_congr fun row _ => ?_)
  rw [Expr.holds_of_eval (Expr.eval_andAlso (hf row.doc) (ho row.doc)), Bool.and_comm]
  rfl

/-- Two predicates select the same elements of a list only if they agree on all of them. -/
theorem filter_perm_filter_iff {α : Type} {l : List α} {p q : α → Bool} :
    (l.filter p).Perm (l.filter q) ↔ ∀ a ∈ l, p a = q a := by
  constructor
  · intro h a ha
    have hm : a ∈ l.filter p ↔ a ∈ l.filter q := h.mem_iff
    rw [List.mem_filter, List.mem_filter] at hm
    exact Bool.eq_iff_iff.2 ⟨fun hp => (hm.1 ⟨ha, hp⟩).2, fun hq => (hm.2 ⟨ha, hq⟩).2⟩
  · intro h
    rw [List.filter_congr h]

namespace Repository

variable {E : Type} [Entity E] {r : Repository E} {request : FilterRequest} {q : CompiledQuery} {page : PageRequest}
  {s : State}

/-- What documents of active entities are asked to satisfy. -/
def marked (r : Repository E) : Expr := .eq r.config.activeField (.boolean true)

/-- Whether the entity that a document is read as reports that it is active. -/
def reportsActive (E : Type) [Entity E] (doc : Value) : Bool := (Stored.ofValue? (E := E) doc).any Entity.isActive

/-- The documents of a request on all its pages, in order. -/
def listed (r : Repository E) (q : CompiledQuery) (store : Store) : List Value :=
  sortDocuments q.sort (r.entities.matching q.filter store)

/-- The documents of a request on all its pages of active entities, in order. -/
def listedActive (r : Repository E) (q : CompiledQuery) (store : Store) : List Value :=
  sortDocuments q.sort (r.entities.matching (q.filter.andAlso r.marked) store)

theorem compileRequest_ok {config : Config} (h : config.compileRequest request = .ok (q, page)) :
    config.compile request.filters request.sort request.deep = .ok q ∧ 0 < request.size.toInt.toNat ∧
      ∀ k < 2 ^ 63, config.compileRequest { request with page := .ofNat k } =
        .ok (q, ⟨k, request.size.toInt.toNat⟩) := by
  obtain ⟨page', hp, h⟩ := except_bind_ok h
  obtain ⟨q', hq, h⟩ := except_bind_ok h
  cases h
  unfold FilterRequest.pageRequest PageRequest.ofSigned at hp
  split at hp
  · cases hp
  split at hp
  · cases hp
  rename_i hsize
  refine ⟨hq, by omega, fun k hk => ?_⟩
  unfold Config.compileRequest FilterRequest.pageRequest PageRequest.ofSigned
  dsimp only
  rw [Int64.toInt_ofNat_of_lt hk, if_neg (by omega), if_neg hsize, hq]
  rfl

theorem decides_marked {E : Type} (r : Repository E) (doc : Value) : r.marked.Decides doc := ⟨_, Expr.eval_eq ..⟩

theorem mem_listed {store : Store} {doc : Value} : doc ∈ r.listed q store ↔
    ∃ row ∈ store.rows (Stored.collection E), q.filter.holds row.doc = true ∧ row.doc = doc := by
  rw [listed, sortDocuments, (List.mergeSort_perm _ _).mem_iff]
  simp only [DocumentSet.matching, List.mem_map, DocumentSet.mem_selection, and_assoc]
  rfl

section
variable (hq : r.config.compileRequest request = .ok (q, page)) (store : Store)
include hq

theorem matching_marked : r.entities.matching (q.filter.andAlso r.marked) store =
    (r.entities.matching q.filter store).filter r.marked.holds :=
  DocumentSet.matching_andAlso (fun doc => (Config.compile_eval (compileRequest_ok hq).1 doc).1) r.decides_marked

theorem listedActive_perm : (r.listedActive q store).Perm ((r.listed q store).filter r.marked.holds) := by
  unfold listedActive listed
  rw [matching_marked hq]
  exact (List.mergeSort_perm _ _).trans ((List.mergeSort_perm _ _).filter _).symm

theorem listedActive_eq (hsort : ∀ doc ∈ r.listed q store, doc.Sortable q.sort) :
    r.listedActive q store = (r.listed q store).filter r.marked.holds := by
  unfold listedActive
  rw [matching_marked hq]
  exact sortDocuments_filter (fun doc hd => hsort doc ((List.mergeSort_perm _ _).mem_iff.2 hd)) _

theorem findPage_listed (s : State) (hread : ∀ doc ∈ r.listed q s.store, (Stored.ofValue? (E := E) doc).isSome)
    (hn : (r.listed q s.store).length ≤ Bounded.maxNat64) {k : Nat} (hk : k < 2 ^ 63) :
    r.findPage { request with page := .ofNat k } s =
        .ok (DocumentSet.pageOf E (r.listed q s.store) request.size.toInt.toNat k) s ∧
      r.findActivePage { request with page := .ofNat k } s =
        .ok (DocumentSet.pageOf E (r.listedActive q s.store) request.size.toInt.toNat k) s := by
  obtain ⟨hc, hsize, hpages⟩ := compileRequest_ok hq
  have hdecides : ∀ doc, q.filter.Decides doc := fun doc => (Config.compile_eval hc doc).1
  have hactive : ∀ doc, (q.filter.andAlso r.marked).Decides doc :=
    fun doc => ⟨_, Expr.eval_andAlso (hdecides doc) (r.decides_marked doc)⟩
  have hreads : ∀ doc ∈ r.entities.matching q.filter s.store, (Stored.ofValue? (E := E) doc).isSome :=
    fun doc hd => hread doc ((List.mergeSort_perm _ _).mem_iff.2 hd)
  have hlen : (r.entities.matching q.filter s.store).length ≤ Bounded.maxNat64 :=
    (List.mergeSort_perm _ _).length_eq ▸ hn
  constructor
  · refine Action.read_run ?_
    rw [hpages k hk]
    exact DocumentSet.findPage_run hsize (fun row _ => hdecides row.doc) hreads hlen k
  · refine Action.read_run ?_
    rw [hpages k hk]
    refine DocumentSet.findPage_run hsize (fun row _ => hactive row.doc) (fun doc hd => ?_) ?_ k
    · rw [matching_marked hq] at hd
      exact hreads doc (List.mem_of_mem_filter hd)
    · rw [matching_marked hq]
      exact (List.length_filter_le _ _).trans hlen

end

end Repository

namespace Customer

open Repository

variable {config : Config} {allowed : Call Customer → Prop} {s : State} {request : FilterRequest} {q : CompiledQuery}
  {page : PageRequest}

theorem reportsActive_toValue (c : Customer) : reportsActive Customer c.toValue = c.active :=
  congrArg (Option.any Entity.isActive) (ofValue?_toValue c)

theorem holds_active (c : Customer) : (Expr.eq "active" (.boolean true)).holds c.toValue = c.active := by
  have hl : c.document.lookup "active" = some (.boolean c.active) := by rw [lookup_document]; rfl
  rw [toValue_eq, Expr.holds_eq (by decide), hl]
  simp [Comparand.ofValue, Comparand.hits, Comparand.same]

/-- Every stored customer is marked as it reports, so that the pages of active customers show exactly these. -/
theorem active_pages_exact (hdef : config.UsesDefaultFields) (ha : config.auditCollection ≠ Stored.collection Customer)
    (h : Reachable (repository config) allowed s) (hq : config.compileRequest request = .ok (q, page)) :
    ((repository config).listedActive q s.store).Perm
        (((repository config).listed q s.store).filter (reportsActive Customer)) ∧
      ((∀ doc ∈ (repository config).listed q s.store, doc.Sortable q.sort) →
        (repository config).listedActive q s.store =
          ((repository config).listed q s.store).filter (reportsActive Customer)) := by
  obtain ⟨-, hcan⟩ := h.invariant (P := Canonical config fun _ => True) idKey_not_registered nofun
    fun _ _ _ _ he hs hc => hc.effect hdef (fun _ _ => trivial) (fun _ => ha) he hs
  have hagree : ∀ doc ∈ (repository config).listed q s.store,
      (repository config).marked.holds doc = reportsActive Customer doc := by
    intro doc hd
    obtain ⟨row, hr, -, rfl⟩ := mem_listed.1 hd
    rcases hcan row hr with ⟨c, -, hdoc, -⟩ | ⟨hlog, -⟩
    · unfold marked
      rw [hdoc, show (repository config).config.activeField = "active" from hdef.activeField, reportsActive_toValue,
        holds_active]
    · exact absurd hlog ha
  have hq : (repository config).config.compileRequest request = .ok (q, page) := hq
  rw [← List.filter_congr hagree]
  exact ⟨listedActive_perm hq s.store, fun hsort => listedActive_eq hq s.store hsort⟩

end Customer

namespace Item

open Repository

variable {config : Config} {allowed : Call Item → Prop} {s : State} {request : FilterRequest} {q : CompiledQuery}
  {page : PageRequest}

/-- Items always report that they are active, and are never shown among the active ones. -/
theorem no_active_pages (hact : config.activeField = "active") (h : Reachable (repository config) allowed s)
    (hq : config.compileRequest request = .ok (q, page)) :
    (repository config).listedActive q s.store = [] := by
  have hq : (repository config).config.compileRequest request = .ok (q, page) := hq
  have hperm := listedActive_perm hq s.store
  rw [List.filter_eq_nil_iff.2 fun doc hd => ?_] at hperm
  · exact hperm.eq_nil
  · obtain ⟨row, hr, -, rfl⟩ := mem_listed.1 hd
    unfold marked
    rw [show (repository config).config.activeField = "active" from hact, (unmarked hact h hr).not_holds (by decide)]
    exact Bool.false_ne_true

end Item

namespace Repository

variable {E : Type} [Entity E] {request : FilterRequest} {q : CompiledQuery} {page : PageRequest}

/-- What the pages of a request and its pages of active entities show. -/
structure ActivePages (r : Repository E) (s : State) (request : FilterRequest) (q : CompiledQuery) : Prop where
  /-- The pages show the documents that are listed, if these can be read and counted. -/
  pages (hread : ∀ doc ∈ r.listed q s.store, (Stored.ofValue? (E := E) doc).isSome)
    (hn : (r.listed q s.store).length ≤ Bounded.maxNat64) (k : Nat) (hk : k < 2 ^ 63) :
    r.findPage { request with page := .ofNat k } s =
      .ok (DocumentSet.pageOf E (r.listed q s.store) request.size.toInt.toNat k) s ∧
    r.findActivePage { request with page := .ofNat k } s =
      .ok (DocumentSet.pageOf E (r.listedActive q s.store) request.size.toInt.toNat k) s
  /-- Those of active entities are the marked ones. -/
  selected : (r.listedActive q s.store).Perm ((r.listed q s.store).filter r.marked.holds)
  /-- They stand in the order of all, if this is one. -/
  in_order (hsort : ∀ doc ∈ r.listed q s.store, doc.Sortable q.sort) :
    r.listedActive q s.store = (r.listed q s.store).filter r.marked.holds
  /-- They are those of the entities that report to be active only if every document is marked so. -/
  exact_iff : (r.listedActive q s.store).Perm ((r.listed q s.store).filter (reportsActive E)) ↔
    ∀ doc ∈ r.listed q s.store, r.marked.holds doc = reportsActive E doc

/-- For every type of entities, every store and every request that compiles, the pages of active entities show the
documents that are marked as active. -/
theorem active_pages (r : Repository E) (s : State) (hq : r.config.compileRequest request = .ok (q, page)) :
    r.ActivePages s request q where
  pages hread hn _ hk := findPage_listed hq s hread hn hk
  selected := listedActive_perm hq s.store
  in_order hsort := listedActive_eq hq s.store hsort
  exact_iff := by
    have hperm := listedActive_perm hq s.store
    exact ⟨fun h => filter_perm_filter_iff.1 (hperm.symm.trans h), fun h => hperm.trans (filter_perm_filter_iff.2 h)⟩

end Repository

open Repository

/-- Ann and Bob have been created, and Bob has been deleted softly. -/
def Customer.bobRetired : State :=
  afterCalls {} [.write (.save ann) morning, .write (.save bob) morning, .softDelete (.ofNat 3) morning]

theorem Customer.active_pages_of_bobRetired : ∃ all active,
    (repository {}).findPage {} bobRetired = .ok all bobRetired ∧
    (repository {}).findActivePage {} bobRetired = .ok active bobRetired ∧
    all.items.map Customer.name = ["Ann", "Bob"] ∧ active.items.map Customer.name = ["Ann"] := by
  have h := active_pages (repository {}) bobRetired
    (show Config.compileRequest {} {} = .ok (⟨.and [], []⟩, ⟨0, 20⟩) from rfl)
  have hlisted : (repository {}).listed ⟨.and [], []⟩ bobRetired.store =
    (repository {}).entities.matching (.and []) bobRetired.store := sortDocuments_nil _
  have hactive := h.in_order fun _ _ => nofun
  have hread : ((repository {}).entities.matching (.and []) bobRetired.store).all fun doc =>
    (Stored.ofValue? (E := Customer) doc).isSome := by decide +kernel
  have hlen : ((repository {}).entities.matching (.and []) bobRetired.store).length = 2 := by decide +kernel
  rw [hlisted] at hactive
  obtain ⟨hall, hfound⟩ := h.pages (hlisted ▸ List.all_eq_true.1 hread) (by rw [hlisted, hlen]; decide) 0 (by decide)
  rw [hlisted] at hall
  rw [hactive] at hfound
  exact ⟨_, _, hall, hfound, by decide +kernel, by decide +kernel⟩

/-- The one item there is, which is active, stands on the only page, but on no page of active items. -/
theorem Item.not_all_active_shown : ¬ ∀ (s : State) (request : FilterRequest) (all active : Page Item),
    Reachable (repository {}) (fun _ => True) s → all.totalPages = 1 →
      (repository {}).findPage request s = .ok all s → (repository {}).findActivePage request s = .ok active s →
        active.items = all.items.filter Entity.isActive := by
  intro h
  have hq : (repository {}).config.compileRequest {} = .ok (⟨.and [], []⟩, ⟨0, 20⟩) := rfl
  have hlisted : (repository {}).listed ⟨.and [], []⟩ oneStored.store =
    (repository {}).entities.matching (.and []) oneStored.store := sortDocuments_nil _
  have hread : ((repository {}).entities.matching (.and []) oneStored.store).all fun doc =>
    (Stored.ofValue? (E := Item) doc).isSome := by decide +kernel
  have hlen : ((repository {}).entities.matching (.and []) oneStored.store).length = 1 := by decide +kernel
  obtain ⟨hall, hactive⟩ := findPage_listed hq oneStored (hlisted ▸ List.all_eq_true.1 hread)
    (by rw [hlisted, hlen]; decide) (show 0 < 2 ^ 63 by decide)
  rw [hlisted] at hall
  rw [no_active_pages rfl reachable_oneStored hq] at hactive
  have hitems := congrArg List.length (h oneStored {} _ _ reachable_oneStored (by decide +kernel) hall hactive)
  exact of_decide_eq_false (by decide +kernel) hitems

end Dossier
