/-
The store without its index of positions: each collection is a plain list of documents with their identifiers, in the
order of insertion. As long as no batch inserts an identifier twice, the indexed store yields the same replies and
faults, call by call, and holds the same documents.
-/
import Dossier.Proofs.Store.Call

namespace Dossier

/-- A store that keeps each collection as a list of documents with their identifiers. -/
structure PlainStore where
  collections : List (String × List (Uuid × Value)) := []
  counters : List (String × Int64) := []

/-- The fault of a predicate that cannot be decided for a document. -/
def Expr.fault? (filter : Expr) (doc : Value) : Option Fault :=
  match filter.eval doc with
  | .ok _ => none
  | .error fault => some fault

namespace PlainStore

/-! ## Lists of documents -/

/-- Whether an identifier is in use. -/
def has (pairs : List (Uuid × Value)) (id : Uuid) : Bool := pairs.any (·.1 == id)

/-- The documents that satisfy a predicate, unless it is undecided for one of them: then the first such fault. -/
def select (pairs : List (Uuid × Value)) : Option Expr → Except Fault (List (Uuid × Value))
  | none => .ok pairs
  | some filter =>
    match pairs.findSome? fun p => filter.fault? p.2 with
    | some fault => .error fault
    | none => .ok (pairs.filter fun p => filter.holds p.2)

/-- Replaces the document of an identifier in its place. -/
def replace (pairs : List (Uuid × Value)) (d : Uuid × Value) : List (Uuid × Value) :=
  pairs.map fun p => if p.1 = d.1 then d else p

/-- Removes identifiers one after the other, up to the first that is missing. -/
def deleteEach (name : String) : List Uuid → List (Uuid × Value) → Option Fault × List (Uuid × Value)
  | [], pairs => (none, pairs)
  | id :: rest, pairs =>
    if has pairs id then deleteEach name rest (pairs.filter (·.1 ≠ id)) else (some (.notFound id.text name), pairs)

/-! ## Calls -/

/-- The documents of a collection, none when it is missing. -/
def pairs (p : PlainStore) (name : String) : List (Uuid × Value) := (p.collections.lookup name).getD []

/-- Puts other documents into a collection. -/
def put (p : PlainStore) (name : String) (pairs : List (Uuid × Value)) : PlainStore :=
  { p with collections := Entries.insert name pairs p.collections }

/-- Performs a call on plain lists. -/
def perform : StoreCall → PlainStore → Except Fault Reply × PlainStore
  | .insert docs name, p =>
    match docs.find? fun d => has (p.pairs name) d.1 with
    | some (id, _) => (.error (.alreadyExists id.text name), p)
    | none => (.ok .done, p.put name (p.pairs name ++ docs))
  | .update docs name, p =>
    match p.collections.lookup name with
    | none => (.error (.collectionNotFound name), p)
    | some pairs =>
      match docs.find? fun d => !has pairs d.1 with
      | some (id, _) => (.error (.notFound id.text name), p)
      | none => (.ok .done, p.put name (docs.foldl replace pairs))
  | .delete ids name, p =>
    match p.collections.lookup name with
    | none => (.error (.collectionNotFound name), p)
    | some pairs =>
      match deleteEach name ids pairs with
      | (none, rest) => (.ok .done, p.put name rest)
      | (some fault, rest) => (.error fault, p.put name rest)
  | .get ids name, p => (.ok (.documents (ids.filterMap fun id => (p.pairs name).lookup id)), p)
  | .query q name, p =>
    ((select (p.pairs name) q.filter).map fun selected =>
      .documents (window q.offset q.limit (sortDocuments q.sort (selected.map (·.2)))), p)
  | .count filter name, p => ((select (p.pairs name) filter).map fun selected => .count selected.length, p)
  | .updateFields filter fields name, p =>
    match p.collections.lookup name with
    | none => (.ok (.count 0), p)
    | some pairs =>
      match select pairs (some filter) with
      | .error fault => (.error fault, p)
      | .ok selected => (.ok (.count selected.length), p.put name (pairs.map fun pair =>
          if filter.holds pair.2 then (pair.1, Store.withFields fields pair.2) else pair))
  | .remove filter name, p =>
    match p.collections.lookup name with
    | none => (.ok (.count 0), p)
    | some pairs =>
      match select pairs (some filter) with
      | .error fault => (.error fault, p)
      | .ok selected => (.ok (.count selected.length), p.put name (pairs.filter fun pair => !filter.holds pair.2))
  | .create name, p => (.ok .done, p.put name (p.pairs name))
  | .drop name, p =>
    match p.collections.lookup name with
    | none => (.error (.collectionNotFound name), p)
    | some _ => (.ok .done, { p with collections := Entries.erase name p.collections })
  | .list, p => (.ok (.names ((Entries.keys p.collections).mergeSort (· ≤ ·))), p)
  | .advance counter delta, p =>
    match Bounded.int64? (((p.counters.lookup counter).getD 0).toInt + delta.toInt) with
    | some next => (.ok (.counter next), { p with counters := Entries.insert counter next p.counters })
    | none => (.error (.validation (.counterOverflow counter delta)), p)

end PlainStore

/-! ## Collections as lists -/

namespace Collection

open PlainStore

variable {c : Collection} {id : Uuid} {filter : Expr}

/-- The documents of a collection with their identifiers, in order. -/
def pairs (c : Collection) : List (Uuid × Value) := c.rows.map fun row => (row.id, row.doc)

theorem map_fst_pairs (c : Collection) : c.pairs.map (·.1) = c.rows.map (·.id) := List.map_map

theorem WF.has_pairs (h : c.WF) (id : Uuid) : has c.pairs id = c.contains id := by
  rw [Bool.eq_iff_iff, h.contains_iff, has, List.any_eq_true]
  constructor
  · rintro ⟨p, hp, hi⟩
    obtain ⟨row, hr, rfl⟩ := List.mem_map.1 hp
    exact ⟨row, hr, eq_of_beq hi⟩
  · rintro ⟨row, hr, rfl⟩
    exact ⟨_, List.mem_map_of_mem hr, beq_self_eq_true _⟩

theorem WF.lookup_pairs (h : c.WF) (id : Uuid) : c.pairs.lookup id = c.get? id := by
  rw [h.get?_eq]
  exact lookup_rows Row.doc id c.rows

/-! ### Selecting -/

theorem select_cons (filter : Expr) (p : Uuid × Value) (pairs : List (Uuid × Value)) :
    PlainStore.select (p :: pairs) (some filter) = match filter.eval p.2 with
      | .error fault => .error fault
      | .ok holds => (PlainStore.select pairs (some filter)).map fun selected =>
          if holds then p :: selected else selected := by
  unfold PlainStore.select
  dsimp only
  cases he : filter.eval p.2 with
  | error fault =>
    have hf : filter.fault? p.2 = some fault := by unfold Expr.fault?; rw [he]
    rw [List.findSome?_cons, hf]
  | ok holds =>
    have hf : filter.fault? p.2 = none := by unfold Expr.fault?; rw [he]
    rw [List.findSome?_cons, hf, List.filter_cons, Expr.holds_of_eval he]
    dsimp only
    cases pairs.findSome? fun p => filter.fault? p.2 <;> rfl

theorem selectRows_eq (filter : Expr) : ∀ rows : List Row,
    (selectRows filter rows).map (·.map fun row => (row.id, row.doc)) =
      PlainStore.select (rows.map fun row => (row.id, row.doc)) (some filter)
  | [] => rfl
  | row :: rows => by
    unfold selectRows
    rw [List.map_cons, select_cons, ← selectRows_eq filter rows]
    cases filter.eval row.doc with
    | error fault => rfl
    | ok holds =>
      cases selectRows filter rows with
      | error fault => rfl
      | ok selected => cases holds <;> rfl

theorem select_pairs (c : Collection) (filter : Option Expr) :
    (c.select filter).map (·.map fun row => (row.id, row.doc)) = PlainStore.select c.pairs filter := by
  cases filter with
  | none => rfl
  | some filter => exact selectRows_eq filter c.rows

/-! ### Changing -/

theorem pairs_foldl_insert (c : Collection) (docs : List (Uuid × Value)) :
    (docs.foldl (fun c d => c.insert d.1 d.2) c).pairs = c.pairs ++ docs := by
  obtain ⟨added, hr, hd⟩ := Store.foldl_insert_rows c docs
  rw [pairs, hr, List.map_append, hd]
  rfl

theorem WF.pairs_modify (h : c.WF) (id : Uuid) (change : Value → Value) :
    (c.modify id change).pairs = c.pairs.map fun p => if p.1 = id then (p.1, change p.2) else p := by
  rw [pairs, h.modify_rows, pairs, List.map_map, List.map_map]
  refine List.map_congr_left fun row _ => ?_
  by_cases hi : row.id = id
  · simp [hi]
  · simp [hi]

theorem WF.pairs_remove (h : c.WF) (id : Uuid) : (c.remove id).pairs = c.pairs.filter (·.1 ≠ id) := by
  rw [pairs, h.remove_rows, pairs, List.filter_map]
  rfl

/-- Changes that are made one after the other are made on the list of documents likewise. -/
theorem WF.pairs_foldl {α : Type} {step : Collection → α → Collection}
    (change : List (Uuid × Value) → α → List (Uuid × Value))
    (hstep : ∀ (d : Collection) (a : α), d.WF → (step d a).WF ∧ (step d a).pairs = change d.pairs a) :
    ∀ {as : List α} {c : Collection}, c.WF → (as.foldl step c).pairs = as.foldl change c.pairs
  | [], _, _ => rfl
  | a :: as, c, h => by
    obtain ⟨hw, hp⟩ := hstep c a h
    rw [List.foldl_cons, List.foldl_cons, WF.pairs_foldl change hstep hw, hp]

theorem WF.pairs_replace (h : c.WF) (docs : List (Uuid × Value)) :
    (docs.foldl (fun c d => c.replace d.1 d.2) c).pairs = docs.foldl PlainStore.replace c.pairs := by
  refine WF.pairs_foldl PlainStore.replace (fun d doc hd => ⟨hd.modify .., ?_⟩) h
  rw [hd.pairs_modify]
  unfold PlainStore.replace
  refine List.map_congr_left fun p _ => ?_
  split
  · rename_i hp; rw [hp]
  · rfl

theorem WF.deleteEach_pairs (name : String) : ∀ {ids : List Uuid} {c : Collection}, c.WF →
    deleteEach name ids c.pairs = ((Store.removeEach name ids c).1, (Store.removeEach name ids c).2.pairs)
  | [], _, _ => rfl
  | id :: ids, c, h => by
    unfold deleteEach Store.removeEach
    rw [h.has_pairs]
    split
    · rw [← h.pairs_remove, WF.deleteEach_pairs name (h.remove id)]
    · rfl

/-! ### Changing the documents that satisfy a predicate -/

theorem matchingIds_eq (c : Collection) (filter : Expr) :
    c.matchingIds filter = (PlainStore.select c.pairs (some filter)).map (·.map (·.1)) := by
  rw [← select_pairs, except_map_map]
  refine congrArg (Except.map · _) (funext fun rows => ?_)
  rw [Function.comp_apply, List.map_map]
  rfl

theorem select_ok {pairs selected : List (Uuid × Value)} (h : PlainStore.select pairs (some filter) = .ok selected) :
    selected = pairs.filter fun p => filter.holds p.2 := by
  unfold PlainStore.select at h
  dsimp only at h
  split at h
  · cases h
  · cases h; rfl

theorem WF.nodup_pairs (h : c.WF) : (c.pairs.map (·.1)).Nodup := by
  rw [map_fst_pairs]
  exact h.ids

theorem ids_selected (c : Collection) (filter : Expr) :
    (c.pairs.filter fun p => filter.holds p.2).map (·.1) =
      (c.rows.filter fun row => filter.holds row.doc).map (·.id) := by
  rw [pairs, List.filter_map, List.map_map]
  rfl

theorem WF.pairs_modifySelected (h : c.WF) (filter : Expr) (change : Value → Value) :
    (((c.pairs.filter fun p => filter.holds p.2).map (·.1)).foldl (fun c id => c.modify id change) c).pairs =
      c.pairs.map fun p => if filter.holds p.2 then (p.1, change p.2) else p := by
  rw [ids_selected, Store.foldl_modify_selected h, pairs, List.map_map, pairs, List.map_map]
  refine List.map_congr_left fun row _ => ?_
  simp only [Function.comp_apply]
  split <;> rfl

theorem foldl_filter_ne (pairs : List (Uuid × Value)) : ∀ ids : List Uuid,
    ids.foldl (fun pairs id => pairs.filter (·.1 ≠ id)) pairs = pairs.filter (·.1 ∉ ids)
  | [] => by simp
  | id :: ids => by
    rw [List.foldl_cons, foldl_filter_ne _ ids, List.filter_filter]
    refine List.filter_congr fun p _ => ?_
    rw [Bool.eq_iff_iff]
    simp [and_comm]

theorem WF.pairs_removeSelected (h : c.WF) (filter : Expr) :
    (((c.pairs.filter fun p => filter.holds p.2).map (·.1)).foldl Collection.remove c).pairs =
      c.pairs.filter fun p => !filter.holds p.2 := by
  rw [WF.pairs_foldl (fun pairs id => pairs.filter (·.1 ≠ id))
    (fun d id hd => ⟨hd.remove id, hd.pairs_remove id⟩) h, foldl_filter_ne]
  refine List.filter_congr fun p hp => ?_
  obtain ⟨row, hr, rfl⟩ := List.mem_map.1 hp
  rw [ids_selected, Bool.eq_iff_iff, decide_eq_true_iff, Store.mem_ids_selected h filter hr, Bool.not_eq_true,
    Bool.not_eq_true']

/-! ### Reading -/

theorem WF.count_eq (h : c.WF) (filter : Option Expr) :
    c.count filter = (PlainStore.select c.pairs filter).map List.length := by
  cases filter with
  | none => exact congrArg Except.ok (by rw [h.index, pairs, List.length_map, List.length_map])
  | some filter =>
    rw [← select_pairs, except_map_map]
    refine congrArg (Except.map · _) (funext fun rows => ?_)
    exact List.length_map _ |>.symm

theorem query_eq (c : Collection) (q : Query) : c.query q = (PlainStore.select c.pairs q.filter).map fun selected =>
    window q.offset q.limit (sortDocuments q.sort (selected.map (·.2))) := by
  rw [← select_pairs, except_map_map]
  refine congrArg (Except.map · _) (funext fun rows => ?_)
  rw [Function.comp_apply, List.map_map]
  rfl

end Collection

/-! ## Stores as plain stores -/

namespace Store

variable {s : Store} {c : StoreCall} {name : String}

/-- A store without its index. -/
def plain (s : Store) : PlainStore where
  collections := s.collections.map (Prod.map id Collection.pairs)
  counters := s.counters

theorem lookup_plain (s : Store) (name : String) :
    s.plain.collections.lookup name = (s.collections.lookup name).map Collection.pairs := Entries.lookup_map ..

theorem pairs_plain (s : Store) (name : String) : s.plain.pairs name = (s.collection name).pairs := by
  unfold PlainStore.pairs collection
  rw [lookup_plain]
  cases s.collections.lookup name <;> rfl

theorem put_plain (s : Store) (name : String) (c : Collection) :
    s.plain.put name c.pairs = (s.setCollection name c).plain := by
  unfold PlainStore.put plain setCollection
  rw [Entries.insert_map]

theorem WF.of_lookup (hw : s.WF) {c : Collection} (hl : s.collections.lookup name = some c) : c.WF := by
  rw [← collection_of_lookup hl]
  exact hw name

theorem WF.find_plain (hw : s.WF) (docs : List (Uuid × Value)) (name : String) :
    (docs.find? fun d => PlainStore.has (s.plain.pairs name) d.1) =
      docs.find? fun d => (s.collection name).contains d.1 := by
  simp only [pairs_plain, (hw name).has_pairs]

/-- A store and the plain store without its index perform a call alike. -/
def Mirrors (c : StoreCall) (s : Store) : Prop :=
  PlainStore.perform c s.plain = ((perform c s).1, (perform c s).2.plain)

theorem WF.mirrors_insert (hw : s.WF) (docs : List (Uuid × Value)) (name : String) :
    s.Mirrors (.insert docs name) := by
  unfold Mirrors PlainStore.perform perform insertDocuments
  dsimp only
  rw [hw.find_plain]
  cases hf : docs.find? fun d => (s.collection name).contains d.1 with
  | some d =>
    -- a batch is refused for an identifier in use, so the collection is there already
    have hc : (s.collection name).contains d.1 = true := by simpa using List.find?_some hf
    rw [setCollection_self (lookup_of_contains hc)]
    rfl
  | none =>
    dsimp only
    rw [pairs_plain, ← Collection.pairs_foldl_insert, put_plain]
    rfl

theorem WF.mirrors_update (hw : s.WF) (docs : List (Uuid × Value)) (name : String) :
    s.Mirrors (.update docs name) := by
  unfold Mirrors PlainStore.perform perform updateDocuments
  dsimp only
  rw [lookup_plain]
  cases hl : s.collections.lookup name with
  | none => rfl
  | some c =>
    have hc := hw.of_lookup hl
    simp only [Option.map_some, hc.has_pairs]
    cases docs.find? fun d => !c.contains d.1 with
    | some d => rfl
    | none =>
      dsimp only
      rw [← hc.pairs_replace, put_plain]
      rfl

theorem WF.mirrors_delete (hw : s.WF) (ids : List Uuid) (name : String) : s.Mirrors (.delete ids name) := by
  unfold Mirrors PlainStore.perform perform deleteDocuments
  dsimp only
  rw [lookup_plain]
  cases hl : s.collections.lookup name with
  | none => rfl
  | some c =>
    dsimp only [Option.map_some]
    rw [(hw.of_lookup hl).deleteEach_pairs]
    rcases removeEach name ids c with ⟨_ | fault, d⟩
    · dsimp only
      rw [put_plain]
      rfl
    · dsimp only
      rw [put_plain]
      rfl

theorem WF.mirrors_updateFields (hw : s.WF) (filter : Expr) (fields : Document) (name : String) :
    s.Mirrors (.updateFields filter fields name) := by
  unfold Mirrors PlainStore.perform perform updateFields
  dsimp only
  rw [lookup_plain]
  cases hl : s.collections.lookup name with
  | none => rfl
  | some c =>
    dsimp only [Option.map_some]
    rw [Collection.matchingIds_eq]
    cases hs : PlainStore.select c.pairs (some filter) with
    | error fault => rfl
    | ok selected =>
      dsimp only [Except.map, outcome]
      rw [Collection.select_ok hs, ← (hw.of_lookup hl).pairs_modifySelected, put_plain, List.length_map]

theorem WF.mirrors_remove (hw : s.WF) (filter : Expr) (name : String) : s.Mirrors (.remove filter name) := by
  unfold Mirrors PlainStore.perform perform removeDocuments
  dsimp only
  rw [lookup_plain]
  cases hl : s.collections.lookup name with
  | none => rfl
  | some c =>
    dsimp only [Option.map_some]
    rw [Collection.matchingIds_eq]
    cases hs : PlainStore.select c.pairs (some filter) with
    | error fault => rfl
    | ok selected =>
      dsimp only [Except.map, outcome]
      rw [Collection.select_ok hs, ← (hw.of_lookup hl).pairs_removeSelected, put_plain, List.length_map]

theorem mirrors_drop (s : Store) (name : String) : s.Mirrors (.drop name) := by
  unfold Mirrors PlainStore.perform perform dropCollection
  dsimp only
  rw [lookup_plain]
  cases hl : s.collections.lookup name with
  | none => rfl
  | some c =>
    dsimp only [Option.map_some, outcome, plain]
    rw [Entries.erase_map]

theorem mirrors_advance (s : Store) (counter : String) (delta : Int64) : s.Mirrors (.advance counter delta) := by
  unfold Mirrors PlainStore.perform perform
  dsimp only
  rw [show s.plain.counters.lookup counter = s.counter? counter from rfl]
  cases hn : Bounded.int64? (((s.counter? counter).getD 0).toInt + delta.toInt) with
  | some next =>
    have ha : advance counter delta s = .ok next { s with counters := Entries.insert counter next s.counters } := by
      unfold advance
      dsimp only
      rw [hn]
    rw [ha]
    rfl
  | none =>
    cases ha : advance counter delta s with
    | ok next t =>
      unfold advance at ha
      dsimp only at ha
      rw [hn] at ha
      cases ha
    | error fault t =>
      obtain ⟨rfl, rfl⟩ := advance_error ha
      rfl

theorem WF.mirrors (hw : s.WF) (c : StoreCall) : s.Mirrors c := by
  cases c with
  | insert docs name => exact hw.mirrors_insert docs name
  | update docs name => exact hw.mirrors_update docs name
  | delete ids name => exact hw.mirrors_delete ids name
  | get ids name =>
    unfold Mirrors PlainStore.perform perform getDocuments
    dsimp only
    rw [pairs_plain, funext (hw name).lookup_pairs]
  | query q name =>
    unfold Mirrors PlainStore.perform perform queryDocuments
    dsimp only
    rw [pairs_plain, Collection.query_eq, except_map_map]
    rfl
  | count filter name =>
    unfold Mirrors PlainStore.perform perform countDocuments
    dsimp only
    rw [pairs_plain, (hw name).count_eq, except_map_map]
    rfl
  | updateFields filter fields name => exact hw.mirrors_updateFields filter fields name
  | remove filter name => exact hw.mirrors_remove filter name
  | create name =>
    unfold Mirrors PlainStore.perform perform createCollection
    dsimp only
    rw [pairs_plain, put_plain]
    rfl
  | drop name => exact s.mirrors_drop name
  | list =>
    unfold Mirrors PlainStore.perform perform listCollections
    dsimp only
    rw [Entries.keys_sorted, plain, Entries.keys_map]
  | advance counter delta => exact s.mirrors_advance counter delta

/-! ## Runs -/

/-- What a run from a well-formed store yields and leaves: a plain store that performs the same calls yields the same
and ends as the store without its index. -/
theorem WF.run_plain : ∀ {calls : List StoreCall} {s : Store}, s.WF → (∀ c ∈ calls, c.Distinct) →
    (runCalls perform calls s).2.WF ∧ runCalls PlainStore.perform calls s.plain =
      ((runCalls perform calls s).1, (runCalls perform calls s).2.plain)
  | [], _, hw, _ => ⟨hw, rfl⟩
  | c :: calls, s, hw, hd => by
    rw [List.forall_mem_cons] at hd
    -- the invariant is well-formedness, which a batch without repetitions keeps
    obtain ⟨hw', ih⟩ := WF.run_plain (hw.after hd.1) hd.2
    refine ⟨hw', ?_⟩
    unfold runCalls
    rw [hw.mirrors c]
    dsimp only
    unfold Store.after at ih
    rw [ih]

/-- Calls that insert no identifier twice at once yield the same replies and faults on the indexed store as on plain
lists, and leave the same documents. The identifiers of each list stay distinct, and a further call touches no list but
the one that it names. The positions of rows are numbers without bound, so the run may be of any length. -/
theorem run_refines_lists {calls : List StoreCall} (hd : ∀ c ∈ calls, c.Distinct) :
    (runCalls perform calls {}).1 = (runCalls PlainStore.perform calls {}).1 ∧
      (runCalls perform calls {}).2.plain = (runCalls PlainStore.perform calls {}).2 ∧
      (∀ name, (((runCalls PlainStore.perform calls {}).2.pairs name).map (·.1)).Nodup) ∧
      ∀ c other, StoreCall.target? c ≠ some other →
        (PlainStore.perform c (runCalls PlainStore.perform calls {}).2).2.collections.lookup other =
          (runCalls PlainStore.perform calls {}).2.collections.lookup other := by
  obtain ⟨hw, hrun⟩ := WF.run_plain empty_wf hd
  rw [show ({} : PlainStore) = ({} : Store).plain from rfl, hrun]
  refine ⟨rfl, rfl, ?_, ?_⟩
  · intro name
    dsimp only
    rw [pairs_plain]
    exact (hw name).nodup_pairs
  · intro c other ht
    dsimp only
    rw [hw.mirrors c]
    dsimp only
    rw [lookup_plain, lookup_plain, show (perform c _).2 = after c _ from rfl, lookup_after ht]

/-- Inserts, a deletion up to a missing identifier, the deleted identifier inserted again, and changes by a
predicate. -/
def reinsertion : List StoreCall :=
  [.insert [(.ofNat 1, .document [("n", .int32 1)]), (.ofNat 2, .document [("n", .int32 2)])] "a",
    .insert [(.ofNat 1, .document [])] "b",
    .delete [.ofNat 1, .ofNat 3, .ofNat 2] "a",
    .insert [(.ofNat 1, .document [("n", .int32 3)])] "a",
    .insert [(.ofNat 4, .document []), (.ofNat 1, .document [])] "a",
    .updateFields (.present "n" true) [("m", .int32 0)] "a",
    .remove (.present "n" false) "b",
    .query {} "a"]

theorem run_refines_lists_reinsertion :
    (∀ c ∈ reinsertion, c.Distinct) ∧
      (runCalls perform reinsertion {}).1 = [.ok .done, .ok .done, .error (.notFound (Uuid.ofNat 3).text "a"),
        .ok .done, .error (.alreadyExists (Uuid.ofNat 1).text "a"), .ok (.count 2), .ok (.count 1),
        .ok (.documents [.document [("n", .int32 2), ("m", .int32 0)], .document [("n", .int32 3), ("m", .int32 0)]])] ∧
      (runCalls perform reinsertion {}).1 = (runCalls PlainStore.perform reinsertion {}).1 ∧
      (runCalls perform reinsertion {}).2.plain = (runCalls PlainStore.perform reinsertion {}).2 := by
  have hd : ∀ c ∈ reinsertion, c.Distinct := by decide
  obtain ⟨hresults, hstore, -⟩ := run_refines_lists hd
  refine ⟨hd, ?_, hresults, hstore⟩
  simp only [reinsertion, runCalls, perform_query_all]
  with_unfolding_all rfl

end Store

end Dossier
