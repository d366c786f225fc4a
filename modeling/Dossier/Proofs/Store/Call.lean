/-
Calls of the store as data. A call yields a reply or a fault and leaves a store; what it does to one collection is to
revise it row by row, to append a batch, or to drop it, and it leaves every other collection alone.
-/
import Dossier.Proofs.Store.Writes

namespace Dossier

/-- A call of the store. -/
inductive StoreCall where
  | insert (docs : List (Uuid × Value)) (name : String)
  | update (docs : List (Uuid × Value)) (name : String)
  | delete (ids : List Uuid) (name : String)
  | get (ids : List Uuid) (name : String)
  | query (q : Query) (name : String)
  | count (filter : Option Expr) (name : String)
  | updateFields (filter : Expr) (fields : Document) (name : String)
  | remove (filter : Expr) (name : String)
  | create (name : String)
  | drop (name : String)
  | list
  | advance (counter : String) (delta : Int64)

/-- What a call that succeeds replies. -/
inductive Reply where
  | done
  | documents (docs : List Value)
  | count (n : Nat)
  | counter (value : Int64)
  | names (names : List String)

namespace StoreCall

/-- The collection that a call names. -/
def target? : StoreCall → Option String
  | insert _ name | update _ name | delete _ name | get _ name | query _ name | count _ name
  | updateFields _ _ name | remove _ name | create name | drop name => some name
  | list | advance _ _ => none

/-- Whether a call inserts no identifier twice at once. -/
def Distinct : StoreCall → Prop
  | insert docs _ => (docs.map (·.1)).Nodup
  | _ => True

instance : DecidablePred Distinct
  | insert docs _ => inferInstanceAs (Decidable (docs.map (·.1)).Nodup)
  | update .. | delete .. | get .. | query .. | count .. | updateFields .. | remove .. | create .. | drop .. | list
  | advance .. => .isTrue trivial

end StoreCall

/-- Calls one after the other, whatever they yield: the replies and faults, and the state that is left. -/
def runCalls {S : Type} (perform : StoreCall → S → Except Fault Reply × S) :
    List StoreCall → S → List (Except Fault Reply) × S
  | [], s => ([], s)
  | c :: calls, s =>
    let (result, t) := perform c s
    let (results, u) := runCalls perform calls t
    (result :: results, u)

namespace Store

/-- A change of the store as a call: its reply or fault, and the store that it leaves. -/
def outcome {α : Type} (reply : α → Reply) : EStateM.Result Fault Store α → Except Fault Reply × Store
  | .ok a t => (.ok (reply a), t)
  | .error fault t => (.error fault, t)

/-- Performs a call. -/
def perform : StoreCall → Store → Except Fault Reply × Store
  | .insert docs name, s => outcome (fun _ => .done) (insertDocuments docs name s)
  | .update docs name, s => outcome (fun _ => .done) (updateDocuments docs name s)
  | .delete ids name, s => outcome (fun _ => .done) (deleteDocuments ids name s)
  | .get ids name, s => (.ok (.documents (s.getDocuments ids name)), s)
  | .query q name, s => ((s.queryDocuments q name).map .documents, s)
  | .count filter name, s => ((s.countDocuments filter name).map .count, s)
  | .updateFields filter fields name, s => outcome .count (updateFields filter fields name s)
  | .remove filter name, s => outcome .count (removeDocuments filter name s)
  | .create name, s => outcome (fun _ => .done) (createCollection name s)
  | .drop name, s => outcome (fun _ => .done) (dropCollection name s)
  | .list, s => (.ok (.names s.listCollections), s)
  | .advance counter delta, s => outcome .counter (advance counter delta s)

/-- The store that a call leaves. -/
def after (c : StoreCall) (s : Store) : Store := (perform c s).2

theorem perform_query_all (name : String) (s : Store) :
    perform (.query {} name) s = (.ok (.documents ((s.rows name).map (·.doc))), s) := by
  show (((s.collection name).query {}).map Reply.documents, s) = _
  rw [Collection.query_all]
  rfl

end Store

namespace Collection

/-- A collection in which documents have been changed and removed, each by its identifier. -/
inductive Revised (c : Collection) : Collection → Prop
  | refl : Revised c c
  | modify {d : Collection} (id : Uuid) (change : Value → Value) (h : Revised c d) : Revised c (d.modify id change)
  | remove {d : Collection} (id : Uuid) (h : Revised c d) : Revised c (d.remove id)

variable {c d : Collection}

/-- What holds of a collection and survives every change and removal holds after them. -/
theorem Revised.preserve {P : Collection → Prop} (hm : ∀ d id change, P d → P (d.modify id change))
    (hr : ∀ d id, P d → P (d.remove id)) (h : Revised c d) (hc : P c) : P d := by
  induction h with
  | refl => exact hc
  | modify id change _ ih => exact hm _ id change ih
  | remove id _ ih => exact hr _ id ih

theorem revised_removeEach (name : String) : ∀ {ids : List Uuid} {d : Collection}, Revised c d →
    Revised c (Store.removeEach name ids d).2
  | [], _, h => h
  | id :: ids, d, h => by
    unfold Store.removeEach
    split
    · exact revised_removeEach name (h.remove id)
    · exact h

end Collection

/-! ## What a call does -/

/-- What a call does to the collection that it names: it revises the collection, or appends a batch of new
identifiers. -/
inductive StoreCall.Writes (call : StoreCall) (name : String) (result : Except Fault Reply) (c : Collection) :
    Collection → Prop
  | revised {d : Collection} (hi : ∀ docs, call = .insert docs name → result ≠ .ok .done) (h : c.Revised d) :
    Writes call name result c d
  | inserted {docs : List (Uuid × Value)} (hc : call = .insert docs name) (hr : result = .ok .done)
    (hnew : ∀ d ∈ docs, c.contains d.1 = false) :
    Writes call name result c (docs.foldl (fun c d => c.insert d.1 d.2) c)

namespace Store

variable {s : Store} {name other : String} {c : StoreCall}

/-- What a call does to the collections of a store. -/
inductive Affected (c : StoreCall) (result : Except Fault Reply) (s : Store) : Store → Prop
  | nothing {t : Store} (hs : t.collections = s.collections)
    (hi : ∀ docs name, c = .insert docs name → result ≠ .ok .done) (hd : ∀ name, c ≠ .drop name) : Affected c result s t
  | written {name : String} {d : Collection} (ht : c.target? = some name) (hd : c ≠ .drop name)
    (h : c.Writes name result (s.collection name) d) : Affected c result s (s.setCollection name d)
  | dropped {t : Store} {name : String} (hc : c = .drop name) (ht : t.collections = Entries.erase name s.collections) :
    Affected c result s t

theorem revised_foldl {α : Type} {c : Collection} {step : Collection → α → Collection}
    (hstep : ∀ d a, c.Revised d → c.Revised (step d a)) (as : List α) : c.Revised (as.foldl step c) :=
  List.foldlRecOn as step .refl fun d hd a _ => hstep d a hd

theorem erase_of_lookup_none {es : List (String × Collection)} (h : es.lookup name = none) :
    Entries.erase name es = es := by
  rw [Entries.lookup_eq_none_iff] at h
  refine List.filter_eq_self.2 fun e he => ?_
  rw [bne_iff_ne]
  exact fun hn => h (List.mem_map.2 ⟨e, he, hn⟩)

theorem perform_affected (c : StoreCall) (s : Store) : Affected c (perform c s).1 s (after c s) := by
  unfold after
  cases c with
  | insert docs name =>
    dsimp only [perform]
    unfold insertDocuments
    dsimp only
    split
    · exact .written rfl nofun (.revised (fun _ _ => nofun) .refl)
    · rename_i hnew
      rw [List.find?_eq_none] at hnew
      exact .written rfl nofun (.inserted rfl rfl fun d hd => by simpa using hnew d hd)
  | update docs name =>
    dsimp only [perform]
    unfold updateDocuments
    split
    · exact .nothing rfl nofun nofun
    · rename_i c hl
      split
      · exact .nothing rfl nofun nofun
      · refine .written rfl nofun (.revised nofun ?_)
        rw [collection_of_lookup hl]
        exact revised_foldl (fun d doc h => h.modify doc.1 _) docs
  | delete ids name =>
    dsimp only [perform]
    unfold deleteDocuments
    split
    · exact .nothing rfl nofun nofun
    · rename_i c hl
      have hr : (s.collection name).Revised (removeEach name ids c).2 := by
        rw [collection_of_lookup hl]
        exact Collection.revised_removeEach name .refl
      split <;> (rename_i he; rw [he] at hr; exact .written rfl nofun (.revised nofun hr))
  | updateFields filter fields name =>
    dsimp only [perform]
    unfold updateFields
    split
    · exact .nothing rfl nofun nofun
    · rename_i c hl
      split
      · exact .nothing rfl nofun nofun
      · refine .written rfl nofun (.revised nofun ?_)
        rw [collection_of_lookup hl]
        exact revised_foldl (fun d id h => h.modify id _) _
  | remove filter name =>
    dsimp only [perform]
    unfold removeDocuments
    split
    · exact .nothing rfl nofun nofun
    · rename_i c hl
      split
      · exact .nothing rfl nofun nofun
      · refine .written rfl nofun (.revised nofun ?_)
        rw [collection_of_lookup hl]
        exact revised_foldl (fun d id h => h.remove id) _
  | create name => exact .written rfl nofun (.revised nofun .refl)
  | drop name =>
    dsimp only [perform]
    unfold dropCollection
    split
    · rename_i hl
      exact .dropped rfl (erase_of_lookup_none hl).symm
    · exact .dropped rfl rfl
  | advance counter delta =>
    dsimp only [perform]
    unfold advance
    dsimp only
    split <;> exact .nothing rfl nofun nofun
  -- the other calls read
  | _ => exact .nothing rfl nofun nofun

theorem lookup_setCollection (s : Store) (name other : String) (c : Collection) :
    (s.setCollection name c).collections.lookup other = if other = name then some c else s.collections.lookup other :=
  Entries.lookup_insert ..

/-- A call leaves all collections alone but the one that it names. -/
theorem lookup_after (h : c.target? ≠ some other) :
    (after c s).collections.lookup other = s.collections.lookup other := by
  have ha := perform_affected c s
  generalize after c s = t at ha ⊢
  cases ha with
  | nothing hs => rw [hs]
  | written ht =>
    rw [lookup_setCollection, if_neg]
    rintro rfl
    exact h ht
  | dropped hc ht =>
    rw [ht, Entries.lookup_erase, if_neg]
    rintro rfl
    exact h (by rw [hc]; rfl)

theorem collection_of_lookup_eq {t : Store} (h : t.collections.lookup name = s.collections.lookup name) :
    t.collection name = s.collection name := by
  unfold collection
  rw [h]

theorem collection_after_drop (s : Store) (name : String) : (after (.drop name) s).collection name = {} := by
  have ha := perform_affected (.drop name) s
  generalize after (.drop name) s = t at ha ⊢
  cases ha with
  | nothing hs hi hd => exact (hd name rfl).elim
  | written ht hd =>
    cases ht
    exact (hd rfl).elim
  | dropped hc ht =>
    cases hc
    unfold collection
    rw [ht, Entries.lookup_erase, if_pos rfl]
    rfl

/-- What a call that does not drop a collection does to it. -/
theorem collection_after (hd : c ≠ .drop name) (s : Store) :
    c.Writes name (perform c s).1 (s.collection name) ((after c s).collection name) := by
  by_cases ht : c.target? = some name
  · have ha := perform_affected c s
    generalize after c s = t at ha ⊢
    generalize (perform c s).1 = result at ha ⊢
    cases ha with
    | nothing hs hi =>
      rw [collection_of_lookup_eq (by rw [hs])]
      exact .revised (fun docs hc => hi docs name hc) .refl
    | written ht' hd' h =>
      rw [ht, Option.some.injEq] at ht'
      subst ht'
      rw [collection_setCollection, if_pos rfl]
      exact h
    | dropped hc =>
      subst hc
      cases ht
      exact (hd rfl).elim
  · rw [collection_of_lookup_eq (lookup_after ht)]
    refine .revised (fun docs hc => ?_) .refl
    subst hc
    exact (ht rfl).elim

/-! ## Well-formedness -/

theorem wf_of_writes {call : StoreCall} {result : Except Fault Reply} {c d : Collection} (hd : call.Distinct)
    (h : call.Writes name result c d) (hc : c.WF) : d.WF := by
  cases h with
  | revised hi hr => exact hr.preserve (fun _ id change h => h.modify id change) (fun _ id h => h.remove id) hc
  | inserted he hr hnew =>
    subst he
    exact foldl_insert_wf hc hd hnew

/-- A call that inserts no identifier twice at once keeps all collections well-formed. -/
theorem WF.after (hw : s.WF) (hd : c.Distinct) : (after c s).WF := by
  intro name
  by_cases hc : c = .drop name
  · subst hc
    rw [collection_after_drop]
    exact Collection.empty_wf
  · exact wf_of_writes hd (collection_after hc s) (hw name)

end Store

end Dossier
