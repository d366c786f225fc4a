/-
Documents that no identifier reaches. A batch that names an identifier more than once stores a row each time, and the
identifier addresses the last of them only. Over every run a collection holds as many rows more than it has identifiers
as the batches since it was last dropped have repeated identifiers, and unless there is none, its counts disagree.
-/
import Dossier.Proofs.Store.Call
import Mathlib.Data.List.Dedup

namespace Dossier

namespace Collection

variable {c d : Collection} {id : Uuid}

/-! ## Coherent collections -/

/-- The identifiers of the rows with their positions. -/
def addresses (c : Collection) : List (Uuid × Nat) := c.rows.map fun row => (row.id, row.position)

/-- What every change keeps: the index holds each identifier once, with the position of one of its rows, and positions
are never given twice. -/
structure Coherent (c : Collection) : Prop where
  index : c.positions.Sublist c.addresses
  ids : (c.positions.map (·.1)).Nodup
  positions : (c.addresses.map (·.2)).Nodup
  below : ∀ a ∈ c.addresses, a.2 < c.nextPosition

/-- How many rows no identifier addresses. -/
def orphans (c : Collection) : Nat := c.addresses.length - c.positions.length

theorem empty_coherent : ({} : Collection).Coherent := ⟨.slnil, by simp, by simp [addresses], by simp [addresses]⟩

theorem Coherent.length_addresses (h : c.Coherent) : c.addresses.length = c.positions.length + c.orphans := by
  have hle := h.index.length_le
  unfold orphans
  omega

/-- A collection is well-formed if every row is addressed. -/
theorem Coherent.wf (h : c.Coherent) (ho : c.orphans = 0) : c.WF := by
  have hlen := h.length_addresses
  have hindex : c.positions = c.addresses := h.index.eq_of_length (by omega)
  have hids := h.ids
  have hpositions := h.positions
  rw [hindex, addresses, List.map_map] at hids
  rw [addresses, List.map_map] at hpositions
  exact ⟨hindex, hids, hpositions, fun row hr => h.below _ (List.mem_map_of_mem hr)⟩

theorem contains_iff_mem : c.contains id ↔ id ∈ c.positions.map (·.1) := by
  unfold contains
  induction c.positions with
  | nil => simp
  | cons p ps ih =>
    rw [List.lookup_cons, List.map_cons, List.mem_cons, ← ih]
    by_cases hp : id = p.1
    · simp [hp]
    · simp [hp, beq_false_of_ne hp]

/-! ### Changing and removing -/

theorem addresses_modify (c : Collection) (id : Uuid) (change : Value → Value) :
    (c.modify id change).addresses = c.addresses := by
  unfold modify addresses
  split
  · rfl
  · rw [List.map_map]
    refine List.map_congr_left fun row _ => ?_
    rw [Function.comp_apply]
    split <;> rfl

theorem Coherent.modify (h : c.Coherent) (id : Uuid) (change : Value → Value) :
    (c.modify id change).Coherent ∧ (c.modify id change).orphans = c.orphans := by
  obtain ⟨hp, hn⟩ := modify_positions c id change
  have ha := addresses_modify c id change
  constructor
  · constructor
    case index => rw [hp, ha]; exact h.index
    case ids => rw [hp]; exact h.ids
    case positions => rw [ha]; exact h.positions
    case below => rw [ha, hn]; exact h.below
  · unfold Collection.orphans
    rw [hp, ha]

theorem mem_of_lookup_position {position : Nat} : ∀ {ps : List (Uuid × Nat)}, ps.lookup id = some position →
    (id, position) ∈ ps
  | p :: ps, h => by
    rw [List.lookup_cons] at h
    by_cases hp : id = p.1
    · subst hp
      simp only [beq_self_eq_true, Option.some.injEq] at h
      subst h
      exact List.mem_cons_self
    · rw [beq_false_of_ne hp] at h
      exact List.mem_cons_of_mem _ (mem_of_lookup_position h)

/-- An identifier leaves the index together with the one row that it addresses. -/
theorem Coherent.remove_eq (h : c.Coherent) {position : Nat} (hl : c.positions.lookup id = some position) :
    (c.remove id).positions = c.positions.erase (id, position) ∧
      (c.remove id).addresses = c.addresses.erase (id, position) := by
  have hm := mem_of_lookup_position hl
  have hma := h.index.subset hm
  constructor
  -- no other entry has the identifier, and no other row has the position
  · rw [(List.Nodup.of_map _ h.ids).erase_eq_filter]
    unfold remove
    rw [hl]
    refine List.filter_congr fun p hp => ?_
    rw [Bool.eq_iff_iff, bne_iff_ne, bne_iff_ne, not_iff_not]
    refine ⟨fun hi => ?_, fun he => by rw [he]⟩
    exact List.inj_on_of_nodup_map h.ids hp hm hi
  · rw [(List.Nodup.of_map _ h.positions).erase_eq_filter]
    unfold remove
    rw [hl, addresses, addresses, List.filter_map]
    refine congrArg (List.map _) (List.filter_congr fun row hr => ?_)
    rw [Function.comp_apply, Bool.eq_iff_iff, bne_iff_ne, bne_iff_ne, not_iff_not]
    refine ⟨fun hi => ?_, fun he => by rw [(Prod.mk.inj he).2]⟩
    exact List.inj_on_of_nodup_map h.positions (List.mem_map_of_mem hr) hma hi

theorem Coherent.remove (h : c.Coherent) (id : Uuid) :
    (c.remove id).Coherent ∧ (c.remove id).orphans = c.orphans := by
  cases hl : c.positions.lookup id with
  | none =>
    have hc : c.remove id = c := by unfold Collection.remove; rw [hl]
    rw [hc]
    exact ⟨h, rfl⟩
  | some position =>
    obtain ⟨hp, ha⟩ := h.remove_eq hl
    have hm := mem_of_lookup_position hl
    constructor
    · constructor
      case index => rw [hp, ha]; exact h.index.erase _
      case ids => rw [hp]; exact h.ids.sublist (List.erase_sublist.map _)
      case positions => rw [ha]; exact h.positions.sublist (List.erase_sublist.map _)
      case below =>
        rw [ha, remove_nextPosition]
        exact fun a hm => h.below a (List.mem_of_mem_erase hm)
    · have hle := h.index.length_le
      have hpos := List.length_pos_of_mem hm
      unfold Collection.orphans
      rw [hp, ha, List.length_erase_of_mem hm, List.length_erase_of_mem (h.index.subset hm)]
      omega

theorem Coherent.revised (h : c.Coherent) (hr : c.Revised d) : d.Coherent ∧ d.orphans = c.orphans := by
  refine hr.preserve (P := fun d => d.Coherent ∧ d.orphans = c.orphans) ?_ ?_ ⟨h, rfl⟩
  · intro d id change hd
    obtain ⟨hc, ho⟩ := hd.1.modify id change
    exact ⟨hc, ho.trans hd.2⟩
  · intro d id hd
    obtain ⟨hc, ho⟩ := hd.1.remove id
    exact ⟨hc, ho.trans hd.2⟩

/-! ### Inserting -/

theorem addresses_insert (c : Collection) (id : Uuid) (doc : Value) :
    (c.insert id doc).addresses = c.addresses ++ [(id, c.nextPosition)] := by
  unfold addresses
  rw [insert_rows, List.map_append]
  rfl

theorem Coherent.insert (h : c.Coherent) (id : Uuid) (doc : Value) : (c.insert id doc).Coherent where
  index := by
    rw [addresses_insert]
    exact (List.filter_sublist.trans h.index).append (.refl _)
  ids := by
    unfold Collection.insert
    rw [List.map_append, List.nodup_append]
    refine ⟨h.ids.sublist (List.filter_sublist.map _), by simp, ?_⟩
    intro a ha b hb
    obtain ⟨p, hp, rfl⟩ := List.mem_map.1 ha
    have hne := (List.mem_filter.1 hp).2
    rw [bne_iff_ne] at hne
    rw [List.map_singleton, List.mem_singleton] at hb
    rw [hb]
    exact hne
  positions := by
    rw [addresses_insert, List.map_append, List.nodup_append]
    refine ⟨h.positions, by simp, ?_⟩
    intro a ha b hb
    obtain ⟨p, hp, rfl⟩ := List.mem_map.1 ha
    rw [List.map_singleton, List.mem_singleton] at hb
    have := h.below p hp
    omega
  below := by
    intro a ha
    show a.2 < c.nextPosition + 1
    rw [addresses_insert, List.mem_append, List.mem_singleton] at ha
    rcases ha with ha | rfl
    · have := h.below a ha
      omega
    · exact Nat.lt_succ_self _

theorem Coherent.foldl_insert (h : c.Coherent) (docs : List (Uuid × Value)) :
    (docs.foldl (fun c d => c.insert d.1 d.2) c).Coherent :=
  List.foldlRecOn docs _ h fun _ hd d _ => hd.insert d.1 d.2

/-- How often a list names again what it has named. -/
def repeats (ids : List Uuid) : Nat := ids.length - ids.dedup.length

theorem repeats_eq_zero_iff {ids : List Uuid} : repeats ids = 0 ↔ ids.Nodup := by
  have hle := (List.dedup_sublist ids).length_le
  unfold repeats
  constructor
  · intro h
    rw [← List.dedup_eq_self]
    exact (List.dedup_sublist ids).eq_of_length (by omega)
  · intro h
    rw [List.dedup_eq_self.2 h]
    omega

/-- A batch of new identifiers leaves a row unaddressed for each time that it repeats one. -/
theorem Coherent.orphans_foldl_insert (h : c.Coherent) {docs : List (Uuid × Value)}
    (hnew : ∀ d ∈ docs, c.contains d.1 = false) :
    (docs.foldl (fun c d => c.insert d.1 d.2) c).orphans = c.orphans + repeats (docs.map (·.1)) := by
  have hrows : (docs.foldl (fun c d => c.insert d.1 d.2) c).addresses.length = c.addresses.length + docs.length := by
    obtain ⟨added, hr, hd⟩ := Store.foldl_insert_rows c docs
    unfold addresses
    rw [hr, List.length_map, List.length_append, List.length_map, ← hd, List.length_map]
  -- the identifiers in the index are those from before and, once each, those of the batch
  have hperm : ((docs.foldl (fun c d => c.insert d.1 d.2) c).positions.map (·.1)).Perm
      (c.positions.map (·.1) ++ (docs.map (·.1)).dedup) := by
    refine (List.perm_ext_iff_of_nodup (h.foldl_insert docs).ids ?_).2 fun id => ?_
    · refine List.nodup_append.2 ⟨h.ids, List.nodup_dedup _, ?_⟩
      rintro a ha b hb rfl
      rw [List.mem_dedup, List.mem_map] at hb
      obtain ⟨d, hd, rfl⟩ := hb
      rw [← contains_iff_mem, hnew d hd] at ha
      cases ha
    · have hany : (docs.any fun d => id == d.1) = true ↔ id ∈ docs.map (·.1) := by
        rw [List.any_eq_true, List.mem_map]
        exact exists_congr fun d => and_congr_right fun _ => beq_iff_eq.trans eq_comm
      rw [← contains_iff_mem, Store.contains_foldl_insert, Bool.or_eq_true, hany, contains_iff_mem, List.mem_append,
        List.mem_dedup]
  have hlen := hperm.length_eq
  rw [List.length_append, List.length_map, List.length_map] at hlen
  have hle := (List.dedup_sublist (docs.map (·.1))).length_le
  rw [List.length_map] at hle
  have hc := h.length_addresses
  have hd := (h.foldl_insert docs).length_addresses
  unfold repeats
  rw [List.length_map]
  omega

end Collection

namespace Store

variable {s : Store} {name : String}

/-! ## Runs -/

/-- Every collection is coherent. -/
def Coherent (s : Store) : Prop := ∀ name, (s.collection name).Coherent

/-- How many rows of a collection are unaddressed after a call with its result, given how many were before. -/
def unaddressed (name : String) (n : Nat) : StoreCall × Except Fault Reply → Nat
  | (.insert docs other, .ok .done) => if other = name then n + Collection.repeats (docs.map (·.1)) else n
  | (.drop other, _) => if other = name then 0 else n
  | _ => n

theorem unaddressed_insert (name : String) (n : Nat) (docs : List (Uuid × Value)) :
    unaddressed name n (.insert docs name, .ok .done) = n + Collection.repeats (docs.map (·.1)) := if_pos rfl

theorem unaddressed_drop (name : String) (n : Nat) (result : Except Fault Reply) :
    unaddressed name n (.drop name, result) = 0 := if_pos rfl

theorem unaddressed_eq_self {c : StoreCall} {result : Except Fault Reply} (hd : c ≠ .drop name)
    (hi : ∀ docs, c = .insert docs name → result ≠ .ok .done) (n : Nat) : unaddressed name n (c, result) = n := by
  unfold unaddressed
  split
  · rename_i docs other he
    rw [Prod.mk.injEq] at he
    refine if_neg fun ho => hi docs ?_ he.2
    rw [he.1, ho]
  · rename_i other _ he
    rw [Prod.mk.injEq] at he
    refine if_neg fun ho => hd ?_
    rw [he.1, ho]
  · rfl

/-- A call keeps collections coherent, and its batch leaves a row unaddressed for each repetition. -/
theorem Coherent.after (h : s.Coherent) (c : StoreCall) (name : String) :
    ((after c s).collection name).Coherent ∧ ((after c s).collection name).orphans =
      unaddressed name (s.collection name).orphans (c, (perform c s).1) := by
  by_cases hd : c = .drop name
  · subst hd
    rw [collection_after_drop]
    exact ⟨Collection.empty_coherent, (unaddressed_drop ..).symm⟩
  · have hw := collection_after hd s
    generalize (perform c s).1 = result at hw ⊢
    generalize (Store.after c s).collection name = d at hw ⊢
    cases hw with
    | revised hi hr =>
      rw [unaddressed_eq_self hd hi]
      exact (h name).revised hr
    | inserted hc hr hnew =>
      subst hc hr
      refine ⟨(h name).foldl_insert _, ?_⟩
      rw [(h name).orphans_foldl_insert hnew, unaddressed_insert]

theorem Coherent.run (name : String) : ∀ (calls : List StoreCall) {s : Store}, s.Coherent →
    ((runCalls perform calls s).2.collection name).Coherent ∧ ((runCalls perform calls s).2.collection name).orphans =
      (calls.zip (runCalls perform calls s).1).foldl (unaddressed name) (s.collection name).orphans
  | [], _, h => ⟨h name, rfl⟩
  | c :: calls, s, h => by
    have hstep := fun other => h.after c other
    have ih := Coherent.run name calls fun other => (hstep other).1
    unfold runCalls
    dsimp only
    rw [List.zip_cons_cons, List.foldl_cons, ← (hstep name).2]
    exact ih

/-! ## Intact collections -/

/-- A collection whose documents are counted alike with and without a filter, under identifiers of their own, and are
all fetched, updated and deleted through them. -/
structure Intact (s : Store) (name : String) : Prop where
  counts : ∃ n, s.countDocuments none name = .ok n ∧ s.countDocuments (some .all) name = .ok n ∧
    (s.queryDocuments {} name).map List.length = .ok n
  ids : ((s.rows name).map (·.id)).Nodup
  fetched : ∀ row ∈ s.rows name, s.getDocuments [row.id] name = [row.doc]
  updated : ∀ row ∈ s.rows name, ∀ doc, ∃ t, updateDocuments [(row.id, doc)] name s = .ok () t ∧
    { row with doc } ∈ t.rows name
  deleted : ∀ row ∈ s.rows name, ∃ t, deleteDocuments [row.id] name s = .ok () t ∧
    ∀ other ∈ t.rows name, other.position ≠ row.position

theorem countDocuments_none (s : Store) (name : String) :
    s.countDocuments none name = .ok (s.collection name).positions.length := rfl

theorem countDocuments_all (s : Store) (name : String) :
    s.countDocuments (some .all) name = .ok (s.rows name).length := by
  have hall : ∀ row ∈ (s.collection name).rows, Expr.all.Decides row.doc := fun _ _ => ⟨true, rfl⟩
  unfold countDocuments Collection.count
  dsimp only
  rw [Collection.selectRows_total hall]
  exact congrArg (fun rows : List Row => Except.ok rows.length) (List.filter_eq_self.2 fun _ _ => rfl)

theorem length_queryDocuments (s : Store) (name : String) :
    (s.queryDocuments {} name).map List.length = .ok (s.rows name).length := by
  unfold queryDocuments
  rw [Collection.query_all]
  exact congrArg Except.ok (List.length_map ..)

theorem rows_setCollection (s : Store) (name : String) (c : Collection) :
    (s.setCollection name c).rows name = c.rows := by
  rw [rows, collection_setCollection, if_pos rfl]

theorem intact_of_wf (h : (s.collection name).WF) : s.Intact name := by
  have hlookup : ∀ row ∈ s.rows name, s.collections.lookup name = some (s.collection name) :=
    fun row hr => lookup_of_contains (h.contains_of_mem hr)
  constructor
  case counts =>
    refine ⟨(s.rows name).length, ?_, countDocuments_all s name, length_queryDocuments s name⟩
    rw [countDocuments_none, h.index, List.length_map]
    rfl
  case ids => exact h.ids
  case fetched =>
    intro row hr
    have hget := h.get?_eq_some_iff.2 ⟨row, hr, rfl, rfl⟩
    unfold getDocuments
    rw [List.filterMap_cons_some hget, List.filterMap_nil]
  case updated =>
    intro row hr doc
    refine ⟨s.setCollection name ((s.collection name).replace row.id doc), ?_, ?_⟩
    · unfold updateDocuments
      rw [hlookup row hr]
      simp [h.contains_of_mem hr]
    · rw [rows_setCollection, Collection.replace, h.modify_rows]
      exact List.mem_map.2 ⟨row, hr, if_pos rfl⟩
  case deleted =>
    intro row hr
    refine ⟨s.setCollection name ((s.collection name).remove row.id), ?_, ?_⟩
    · unfold deleteDocuments removeEach
      rw [hlookup row hr]
      simp [h.contains_of_mem hr, removeEach]
    · rw [rows_setCollection, h.remove_rows]
      intro other ho hp
      rw [List.mem_filter, decide_eq_true_iff] at ho
      refine ho.2 ?_
      rw [List.inj_on_of_nodup_map h.positions ho.1 hr hp]

theorem intact_iff_orphans (h : (s.collection name).Coherent) : s.Intact name ↔ (s.collection name).orphans = 0 := by
  constructor
  · rintro ⟨⟨n, hnone, hall, -⟩, -⟩
    rw [countDocuments_none, Except.ok.injEq] at hnone
    rw [countDocuments_all, Except.ok.injEq] at hall
    have hlen := h.length_addresses
    rw [Collection.addresses, List.length_map] at hlen
    rw [rows] at hall
    omega
  · intro ho
    exact intact_of_wf (h.wf ho)

/-! ## Histories -/

/-- The calls of a run from the empty store, with their results. -/
def history (calls : List StoreCall) : List (StoreCall × Except Fault Reply) :=
  calls.zip (runCalls perform calls {}).1

/-- No batch that was accepted for a collection since it was last dropped has named an identifier twice. -/
def Unrepeated (name : String) (past : List (StoreCall × Except Fault Reply)) : Prop :=
  ∀ before docs later, past = before ++ (.insert docs name, .ok .done) :: later →
    (∀ result, (.drop name, result) ∉ later) → (docs.map (·.1)).Nodup

theorem unrepeated_nil (name : String) : Unrepeated name [] := by
  intro before docs later h
  exact absurd h.symm (by simp)

theorem unrepeated_drop (past : List (StoreCall × Except Fault Reply)) (name : String) (result : Except Fault Reply) :
    Unrepeated name (past ++ [(.drop name, result)]) := by
  intro before docs later h hdrop
  -- the batch is not the last call, so that the drop is among the later ones
  obtain rfl | ⟨later, e, rfl⟩ := later.eq_nil_or_concat
  · cases List.append_inj_right' h rfl
  · rw [List.concat_eq_append, ← List.cons_append, ← List.append_assoc] at h
    cases List.append_inj_right' h rfl
    exact absurd (by simp) (hdrop result)

theorem unrepeated_concat {past : List (StoreCall × Except Fault Reply)} {e : StoreCall × Except Fault Reply}
    (hd : e.1 ≠ .drop name) : Unrepeated name (past ++ [e]) ↔
      Unrepeated name past ∧ ∀ docs, e = (.insert docs name, .ok .done) → (docs.map (·.1)).Nodup := by
  constructor
  · intro h
    constructor
    · intro before docs later hp hdrop
      refine h before docs (later ++ [e]) (by rw [hp]; simp) fun result hm => ?_
      rcases List.mem_append.1 hm with hm | hm
      · exact hdrop result hm
      · rw [List.mem_singleton] at hm
        exact hd (by rw [← hm])
    · rintro docs rfl
      exact h past docs [] rfl fun _ => List.not_mem_nil
  · rintro ⟨hpast, he⟩ before docs later h hdrop
    -- the batch is the last call, or it lies in the past
    obtain rfl | ⟨later, last, rfl⟩ := later.eq_nil_or_concat
    · cases List.append_inj_right' h rfl
      exact he docs rfl
    · rw [List.concat_eq_append, ← List.cons_append, ← List.append_assoc] at h
      rw [List.concat_eq_append] at hdrop
      refine hpast before docs later (List.append_inj_left' h rfl) fun result hm => ?_
      exact hdrop result (List.mem_append_left _ hm)

theorem unaddressed_eq_zero_iff {n : Nat} {e : StoreCall × Except Fault Reply} (hd : e.1 ≠ .drop name) :
    unaddressed name n e = 0 ↔ n = 0 ∧ ∀ docs, e = (.insert docs name, .ok .done) → (docs.map (·.1)).Nodup := by
  obtain ⟨c, result⟩ := e
  by_cases hi : ∃ docs, c = .insert docs name ∧ result = .ok .done
  · obtain ⟨docs, rfl, rfl⟩ := hi
    rw [unaddressed_insert, Nat.add_eq_zero_iff, Collection.repeats_eq_zero_iff]
    refine and_congr_right fun _ => ⟨fun h docs' he => ?_, fun h => h docs rfl⟩
    cases he
    exact h
  · rw [unaddressed_eq_self hd fun docs hc hr => hi ⟨docs, hc, hr⟩]
    refine (and_iff_left fun docs he => ?_).symm
    cases he
    exact (hi ⟨docs, rfl, rfl⟩).elim

theorem foldl_unaddressed_eq_zero_iff (name : String) (past : List (StoreCall × Except Fault Reply)) :
    past.foldl (unaddressed name) 0 = 0 ↔ Unrepeated name past := by
  induction past using List.reverseRecOn with
  | nil => exact iff_of_true rfl (unrepeated_nil name)
  | append_singleton past e ih =>
    rw [List.foldl_append, List.foldl_cons, List.foldl_nil]
    by_cases hd : e.1 = .drop name
    · obtain ⟨_, result⟩ := e
      cases hd
      exact iff_of_true (unaddressed_drop ..) (unrepeated_drop past name result)
    · rw [unaddressed_eq_zero_iff hd, ih, unrepeated_concat hd]

/-- After any run a collection holds one document more than it counts for each time that a batch, accepted since the
collection was last dropped, has named an identifier again; and it is intact if and only if no such batch has. -/
theorem intact_iff_unrepeated (calls : List StoreCall) (name : String) :
    (∃ n, (runCalls perform calls {}).2.countDocuments none name = .ok n ∧
      (runCalls perform calls {}).2.countDocuments (some .all) name =
        .ok (n + (history calls).foldl (unaddressed name) 0)) ∧
    ((runCalls perform calls {}).2.Intact name ↔ Unrepeated name (history calls)) := by
  have hempty : ({} : Store).Coherent := fun _ => Collection.empty_coherent
  obtain ⟨hc, ho⟩ := hempty.run name calls
  change _ = (history calls).foldl (unaddressed name) 0 at ho
  refine ⟨⟨_, countDocuments_none .., ?_⟩, ?_⟩
  · have hlen := hc.length_addresses
    rw [Collection.addresses, List.length_map, ho] at hlen
    rw [countDocuments_all, rows, hlen]
  · rw [intact_iff_orphans hc, ho, foldl_unaddressed_eq_zero_iff]

/-- A batch that names one identifier twice. -/
def twice : List StoreCall :=
  [.insert [(.ofNat 1, .document [("n", .int32 1)]), (.ofNat 1, .document [("n", .int32 2)])] "a"]

/-- The batch is accepted and both documents are stored, but one is counted, fetched and deleted, and the other
stays. -/
theorem not_intact_twice :
    (runCalls perform (twice ++ [.count none "a", .count (some .all) "a", .get [.ofNat 1] "a", .delete [.ofNat 1] "a",
        .query {} "a"]) {}).1 =
      [.ok .done, .ok (.count 1), .ok (.count 2), .ok (.documents [.document [("n", .int32 2)]]), .ok .done,
        .ok (.documents [.document [("n", .int32 1)]])] ∧
    ¬ (runCalls perform twice {}).2.Intact "a" := by
  refine ⟨by with_unfolding_all rfl, ?_⟩
  rintro ⟨⟨n, hnone, hall, -⟩, -⟩
  have h1 : (runCalls perform twice {}).2.countDocuments none "a" = .ok 1 := by decide +kernel
  have h2 : (runCalls perform twice {}).2.countDocuments (some .all) "a" = .ok 2 := by decide +kernel
  rw [h1, Except.ok.injEq] at hnone
  rw [h2, Except.ok.injEq] at hall
  omega

end Store

end Dossier
