/-
The order of documents. Among values without NaN the sort order is a total preorder, so that sorting
loses and repeats no document, puts them in order, and leaves documents that tie as they stood.
-/
import Dossier.Store.Collection

namespace Dossier

namespace Comparand

/-! ## NaN -/

mutual

/-- Whether sorting meets NaN in a value: as the number itself or in an item of an array. Maps are not
looked into. -/
def hasNaN : Comparand → Bool
  | number x => x.isNaN
  | array items => anyNaN items
  | _ => false

/-- Whether sorting meets NaN in one of several values. -/
def anyNaN : List Comparand → Bool
  | [] => false
  | item :: rest => hasNaN item || anyNaN rest

end

/-! ## The order in parts -/

/-- The number by which booleans, numbers and instants are ordered. -/
def amount : Comparand → Int
  | boolean b => b.toNat
  | number x => x.rank
  | instant millis => millis.toInt
  | _ => 0

/-- The text by which strings are ordered. -/
def text : Comparand → String
  | string s => s
  | _ => ""

/-- The bytes by which identifiers and binaries are ordered. -/
def bytes : Comparand → List UInt8
  | objectId bytes => bytes
  | binary _ bytes => bytes
  | _ => []

/-- The items of an array. -/
def items : Comparand → List Comparand
  | array items => items
  | _ => []

/-- The sort order but for the items of arrays: by kind, then by the parts that kinds are ordered by. -/
def compareScalars : Comparand → Comparand → Ordering :=
  compareLex (compareOn rank) <| compareLex (compareOn amount) <| compareLex (compareOn text)
    fun a b => compareBytes a.bytes b.bytes

theorem compareBytes_eq : ∀ as bs : List UInt8, compareBytes as bs = List.compareLex (compareOn UInt8.toNat) as bs
  | [], [] => rfl
  | [], _ :: _ => rfl
  | _ :: _, [] => rfl
  | a :: as, b :: bs => by
    rw [List.compareLex_cons_cons, ← compareBytes_eq as bs]
    rfl

instance : Std.TransCmp compareScalars :=
  have : Std.TransCmp fun a b : Comparand => compareBytes a.bytes b.bytes :=
    { eq_swap := by intro a b; simp only [compareBytes_eq]; exact Std.OrientedCmp.eq_swap
      isLE_trans := by intro a b c; simp only [compareBytes_eq]; exact Std.TransCmp.isLE_trans }
  inferInstanceAs (Std.TransCmp (compareLex _ _))

theorem compareScalars_eq (a b : Comparand) : compareScalars a b =
    (compare a.rank b.rank).then ((compare a.amount b.amount).then
      ((compare a.text b.text).then (compareBytes a.bytes b.bytes))) := rfl

/-- Without NaN the sort order is that of the parts, arrays being told apart by their items. -/
theorem sortCompare_eq {a b : Comparand} (ha : a.hasNaN = false) (hb : b.hasNaN = false) :
    sortCompare a b = (compareScalars a b).then (sortCompareItems a.items b.items) := by
  rw [compareScalars_eq]
  cases a with
  | null => cases b <;> rfl
  | number x =>
    cases b with
    | number y =>
      simp only [hasNaN] at ha hb
      simp [sortCompare, sortCompareItems, compare?, Double.compare?, compareBytes, rank, amount, text, bytes, items,
        ha, hb]
    | _ => rfl
  | string x =>
    cases b with
    | string y => simp [sortCompare, sortCompareItems, compare?, compareBytes, rank, amount, text, bytes, items]
    | _ => rfl
  | map x => cases b <;> rfl
  | array x => cases b <;> rfl
  | binary s x =>
    cases b with
    | binary t y => simp [sortCompare, sortCompareItems, compare?, rank, amount, text, bytes, items]
    | _ => rfl
  | objectId x =>
    cases b with
    | objectId y => simp [sortCompare, sortCompareItems, compare?, rank, amount, text, bytes, items]
    | _ => rfl
  | boolean x =>
    cases b with
    | boolean y => cases x <;> cases y <;> rfl
    | _ => rfl
  | instant x =>
    cases b with
    | instant y => simp [sortCompare, sortCompareItems, compare?, compareBytes, rank, amount, text, bytes, items]
    | _ => rfl
  | unordered => cases b <;> rfl

/-! ## A total preorder -/

theorem anyNaN_items {a : Comparand} (h : a.hasNaN = false) : anyNaN a.items = false := by
  cases a with
  | array items => exact h
  | _ => rfl

/-- What holds of a value when it holds of its items holds of every value. -/
theorem items_induction {P : Comparand → Prop} (step : ∀ a : Comparand, (∀ item ∈ a.items, P item) → P a)
    (a : Comparand) : P a := by
  refine step a fun item hm => ?_
  have : sizeOf item < sizeOf a := by
    cases a with
    | array as =>
      have := List.sizeOf_lt_of_mem hm
      simp only [items, array.sizeOf_spec] at this ⊢
      omega
    | _ => cases hm
  exact items_induction step item
termination_by sizeOf a

/-- The sort order of all values: by kind, within a kind by the order of the kind, and arrays by their items. -/
theorem sortCompare_parts (a b : Comparand) : sortCompare a b =
    (compare a.rank b.rank).then (((compare? a b).getD .eq).then (sortCompareItems a.items b.items)) := by
  unfold sortCompare
  split
  · simp [rank, compare?, items]
  · rename_i hne
    cases hrank : compare a.rank b.rank with
    | lt => rfl
    | gt => rfl
    | eq =>
      have hitems : a.items = [] ∧ b.items = [] := by
        rw [Nat.compare_eq_eq] at hrank
        cases a <;> cases b <;> simp_all [rank, items]
      simp [hitems.1, hitems.2, sortCompareItems]

theorem compare?_swap (a b : Comparand) : compare? a b = (compare? b a).map Ordering.swap := by
  have hbytes (as bs : List UInt8) : compareBytes as bs = (compareBytes bs as).swap := by
    rw [compareBytes_eq, compareBytes_eq]
    exact Std.OrientedCmp.eq_swap
  cases a with
  | number x =>
    cases b with
    | number y =>
      simp only [compare?, Double.compare?, Bool.or_comm y.isNaN]
      split
      · rfl
      · exact congrArg some Std.OrientedCmp.eq_swap
    | _ => rfl
  | null => cases b <;> rfl
  | string x => cases b <;> first | rfl | exact congrArg some Std.OrientedCmp.eq_swap
  | boolean x => cases b <;> first | rfl | exact congrArg some Std.OrientedCmp.eq_swap
  | instant x => cases b <;> first | rfl | exact congrArg some Std.OrientedCmp.eq_swap
  | objectId x => cases b <;> first | rfl | exact congrArg some (hbytes ..)
  | binary s x => cases b <;> first | rfl | exact congrArg some (hbytes ..)
  | _ => cases b <;> rfl

theorem sortCompareItems_swap : ∀ {as bs : List Comparand},
    (∀ a ∈ as, ∀ b : Comparand, sortCompare a b = (sortCompare b a).swap) →
    sortCompareItems as bs = (sortCompareItems bs as).swap
  | [], [], _ => rfl
  | [], _ :: _, _ => rfl
  | _ :: _, [], _ => rfl
  | a :: as, b :: bs, h => by
    rw [List.forall_mem_cons] at h
    rw [sortCompareItems, sortCompareItems, Ordering.swap_then, ← h.1 b, ← sortCompareItems_swap h.2]

/-- Values compare the other way round in the other order, NaN not excepted: it ties with every number. -/
theorem sortCompare_swap (a b : Comparand) : sortCompare a b = (sortCompare b a).swap := by
  induction a using items_induction generalizing b with
  | step a ih =>
    have hrank : compare a.rank b.rank = (compare b.rank a.rank).swap := Std.OrientedCmp.eq_swap
    have hcompare : (compare? a b).getD .eq = ((compare? b a).getD .eq).swap := by
      rw [compare?_swap]
      cases compare? b a <;> rfl
    have hitems : sortCompareItems a.items b.items = (sortCompareItems b.items a.items).swap := sortCompareItems_swap ih
    rw [sortCompare_parts a b, sortCompare_parts b a, Ordering.swap_then, Ordering.swap_then, ← hrank, ← hcompare,
      ← hitems]

/-- What a total preorder says of `a` and `c` when it says `ab` of `a` and `b` and `bc` of `b` and `c`. -/
def Composes (ab bc ac : Ordering) : Prop := (ab = .eq → ac = bc) ∧ (ab = .lt → bc ≠ .gt → ac = .lt)

theorem composes_of_trans {α : Type} (cmp : α → α → Ordering) [Std.TransCmp cmp] (a b c : α) :
    Composes (cmp a b) (cmp b c) (cmp a c) := by
  constructor
  · intro hab
    exact Std.TransCmp.congr_left hab
  · intro hab hbc
    refine Std.TransCmp.lt_of_lt_of_isLE hab ?_
    cases h : cmp b c with
    | gt => exact (hbc h).elim
    | _ => rfl

/-- Composition goes through refining an order by a second one. -/
theorem Composes.then {ab bc ac ab' bc' ac' : Ordering} (h : Composes ab bc ac) (h' : Composes ab' bc' ac') :
    Composes (ab.then ab') (bc.then bc') (ac.then ac') := by
  obtain ⟨heq, hlt⟩ := h
  cases ab with
  | gt => exact ⟨nofun, nofun⟩
  | lt =>
    refine ⟨nofun, fun _ hbc => ?_⟩
    rw [hlt rfl fun hgt => hbc (by rw [hgt]; rfl)]
    rfl
  | eq =>
    rw [heq rfl]
    cases bc with
    | eq => exact h'
    | lt => exact ⟨fun _ => rfl, fun _ _ => rfl⟩
    | gt => exact ⟨fun _ => rfl, fun _ hbc => (hbc rfl).elim⟩

theorem sortCompareItems_composes : ∀ {as bs cs : List Comparand}, anyNaN as = false → anyNaN bs = false →
    anyNaN cs = false →
    (∀ a ∈ as, ∀ b c : Comparand, a.hasNaN = false → b.hasNaN = false → c.hasNaN = false →
      Composes (sortCompare a b) (sortCompare b c) (sortCompare a c)) →
    Composes (sortCompareItems as bs) (sortCompareItems bs cs) (sortCompareItems as cs)
  | [], [], _, _, _, _, _ => ⟨fun _ => rfl, nofun⟩
  | [], _ :: _, [], _, _, _, _ => ⟨nofun, fun _ h => (h rfl).elim⟩
  | [], _ :: _, _ :: _, _, _, _, _ => ⟨nofun, fun _ _ => rfl⟩
  | _ :: _, [], _, _, _, _, _ => ⟨nofun, nofun⟩
  | a :: as, b :: bs, [], _, _, _, _ => ⟨fun _ => rfl, fun _ h => (h rfl).elim⟩
  | a :: as, b :: bs, c :: cs, ha, hb, hc, h => by
    rw [anyNaN, Bool.or_eq_false_iff] at ha hb hc
    rw [List.forall_mem_cons] at h
    exact (h.1 b c ha.1 hb.1 hc.1).then (sortCompareItems_composes ha.2 hb.2 hc.2 h.2)

theorem sortCompare_composes {a b c : Comparand} (ha : a.hasNaN = false) (hb : b.hasNaN = false)
    (hc : c.hasNaN = false) : Composes (sortCompare a b) (sortCompare b c) (sortCompare a c) := by
  induction a using items_induction generalizing b c with
  | step a ih =>
    rw [sortCompare_eq ha hb, sortCompare_eq hb hc, sortCompare_eq ha hc]
    exact (composes_of_trans compareScalars a b c).then <|
      sortCompareItems_composes (anyNaN_items ha) (anyNaN_items hb) (anyNaN_items hc)
        fun item hm d e hi hd he => ih item hm hi hd he

/-- The sort order of the values without NaN. -/
instance : Std.TransCmp fun a b : { c : Comparand // c.hasNaN = false } => sortCompare a.1 b.1 where
  eq_swap := by
    intro a b
    exact sortCompare_swap a.1 b.1
  isLE_trans := by
    intro a b c hab hbc
    obtain ⟨heq, hlt⟩ := sortCompare_composes a.2 b.2 c.2
    cases ho : sortCompare a.1 b.1 with
    | eq => rw [heq ho]; exact hbc
    | lt =>
      rw [hlt ho fun hgt => by rw [hgt] at hbc; cases hbc]
      rfl
    | gt => rw [ho] at hab; cases hab

end Comparand

/-! ## Documents -/

/-- Whether sorting by directives meets no NaN in a document. -/
def Value.Sortable (sort : List SortKey) (doc : Value) : Prop :=
  ∀ key ∈ sort, (doc.comparandAt key.field).hasNaN = false

/-- A total preorder of what elements are mapped to is one of the elements. -/
theorem transCmp_of_map {α β : Type} {cmp : β → β → Ordering} (h : Std.TransCmp cmp) (f : α → β) :
    Std.TransCmp fun a b => cmp (f a) (f b) where
  eq_swap := h.eq_swap
  isLE_trans := h.isLE_trans

theorem SortKey.compare_transCmp (key : SortKey) {P : Value → Prop}
    (h : ∀ doc, P doc → (doc.comparandAt key.field).hasNaN = false) :
    Std.TransCmp fun a b : { doc // P doc } => key.compare a.1 b.1 := by
  -- the order of the values at the field, along the map that takes a document to its value there
  let at_ (doc : { doc // P doc }) : { c : Comparand // c.hasNaN = false } :=
    ⟨doc.1.comparandAt key.field, h doc.1 doc.2⟩
  let order (a b : { c : Comparand // c.hasNaN = false }) : Ordering := a.1.sortCompare b.1
  have ascending : Std.TransCmp fun a b : { doc // P doc } => order (at_ a) (at_ b) := transCmp_of_map inferInstance at_
  unfold SortKey.compare
  cases key.direction with
  | ascending => exact ascending
  | descending => exact Std.TransCmp.opposite

theorem compareDocuments_transCmp {P : Value → Prop} : ∀ {sort : List SortKey}, (∀ doc, P doc → doc.Sortable sort) →
    Std.TransCmp fun a b : { doc // P doc } => compareDocuments sort a.1 b.1
  | [], _ => { eq_swap := rfl, isLE_trans := fun _ _ => rfl }
  | key :: rest, h => by
    have hkey := key.compare_transCmp fun doc hd => h doc hd key (List.mem_cons_self ..)
    have hrest : Std.TransCmp fun a b : { doc // P doc } => compareDocuments rest a.1 b.1 :=
      compareDocuments_transCmp fun doc hd k hk => h doc hd k (List.mem_cons_of_mem _ hk)
    exact inferInstanceAs (Std.TransCmp (compareLex (fun a b : { doc // P doc } => key.compare a.1 b.1) _))

/-! ## Sorting -/

section MergeSort

variable {α : Type} {cmp : α → α → Ordering} [Std.TransCmp cmp]

theorem notGreater_trans (a b c : α) (hab : (cmp a b != .gt) = true) (hbc : (cmp b c != .gt) = true) :
    (cmp a c != .gt) = true := by
  simp only [bne_iff_ne, ne_eq, Ordering.ne_gt_iff_isLE] at *
  exact Std.TransCmp.isLE_trans hab hbc

theorem notGreater_total (a b : α) : (cmp a b != .gt || cmp b a != .gt) = true := by
  rw [@Std.OrientedCmp.eq_swap _ cmp _ b a]
  cases cmp a b <;> rfl

theorem mergeSort_ordered (l : List α) :
    (l.mergeSort fun a b => cmp a b != .gt).Pairwise fun a b => cmp a b ≠ .gt := by
  have h : (l.mergeSort fun a b => cmp a b != .gt).Pairwise fun a b => (cmp a b != .gt) = true :=
    List.pairwise_mergeSort notGreater_trans notGreater_total l
  exact h.imp fun hab => by simpa using hab

/-- Sorting is stable. The elements that tie with a given one are in order as they stand, so they are a sublist of
the sorted list; it has no others of them, since it has as many. -/
theorem mergeSort_ties (l : List α) (x : α) :
    (l.mergeSort fun a b => cmp a b != .gt).filter (cmp x · == .eq) = l.filter (cmp x · == .eq) := by
  have hordered : (l.filter (cmp x · == .eq)).Pairwise fun a b => (cmp a b != .gt) = true := by
    refine List.pairwise_filter.2 (List.pairwise_of_forall fun a b ha hb => ?_)
    rw [beq_iff_eq] at ha hb
    rw [Std.TransCmp.eq_trans (Std.OrientedCmp.eq_symm ha) hb]
    rfl
  have hsub : (l.filter (cmp x · == .eq)).Sublist (l.mergeSort fun a b => cmp a b != .gt) :=
    List.sublist_mergeSort notGreater_trans notGreater_total hordered List.filter_sublist
  have hties := hsub.filter (cmp x · == .eq)
  simp only [List.filter_filter, Bool.and_self] at hties
  have hlen := ((List.mergeSort_perm l fun a b => cmp a b != .gt).filter (cmp x · == .eq)).length_eq
  exact (hties.eq_of_length hlen.symm).symm

/-- A first element goes before those of the sorted rest that are not less. -/
theorem mergeSort_cons (cmp : α → α → Ordering) [Std.TransCmp cmp] (a : α) (l : List α) : ∃ less rest,
    (l.mergeSort fun a b => cmp a b != .gt) = less ++ rest ∧
    ((a :: l).mergeSort fun a b => cmp a b != .gt) = less ++ a :: rest ∧
    less = (l.mergeSort fun a b => cmp a b != .gt).filter (cmp a · == .gt) ∧
    rest = (l.mergeSort fun a b => cmp a b != .gt).filter (cmp a · != .gt) := by
  have htrans : ∀ a b c : α, (cmp a b != .gt) = true → (cmp b c != .gt) = true → (cmp a c != .gt) = true :=
    notGreater_trans
  obtain ⟨less, rest, hcons, hsort, hless⟩ := List.mergeSort_cons htrans notGreater_total a l
  have hrest : ∀ b ∈ rest, cmp a b ≠ .gt := by
    have hordered : ((a :: l).mergeSort fun a b => cmp a b != .gt).Pairwise fun a b => cmp a b ≠ .gt :=
      mergeSort_ordered (a :: l)
    rw [hcons, List.pairwise_append] at hordered
    exact (List.pairwise_cons.1 hordered.2.1).1
  refine ⟨less, rest, hsort, hcons, ?_, ?_⟩
  · rw [hsort, List.filter_append, List.filter_eq_self.2 fun b hb => by simpa using hless b hb,
      List.filter_eq_nil_iff.2 fun b hb => by simpa using hrest b hb, List.append_nil]
  · rw [hsort, List.filter_append, List.filter_eq_nil_iff.2 fun b hb => by simpa using hless b hb,
      List.filter_eq_self.2 fun b hb => by simpa using hrest b hb, List.nil_append]

/-- Sorting and selecting go together in either order. -/
theorem mergeSort_filter (p : α → Bool) : ∀ l : List α,
    ((l.filter p).mergeSort fun a b => cmp a b != .gt) = (l.mergeSort fun a b => cmp a b != .gt).filter p
  | [] => by simp
  | a :: l => by
    obtain ⟨less, rest, hsort, hcons, hless, hrest⟩ := mergeSort_cons cmp a l
    by_cases ha : p a = true
    · obtain ⟨less', rest', -, hcons', hless', hrest'⟩ := mergeSort_cons cmp a (l.filter p)
      have htwice : ∀ q : α → Bool, ((l.mergeSort fun a b => cmp a b != .gt).filter p).filter q =
          ((l.mergeSort fun a b => cmp a b != .gt).filter q).filter p := by
        intro q
        rw [List.filter_filter, List.filter_filter]
        exact List.filter_congr fun b _ => Bool.and_comm ..
      rw [List.filter_cons_of_pos ha, hcons', hcons, List.filter_append, List.filter_cons_of_pos ha, hless', hrest',
        mergeSort_filter p l, htwice, htwice, ← hless, ← hrest]
    · rw [List.filter_cons_of_neg ha, mergeSort_filter p l, hsort, hcons, List.filter_append, List.filter_append,
        List.filter_cons_of_neg ha]

end MergeSort

/-- A list of documents put in order: none is lost or repeated, none stands before a lesser one, and those that
tie with a document stand as they did. -/
structure Arranges (sort : List SortKey) (docs arranged : List Value) : Prop where
  perm : arranged.Perm docs
  ordered : arranged.Pairwise fun a b => compareDocuments sort a b ≠ .gt
  ties : ∀ doc ∈ docs, arranged.filter (compareDocuments sort doc · == .eq) =
    docs.filter (compareDocuments sort doc · == .eq)

/-- Sorting documents as elements of the type on which the order is a total preorder. -/
theorem sortDocuments_map_val {sort : List SortKey} (docs : List { doc : Value // doc.Sortable sort }) :
    sortDocuments sort (docs.map Subtype.val) =
      (docs.mergeSort fun a b => compareDocuments sort a.1 b.1 != .gt).map Subtype.val :=
  (List.map_mergeSort (s := fun a b => compareDocuments sort a b != .gt) fun _ _ _ _ => rfl).symm

theorem sortDocuments_arranges {sort : List SortKey} {docs : List Value} (h : ∀ doc ∈ docs, doc.Sortable sort) :
    Arranges sort docs (sortDocuments sort docs) := by
  let order (a b : { doc : Value // doc.Sortable sort }) : Ordering := compareDocuments sort a.1 b.1
  have hcmp : Std.TransCmp order := compareDocuments_transCmp fun doc hd => hd
  let sortable := docs.attachWith (Value.Sortable sort) h
  have hval : sortable.map Subtype.val = docs := List.attachWith_map_subtype_val h
  have hsort : sortDocuments sort docs = (sortable.mergeSort fun a b => order a b != .gt).map Subtype.val :=
    (congrArg (sortDocuments sort) hval).symm.trans (sortDocuments_map_val sortable)
  constructor
  case perm => exact List.mergeSort_perm docs _
  case ordered =>
    rw [hsort, List.pairwise_map]
    exact mergeSort_ordered sortable
  case ties =>
    intro doc hd
    calc (sortDocuments sort docs).filter (compareDocuments sort doc · == .eq)
      _ = ((sortable.mergeSort fun a b => order a b != .gt).filter
            (order ⟨doc, h doc hd⟩ · == .eq)).map Subtype.val := by
        rw [hsort, List.filter_map]
        rfl
      _ = (sortable.filter (order ⟨doc, h doc hd⟩ · == .eq)).map Subtype.val :=
        congrArg (List.map Subtype.val) (mergeSort_ties sortable ⟨doc, h doc hd⟩)
      _ = docs.filter (compareDocuments sort doc · == .eq) := by
        rw [← hval, List.filter_map]
        rfl

/-- The documents that are selected keep the order in which all are sorted. -/
theorem sortDocuments_filter {sort : List SortKey} {docs : List Value} (h : ∀ doc ∈ docs, doc.Sortable sort)
    (p : Value → Bool) : sortDocuments sort (docs.filter p) = (sortDocuments sort docs).filter p := by
  let order (a b : { doc : Value // doc.Sortable sort }) : Ordering := compareDocuments sort a.1 b.1
  have hcmp : Std.TransCmp order := compareDocuments_transCmp fun doc hd => hd
  let sortable := docs.attachWith (Value.Sortable sort) h
  have hval : sortable.map Subtype.val = docs := List.attachWith_map_subtype_val h
  calc sortDocuments sort (docs.filter p)
    _ = ((sortable.filter fun doc => p doc.1).mergeSort fun a b => order a b != .gt).map Subtype.val := by
      rw [← sortDocuments_map_val, ← hval, List.filter_map]
      rfl
    _ = ((sortable.mergeSort fun a b => order a b != .gt).filter fun doc => p doc.1).map Subtype.val :=
      congrArg (List.map Subtype.val) (mergeSort_filter _ sortable)
    _ = (sortDocuments sort docs).filter p := by
      rw [← hval, sortDocuments_map_val, List.filter_map]
      rfl

end Dossier
