/-
The order of documents never contradicts itself. Sorting compares values without NaN by a total preorder, through all
kinds and nested arrays, and documents without NaN by a total preorder as well, whatever the directives: what is looked
up in such a document holds no NaN either. So the answers about the documents of a list are those of numbers given to
them, and no way of sorting meets two answers that do not fit together. In ascending order fields that are missing or
null come first.
-/
import Dossier.Proofs.Query.Integers
import Dossier.Proofs.Value.Same

namespace Dossier

/-! ## Places in a list -/

section Places

variable {α : Type} {cmp : α → α → Ordering} [Std.TransCmp cmp] {a b : α} {l : List α}

/-- How many elements of a list go before an element. -/
def place (cmp : α → α → Ordering) (l : List α) (a : α) : Nat := l.countP (cmp · a == .lt)

theorem place_congr (h : cmp a b = .eq) : place cmp l a = place cmp l b := by
  have hsame : ∀ x, cmp x a = cmp x b := fun x => Std.TransCmp.congr_right h
  simp [place, hsame]

/-- Whatever goes before an element goes before those after it, and so does the element, but not before itself. -/
theorem place_lt (hm : a ∈ l) (h : cmp a b = .lt) : place cmp l a < place cmp l b := by
  have hbefore : ∀ x, (cmp x a == .lt) = true → (cmp x b == .lt) = true := by
    intro x hx
    rw [beq_iff_eq] at hx ⊢
    exact Std.TransCmp.lt_trans hx h
  have hself : cmp a a = .eq := Std.ReflCmp.compare_self
  obtain ⟨front, rest, rfl⟩ := List.append_of_mem hm
  have hcount (l : List α) : l.countP (cmp · a == .lt) ≤ l.countP (cmp · b == .lt) :=
    List.countP_mono_left fun x _ => hbefore x
  have hfront := hcount front
  have hrest := hcount rest
  have ha : place cmp (front ++ a :: rest) a = front.countP (cmp · a == .lt) + rest.countP (cmp · a == .lt) := by
    simp [place, hself]
  have hb : place cmp (front ++ a :: rest) b = front.countP (cmp · b == .lt) + (rest.countP (cmp · b == .lt) + 1) := by
    simp [place, h]
  omega

/-- Elements of a list compare as their places do. -/
theorem compare_place (ha : a ∈ l) (hb : b ∈ l) : compare (place cmp l a) (place cmp l b) = cmp a b := by
  cases h : cmp a b with
  | lt => exact Nat.compare_eq_lt.2 (place_lt ha h)
  | eq => exact Nat.compare_eq_eq.2 (place_congr h)
  | gt => exact Nat.compare_eq_gt.2 (place_lt hb (Std.OrientedCmp.lt_of_gt h))

end Places

/-! ## Values without NaN -/

namespace Comparand

theorem anyNaN_eq_false_iff : ∀ {items : List Comparand}, anyNaN items = false ↔ ∀ item ∈ items, item.hasNaN = false
  | [] => by simp [anyNaN]
  | item :: rest => by rw [anyNaN, Bool.or_eq_false_iff, anyNaN_eq_false_iff, List.forall_mem_cons]

end Comparand

namespace Value

variable {v doc found : Value} {path : String}

/-- A value without NaN at any depth. -/
abbrev NaNFree := { v : Value // v.hasNaN = false }

theorem hasNaN_comparand (v : Value) (h : v.hasNaN = false) : (Comparand.ofValue v).hasNaN = false := by
  induction v using nested_induction with
  | scalar v hs =>
    cases v with
    | int32 i => exact Double.isNaN_ofInt (natAbs_toInt32_le i)
    | int64 i => exact Double.isNaN_ofInt (natAbs_toInt_le i)
    | double x => exact h
    | array | document => cases hs
    | _ => rfl
  | array items ih =>
    rw [hasNaN, anyItemNaN_eq_false_iff] at h
    rw [Comparand.ofValue, Comparand.hasNaN, Comparand.ofItems_eq_map, Comparand.anyNaN_eq_false_iff,
      List.forall_mem_map]
    exact fun v hv => ih v hv (h v hv)
  | document es => rfl

/-! ## What is looked up -/

theorem searches_hasNaN : Searches (·.hasNaN = true) (·.hasNaN = true) where
  single _ _ := Iff.rfl
  array items := by
    rw [hasNaN, ← not_iff_not, Bool.not_eq_true, anyItemNaN_eq_false_iff]
    simp

theorem Step.hasNaN {segment : String} {next : Value} (hs : Step segment v next) (h : v.hasNaN = false) :
    next.hasNaN = false := by
  cases hs with
  | entry hl =>
    rw [Value.hasNaN, anyEntryNaN_eq_false_iff] at h
    exact h _ (Entries.mem_of_lookup hl)
  | item _ hi =>
    rw [Value.hasNaN, anyItemNaN_eq_false_iff] at h
    exact h _ (List.mem_of_getElem? hi)
  | across _ hm hl =>
    rw [Value.hasNaN, anyItemNaN_eq_false_iff] at h
    have he := h _ hm
    rw [Value.hasNaN, anyEntryNaN_eq_false_iff] at he
    exact he _ (Entries.mem_of_lookup hl)

theorem hasNaN_of_leads {leaf : Value} : ∀ {segments : List String} {v : Value}, Leads segments v leaf →
    v.hasNaN = false → leaf.hasNaN = false
  | [], v, hl, h => by cases hl; exact h
  | _ :: _, v, ⟨next, hs, hl⟩, h => hasNaN_of_leads hl (hs.hasNaN h)

/-- NaN that is found at a path is at the end of one of the ways that the path leads. -/
theorem hasNaN_of_lookup (hl : doc.lookup path = some found) (h : doc.hasNaN = false) : found.hasNaN = false := by
  by_contra hn
  rw [Bool.not_eq_false] at hn
  obtain ⟨leaf, hleads, hleaf⟩ := (searches_hasNaN.lookupSegments_iff (Path.segments path) doc).1 ⟨found, hl, hn⟩
  rw [hasNaN_of_leads hleads h] at hleaf
  cases hleaf

theorem sortable_of_hasNaN (h : doc.hasNaN = false) (sort : List SortKey) : doc.Sortable sort := by
  intro key _
  unfold comparandAt
  split
  · rename_i hl
    exact hasNaN_comparand _ (hasNaN_of_lookup hl h)
  · rfl

end Value

/-! ## Consistency -/

open Value

theorem sortCompare_transCmp :
    Std.TransCmp fun a b : NaNFree => (Comparand.ofValue a.1).sortCompare (.ofValue b.1) := by
  let seen (v : NaNFree) : { c : Comparand // c.hasNaN = false } := ⟨.ofValue v.1, hasNaN_comparand v.1 v.2⟩
  let order (a b : { c : Comparand // c.hasNaN = false }) : Ordering := a.1.sortCompare b.1
  have horder : Std.TransCmp order := inferInstance
  exact transCmp_of_map horder seen

/-- Nothing goes before all other values. -/
theorem sortCompare_null (v : Value) : Comparand.null.sortCompare (.ofValue v) = if v.isNothing then .eq else .lt := by
  cases v <;> rfl

theorem ofValue_of_isNothing {v : Value} (h : v.isNothing = true) : Comparand.ofValue v = .null := by
  cases v with
  | null | undefined => rfl
  | _ => cases h

/-- A document with nothing at the field goes before those with something there, and is told apart from another one
with nothing by the other directives. -/
theorem compareDocuments_nothing {a : Value} {path : String} (h : (a.atPath path).isNothing = true) (b : Value)
    (sort : List SortKey) : compareDocuments (⟨path, .ascending⟩ :: sort) a b =
      if (b.atPath path).isNothing then compareDocuments sort a b else .lt := by
  have hfirst : SortKey.compare ⟨path, .ascending⟩ a b = if (b.atPath path).isNothing then .eq else .lt := by
    rw [← sortCompare_null, ← ofValue_of_isNothing h, ← comparandAt_eq, ← comparandAt_eq]
    rfl
  rw [compareDocuments, hfirst]
  split <;> rfl

/-- Documents without NaN are compared by a total preorder, for nothing that is looked up in them is NaN. -/
theorem compareDocuments_nanFree (sort : List SortKey) :
    Std.TransCmp fun a b : NaNFree => compareDocuments sort a.1 b.1 :=
  compareDocuments_transCmp fun _ hd => sortable_of_hasNaN hd sort

/-- All answers about the documents of a list are those of numbers given to them. -/
theorem exists_places (sort : List SortKey) (docs : List NaNFree) : ∃ place : NaNFree → Nat, ∀ a ∈ docs, ∀ b ∈ docs,
    compareDocuments sort a.1 b.1 = compare (place a) (place b) := by
  let order (a b : NaNFree) : Ordering := compareDocuments sort a.1 b.1
  have horder : Std.TransCmp order := compareDocuments_nanFree sort
  refine ⟨place order docs, fun a ha b hb => ?_⟩
  have hplace : compare (place order docs a) (place order docs b) = order a b := compare_place ha hb
  exact hplace.symm

/-- Sorting compares values without NaN by a total preorder: each ties with itself, the other way round the answer is
the reverse, and what is not after a second value is not after those that the second is not after. So does every list
of directives with documents without NaN, so that its answers about the documents of a list are those of numbers. In
ascending order what is missing or null comes first. -/
theorem sorting_consistent :
    (Std.TransCmp fun a b : NaNFree => (Comparand.ofValue a.1).sortCompare (.ofValue b.1)) ∧
    ∀ sort : List SortKey,
      (Std.TransCmp fun a b : NaNFree => compareDocuments sort a.1 b.1) ∧
      (∀ docs : List NaNFree, ∃ place : NaNFree → Nat, ∀ a ∈ docs, ∀ b ∈ docs,
        compareDocuments sort a.1 b.1 = compare (place a) (place b)) ∧
      ∀ (path : String) (a b : Value), (a.atPath path).isNothing = true →
        compareDocuments (⟨path, .ascending⟩ :: sort) a b =
          if (b.atPath path).isNothing then compareDocuments sort a b else .lt := by
  refine ⟨sortCompare_transCmp, fun sort => ⟨compareDocuments_nanFree sort, exists_places sort, ?_⟩⟩
  intro path a b h
  exact compareDocuments_nothing h b sort

end Dossier
