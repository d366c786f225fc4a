/-
Values that are found by themselves. A predicate that compares a field with the very value it holds is met unless, at
any depth, there is NaN or a value of a kind that comparison does not tell apart. Among these kinds are those that are
said to have no order (regular expressions, code and the extreme keys), but also symbols, decimals and timestamps.
-/
import Dossier.Proofs.Query.Integers
import Dossier.Proofs.Value.Same

namespace Dossier

/-! ## Inside of values -/

namespace Value

variable {v : Value} {items : List Value} {es : Document} {p : Value → Prop}

/-- A value is another one, or is found in its arrays, documents and scopes at any depth. -/
inductive Within (w : Value) : Value → Prop
  | self : Within w w
  | item {items : List Value} {v : Value} (hm : v ∈ items) (h : Within w v) : Within w (.array items)
  | entry {es : Document} {e : String × Value} (he : e ∈ es) (h : Within w e.2) : Within w (.document es)
  | scope {text : String} {es : Document} {e : String × Value} (he : e ∈ es) (h : Within w e.2) :
    Within w (.scopedCode text es)

/-- A double that is no number. -/
def isNaN : Value → Bool
  | double x => x.isNaN
  | _ => false

/-- The kinds that are said to have no useful order. -/
def isOrderless : Value → Bool
  | regex _ _ | code _ | scopedCode _ _ | minKey | maxKey => true
  | _ => false

/-- The other kinds that comparison does not tell apart. -/
def isOverlooked : Value → Bool
  | symbol _ | decimal128 _ | timestamp _ _ => true
  | _ => false

/-- Whether a value by itself, whatever is inside of it, may equal another one. -/
def isComparable (v : Value) : Bool := !v.isNaN && !v.isOrderless && !v.isOverlooked

theorem forall_within_atom (h : v.isAtom = true) : (∀ w, w.Within v → p w) ↔ p v := by
  refine ⟨fun hp => hp v .self, fun hp w hw => ?_⟩
  cases hw with
  | self => exact hp
  | item | entry | scope => cases h

theorem forall_within_array : (∀ w, w.Within (.array items) → p w) ↔
    p (.array items) ∧ ∀ v ∈ items, ∀ w, w.Within v → p w := by
  refine ⟨fun hp => ⟨hp _ .self, fun v hv w hw => hp w (.item hv hw)⟩, fun ⟨hself, hp⟩ w hw => ?_⟩
  cases hw with
  | self => exact hself
  | item hm h => exact hp _ hm w h

theorem forall_within_document : (∀ w, w.Within (.document es) → p w) ↔
    p (.document es) ∧ ∀ e ∈ es, ∀ w, w.Within e.2 → p w := by
  refine ⟨fun hp => ⟨hp _ .self, fun e he w hw => hp w (.entry he hw)⟩, fun ⟨hself, hp⟩ w hw => ?_⟩
  cases hw with
  | self => exact hself
  | entry he h => exact hp _ he w h

end Value

/-! ## Equality of compared values -/

namespace Comparand

theorem sameEntries_iff {other : List (String × Comparand)} : ∀ {entries : List (String × Comparand)},
    sameEntries entries other = true ↔ ∀ e ∈ entries, ∃ b, other.lookup e.1 = some b ∧ e.2.same b = true
  | [] => by simp [sameEntries]
  | (key, a) :: entries => by
    rw [sameEntries, Bool.and_eq_true, sameEntries_iff, List.forall_mem_cons]
    refine and_congr_left' ?_
    cases other.lookup key <;> simp

theorem ofEntries_eq_map : ∀ es : Document, ofEntries es = es.map (Prod.map id ofValue)
  | [] => rfl
  | (key, v) :: rest => by rw [ofEntries, ofEntries_eq_map rest]; rfl

end Comparand

namespace Value

variable {v : Value} {items others : List Value} {es : Document}

theorem equates_document_self (hn : (Entries.keys es).Nodup) :
    (document es).Equates (document es) ↔ ∀ e ∈ es, e.2.Equates e.2 := by
  unfold Equates
  rw [Comparand.ofValue, Comparand.same, beq_self_eq_true, Bool.true_and, Comparand.sameEntries_iff,
    Comparand.ofEntries_eq_map, List.forall_mem_map]
  refine forall₂_congr fun e he => ?_
  rw [Prod.map_fst, Prod.map_snd, id_eq, Entries.lookup_map, Entries.lookup_of_mem hn he]
  simp

theorem equates_integer_self {i : Int} (h : i.natAbs ≤ 2 ^ 63) :
    (Comparand.number (Double.ofInt i)).same (.number (Double.ofInt i)) = true := by
  simp [Comparand.same, Double.numEq, Double.isNaN_ofInt h]

theorem equates_self_of_isAtom (h : v.isAtom = true) : v.Equates v ↔ v.isComparable = true := by
  cases v with
  | array | document | scopedCode => cases h
  | double x =>
    simp [Equates, isComparable, isNaN, isOrderless, isOverlooked, Comparand.ofValue, Comparand.same, Double.numEq]
  | int32 i => exact iff_of_true (equates_integer_self (natAbs_toInt32_le i)) rfl
  | int64 i => exact iff_of_true (equates_integer_self (natAbs_toInt_le i)) rfl
  | _ => simp [Equates, isComparable, isNaN, isOrderless, isOverlooked, Comparand.ofValue, Comparand.same]

/-- A value is equal to itself unless something in it is equal to nothing. -/
theorem equates_self_iff (h : v.Proper) : v.Equates v ↔ ∀ w : Value, w.Within v → w.isComparable = true := by
  induction h with
  | atom h => rw [forall_within_atom h, equates_self_of_isAtom h]
  | array h ih =>
    rw [forall_within_array, equates_array_iff, List.forall₂_same]
    exact (forall₂_congr ih).trans (and_iff_right rfl).symm
  | document hn h ih =>
    rw [forall_within_document, equates_document_self hn]
    exact (forall₂_congr ih).trans (and_iff_right rfl).symm
  | scopedCode text hn h ih => exact iff_of_false nofun fun hp => nomatch hp _ .self

theorem exists_equates_of_mem (h : List.Forall₂ Equates items others) (hm : v ∈ others) :
    ∃ item ∈ items, item.Equates v := by
  induction h with
  | nil => cases hm
  | cons he _ ih =>
    rcases List.mem_cons.1 hm with rfl | hm
    · exact ⟨_, List.mem_cons_self, he⟩
    · obtain ⟨item, hitem, he⟩ := ih hm
      exact ⟨item, List.mem_cons_of_mem _ hitem, he⟩

/-- No item of an array equals the array. -/
theorem not_equates_own_array (v : Value) : ∀ items, v = .array items → ∀ item ∈ items, ¬ item.Equates v := by
  induction v using nested_induction with
  | scalar v h =>
    rintro items rfl
    cases h
  | document es ih => exact fun _ => nofun
  | array items ih =>
    intro items' he item hm hequates
    cases he
    -- an item equal to the array is an array itself, and one of its own items equals it in turn
    obtain ⟨inner, rfl, -⟩ := array_of_equates hequates
    obtain ⟨v, hv, he⟩ := exists_equates_of_mem (equates_array_iff.1 hequates) hm
    exact ih _ hm inner rfl v hv he

theorem someElement_equates_self (v : Value) : v.SomeElement (·.Equates v) ↔ v.Equates v := by
  refine ⟨?_, .inl⟩
  rintro (h | ⟨items, hv, item, hm, h⟩)
  · exact h
  · exact (not_equates_own_array v items hv item hm h).elim

end Value

/-! ## Searching for what is there -/

namespace Expr

variable {doc v : Value} {path : String}

/-- Where a value is, equality with it and membership in the set of it alone are decided alike, and inequality the
other way round. The value is found if and only if it is free, at any depth, of NaN, of the kinds that are said to have
no order, and of symbols, decimals and timestamps. -/
theorem eval_own_value (hl : doc.lookup path = some v) (hp : v.Proper) : ∃ found, (eq path v).eval doc = .ok found ∧
    (anyOf path [v]).eval doc = .ok found ∧ (ne path v).eval doc = .ok (!found) ∧
    (found = true ↔ ∀ w : Value, w.Within v → w.isComparable = true) := by
  have hfound : (doc.comparandAt path).hits (.ofValue v) = true ↔ ∀ w : Value, w.Within v → w.isComparable = true := by
    rw [Value.comparandAt_eq, Value.atPath, hl, Option.getD_some, Value.hits_iff, Value.someElement_equates_self,
      Value.equates_self_iff hp]
  refine ⟨_, eval_eq .., ?_, eval_ne .., hfound⟩
  rw [eval_anyOf, List.any_cons, List.any_nil, Bool.or_false]

/-- A list of one line. -/
def lineWith (v : Value) : Value := .array [.document [("last", v)]]

theorem proper_lineWith (h : v.isAtom = true) : (lineWith v).Proper :=
  .array (List.forall_mem_singleton.2 (.flat (List.nodup_singleton _) (List.forall_mem_singleton.2 h)))

theorem lineWith_comparable_iff (h : v.isAtom = true) :
    (∀ w : Value, w.Within (lineWith v) → w.isComparable = true) ↔ v.isComparable = true := by
  rw [lineWith, Value.forall_within_array, List.forall_mem_singleton, Value.forall_within_document,
    List.forall_mem_singleton, Value.forall_within_atom h]
  exact (and_iff_right rfl).trans (and_iff_right rfl)

/-- Lines with an integer in them are found, and lines with a timestamp are not. -/
theorem eval_own_value_line :
    (eq "lines" (lineWith (.int64 12))).eval (.document [("lines", lineWith (.int64 12))]) = .ok true ∧
    (ne "lines" (lineWith (.timestamp 1 2))).eval (.document [("lines", lineWith (.timestamp 1 2))]) = .ok true := by
  have hl (v : Value) : (Value.document [("lines", lineWith v)]).lookup "lines" = some (lineWith v) := rfl
  obtain ⟨found, heq, -, -, hiff⟩ := eval_own_value (hl (.int64 12)) (proper_lineWith rfl)
  obtain ⟨found', -, -, hne, hiff'⟩ := eval_own_value (hl (.timestamp 1 2)) (proper_lineWith rfl)
  rw [lineWith_comparable_iff rfl] at hiff hiff'
  have hfound : found = true := hiff.2 rfl
  have hfound' : found' = false := Bool.eq_false_iff.2 fun h => absurd (hiff'.1 h) (by decide)
  rw [hfound] at heq
  rw [hfound'] at hne
  exact ⟨heq, hne⟩

/-- A decimal is not found, though it is no NaN and of no kind that is said to have no order. -/
theorem not_eval_own_value : ¬ ∀ v : Value, v.Proper →
    (∀ w : Value, w.Within v → w.isNaN = false ∧ w.isOrderless = false) →
    (eq "f" v).eval (.document [("f", v)]) = .ok true ∧ (anyOf "f" [v]).eval (.document [("f", v)]) = .ok true ∧
    (ne "f" v).eval (.document [("f", v)]) = .ok false := by
  intro h
  have hdecimal := h (.decimal128 ⟨0⟩) (.atom rfl) ((Value.forall_within_atom rfl).2 ⟨rfl, rfl⟩)
  exact absurd hdecimal.1 (by decide)

end Expr

end Dossier
