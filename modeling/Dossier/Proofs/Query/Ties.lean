/-
Ranges and equality. A range is searched for in arrays at any depth and compares by an order, while equality is
searched for among the items of one array and goes by its own rule. A tie in the order is an equality except between
binaries, whose order leaves out the subtype. So "at least" and "at most" are "greater" and "less" or "equal", and
beyond them only what hides a tie from equality: the same bytes under another subtype, or a tie inside of an array that
is an item of an array.
-/
import Dossier.Proofs.Mongo.Safe
import Dossier.Proofs.Query.Pooling

namespace Dossier

/-! ## Equality and ties in the order -/

/-- A strict comparison and the one that allows for equality as well. -/
inductive Comparison.OrEqual : Comparison → Comparison → Prop
  | gt : OrEqual .gt .gte
  | lt : OrEqual .lt .lte

theorem Comparison.OrEqual.isRange {strict loose : Comparison} (h : strict.OrEqual loose) :
    strict.IsRange ∧ loose.IsRange := by
  cases h with
  | gt => exact ⟨.gt, .gte⟩
  | lt => exact ⟨.lt, .lte⟩

namespace Comparand

variable {stored operand : Comparand}

theorem compareBytes_eq_eq_iff : ∀ as bs : List UInt8, compareBytes as bs = .eq ↔ as = bs
  | [], [] => by simp [compareBytes]
  | [], _ :: _ => by simp [compareBytes]
  | _ :: _, [] => by simp [compareBytes]
  | a :: as, b :: bs => by
    rw [compareBytes, Ordering.then_eq_eq, Nat.compare_eq_eq, UInt8.toNat_inj, compareBytes_eq_eq_iff as bs,
      List.cons.injEq]

theorem compare?_number_eq_iff (x y : Double) : x.compare? y = some .eq ↔ x.numEq y = true := by
  unfold Double.compare? Double.numEq
  cases x.isNaN <;> cases y.isNaN <;> simp

/-- Values of a kind that has an order of its own, binaries apart, tie if and only if they are equal. -/
theorem compare?_eq_iff_same (hmap : ∀ entries, operand ≠ map entries) (harray : ∀ items, operand ≠ array items)
    (hbinary : ∀ t bytes, operand ≠ binary t bytes) :
    compare? stored operand = some .eq ↔ same stored operand = true := by
  cases operand with
  | map entries => exact (hmap entries rfl).elim
  | array items => exact (harray items rfl).elim
  | binary t bytes => exact (hbinary t bytes rfl).elim
  | number y =>
    cases stored with
    | number x => exact compare?_number_eq_iff x y
    | _ => simp [compare?, same]
  | boolean c =>
    cases stored with
    | boolean b => cases b <;> cases c <;> simp [compare?, same]
    | _ => simp [compare?, same]
  | string t => cases stored <;> simp [compare?, same]
  | objectId bytes => cases stored <;> simp [compare?, same, compareBytes_eq_eq_iff]
  | instant n => cases stored <;> simp [compare?, same, Int64.toInt_inj]
  | _ => cases stored <;> simp [compare?, same]

/-- The same bytes under another subtype. -/
def OtherSubtype (stored operand : Comparand) : Prop :=
  ∃ s t bytes, s ≠ t ∧ stored = binary s bytes ∧ operand = binary t bytes

theorem compare?_binary_eq_iff (t : UInt8) (bytes : List UInt8) : compare? stored (.binary t bytes) = some .eq ↔
    same stored (.binary t bytes) = true ∨ OtherSubtype stored (.binary t bytes) := by
  cases stored with
  | binary s others =>
    simp only [compare?, same, OtherSubtype, Option.some.injEq, compareBytes_eq_eq_iff, Bool.and_eq_true, beq_iff_eq,
      binary.injEq]
    constructor
    · rintro rfl
      by_cases hst : s = t
      · exact .inl ⟨hst, rfl⟩
      · exact .inr ⟨s, t, others, hst, ⟨rfl, rfl⟩, rfl, rfl⟩
    · rintro (⟨-, h⟩ | ⟨s', t', both, -, ⟨-, rfl⟩, -, rfl⟩)
      · exact h
      · rfl
  | _ => simp [compare?, same, OtherSubtype]

/-- A tie is an equality, or binaries under different subtypes. -/
theorem compare?_eq_iff (hmap : ∀ entries, operand ≠ map entries) (harray : ∀ items, operand ≠ array items) :
    compare? stored operand = some .eq ↔ same stored operand = true ∨ OtherSubtype stored operand := by
  by_cases hbinary : ∃ t bytes, operand = binary t bytes
  · obtain ⟨t, bytes, rfl⟩ := hbinary
    exact compare?_binary_eq_iff t bytes
  · push Not at hbinary
    have hother : ¬ OtherSubtype stored operand := by
      rintro ⟨s, t, bytes, -, -, ho⟩
      exact hbinary t bytes ho
    rw [or_iff_left hother, compare?_eq_iff_same hmap harray hbinary]

/-- A comparison that allows for equality finds in order what the strict one does, and ties. -/
theorem inOrder_orEqual_iff {strict loose : Comparison} (h : strict.OrEqual loose) :
    inOrder loose stored operand = true ↔
      inOrder strict stored operand = true ∨ compare? stored operand = some .eq := by
  unfold inOrder
  cases h <;> rcases compare? stored operand with _ | _ | _ | _ <;> simp [admits]

end Comparand

namespace Value

variable {op : Comparison} {v operand : Value} {items : List Value} {p q : Value → Prop}

/-! ## Searching arrays at any depth -/

/-- A property that a value has, or something that is in it through arrays alone. -/
inductive Somewhere (p : Value → Prop) : Value → Prop
  | here {v : Value} (h : p v) : Somewhere p v
  | item {items : List Value} {v : Value} (hm : v ∈ items) (h : Somewhere p v) : Somewhere p (.array items)

theorem somewhere_single (hv : v.IsSingle) : v.Somewhere p ↔ p v := by
  constructor
  · intro h
    cases h with
    | here h => exact h
    | item => exact (hv _ rfl).elim
  · exact .here

theorem somewhere_array (hp : ¬ p (.array items)) :
    (Value.array items).Somewhere p ↔ ∃ item ∈ items, item.Somewhere p := by
  constructor
  · intro h
    cases h with
    | here h => exact (hp h).elim
    | item hm h => exact ⟨_, hm, h⟩
  · rintro ⟨item, hm, h⟩
    exact .item hm h

theorem Somewhere.imp (hpq : ∀ v, p v → q v) (h : v.Somewhere p) : v.Somewhere q := by
  induction h with
  | here h => exact .here (hpq _ h)
  | item hm _ ih => exact .item hm ih

theorem somewhere_or : v.Somewhere (fun w => p w ∨ q w) ↔ v.Somewhere p ∨ v.Somewhere q := by
  constructor
  · intro h
    induction h with
    | here h => exact h.imp .here .here
    | item hm _ ih => exact ih.imp (.item hm) (.item hm)
  · rintro (h | h)
    · exact h.imp fun _ => .inl
    · exact h.imp fun _ => .inr

theorem isSingle_of_isScalar (h : v.isScalar = true) : v.IsSingle := by
  rintro items rfl
  cases h

/-- A range comparison finds what is in order at any depth. -/
theorem satisfies_iff_somewhere (hs : operand.IsSingle) (v : Value) :
    Comparand.satisfies op (.ofValue operand) (.ofValue v) = true ↔
      v.Somewhere fun w => Comparand.inOrder op (.ofValue w) (.ofValue operand) = true := by
  induction v using nested_induction with
  | scalar v h => rw [Comparand.satisfies_single (isSingle_of_isScalar h), somewhere_single (isSingle_of_isScalar h)]
  | document es =>
    have hv : (Value.document es).IsSingle := fun _ => Value.noConfusion
    rw [Comparand.satisfies_single hv, somewhere_single hv]
  | array items ih =>
    rw [satisfies_array_iff hs, somewhere_array (by simp [Comparand.inOrder, Comparand.ofValue, Comparand.compare?])]
    exact exists_congr fun item => and_congr_right (ih item)

/-! ## Hidden ties -/

/-- Values that their order does not tell apart. -/
def Ties (v operand : Value) : Prop := Comparand.compare? (.ofValue v) (.ofValue operand) = some .eq

/-- Binaries that differ in their subtypes only. -/
def OtherSubtype (v operand : Value) : Prop := Comparand.OtherSubtype (.ofValue v) (.ofValue operand)

/-- A tie that equality does not find: with the same bytes under another subtype, or in an array in an array. -/
def HidesTie (v operand : Value) : Prop :=
  v.SomeElement (·.OtherSubtype operand) ∨ v.Inside (·.Inside (·.Somewhere (·.Ties operand)))

theorem ties_iff (hs : operand.isScalar = true) : v.Ties operand ↔ v.Equates operand ∨ v.OtherSubtype operand := by
  apply Comparand.compare?_eq_iff
  · cases operand <;> simp_all [Comparand.ofValue, isScalar]
  · cases operand <;> simp_all [Comparand.ofValue, isScalar]

/-- Ties at any depth are equalities and hidden ties. -/
theorem somewhere_ties_iff (hs : operand.isScalar = true) (v : Value) :
    v.Somewhere (·.Ties operand) ↔ v.SomeElement (·.Equates operand) ∨ v.HidesTie operand := by
  constructor
  · intro h
    cases h with
    | here h =>
      rcases (ties_iff hs).1 h with h | h
      · exact .inl (.inl h)
      · exact .inr (.inl (.inl h))
    | item hm h =>
      cases h with
      | here h =>
        rcases (ties_iff hs).1 h with h | h
        · exact .inl (.inr ⟨_, rfl, _, hm, h⟩)
        · exact .inr (.inl (.inr ⟨_, rfl, _, hm, h⟩))
      | item hm' h => exact .inr (.inr ⟨_, rfl, _, hm, _, rfl, _, hm', h⟩)
  · have hties : ∀ w : Value, w.Equates operand ∨ w.OtherSubtype operand → w.Somewhere (·.Ties operand) :=
      fun _ h => .here ((ties_iff hs).2 h)
    rintro (heq | hsubtype | ⟨items, rfl, _, hm, inner, rfl, item, hm', h⟩)
    · rcases heq with h | ⟨items, rfl, item, hm, h⟩
      · exact hties v (.inl h)
      · exact .item hm (hties item (.inl h))
    · rcases hsubtype with h | ⟨items, rfl, item, hm, h⟩
      · exact hties v (.inr h)
      · exact .item hm (hties item (.inr h))
    · exact .item hm (.item hm' h)

theorem meets_range_iff (hop : op.IsRange) (hs : operand.IsSingle) (v : Value) :
    v.Meets op operand ↔ v.Somewhere fun w => Comparand.inOrder op (.ofValue w) (.ofValue operand) = true := by
  rw [← satisfies_iff_somewhere hs]
  cases hop <;> exact Iff.rfl

/-- Allowing for equality adds the values that equality finds, and the hidden ties. -/
theorem meets_orEqual_iff {strict loose : Comparison} (h : strict.OrEqual loose) (hs : operand.isScalar = true)
    (v : Value) : v.Meets loose operand ↔ v.Meets strict operand ∨ v.Meets .eq operand ∨ v.HidesTie operand := by
  have heq : v.Meets .eq operand ↔ v.SomeElement (·.Equates operand) := Iff.rfl
  have hsingle := isSingle_of_isScalar hs
  rw [heq, ← somewhere_ties_iff hs, meets_range_iff h.isRange.1 hsingle, meets_range_iff h.isRange.2 hsingle,
    ← somewhere_or]
  simp only [Comparand.inOrder_orEqual_iff h, Ties]

end Value

/-! ## Predicates -/

namespace Expr

open Value

variable {operand : Value}

/-- A comparison that allows for equality holds if the strict one does, or equality does, or the path leads to a value
that hides a tie. So it is the strict one or equality if and only if one of these holds as well wherever a tie is
hidden. -/
theorem eval_orEqual_iff (hs : operand.isScalar = true) (hn : operand.isNothing = false) (doc : Value) (path : String) :
    ∀ strict loose : Comparison, strict.OrEqual loose →
      ((field path loose operand).eval doc = .ok true ↔
        (field path strict operand).eval doc = .ok true ∨ (eq path operand).eval doc = .ok true ∨
          ∃ leaf, Leads (Path.segments path) doc leaf ∧ leaf.HidesTie operand) ∧
      (((field path loose operand).eval doc = .ok true ↔
          (field path strict operand).eval doc = .ok true ∨ (eq path operand).eval doc = .ok true) ↔
        ((∃ leaf, Leads (Path.segments path) doc leaf ∧ leaf.HidesTie operand) →
          (field path strict operand).eval doc = .ok true ∨ (eq path operand).eval doc = .ok true)) := by
  intro strict loose h
  have hsingle := isSingle_of_isScalar hs
  have hloose : (field path loose operand).eval doc = .ok true ↔
      (field path strict operand).eval doc = .ok true ∨ (eq path operand).eval doc = .ok true ∨
        ∃ leaf, Leads (Path.segments path) doc leaf ∧ leaf.HidesTie operand := by
    rw [eq, eval_iff_leads (.range h.isRange.1) hn hsingle, eval_iff_leads (.range h.isRange.2) hn hsingle,
      eval_iff_leads .eq hn hsingle]
    simp only [meets_orEqual_iff h hs, and_or_left, exists_or]
  refine ⟨hloose, ?_⟩
  rw [hloose, ← or_assoc]
  exact or_iff_left_iff_imp

/-- Five stands in an array in an array, which hides it: beside a larger and a smaller number this makes no
difference, alone it does. -/
theorem eval_orEqual_nested :
    let mixed : Value := .document [("sizes", .array [.int32 4, .array [.int32 5], .int32 6])]
    let nested : Value := .document [("sizes", .array [.array [.int32 5]])]
    (Value.int32 5).isScalar = true ∧ (Value.int32 5).isNothing = false ∧
    ((gte "sizes" (.int32 5)).eval mixed = .ok true ↔
      (gt "sizes" (.int32 5)).eval mixed = .ok true ∨ (eq "sizes" (.int32 5)).eval mixed = .ok true) ∧
    (lte "sizes" (.int32 5)).eval nested = .ok true := by
  intro mixed nested
  have hgt : (gt "sizes" (.int32 5)).eval mixed = .ok true := by decide +kernel
  have hleads : Leads (Path.segments "sizes") nested (.array [.array [.int32 5]]) := ⟨_, .entry rfl, rfl⟩
  have hties : (Value.int32 5).Ties (.int32 5) := by
    unfold Ties
    decide +kernel
  have hides : (Value.array [.array [.int32 5]]).HidesTie (.int32 5) :=
    .inr ⟨_, rfl, _, List.mem_cons_self, _, rfl, _, List.mem_cons_self, .here hties⟩
  exact ⟨rfl, rfl, ((eval_orEqual_iff rfl rfl mixed "sizes" .gt .gte .gt).2.2 fun _ => .inl hgt),
    ((eval_orEqual_iff rfl rfl nested "sizes" .lt .lte .lt).1.2 (.inr (.inr ⟨_, hleads, hides⟩)))⟩

/-- A tie in an array in an array, and one with the same byte under another subtype. -/
theorem not_eval_orEqual :
    let doc : Value := .document [("n", .array [.array [.int32 5]]), ("b", .binary 0 [1])]
    ¬ ((gte "n" (.int32 5)).eval doc = .ok true ↔
        (gt "n" (.int32 5)).eval doc = .ok true ∨ (eq "n" (.int32 5)).eval doc = .ok true) ∧
      ¬ ((lte "b" (.binary 5 [1])).eval doc = .ok true ↔
        (lt "b" (.binary 5 [1])).eval doc = .ok true ∨ (eq "b" (.binary 5 [1])).eval doc = .ok true) := by
  decide +kernel

end Expr

end Dossier
