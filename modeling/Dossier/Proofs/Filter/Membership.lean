/-
Set filters as membership. A blank operand asks for a stored form of nothing, any other operand for a value equal to
it, and both are also searched for among the elements of an array. The operands are divided into at most two clauses,
so that the exclusion from a set, whose clauses are the negations of those of the set, is the exact complement.
-/
import Dossier.Proofs.Filter.Compile
import Mathlib.Data.List.Forall2

namespace Dossier

variable {doc : Value} {field : String}

/-! ## Fields and their elements -/

namespace Comparand

@[simp] theorem ofItems_eq_map : ∀ items : List Value, ofItems items = items.map ofValue
  | [] => rfl
  | v :: rest => by rw [ofItems, ofItems_eq_map rest, List.map_cons]

theorem sameItems_iff : ∀ {as bs : List Comparand}, sameItems as bs = true ↔
    List.Forall₂ (fun a b => a.same b = true) as bs
  | [], [] => by simp [sameItems]
  | [], _ :: _ => by simp [sameItems]
  | _ :: _, [] => by simp [sameItems]
  | a :: as, b :: bs => by rw [sameItems, Bool.and_eq_true, sameItems_iff, List.forall₂_cons]

end Comparand

namespace Value

/-- Equality as predicates see it. -/
def Equates (v operand : Value) : Prop := (Comparand.ofValue v).same (.ofValue operand) = true

/-- Arrays are equal item by item. -/
theorem equates_array_iff {items others : List Value} :
    (array items).Equates (array others) ↔ List.Forall₂ Equates items others := by
  unfold Equates
  rw [Comparand.ofValue, Comparand.ofValue, Comparand.same, Comparand.sameItems_iff, Comparand.ofItems_eq_map,
    Comparand.ofItems_eq_map, List.forall₂_map_left_iff, List.forall₂_map_right_iff]

/-- A value has a property itself, or is an array with an element that has it. -/
def SomeElement (p : Value → Prop) (v : Value) : Prop := p v ∨ ∃ items, v = .array items ∧ ∃ item ∈ items, p item

theorem someElement_congr {p q : Value → Prop} (h : ∀ v, p v ↔ q v) (v : Value) :
    SomeElement p v ↔ SomeElement q v := by
  simp only [SomeElement, h]

theorem someElement_or {p q : Value → Prop} (v : Value) :
    SomeElement (fun v => p v ∨ q v) v ↔ SomeElement p v ∨ SomeElement q v := by
  constructor
  · rintro ((h | h) | ⟨items, hv, item, hm, h | h⟩)
    · exact .inl (.inl h)
    · exact .inr (.inl h)
    · exact .inl (.inr ⟨items, hv, item, hm, h⟩)
    · exact .inr (.inr ⟨items, hv, item, hm, h⟩)
  · rintro ((h | ⟨items, hv, item, hm, h⟩) | h | ⟨items, hv, item, hm, h⟩)
    · exact .inl (.inl h)
    · exact .inr ⟨items, hv, item, hm, .inl h⟩
    · exact .inl (.inr h)
    · exact .inr ⟨items, hv, item, hm, .inr h⟩

/-- The value at a path, null when nothing is there. -/
def atPath (doc : Value) (field : String) : Value := (doc.lookup field).getD .null

theorem comparandAt_eq (doc : Value) (field : String) : doc.comparandAt field = .ofValue (doc.atPath field) := by
  unfold comparandAt atPath
  cases doc.lookup field <;> rfl

theorem hits_iff (v operand : Value) :
    (Comparand.ofValue v).hits (.ofValue operand) = true ↔ v.SomeElement (·.Equates operand) := by
  unfold Comparand.hits SomeElement
  rw [Bool.or_eq_true]
  refine or_congr Iff.rfl ?_
  cases v with
  | array items => simp [Comparand.ofValue, Equates]
  | _ => simp [Comparand.ofValue]

/-- A stored form of nothing. -/
inductive IsVoid : Value → Prop
  | null : IsVoid .null
  | undefined : IsVoid .undefined
  | emptyString : IsVoid (.string "")
  | emptyArray : IsVoid (.array [])

/-- Nothing is what equals null, the empty string or the empty array. -/
theorem isVoid_iff (v : Value) :
    v.IsVoid ↔ v.Equates .null ∨ v.Equates (.string "") ∨ v.Equates (.array []) := by
  constructor
  · intro h
    cases h with
    | null => exact .inl rfl
    | undefined => exact .inl rfl
    | emptyString => exact .inr (.inl rfl)
    | emptyArray => exact .inr (.inr rfl)
  · intro h
    cases v with
    | null => exact .null
    | undefined => exact .undefined
    | string s =>
      have hs : s = "" := by simpa [Equates, Comparand.ofValue, Comparand.same] using h
      rw [hs]
      exact .emptyString
    | array items =>
      cases items with
      | nil => exact .emptyArray
      | cons item rest => simp [Equates, Comparand.ofValue, Comparand.same, Comparand.sameItems] at h
    | _ => simp [Equates, Comparand.ofValue, Comparand.same] at h

/-- Nothing is stored at a path, or a form of nothing, or an array with such an element. -/
def BlankAt (doc : Value) (field : String) : Prop :=
  doc.lookup field = none ∨ ∃ v, doc.lookup field = some v ∧ v.SomeElement IsVoid

theorem blankAt_iff : doc.BlankAt field ↔ (doc.atPath field).SomeElement IsVoid := by
  unfold BlankAt atPath
  cases doc.lookup field with
  | none => exact iff_of_true (.inl rfl) (.inl .null)
  | some v => simp

end Value

/-! ## Fields that hold a form of nothing -/

namespace Expr

theorem holds_present (path : String) (expected : Bool) :
    (present path expected).holds doc = ((doc.lookup path).isSome == expected) := rfl

theorem holds_eq_iff (operand : Value) :
    (eq field operand).holds doc = true ↔ (doc.atPath field).SomeElement (·.Equates operand) := by
  rw [holds_of_eval (eval_eq ..), Value.comparandAt_eq, Value.hits_iff]

theorem holds_ne (operand : Value) : (ne field operand).holds doc = !(eq field operand).holds doc := by
  rw [holds_of_eval (eval_ne ..), holds_of_eval (eval_eq ..)]

theorem eval_anyOf (doc : Value) (field : String) (operands : List Value) : (anyOf field operands).eval doc =
    .ok (operands.any fun operand => (doc.comparandAt field).hits (.ofValue operand)) := by
  have heval : (anyOf field operands).eval doc =
      .ok ((operands.map Comparand.ofValue).any (doc.comparandAt field).hits) := by
    rw [← Comparand.ofItems_eq_map]
    rfl
  rw [heval, List.any_map]
  rfl

theorem holds_anyOf_iff (operands : List Value) : (anyOf field operands).holds doc = true ↔
    ∃ operand ∈ operands, (doc.atPath field).SomeElement (·.Equates operand) := by
  rw [holds_of_eval (eval_anyOf ..), Value.comparandAt_eq]
  simp [Value.hits_iff]

theorem holds_noneOf (operands : List Value) :
    (noneOf field operands).holds doc = !(anyOf field operands).holds doc := rfl

end Expr

namespace SetFilter

theorem holds_blank : (blank field).holds doc = true ↔ doc.BlankAt field := by
  rw [blank, (blank_wellFormed field).holds_or]
  have habsent : doc.lookup field = none → (doc.atPath field).Equates .null := by
    intro h
    rw [Value.atPath, h]
    rfl
  simp only [List.any_cons, List.any_nil, Bool.or_false, Bool.or_eq_true, Expr.holds_present, Expr.holds_eq_iff,
    Value.blankAt_iff, Value.someElement_congr Value.isVoid_iff, Value.someElement_or]
  constructor
  · rintro (h | h)
    · exact .inl (.inl (habsent (by simpa using h)))
    · exact h
  · exact .inr

theorem holds_notBlank : (notBlank field).holds doc = !(blank field).holds doc := by
  rw [blank, notBlank, (blank_wellFormed field).holds_or, (notBlank_wellFormed field).holds_and]
  simp [Expr.holds_ne, Expr.holds_present]

end SetFilter

/-! ## Clauses of a set filter -/

/-- An operand that asks for nothing: null, the empty string or the sentinel. -/
def FilterSettings.AsksForBlank (settings : FilterSettings) (operand : Value) : Prop :=
  operand = .null ∨ operand = .string "" ∨ operand = .string settings.blankSentinel

theorem FilterSettings.isBlank_iff (settings : FilterSettings) (operand : Value) :
    settings.isBlank operand = true ↔ settings.AsksForBlank operand := by
  unfold AsksForBlank
  cases operand <;> simp [isBlank]

namespace SetFilter

variable {f : SetFilter} {settings : FilterSettings}

/-- A predicate joined from clauses that are decided. -/
theorem eval_joined_or {clauses : List Expr} {e : Expr} (hd : ∀ clause ∈ clauses, clause.Decides doc)
    (h : joined .or clauses = some e) : e.eval doc = .ok (clauses.any (·.holds doc)) := by
  unfold joined at h
  split at h
  · cases h
  · cases h
    rw [(hd e (List.mem_singleton_self e)).eval, List.any_cons, List.any_nil, Bool.or_false]
  · cases h
    exact Expr.eval_or hd

theorem eval_joined_and {clauses : List Expr} {e : Expr} (hd : ∀ clause ∈ clauses, clause.Decides doc)
    (h : joined .and clauses = some e) : e.eval doc = .ok (clauses.all (·.holds doc)) := by
  unfold joined at h
  split at h
  · cases h
  · cases h
    rw [(hd e (List.mem_singleton_self e)).eval, List.all_cons, List.all_nil, Bool.and_true]
  · cases h
    exact Expr.eval_and hd

theorem joined_isSome {join : List Expr → Expr} : ∀ {clauses : List Expr}, clauses ≠ [] →
    ∃ e, joined join clauses = some e
  | [], h => (h rfl).elim
  | [clause], _ => ⟨clause, rfl⟩
  | _ :: _ :: _, _ => ⟨_, rfl⟩

variable {ofOperands ofOthers : List Value → Expr} {ofBlank ofOther : Expr}

theorem clauses_eq : f.clauses settings ofOperands ofBlank =
    (if (f.operands.filter (!settings.isBlank ·)).isEmpty then []
      else [ofOperands (f.operands.filter (!settings.isBlank ·))]) ++
    (if (f.operands.filter settings.isBlank).isEmpty then [] else [ofBlank]) := by
  unfold clauses
  rw [List.partition_eq_filter_filter]
  rfl

/-- Every operand has its clause. -/
theorem clauses_ne_nil (h : f.operands ≠ []) : f.clauses settings ofOperands ofBlank ≠ [] := by
  obtain ⟨operand, rest, ho⟩ := List.exists_cons_of_ne_nil h
  rw [clauses_eq, ho]
  cases hb : settings.isBlank operand <;> simp [hb]

/-- The clauses of the exclusion are the negations of those of the set, so all of them hold if none of those does. -/
theorem clauses_all_not {p : Expr → Bool} (hoperands : ∀ operands, p (ofOthers operands) = !p (ofOperands operands))
    (hblank : p ofOther = !p ofBlank) :
    (f.clauses settings ofOthers ofOther).all p = !(f.clauses settings ofOperands ofBlank).any p := by
  rw [clauses_eq, clauses_eq]
  split <;> split <;> simp [hoperands, hblank]

/-- A clause holds if the one for blank does and there is a blank operand, or the one for the other operands. -/
theorem clauses_any {p : Expr → Bool} (hnone : p (ofOperands []) = false) :
    (f.clauses settings ofOperands ofBlank).any p = true ↔
      ((∃ operand ∈ f.operands, settings.isBlank operand = true) ∧ p ofBlank = true) ∨
        p (ofOperands (f.operands.filter (!settings.isBlank ·))) = true := by
  have hblank : (if (f.operands.filter settings.isBlank).isEmpty then [] else [ofBlank]).any p = true ↔
      (∃ operand ∈ f.operands, settings.isBlank operand = true) ∧ p ofBlank = true := by
    split
    · rename_i hempty
      rw [List.isEmpty_iff, List.filter_eq_nil_iff] at hempty
      simpa using fun operand hm hb => absurd hb (hempty operand hm)
    · rename_i hempty
      rw [List.isEmpty_iff, List.filter_eq_nil_iff] at hempty
      push Not at hempty
      simpa using fun _ => hempty
  have hothers : ∀ others : List Value, (if others.isEmpty then [] else [ofOperands others]).any p =
      p (ofOperands others) := by
    rintro (_ | ⟨operand, rest⟩)
    · exact hnone.symm
    · exact Bool.or_false _
  rw [clauses_eq, List.any_append, hothers, Bool.or_eq_true, hblank, or_comm]

/-- What a set filter asks of a document: a form of nothing if there is a blank operand, or else a value that equals one
of the other operands. -/
def Admits (settings : FilterSettings) (operands : List Value) (field : String) (doc : Value) : Prop :=
  (∃ operand ∈ operands, settings.AsksForBlank operand) ∧ doc.BlankAt field ∨
  ∃ operand ∈ operands, ¬ settings.AsksForBlank operand ∧ (doc.atPath field).SomeElement (·.Equates operand)

theorem clauses_decide (hoperands : ∀ operands, (ofOperands operands).WellFormed) (hblank : ofBlank.WellFormed) :
    ∀ clause ∈ f.clauses settings ofOperands ofBlank, clause.Decides doc := by
  intro clause hm
  rcases mem_clauses hm with ⟨operands, rfl⟩ | rfl
  · exact (hoperands operands).decides doc
  · exact hblank.decides doc

theorem clauses_holds : (f.clauses settings (.anyOf field) (blank field)).any (·.holds doc) = true ↔
    Admits settings f.operands field doc := by
  have hnone : (Expr.anyOf field []).holds doc = false := rfl
  rw [clauses_any hnone, holds_blank, Expr.holds_anyOf_iff]
  simp only [Admits, ← FilterSettings.isBlank_iff, List.mem_filter, Bool.not_eq_true, Bool.not_eq_eq_eq_not,
    Bool.not_true, and_assoc]

/-- For a list of operands that is not empty, both forms of the filter put a predicate on the field, and both are
decided for every document: the set form holds of the documents that it should admit, and the exclusion form of all
other ones. -/
theorem predicate_membership (settings : FilterSettings) (field : String) {operands : List Value}
    (hne : operands ≠ []) : ∃ inside outside,
      predicate? { operator := none, operands } settings field = some inside ∧
      predicate? { operator := some .equals, operands } settings field = some inside ∧
      predicate? { operator := some .notEqual, operands } settings field = some outside ∧
      ∀ doc, ∃ holds, inside.eval doc = .ok holds ∧ outside.eval doc = .ok (!holds) ∧
        (holds = true ↔ Admits settings operands field doc) := by
  let f : SetFilter := { operands }
  obtain ⟨inside, hin⟩ : ∃ e, joined .or (f.clauses settings (.anyOf field) (blank field)) = some e :=
    joined_isSome (clauses_ne_nil hne)
  obtain ⟨outside, hout⟩ : ∃ e, joined .and (f.clauses settings (.noneOf field) (notBlank field)) = some e :=
    joined_isSome (clauses_ne_nil hne)
  have hinside (doc : Value) : inside.eval doc =
      .ok ((f.clauses settings (.anyOf field) (blank field)).any (·.holds doc)) :=
    eval_joined_or (clauses_decide (.anyOf field) (blank_wellFormed field)) hin
  have houtside (doc : Value) : outside.eval doc =
      .ok (!(f.clauses settings (.anyOf field) (blank field)).any (·.holds doc)) := by
    rw [eval_joined_and (clauses_decide (.noneOf field) (notBlank_wellFormed field)) hout,
      clauses_all_not Expr.holds_noneOf holds_notBlank]
  exact ⟨inside, outside, hin, hin, hout, fun doc => ⟨_, hinside doc, houtside doc, clauses_holds⟩⟩

/-- The sentinel admits a document without the field, next to another operand. -/
theorem predicate_membership_sentinel : ∃ inside outside,
    predicate? { operator := none, operands := [.string "(Blanks)", .string "Oslo"] } (.ofMinutes 0 "(Blanks)") "city" =
      some inside ∧
    predicate? { operator := some .notEqual, operands := [.string "(Blanks)", .string "Oslo"] }
      (.ofMinutes 0 "(Blanks)") "city" = some outside ∧
    inside.eval (.document []) = .ok true ∧ outside.eval (.document []) = .ok false := by
  obtain ⟨inside, outside, hin, -, hout, h⟩ := predicate_membership (.ofMinutes 0 "(Blanks)") "city"
    (List.cons_ne_nil (Value.string "(Blanks)") [.string "Oslo"])
  obtain ⟨holds, hinside, houtside, hiff⟩ := h (.document [])
  have hholds : holds = true := hiff.2 (.inl ⟨⟨_, List.mem_cons_self, .inr (.inr rfl)⟩, .inl rfl⟩)
  rw [hholds] at hinside houtside
  exact ⟨inside, outside, hin, hout, hinside, houtside⟩

end SetFilter

end Dossier
