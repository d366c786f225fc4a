/-
Arrays in the documents of an array. What a dotted path finds in them is pooled into one array, and with an array for
an operand it is this one that is compared. An array that stands inside of one of theirs is still found, but one that
one document has is lost among the contents of the others, and what several documents have together is taken for one
array. So the boundaries of the documents are kept if and only if the operand stands inside, or is what one document
has beside empty arrays only, or is neither what one of them has nor what they have together.
-/
import Dossier.Proofs.Query.FanOut

namespace Dossier

namespace Value

variable {v : Value} {found operands items : List Value} {p : Value → Prop}

/-! ## Pooled contents -/

/-- A value that has a property stands inside of an array. -/
def Inside (p : Value → Prop) (v : Value) : Prop := ∃ items, v = .array items ∧ ∃ item ∈ items, p item

theorem pooled_append (found found' : List Value) : pooled (found ++ found') = pooled found ++ pooled found' :=
  List.flatMap_append

theorem pooled_eq_nil_iff : pooled found = [] ↔ ∀ v ∈ found, v = .array [] := by
  rw [pooled, List.flatMap_eq_nil_iff]
  refine forall₂_congr fun v _ => ?_
  cases v <;> simp [contents]

/-- Only an array equals an array, one with as many items. -/
theorem array_of_equates (h : v.Equates (.array operands)) :
    ∃ items, v = .array items ∧ items.length = operands.length := by
  cases v with
  | array items => exact ⟨items, rfl, (equates_array_iff.1 h).length_eq⟩
  | _ => cases h

/-- The items that equal an array are those that stand inside of what was found. -/
theorem mem_pooled_equates_iff : (∃ item ∈ pooled found, item.Equates (.array operands)) ↔
    ∃ v ∈ found, v.Inside (·.Equates (.array operands)) := by
  simp only [pooled, List.mem_flatMap]
  constructor
  · rintro ⟨item, ⟨v, hv, hi⟩, he⟩
    cases v with
    | array items => exact ⟨_, hv, items, rfl, item, hi, he⟩
    | _ =>
      -- a value that is no array is pooled itself, and equals none
      rw [contents_single fun _ => Value.noConfusion, List.mem_singleton] at hi
      subst hi
      cases he
  · rintro ⟨_, hv, items, rfl, item, hi, he⟩
    exact ⟨item, ⟨_, hv, hi⟩, he⟩

theorem gather_equates_iff : (∃ v, Path.gather found = some v ∧ v.SomeElement (·.Equates (.array operands))) ↔
    (∃ v ∈ found, v.Inside (·.Equates (.array operands))) ∨
      operands ≠ [] ∧ (Value.array (pooled found)).Equates (.array operands) := by
  have hlength : (Value.array (pooled found)).Equates (.array operands) → (pooled found).length = operands.length := by
    intro h
    obtain ⟨items, he, hl⟩ := array_of_equates h
    cases he
    exact hl
  rw [gather_eq, ← mem_pooled_equates_iff]
  by_cases hnil : pooled found = []
  · rw [if_pos hnil]
    constructor
    · rintro ⟨v, hv, -⟩
      cases hv
    · rintro (⟨item, hi, -⟩ | ⟨hne, he⟩)
      · rw [hnil] at hi
        cases hi
      · have := hlength he
        rw [hnil] at this
        exact (hne (List.length_eq_zero_iff.1 this.symm)).elim
  · rw [if_neg hnil]
    have hne : (Value.array (pooled found)).Equates (.array operands) → operands ≠ [] := by
      rintro h rfl
      exact hnil (List.length_eq_zero_iff.1 (hlength h))
    constructor
    · rintro ⟨v, hv, h | ⟨items, he, hi⟩⟩
      · cases hv
        exact .inr ⟨hne h, h⟩
      · cases hv
        cases he
        exact .inl hi
    · rintro (hi | ⟨-, h⟩)
      · exact ⟨_, rfl, .inr ⟨_, rfl, hi⟩⟩
      · exact ⟨_, rfl, .inl h⟩

/-- Next to a value that equals the operand all other ones have to be empty for the whole to equal it as well. -/
theorem pooled_equates_iff {before after : List Value} (h : v.Equates (.array operands)) :
    (Value.array (pooled (before ++ v :: after))).Equates (.array operands) ↔ ∀ w ∈ before ++ after, w = .array [] := by
  obtain ⟨items, rfl, hl⟩ := array_of_equates h
  have hpool : pooled (before ++ .array items :: after) = pooled before ++ (items ++ pooled after) := by
    rw [pooled_append]
    rfl
  rw [hpool, ← pooled_eq_nil_iff, pooled_append]
  constructor
  · intro hwhole
    obtain ⟨all, he, hall⟩ := array_of_equates hwhole
    cases he
    simp only [List.length_append] at hall
    rw [List.append_eq_nil_iff, ← List.length_eq_zero_iff, ← List.length_eq_zero_iff]
    omega
  · intro hnil
    obtain ⟨hb, ha⟩ := List.append_eq_nil_iff.1 hnil
    rwa [hb, ha, List.nil_append, List.append_nil]

/-! ## When an array is recognized -/

/-- What was found in several documents does not hide whether one of them has an array: it stands inside, or one has it
and it is not empty while all others are, or neither one nor all of them together have it. -/
inductive Recognized (operands found : List Value) : Prop
  | inside (h : ∃ v ∈ found, v.Inside (·.Equates (.array operands)))
  | alone {before after : List Value} {v : Value} (hne : operands ≠ []) (hf : found = before ++ v :: after)
    (h : v.Equates (.array operands)) (hempty : ∀ w ∈ before ++ after, w = .array [])
  | absent (h : ∀ v ∈ found, ¬ v.Equates (.array operands))
    (hpool : operands ≠ [] → ¬ (Value.array (pooled found)).Equates (.array operands))

theorem someElement_found_iff : (∃ v ∈ found, v.SomeElement p) ↔ (∃ v ∈ found, v.Inside p) ∨ ∃ v ∈ found, p v := by
  unfold SomeElement Inside
  constructor
  · rintro ⟨v, hv, h | h⟩
    · exact .inr ⟨v, hv, h⟩
    · exact .inl ⟨v, hv, h⟩
  · rintro (⟨v, hv, h⟩ | ⟨v, hv, h⟩)
    · exact ⟨v, hv, .inr h⟩
    · exact ⟨v, hv, .inl h⟩

/-- Searching what has been put together for an array agrees with searching one value after the other exactly if the
array is recognized. -/
theorem recognized_iff : Recognized operands found ↔
    ((∃ v, Path.gather found = some v ∧ v.SomeElement (·.Equates (.array operands))) ↔
      ∃ v ∈ found, v.SomeElement (·.Equates (.array operands))) := by
  rw [gather_equates_iff, someElement_found_iff]
  constructor
  · rintro (hin | ⟨hne, rfl, h, hempty⟩ | ⟨h, hpool⟩)
    · exact iff_of_true (.inl hin) (.inl hin)
    · exact iff_of_true (.inr ⟨hne, (pooled_equates_iff h).2 hempty⟩) (.inr ⟨_, by simp, h⟩)
    · exact or_congr_right (iff_of_false (fun ⟨hne, hp⟩ => hpool hne hp) fun ⟨v, hv, he⟩ => h v hv he)
  · intro hiff
    by_cases hin : ∃ v ∈ found, v.Inside (·.Equates (.array operands))
    · exact .inside hin
    · rw [or_iff_right hin, or_iff_right hin] at hiff
      by_cases hone : ∃ v ∈ found, v.Equates (.array operands)
      · obtain ⟨hne, hpool⟩ := hiff.2 hone
        obtain ⟨v, hv, he⟩ := hone
        obtain ⟨before, after, rfl⟩ := List.append_of_mem hv
        exact .alone hne rfl he ((pooled_equates_iff he).1 hpool)
      · exact .absent (fun v hv he => hone ⟨v, hv, he⟩) fun hne hpool => hone (hiff.1 ⟨hne, hpool⟩)

end Value

/-! ## Documents in an array -/

/-- What several documents have under a key. -/
def Document.held (key : String) (docs : List Document) : List Value := docs.filterMap (·.lookup key)

namespace Expr

open Value Document

variable {name key : String} {entries : Document} {docs : List Document}

theorem lookup_held (hname : Path.IsName name) (hl : entries.lookup name = some (.array (docs.map .document)))
    (hkey : Path.IsName key) (hi : Path.index? key = none) :
    (Value.document entries).lookup (name ++ "." ++ key) = Path.gather (held key docs) := by
  have hcomposed : ((fun item : Value => item.entries?.bind fun es => (es.lookup key).bind (lookupSegments [])) ∘
      Value.document) = (·.lookup key) := by
    funext es
    exact Option.bind_fun_some _
  rw [Value.lookup, Path.segments_join, Path.segments_name hname, Path.segments_name hkey, List.singleton_append,
    lookupSegments, hl, Option.bind_some, lookupSegments, hi]
  dsimp only
  rw [List.filterMap_map, hcomposed]
  rfl

/-- Equality with an array behind a dotted path compares what the documents of the array at its front have together,
and it agrees with the equality of one of them if and only if the array is recognized in what they have. -/
theorem eval_recognizes_iff (hname : Path.IsName name) (hl : entries.lookup name = some (.array (docs.map .document)))
    (hkey : Path.IsName key) (hi : Path.index? key = none) (operands : List Value) :
    ((eq (name ++ "." ++ key) (.array operands)).eval (.document entries) = .ok true ↔
      (∃ v ∈ held key docs, v.Inside (·.Equates (.array operands))) ∨
        operands ≠ [] ∧ (Value.array (pooled (held key docs))).Equates (.array operands)) ∧
    (((eq (name ++ "." ++ key) (.array operands)).eval (.document entries) = .ok true ↔
        ∃ es ∈ docs, (eq key (.array operands)).eval (.document es) = .ok true) ↔
      Recognized operands (held key docs)) := by
  have hpath : (eq (name ++ "." ++ key) (.array operands)).eval (.document entries) = .ok true ↔
      ∃ v, Path.gather (held key docs) = some v ∧ v.SomeElement (·.Equates (.array operands)) := by
    rw [← lookup_held hname hl hkey hi]
    exact eval_seeks_iff .eq rfl ..
  have heach : (∃ es ∈ docs, (eq key (.array operands)).eval (.document es) = .ok true) ↔
      ∃ v ∈ held key docs, v.SomeElement (·.Equates (.array operands)) := by
    have hone : ∀ es : Document, (eq key (.array operands)).eval (.document es) = .ok true ↔
        ∃ v, es.lookup key = some v ∧ v.SomeElement (·.Equates (.array operands)) := by
      intro es
      rw [← Value.lookup_name hkey]
      exact eval_seeks_iff .eq rfl ..
    simp only [hone, held, List.mem_filterMap]
    constructor
    · rintro ⟨es, he, v, hv, h⟩
      exact ⟨v, ⟨es, he, hv⟩, h⟩
    · rintro ⟨v, ⟨es, he, hv⟩, h⟩
      exact ⟨es, he, v, hv, h⟩
  rw [hpath, heach, recognized_iff]
  exact ⟨gather_equates_iff, Iff.rfl⟩

/-- The sizes of one part beside a part without sizes, and then beside a part with a size of its own. -/
theorem eval_recognizes_sizes :
    let sizes : List Value := [.int32 4, .int32 6]
    let parts : List Document := [[("sizes", .array sizes)], [("sizes", .array [])], [("name", .string "nut")]]
    let more : List Document := parts ++ [[("sizes", .array [.int32 9])]]
    let path := "parts" ++ "." ++ "sizes"
    Path.IsName "parts" ∧ Path.IsName "sizes" ∧ Path.index? "sizes" = none ∧
    (eq path (.array sizes)).eval (.document [("parts", .array (parts.map .document))]) = .ok true ∧
    (∃ es ∈ parts, (eq "sizes" (.array sizes)).eval (.document es) = .ok true) ∧
    ¬ Recognized sizes (held "sizes" more) := by
  intro sizes parts more path
  have hname : Path.IsName "parts" := by decide
  have hkey : Path.IsName "sizes" := by decide
  have hi : Path.index? "sizes" = none := rfl
  have hself : Comparand.same (.ofValue (.array sizes)) (.ofValue (.array sizes)) = true := by decide +kernel
  have halone : Recognized sizes (held "sizes" parts) :=
    .alone (List.cons_ne_nil _ _) (List.nil_append _).symm hself (List.forall_mem_singleton.2 rfl)
  have hparts : List.lookup "parts" [("parts", Value.array (parts.map .document))] =
      some (.array (parts.map .document)) := rfl
  have hmore : List.lookup "parts" [("parts", Value.array (more.map .document))] =
      some (.array (more.map .document)) := rfl
  have hmatch : (eq path (.array sizes)).eval (.document [("parts", .array (parts.map .document))]) = .ok true := by
    decide +kernel
  refine ⟨hname, hkey, hi, hmatch, ((eval_recognizes_iff hname hparts hkey hi sizes).2.2 halone).1 hmatch, ?_⟩
  intro hlost
  have hone : (eq "sizes" (.array sizes)).eval (.document [("sizes", .array sizes)]) = .ok true := by decide +kernel
  have hmissed : (eq path (.array sizes)).eval (.document [("parts", .array (more.map .document))]) ≠ .ok true := by
    decide +kernel
  exact hmissed (((eval_recognizes_iff hname hmore hkey hi sizes).2.2 hlost).2 ⟨_, List.mem_cons_self, hone⟩)

/-- An array that one document has is not always found. -/
theorem not_eval_recognizes : ¬ ∀ (docs : List Document) (key : String) (operands : List Value), Path.IsName key →
    Path.index? key = none →
      ((eq ("items" ++ "." ++ key) (.array operands)).eval (.document [("items", .array (docs.map .document))]) =
          .ok true ↔
        ∃ es ∈ docs, (eq key (.array operands)).eval (.document es) = .ok true) := by
  intro h
  have hone : (eq "f" (.array [.int32 1, .int32 2])).eval (.document [("f", .array [.int32 1, .int32 2])]) =
      .ok true := by
    decide +kernel
  have hmatch := (h [[("f", .array [.int32 1, .int32 2])], [("f", .array [.int32 3])]] "f" [.int32 1, .int32 2]
    (by decide) rfl).2 ⟨_, List.mem_cons_self, hone⟩
  revert hmatch
  decide +kernel

end Expr

end Dossier
