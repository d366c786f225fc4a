/-
The names of fields in filter documents and in stored documents. Documents are stored with their keys escaped, but a
filter document names a field as the predicate does. So a predicate reaches the field that is stored if and only if
the name has no special characters, although the document itself is found to have the field under any name.
-/
import Dossier.Proofs.Mongo.Filter
import Dossier.Proofs.Mongo.Safe
import Dossier.Proofs.Query.Field

namespace Dossier

/-- A predicate on one field: whether it is there, or how it compares. -/
inductive Expr.OnField (name : String) : Expr → Prop
  | present (expected : Bool) : OnField name (.present name expected)
  | field (op : Comparison) (operand : Value) : OnField name (.field name op operand)

namespace Mongo

variable {name : String} {es d : Document} {e : Expr}

/-! ## Names in filter documents -/

/-- A predicate on one field becomes a condition on the name that it gives. -/
theorem keys_filterDocument (he : e.OnField name) (hd : filterDocument e = .ok d) : Entries.keys d = [name] := by
  cases he with
  | present expected =>
    cases hd
    rfl
  | field op operand =>
    obtain ⟨-, rfl⟩ := fieldCondition_eq_ok_iff.1 hd
    rfl

/-- A document is found to have a field if it has something under the name. A name that is written as an operator is
not looked for. -/
theorem matches?_present_iff (name : String) (doc : Value) :
    matches? doc [(name, .document [("$exists", .boolean true)])] = some true ↔
      isOperator name = false ∧ (doc.lookup name).isSome = true := by
  cases hop : isOperator name with
  | true =>
    have hclause : matchesClause? doc name (.document [("$exists", .boolean true)]) = none := by
      rw [matchesClause?, hop]
      · rfl
      · exact List.cons_ne_nil _ _
    rw [matches?, hclause]
    simp
  | false =>
    rw [matches?_singleton (matchesClause?_document hop rfl)]
    simp

theorem not_isOperator (h : IsSafe name) : isOperator name = false := by
  unfold isOperator
  rw [beq_eq_false_iff_ne]
  exact fun hd => h '$' (by decide) (List.mem_of_mem_head? hd)

/-! ## Names in stored documents -/

/-- Of the keys of a document, those that are safe are keys of the stored document as well. -/
theorem mem_keys_escaped_iff (hkey : name ∈ Entries.keys es) :
    name ∈ Entries.keys (Entries.ofList (es.map (Prod.map escapeKey (mapKeys escapeKey)))) ↔ IsSafe name := by
  rw [mem_keys_mapKeys, List.mem_map]
  constructor
  · rintro ⟨key, -, rfl⟩
    exact isSafe_escapeKey key
  · exact fun h => ⟨name, hkey, escapeKey_eq_self_iff.2 h⟩

/-- A stored document binds the escaped form of each key, to what was bound last to a key of this form, but the filter
document of a predicate on a field has the name as it is for its only key. These are the same, and the test for the
field finds it in the stored document as it does in the document itself, if and only if the name is safe. -/
theorem filterDocument_reaches_iff (hname : Path.IsName name) (hkey : name ∈ Entries.keys es) :
    ∃ stored filter, escape (.document es) = .document stored ∧ filterDocument (.present name true) = .ok filter ∧
      escapeKey name ∈ Entries.keys stored ∧
      stored.lookup (escapeKey name) = (Value.latest escapeKey (escapeKey name) es).map (escape ·.2) ∧
      (∀ e d, e.OnField name → filterDocument e = .ok d →
        Entries.keys d = [name] ∧ (Entries.keys d = [escapeKey name] ↔ IsSafe name)) ∧
      (Expr.present name true).eval (.document es) = .ok true ∧
      (matches? (.document stored) filter = some true ↔ IsSafe name) := by
  have hstored : escapeKey name ∈ (Entries.keys es).map escapeKey := List.mem_map_of_mem hkey
  refine ⟨_, _, mapKeys_entries es, rfl, mem_keys_mapKeys.2 hstored, lookup_mapKeys es _, fun e d he hd => ?_, ?_, ?_⟩
  · have hkeys := keys_filterDocument he hd
    refine ⟨hkeys, ?_⟩
    rw [hkeys, List.singleton_inj, eq_comm, escapeKey_eq_self_iff]
  · rw [Expr.eval, Value.lookup_name hname, Entries.lookup_isSome_iff.2 hkey]
    rfl
  · rw [matches?_present_iff, Value.lookup_name hname, Entries.lookup_isSome_iff, mem_keys_escaped_iff hkey,
      and_iff_right_of_imp not_isOperator]

/-- A name with a special character inside of it, and one without. -/
theorem filterDocument_reaches_price :
    let es : Document := [("price$", .int32 10), ("name", .string "a.b")]
    (∃ stored filter, escape (.document es) = .document stored ∧ filterDocument (.present "price$" true) = .ok filter ∧
      matches? (.document stored) filter ≠ some true) ∧
    ∃ stored filter, escape (.document es) = .document stored ∧ filterDocument (.present "name" true) = .ok filter ∧
      matches? (.document stored) filter = some true := by
  intro es
  constructor
  · have hkey : "price$" ∈ Entries.keys es := by decide
    obtain ⟨stored, filter, hs, hf, -, -, -, -, hiff⟩ := filterDocument_reaches_iff (by decide) hkey
    have hunsafe : ¬ IsSafe "price$" := fun h => h '$' (by decide) (by decide)
    exact ⟨stored, filter, hs, hf, fun h => hunsafe (hiff.1 h)⟩
  · have hkey : "name" ∈ Entries.keys es := by decide
    obtain ⟨stored, filter, hs, hf, -, -, -, -, hiff⟩ := filterDocument_reaches_iff (by decide) hkey
    have hsafe : IsSafe "name" := escapeKey_eq_self_iff.1 rfl
    exact ⟨stored, filter, hs, hf, hiff.2 hsafe⟩

/-- A field is not always named as it is stored. -/
theorem not_filterDocument_reaches : ¬ ∀ (name : String) (es stored filter : Document), Path.IsName name →
    name ∈ Entries.keys es → escape (.document es) = .document stored →
      filterDocument (.present name true) = .ok filter →
        Entries.keys filter = [escapeKey name] ∧ matches? (.document stored) filter = some true := by
  intro h
  have hstored : escape (.document [("price$", .int32 10)]) = .document [("price__dollar__", .int32 10)] := rfl
  have hfilter : filterDocument (.present "price$" true) =
      .ok [("price$", .document [("$exists", .boolean true)])] := rfl
  obtain ⟨hkeys, -⟩ := h "price$" _ _ _ (by decide) (by decide) hstored hfilter
  exact absurd hkeys (by decide)

end Mongo

end Dossier
