/-
A version compared with itself. NaN equals nothing, not even itself, so a document differs from itself in exactly those
properties that hold NaN at some depth; without one there are no changes.
-/
import Dossier.Proofs.Diff.Exact

namespace Dossier.Differ

variable {d : Differ} {doc : Document} {entry : String × Value}

/-- No property that is compared holds NaN. -/
def Numeric (d : Differ) (doc : Document) : Prop :=
  ∀ entry ∈ doc, d.isIdentity entry.1 = false → entry.2.hasNaN = false

instance (d : Differ) (doc : Document) : Decidable (d.Numeric doc) :=
  inferInstanceAs (Decidable (∀ entry ∈ doc, d.isIdentity entry.1 = false → entry.2.hasNaN = false))

theorem compared_self (doc : Document) : compared doc doc none = Entries.keys doc := by
  have hnone : (Entries.keys doc).filter (fun key => !Entries.contains key doc) = [] := by
    rw [List.filter_eq_nil_iff]
    intro key hk
    simp [Entries.contains_eq, hk]
  unfold compared
  rw [hnone, List.append_nil]

theorem valueAt_of_hasNaN (h : (Value.document doc).Proper) (he : entry ∈ doc) (hnan : entry.2.hasNaN = true) :
    valueAt doc entry.1 = some entry.2 := by
  have hsome : entry.2.isNothing = false := by
    cases hv : entry.2 with
    | null | undefined => rw [hv] at hnan; cases hnan
    | _ => rfl
  unfold valueAt
  rw [Entries.lookup_of_mem h.keys_nodup he, Option.filter_some, hsome]
  rfl

/-- What a document holds under a key agrees with itself unless it holds NaN. -/
theorem agree_entry (h : (Value.document doc).Proper) (he : entry ∈ doc) :
    agree (valueAt doc entry.1) (valueAt doc entry.1) = !entry.2.hasNaN := by
  have hself := Value.same_self_iff (h.entry entry he)
  cases hnan : entry.2.hasNaN with
  | true =>
    rw [valueAt_of_hasNaN h he hnan]
    rw [hnan] at hself
    exact Bool.eq_false_iff.2 fun hsame => Bool.noConfusion (hself.1 hsame)
  | false =>
    unfold valueAt
    rw [Entries.lookup_of_mem h.keys_nodup he, Option.filter_some]
    split
    · exact hself.2 hnan
    · rfl

theorem differs_entry (h : (Value.document doc).Proper) (he : entry ∈ doc) :
    d.differs doc doc entry.1 = (!d.isIdentity entry.1 && entry.2.hasNaN) := by
  rw [differs, agree_entry h he, Bool.not_not]

/-- The properties in which a document differs from itself, in order. -/
theorem differing_self (h : (Value.document doc).Proper) :
    (compared doc doc none).filter (d.differs doc doc) =
      Entries.keys (doc.filter fun entry => !d.isIdentity entry.1 && entry.2.hasNaN) := by
  rw [compared_self, Entries.keys, List.filter_map]
  exact congrArg Entries.keys (List.filter_congr fun entry he => differs_entry h he)

theorem diffDocuments_self_nil_iff (h : (Value.document doc).Proper) :
    d.diffDocuments doc doc none = .ok [] ↔ d.Numeric doc := by
  rw [diffDocuments_nil_iff]
  constructor
  · intro hd entry he hi
    have hentry := hd entry.1
    rwa [differs_entry h he, hi, Bool.not_false, Bool.true_and] at hentry
  · intro hnum key
    rw [← Bool.not_eq_true]
    intro hd
    have hm := mem_compared_of_differs hd
    rw [compared_self] at hm
    obtain ⟨entry, he, rfl⟩ := List.mem_map.1 hm
    rw [differs_entry h he, Bool.and_eq_true, Bool.not_eq_true'] at hd
    exact Bool.noConfusion ((hnum entry he hd.1).symm.trans hd.2)

/-- Comparing a document with itself fails if a property that holds NaN cannot be shown, as code with a scope cannot. -/
theorem diffDocuments_self_error_iff (h : (Value.document doc).Proper) :
    (∃ fault, d.diffDocuments doc doc none = .error fault) ↔
      ∃ entry ∈ doc, d.isIdentity entry.1 = false ∧ entry.2.hasNaN = true ∧
        ∃ fault, d.render entry.2 = .error fault := by
  refine changesOf_error_iff.trans ?_
  rw [compared_self]
  constructor
  · rintro ⟨key, hk, hd, v, fault, hv, hr⟩
    obtain ⟨entry, he, rfl⟩ := List.mem_map.1 hk
    rw [differs_entry h he, Bool.and_eq_true, Bool.not_eq_true'] at hd
    rw [or_self, valueAt_of_hasNaN h he hd.2, Option.some.injEq] at hv
    exact ⟨entry, he, hd.1, hd.2, fault, hv ▸ hr⟩
  · rintro ⟨entry, he, hi, hnan, fault, hr⟩
    refine ⟨entry.1, List.mem_map_of_mem he, ?_, entry.2, fault, .inl (valueAt_of_hasNaN h he hnan), hr⟩
    rw [differs_entry h he, hi, hnan]
    rfl

/-- A balance that is NaN is reported as a change from itself to itself. -/
theorem not_unchanged_nan : ¬ ∀ (d : Differ) (doc : Document), (Value.document doc).Proper →
    d.diffDocuments doc doc none = .ok [] := by
  intro h
  have hproper : (Value.document [("balance", .double .nan)]).Proper := .flat (by decide) (by decide)
  have hchanges : ({} : Differ).diffDocuments [("balance", .double .nan)] [("balance", .double .nan)] none =
      .ok [⟨"balance", some "NaN", some "NaN"⟩] := by decide +kernel
  rw [h _ _ hproper] at hchanges
  cases hchanges

end Dossier.Differ
