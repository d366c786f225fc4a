/-
New versions of stored entities. Identity fields keep what the stored version holds, whether it is
overwritten or merged into, and the changes of a version say under which keys it differs.
-/
import Dossier.Proofs.Diff
import Dossier.Proofs.Entity.Customer
import Dossier.Proofs.Entity.Set
import Dossier.Repository.Import

namespace Dossier

namespace Repository

variable {identityFields : List String} {stored incoming : Document} {key : String}

theorem lookup_keepIdentity (stored : Document) (key : String) :
    ∀ (identityFields : List String) (incoming : Document),
    (keepIdentity identityFields stored incoming).lookup key =
      if key ∈ identityFields then stored.lookup key else incoming.lookup key
  | [], _ => by simp [keepIdentity]
  | field :: identityFields, incoming => by
    unfold keepIdentity
    rw [List.foldl_cons]
    change (keepIdentity identityFields stored _).lookup key = _
    rw [lookup_keepIdentity stored key identityFields]
    by_cases hm : key ∈ identityFields
    · rw [if_pos hm, if_pos (List.mem_cons_of_mem _ hm)]
    rw [if_neg hm]
    by_cases hk : key = field
    · subst hk
      rw [if_pos (List.mem_cons_self ..)]
      split
      · rename_i v hv; rw [Entries.lookup_insert_self, hv]
      · rename_i hv; rw [Entries.lookup_erase, if_pos rfl, hv]
    · rw [if_neg (by simp [hk, hm])]
      split
      · rw [Entries.lookup_insert, if_neg hk]
      · rw [Entries.lookup_erase, if_neg hk]

/-- Merging takes over what is not null, and leaves identity fields alone. -/
theorem lookup_mergeDocuments : ∀ (incoming stored : Document), (Entries.keys incoming).Nodup →
    (mergeDocuments identityFields stored incoming).lookup key =
      if key == "_id" || identityFields.contains key then stored.lookup key
      else match incoming.lookup key with
        | none | some .null => stored.lookup key
        | some v => some v
  | [], stored, _ => by
    unfold mergeDocuments
    split <;> rfl
  | (field, v) :: incoming, stored, hn => by
    obtain ⟨hf, hn⟩ := List.nodup_cons.1 hn
    unfold mergeDocuments
    rw [List.foldl_cons]
    change (mergeDocuments identityFields _ incoming).lookup key = _
    rw [lookup_mergeDocuments incoming _ hn, List.lookup_cons]
    by_cases hk : key = field
    · subst hk
      rw [Entries.lookup_eq_none_iff.2 hf]
      cases key == "_id" || identityFields.contains key <;> cases v <;> simp [Entries.lookup_insert]
    · rw [beq_false_of_ne hk]
      -- the entry is another one, so that it does not matter what becomes of it
      have hs : ∀ w, (Entries.insert field w stored).lookup key = stored.lookup key := fun w => by
        rw [Entries.lookup_insert, if_neg hk]
      cases field == "_id" || identityFields.contains field <;> cases v <;> simp [hs]

/-- Merging what is there already changes nothing. -/
theorem mergeDocuments_eq_self : ∀ {incoming : Document},
    (∀ entry ∈ incoming, stored.lookup entry.1 = some entry.2) → mergeDocuments identityFields stored incoming = stored
  | [], _ => rfl
  | (field, v) :: incoming, h => by
    rw [List.forall_mem_cons] at h
    unfold mergeDocuments
    rw [List.foldl_cons]
    change mergeDocuments identityFields _ incoming = stored
    cases v with
    | null => exact mergeDocuments_eq_self h.2
    | _ =>
      dsimp only
      rw [Entries.insert_of_lookup h.1, ite_self]
      exact mergeDocuments_eq_self h.2

/-- The changes of a version are told from the documents that the entities are kept as. -/
theorem changes_entries {E : Type} [Entity E] [LawfulEntity E] (r : Repository E) (old new : E)
    (only : Option (List String)) :
    r.changes old new only = r.differ.diffDocuments (Stored.entries old) (Stored.entries new) only := by
  unfold changes
  rw [toDocument_entries, toDocument_entries]
  rfl

end Repository

namespace Customer

open Repository

variable {r : Repository Customer} {existing incoming updated : Customer}

theorem toDocument_eq (c : Customer) : Stored.toDocument c = .ok c.document := by
  unfold Stored.toDocument
  rw [show Stored.toValue c = .document c.document from toValue_eq c]

theorem changes_eq (r : Repository Customer) (old new : Customer) (only : Option (List String)) :
    r.changes old new only = r.differ.diffDocuments old.document new.document only := by
  unfold changes
  rw [toDocument_eq, toDocument_eq]
  rfl

/-- A customer read from a document with the identifier of another one has that identifier. -/
theorem id_of_lookup {doc : Document} (h : Stored.ofValue (.document doc) = .ok updated)
    (hl : doc.lookup "id" = existing.document.lookup "id") : updated.id = existing.id := by
  obtain ⟨_, hd, hr⟩ := ofValue?_eq_some_iff.1 (Stored.ofValue_ok h)
  cases hd
  exact Option.some.inj (hr.id.symm.trans ((Field.optional_congr hl).trans (reads_document existing).id))

/-- A new version keeps the identifier if that is an identity field. -/
theorem id_of_version (hid : "id" ∈ r.config.identityFields)
    (h : r.overwritten existing incoming = .ok updated ∨ r.merged existing incoming = .ok updated) :
    updated.id = existing.id := by
  rcases h with h | h
  · unfold overwritten at h
    rw [toDocument_eq, toDocument_eq] at h
    exact id_of_lookup h (by rw [lookup_keepIdentity, if_pos hid])
  · unfold merged at h
    rw [toDocument_eq, toDocument_eq] at h
    refine id_of_lookup h ?_
    rw [lookup_mergeDocuments _ _ (keys_document_nodup incoming), if_pos (by simpa using hid)]

theorem balance_of_lookup {doc : Document} (h : Stored.ofValue (.document doc) = .ok updated)
    (hl : doc.lookup "balance" = some (.double incoming.balance)) : updated.balance = incoming.balance := by
  obtain ⟨_, hd, hr⟩ := ofValue?_eq_some_iff.1 (Stored.ofValue_ok h)
  cases hd
  have hb := hr.balance
  unfold Field.required at hb
  rw [hl] at hb
  exact (Option.some.inj hb).symm

/-- A new version takes over the balance if that is no identity field. -/
theorem balance_of_version (hb : "balance" ∉ r.config.identityFields)
    (h : r.overwritten existing incoming = .ok updated ∨ r.merged existing incoming = .ok updated) :
    updated.balance = incoming.balance := by
  have hl : incoming.document.lookup "balance" = some (.double incoming.balance) := by rw [lookup_document]; rfl
  rcases h with h | h
  · unfold overwritten at h
    rw [toDocument_eq, toDocument_eq] at h
    exact balance_of_lookup h (by rw [lookup_keepIdentity, if_neg hb, hl])
  · unfold merged at h
    rw [toDocument_eq, toDocument_eq] at h
    refine balance_of_lookup h ?_
    rw [lookup_mergeDocuments _ _ (keys_document_nodup incoming), if_neg (by simpa using hb), hl]

end Customer

end Dossier
