/-
The repository of items. Nothing that operations put into the document of an item marks it as active:
there is no entry for that at first, and a soft deletion puts a false one there.
-/
import Dossier.Proofs.Entity.Patchable
import Dossier.Proofs.Repository.Call

namespace Dossier

/-- The repository of items under a configuration. -/
def Item.repository (config : Config) : Repository Item := ⟨config, Item.registry⟩

/-- A document in which a flag is not set to true. -/
def Value.Unmarked (key : String) (v : Value) : Prop :=
  ∃ es, v = .document es ∧ (es.lookup key = none ∨ es.lookup key = some (.boolean false))

theorem Value.Unmarked.not_holds {key : String} {v : Value} (hk : Path.IsName key) (h : v.Unmarked key) :
    (Expr.eq key (.boolean true)).holds v = false := by
  obtain ⟨es, rfl, hl⟩ := h
  rw [Expr.holds_eq hk]
  rcases hl with hl | hl <;> rw [hl] <;> simp [Comparand.ofValue, Comparand.hits, Comparand.same]

namespace Item

open Repository

variable {config : Config} {allowed : Call Item → Prop} {s : State} {row : Row}

theorem idKey_not_registered : idKey ∉ (repository config).registry.names :=
  Patchable.idKey_not_registered (E := Item)

theorem keptByWrites_unmarked (hact : config.activeField = "active") :
    (repository config).KeptByWrites fun _ doc => doc.Unmarked "active" where
  entity i _ _ := ⟨i.document, toValue_eq i, Or.inl (by rw [lookup_document]; rfl)⟩
  properties u names values hl id doc hd := by
    obtain ⟨es, rfl, hflag⟩ := hd
    refine ⟨Entries.insertAll es values, rfl, ?_⟩
    rwa [Entries.lookup_insertAll_of_not_mem fun hm => ?_]
    have hreg := Registry.keys_readAll hl hm
    change "active" ∈ registry.names at hreg
    rw [names_registry] at hreg
    revert hreg
    decide
  flag id doc hd := by
    obtain ⟨es, rfl, -⟩ := hd
    refine ⟨Entries.insert config.activeField (.boolean false) es, rfl, Or.inr ?_⟩
    rw [Entries.lookup_insert, if_pos hact.symm]
  record record id h := ⟨record.document, record.toValue_eq, Or.inl (by rw [ChangeRecord.lookup_document]; rfl)⟩

/-- No stored item is marked as active. -/
theorem unmarked (hact : config.activeField = "active") (h : Reachable (repository config) allowed s)
    (hr : row ∈ s.store.rows (Stored.collection Item)) : row.doc.Unmarked "active" :=
  h.rows idKey_not_registered (keptByWrites_unmarked hact) row hr

/-- The state in which one item has been created. -/
def oneStored : State :=
  Call.afterAll (repository {}) { ids := { stream := fun n => .ofNat (n + 1) } }
    [.write (.save { name := "a" }) { user := "alice", timestamp := 1000 }]

theorem reachable_oneStored : Reachable (repository {}) (fun _ => True) oneStored :=
  (Reachable.empty _).run (fun _ _ => trivial) (by decide +kernel)

end Item

end Dossier
