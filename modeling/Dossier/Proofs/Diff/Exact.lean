/-
What comparing two versions answers. It fails if and only if a compared property that differs has a value that cannot
be shown, on whichever side, and otherwise lists the properties that differ, in the order in which they are compared.
Compared the other way round, two versions differ in the same properties, with the values exchanged.
-/
import Dossier.Proofs.Diff

namespace Dossier

/-- A change the other way round. -/
def PropertyChange.swapped (change : PropertyChange) : PropertyChange :=
  ⟨change.property, change.newValue, change.oldValue⟩

namespace Differ

variable {d : Differ} {old new : Document} {keys : List String} {changes : List PropertyChange} {key : String}

/-! ## Failing -/

/-- Whether one of the two values under a key cannot be shown. -/
def Rejects (d : Differ) (old new : Document) (key : String) : Prop :=
  ∃ v fault, (valueAt old key = some v ∨ valueAt new key = some v) ∧ d.render v = .error fault

theorem renderSide_error_iff {side : Option Value} {fault : Fault} :
    d.renderSide side = .error fault ↔ ∃ v, side = some v ∧ d.render v = .error fault := by
  cases side <;> simp [renderSide]

theorem rejects_iff : d.Rejects old new key ↔
    ∃ fault, d.renderSide (valueAt old key) = .error fault ∨ d.renderSide (valueAt new key) = .error fault := by
  simp only [renderSide_error_iff, Rejects]
  constructor
  · rintro ⟨v, fault, hv | hv, hr⟩
    · exact ⟨fault, .inl ⟨v, hv, hr⟩⟩
    · exact ⟨fault, .inr ⟨v, hv, hr⟩⟩
  · rintro ⟨fault, ⟨v, hv, hr⟩ | ⟨v, hv, hr⟩⟩
    · exact ⟨v, fault, .inl hv, hr⟩
    · exact ⟨v, fault, .inr hv, hr⟩

theorem Renders.not_rejects {change : PropertyChange} (h : d.Renders old new change) :
    ¬ d.Rejects old new change.property := by
  rw [rejects_iff]
  rintro ⟨fault, hb | ha⟩
  · cases h.before.symm.trans hb
  · cases h.after.symm.trans ha

/-- Each property that differs is shown, so one that cannot be shown stops the comparison wherever it stands. -/
theorem changesOf_error_iff : (∃ fault, d.changesOf old new keys = .error fault) ↔
    ∃ key ∈ keys, d.differs old new key = true ∧ d.Rejects old new key := by
  constructor
  · rintro ⟨fault, h⟩
    obtain ⟨key, hk, hd, hr⟩ := changesOf_error h
    exact ⟨key, hk, hd, rejects_iff.2 ⟨fault, hr⟩⟩
  · rintro ⟨key, hk, hd, hr⟩
    cases h : d.changesOf old new keys with
    | error fault => exact ⟨fault, rfl⟩
    | ok changes =>
      obtain ⟨hp, hrs⟩ := changesOf_ok h
      have hm : key ∈ changes.map (·.property) := hp ▸ List.mem_filter.2 ⟨hk, hd⟩
      obtain ⟨change, hc, rfl⟩ := List.mem_map.1 hm
      exact absurd hr (hrs change hc).not_rejects

/-! ## The other way round -/

theorem agree_comm {a b : Option Value} (ha : ∀ v ∈ a, v.Proper) (hb : ∀ v ∈ b, v.Proper) : agree a b = agree b a := by
  cases a with
  | none => cases b <;> rfl
  | some v =>
    cases b with
    | none => rfl
    | some w => exact Value.same_comm (ha v rfl) (hb w rfl)

theorem proper_valueAt {doc : Document} (h : (Value.document doc).Proper) : ∀ v ∈ valueAt doc key, v.Proper := by
  intro v hv
  have hl : doc.lookup key = some v := (Option.filter_eq_some_iff.1 hv).1
  exact h.entry _ (Entries.mem_of_lookup hl)

theorem differs_comm (ho : (Value.document old).Proper) (hn : (Value.document new).Proper) (key : String) :
    d.differs old new key = d.differs new old key := by
  unfold differs
  rw [agree_comm (proper_valueAt ho) (proper_valueAt hn)]

theorem rejects_comm : d.Rejects old new key ↔ d.Rejects new old key := by
  simp only [Rejects, or_comm]

theorem mem_compared_comm : key ∈ compared old new none ↔ key ∈ compared new old none := by
  rw [mem_compared, mem_compared, or_comm]

theorem Renders.swapped {change : PropertyChange} (h : d.Renders old new change) : d.Renders new old change.swapped :=
  ⟨h.after, h.before⟩

theorem Renders.unique {c c' : PropertyChange} (h : d.Renders old new c) (h' : d.Renders old new c')
    (hp : c.property = c'.property) : c = c' := by
  have hb := h.before.symm.trans (hp ▸ h'.before)
  have ha := h.after.symm.trans (hp ▸ h'.after)
  cases c
  cases c'
  simp_all

theorem Describes.swapped (hd : ∀ key, d.differs old new key = d.differs new old key)
    (h : d.Describes old new changes) : d.Describes new old (changes.map PropertyChange.swapped) := by
  have hp : (changes.map PropertyChange.swapped).map (·.property) = changes.map (·.property) := List.map_map
  refine ⟨hp ▸ h.nodup, fun key => by rw [hp, h.complete, hd], fun c hc => ?_⟩
  obtain ⟨change, hm, rfl⟩ := List.mem_map.1 hc
  exact (h.rendered change hm).swapped

theorem Describes.subset {changes' : List PropertyChange} (h : d.Describes old new changes)
    (h' : d.Describes old new changes') : changes ⊆ changes' := by
  intro c hc
  have hm : c.property ∈ changes'.map (·.property) :=
    (h'.complete _).2 ((h.complete _).1 (List.mem_map_of_mem hc))
  obtain ⟨c', hc', hp⟩ := List.mem_map.1 hm
  cases (h'.rendered c' hc').unique (h.rendered c hc) hp
  exact hc'

/-- Only the order of the changes is left open. -/
theorem Describes.perm {changes' : List PropertyChange} (h : d.Describes old new changes)
    (h' : d.Describes old new changes') : changes.Perm changes' :=
  (List.perm_ext_iff_of_nodup h.nodup.of_map h'.nodup.of_map).2 fun _ =>
    ⟨fun hc => h.subset h' hc, fun hc => h'.subset h hc⟩

/-- The comparison the other way round fails with this one. -/
theorem diffDocuments_error_comm (ho : (Value.document old).Proper) (hn : (Value.document new).Proper) :
    (∃ fault, d.diffDocuments old new none = .error fault) ↔
      ∃ fault, d.diffDocuments new old none = .error fault := by
  unfold diffDocuments
  rw [changesOf_error_iff, changesOf_error_iff]
  refine exists_congr fun key => ?_
  rw [mem_compared_comm, differs_comm ho hn, rejects_comm]

theorem diffDocuments_swapped (ho : (Value.document old).Proper) (hn : (Value.document new).Proper)
    (h : d.diffDocuments old new none = .ok changes) :
    ∃ back, d.diffDocuments new old none = .ok back ∧ back.Perm (changes.map PropertyChange.swapped) := by
  have hthere := (diffDocuments_ok ho.keys_nodup hn.keys_nodup h).swapped (differs_comm ho hn)
  cases hb : d.diffDocuments new old none with
  | error fault =>
    obtain ⟨fault', hf⟩ := (diffDocuments_error_comm hn ho).1 ⟨fault, hb⟩
    cases h.symm.trans hf
  | ok back => exact ⟨back, rfl, (diffDocuments_ok hn.keys_nodup ho.keys_nodup hb).perm hthere⟩

/-! ## Exactness -/

/-- Comparing two versions is exact. It fails if and only if a property that differs has a value that cannot be shown;
otherwise the changes are the properties that differ, in the order in which they are compared, each with both of its
values. With all properties compared none is named twice, and the other way round both values of each are exchanged. -/
theorem diffDocuments_exact (d : Differ) (old new : Document) (only : Option (List String)) :
    ((∃ fault, d.diffDocuments old new only = .error fault) ↔
      ∃ key ∈ compared old new only, d.differs old new key = true ∧ d.Rejects old new key) ∧
    (∀ changes, d.diffDocuments old new only = .ok changes →
      changes.map (·.property) = (compared old new only).filter (d.differs old new) ∧
        ∀ change ∈ changes, d.Renders old new change) ∧
    ((Value.document old).Proper → (Value.document new).Proper →
      ∀ changes, d.diffDocuments old new none = .ok changes → (changes.map (·.property)).Nodup ∧
        ∃ back, d.diffDocuments new old none = .ok back ∧ back.Perm (changes.map PropertyChange.swapped)) := by
  refine ⟨changesOf_error_iff, fun changes h => changesOf_ok h, fun ho hn changes h => ?_⟩
  exact ⟨(diffDocuments_ok ho.keys_nodup hn.keys_nodup h).nodup, diffDocuments_swapped ho hn h⟩

def firstVersion : Document :=
  [("_id", .int32 1), ("name", .string "Ann"), ("note", .null), ("age", .int32 41)]

def secondVersion : Document :=
  [("age", .int32 42), ("city", .string "Rome"), ("name", .string "Bob"), ("_id", .int32 2)]

theorem versions_compared : (Value.document firstVersion).Proper ∧ (Value.document secondVersion).Proper ∧
    ∃ changes back, ({} : Differ).diffDocuments firstVersion secondVersion none = .ok changes ∧
      ({} : Differ).diffDocuments secondVersion firstVersion none = .ok back ∧
        changes.map (·.property) = ["name", "age", "city"] ∧ (changes.map (·.property)).Nodup ∧
          back.Perm (changes.map PropertyChange.swapped) := by
  have ho : (Value.document firstVersion).Proper := .flat (by decide) (by decide)
  have hn : (Value.document secondVersion).Proper := .flat (by decide) (by decide)
  have h : ({} : Differ).diffDocuments firstVersion secondVersion none =
      .ok [⟨"name", some "Ann", some "Bob"⟩, ⟨"age", some "41", some "42"⟩, ⟨"city", none, some "Rome"⟩] := by
    decide +kernel
  obtain ⟨hnodup, back, hb, hp⟩ := (diffDocuments_exact {} firstVersion secondVersion none).2.2 ho hn _ h
  exact ⟨ho, hn, _, back, h, hb, rfl, hnodup, hp⟩

end Differ

end Dossier
