/-
Comparing two versions: the changes are the compared properties that differ, in order, each with
both of its values as they are rendered, and comparing fails only where a value cannot be rendered.
-/
import Dossier.Diff
import Dossier.Proofs.Action
import Dossier.Proofs.Value.Same

namespace Dossier.Differ

variable {d : Differ} {old new : Document} {keys : List String} {changes : List PropertyChange} {key : String}

/-! ## Values under a key -/

theorem valueAt_congr {a b : Document} (h : a.lookup key = b.lookup key) : valueAt a key = valueAt b key := by
  unfold valueAt
  rw [h]

theorem valueAt_text {doc : Document} {text : Option String} (h : doc.lookup key = text.map .string) :
    valueAt doc key = text.map .string := by
  unfold valueAt
  rw [h]
  cases text <;> rfl

theorem agree_texts {a b : Option String} (h : agree (a.map .string) (b.map .string) = true) : a = b := by
  cases a <;> cases b <;> simp_all [agree, Value.same]

/-- What a document that equals itself holds under a key equals itself. -/
theorem agree_self_of_same {doc : Document} (h : (Value.document doc).same (.document doc) = true) (key : String) :
    agree (valueAt doc key) (valueAt doc key) = true := by
  cases hv : valueAt doc key with
  | none => rfl
  | some v =>
    have hl : doc.lookup key = some v := (Option.filter_eq_some_iff.1 hv).1
    rw [Value.same, Bool.and_eq_true] at h
    obtain ⟨w, hw, hsame⟩ := Value.sameEntries_iff.1 h.2 (key, v) (Entries.mem_of_lookup hl)
    rw [hl] at hw
    cases hw
    exact hsame

/-! ## Changes -/

/-- Whether two versions differ under a key that is compared. -/
def differs (d : Differ) (old new : Document) (key : String) : Bool :=
  !d.isIdentity key && !agree (valueAt old key) (valueAt new key)

/-- A change with both values as they are rendered. -/
structure Renders (d : Differ) (old new : Document) (change : PropertyChange) : Prop where
  before : d.renderSide (valueAt old change.property) = .ok change.oldValue
  after : d.renderSide (valueAt new change.property) = .ok change.newValue

theorem change?_ok {change : Option PropertyChange} (h : d.change? old new key = .ok change) :
    change.map (·.property) = (if d.differs old new key then some key else none) ∧
      ∀ c ∈ change, d.Renders old new c := by
  unfold change? at h
  unfold differs
  dsimp only at h
  split at h
  · rename_i hs
    cases h
    rw [← Bool.not_or, hs]
    exact ⟨rfl, nofun⟩
  · rename_i hs
    obtain ⟨before, hb, h⟩ := except_bind_ok h
    obtain ⟨after, ha, h⟩ := except_bind_ok h
    cases h
    rw [← Bool.not_or, Bool.eq_false_iff.2 hs]
    exact ⟨rfl, fun c hc => by cases hc; exact ⟨hb, ha⟩⟩

theorem changesOf_ok : ∀ {keys : List String} {changes : List PropertyChange},
    d.changesOf old new keys = .ok changes →
      changes.map (·.property) = keys.filter (d.differs old new) ∧ ∀ c ∈ changes, d.Renders old new c
  | [], changes, h => by cases h; exact ⟨rfl, nofun⟩
  | key :: keys, changes, h => by
    obtain ⟨change, hc, h⟩ := except_bind_ok h
    obtain ⟨more, hm, h⟩ := except_bind_ok h
    cases h
    obtain ⟨hp, hr⟩ := change?_ok hc
    obtain ⟨hps, hrs⟩ := changesOf_ok hm
    constructor
    · rw [List.map_append, hps, List.filter_cons, ← Option.toList_map, hp]
      split <;> rfl
    · intro c hc
      rcases List.mem_append.1 hc with hc | hc
      · exact hr c (Option.mem_toList.1 hc)
      · exact hrs c hc

/-- Comparing fails only where a value cannot be rendered. -/
theorem changesOf_error {fault : Fault} : ∀ {keys : List String}, d.changesOf old new keys = .error fault →
    ∃ key ∈ keys, d.differs old new key = true ∧
      (d.renderSide (valueAt old key) = .error fault ∨ d.renderSide (valueAt new key) = .error fault)
  | key :: keys, h => by
    unfold changesOf at h
    cases hc : d.change? old new key with
    | ok change =>
      rw [hc] at h
      cases hm : d.changesOf old new keys with
      | ok more => rw [hm] at h; cases h
      | error fault' =>
        rw [hm] at h
        cases h
        obtain ⟨k, hk, hd⟩ := changesOf_error hm
        exact ⟨k, List.mem_cons_of_mem _ hk, hd⟩
    | error fault' =>
      rw [hc] at h
      cases h
      refine ⟨key, List.mem_cons_self .., ?_⟩
      unfold change? at hc
      unfold differs
      dsimp only at hc
      split at hc
      · cases hc
      · rename_i hs
        rw [← Bool.not_or, Bool.eq_false_iff.2 hs]
        refine ⟨rfl, ?_⟩
        cases hb : d.renderSide (valueAt old key) with
        | error f => rw [hb] at hc; cases hc; exact Or.inl rfl
        | ok before =>
          rw [hb] at hc
          cases ha : d.renderSide (valueAt new key) with
          | error f => rw [ha] at hc; cases hc; exact Or.inr rfl
          | ok after => rw [ha] at hc; cases hc

/-- Without a difference nothing is rendered, and there are no changes. -/
theorem changesOf_nil : ∀ {keys : List String}, (∀ key ∈ keys, d.differs old new key = false) →
    d.changesOf old new keys = .ok []
  | [], _ => rfl
  | key :: keys, h => by
    rw [List.forall_mem_cons] at h
    have hkey : d.change? old new key = .ok none := by
      have hd := h.1
      unfold differs at hd
      rw [← Bool.not_or, Bool.not_eq_false'] at hd
      unfold change?
      exact if_pos hd
    unfold changesOf
    rw [hkey, changesOf_nil h.2]
    rfl

/-! ## Comparing whole versions -/

theorem compared_nodup (ho : (Entries.keys old).Nodup) (hn : (Entries.keys new).Nodup) :
    (compared old new none).Nodup := by
  refine List.nodup_append.2 ⟨ho, hn.filter _, fun a ha b hb => ?_⟩
  rw [List.mem_filter, Entries.contains_eq, Bool.not_eq_true', decide_eq_false_iff_not] at hb
  exact fun he => hb.2 (he ▸ ha)

theorem mem_compared : key ∈ compared old new none ↔ key ∈ Entries.keys old ∨ key ∈ Entries.keys new := by
  unfold compared
  rw [List.mem_append, List.mem_filter, Entries.contains_eq, Bool.not_eq_true', decide_eq_false_iff_not]
  tauto

/-- Versions differ only under keys that one of them has. -/
theorem mem_compared_of_differs (h : d.differs old new key = true) : key ∈ compared old new none := by
  by_contra hm
  rw [mem_compared, not_or, ← Entries.lookup_eq_none_iff, ← Entries.lookup_eq_none_iff] at hm
  unfold differs valueAt at h
  rw [hm.1, hm.2] at h
  simp [agree] at h

/-- There are no changes if and only if the versions differ nowhere. -/
theorem diffDocuments_nil_iff :
    d.diffDocuments old new none = .ok [] ↔ ∀ key, d.differs old new key = false := by
  refine ⟨fun h key => ?_, fun h => changesOf_nil fun key _ => h key⟩
  have hp := (changesOf_ok h).1.symm
  rw [List.map_nil, List.filter_eq_nil_iff] at hp
  rw [← Bool.not_eq_true]
  exact fun hd => hp key (mem_compared_of_differs hd) hd

/-- Changes that say exactly how two versions differ: one for each key under which they do, with both values. -/
structure Describes (d : Differ) (before after : Document) (changes : List PropertyChange) : Prop where
  nodup : (changes.map (·.property)).Nodup
  complete : ∀ key, key ∈ changes.map (·.property) ↔ d.differs before after key = true
  rendered : ∀ change ∈ changes, d.Renders before after change

theorem diffDocuments_ok (ho : (Entries.keys old).Nodup) (hn : (Entries.keys new).Nodup)
    (h : d.diffDocuments old new none = .ok changes) : d.Describes old new changes := by
  obtain ⟨hp, hr⟩ := changesOf_ok h
  refine ⟨hp ▸ (compared_nodup ho hn).filter _, fun key => ?_, hr⟩
  rw [hp, List.mem_filter]
  exact ⟨And.right, fun hd => ⟨mem_compared_of_differs hd, hd⟩⟩

/-- Identity fields do not matter. -/
theorem Describes.of_valueAt {before after : Document} (h : d.Describes old new changes)
    (hb : ∀ key, d.isIdentity key = false → valueAt before key = valueAt old key)
    (ha : ∀ key, d.isIdentity key = false → valueAt after key = valueAt new key) :
      d.Describes before after changes := by
  have hd : ∀ key, d.differs before after key = d.differs old new key := by
    intro key
    unfold differs
    cases hi : d.isIdentity key with
    | true => rfl
    | false => rw [hb key hi, ha key hi]
  refine ⟨h.nodup, fun key => by rw [h.complete, hd], fun change hc => ?_⟩
  have hi : d.isIdentity change.property = false := by
    have hdiff := (h.complete change.property).1 (List.mem_map_of_mem hc)
    unfold differs at hdiff
    rw [Bool.and_eq_true, Bool.not_eq_true'] at hdiff
    exact hdiff.1
  obtain ⟨h1, h2⟩ := h.rendered change hc
  exact ⟨by rw [hb _ hi, h1], by rw [ha _ hi, h2]⟩

theorem describes_nothing (h : ∀ key, agree (valueAt old key) (valueAt new key) = true) : d.Describes old new [] :=
  ⟨List.nodup_nil, fun key => by simp [differs, h key], nofun⟩

end Dossier.Differ
