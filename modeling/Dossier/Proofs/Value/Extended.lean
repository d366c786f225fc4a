/-
Resolving extended notation. What a value in this notation stands for is in it no more: the kinds that
keys with a dollar sign name are plain values, and no such key is left in a document, so that what has
been resolved is resolved to itself, and its documents bind each key once.
-/
import Dossier.Proofs.Value.Same
import Dossier.Value.Field

namespace Dossier.Value

variable {closed : Bool} {v w : Value} {key : String} {done rest : Document}

/-- A value that has been resolved. -/
structure Settled (closed : Bool) (w : Value) : Prop where
  self : resolve? closed w = some w
  proper : w.Proper

theorem Settled.atom (ha : w.isAtom = true) (h : resolve? closed w = some w) : Settled closed w := ⟨h, .atom ha⟩

/-! ## Kinds that are named -/

theorem sortedOptions_idem (options : String) : sortedOptions (sortedOptions options) = sortedOptions options := by
  unfold sortedOptions
  rw [String.toList_ofList, List.mergeSort_of_pairwise]
  exact List.pairwise_mergeSort (fun a b c hab hbc => by simp_all; omega) (fun a b => by simp; omega) _

theorem settled_regex (pattern options : String) : Settled closed (regex pattern (sortedOptions options)) :=
  .atom rfl (by rw [resolve?, sortedOptions_idem])

theorem settled_objectIdOf (h : objectIdOf? v = some w) : Settled closed w := by
  unfold objectIdOf? at h
  split at h
  · obtain ⟨bytes, -, rfl⟩ := Option.map_eq_some_iff.1 h
    exact .atom rfl rfl
  · split at h
    · cases h; exact .atom rfl rfl
    · cases h
  · cases h

theorem settled_instantOf (h : instantOf? v = some w) : Settled closed w := by
  unfold instantOf? at h
  split at h
  · split at h
    · obtain ⟨millis, -, rfl⟩ := Option.map_eq_some_iff.1 h
      exact .atom rfl rfl
    · cases h
  · split at h
    · cases h; exact .atom rfl rfl
    · obtain ⟨millis, -, rfl⟩ := Option.map_eq_some_iff.1 h
      exact .atom rfl rfl

theorem settled_timestampOf (h : timestampOf? v = some w) : Settled closed w := by
  unfold timestampOf? at h
  obtain ⟨parts, -, h⟩ := Option.bind_eq_some_iff.1 h
  obtain ⟨time, -, h⟩ := Option.bind_eq_some_iff.1 h
  obtain ⟨increment, -, h⟩ := Option.bind_eq_some_iff.1 h
  cases h
  exact .atom rfl rfl

theorem settled_regexOf (h : regexOf? v = some w) : Settled closed w := by
  unfold regexOf? at h
  obtain ⟨parts, -, h⟩ := Option.bind_eq_some_iff.1 h
  obtain ⟨pattern, -, h⟩ := Option.bind_eq_some_iff.1 h
  obtain ⟨options, -, h⟩ := Option.bind_eq_some_iff.1 h
  split at h
  · cases h
  · cases h
    exact settled_regex pattern options

theorem settled_binaryOf (h : binaryOf? v = some w) : Settled closed w := by
  unfold binaryOf? at h
  obtain ⟨parts, -, h⟩ := Option.bind_eq_some_iff.1 h
  obtain ⟨text, -, h⟩ := Option.bind_eq_some_iff.1 h
  obtain ⟨bytes, -, h⟩ := Option.bind_eq_some_iff.1 h
  obtain ⟨digits, -, h⟩ := Option.bind_eq_some_iff.1 h
  obtain ⟨subtype, -, h⟩ := Option.bind_eq_some_iff.1 h
  split at h
  · cases h; exact .atom rfl rfl
  · cases h

/-- Every kind that is named is a plain value. -/
theorem settled_named {read : Value → Option Value} (h : namedKinds.lookup key = some read) (hr : read v = some w) :
    Settled closed w := by
  have mapped : ∀ {α : Type} {x : Option α} {f : α → Value}, (∀ a, Settled closed (f a)) →
      x.map f = some w → Settled closed w := by
    intro α x f hf hx
    obtain ⟨a, -, rfl⟩ := Option.map_eq_some_iff.1 hx
    exact hf a
  have constant : ∀ {p : Prop} [Decidable p] {u : Value}, Settled closed u →
      (if p then some u else none) = some w → Settled closed w := by
    intro p _ u hu hx
    split at hx
    · cases hx; exact hu
    · cases hx
  have hm := Entries.mem_of_lookup h
  simp only [namedKinds, List.mem_cons, Prod.mk.injEq, List.not_mem_nil, or_false] at hm
  rcases hm with ⟨-, rfl⟩ | ⟨-, rfl⟩ | ⟨-, rfl⟩ | ⟨-, rfl⟩ | ⟨-, rfl⟩ | ⟨-, rfl⟩ | ⟨-, rfl⟩ | ⟨-, rfl⟩ |
    ⟨-, rfl⟩ | ⟨-, rfl⟩ | ⟨-, rfl⟩ | ⟨-, rfl⟩ | ⟨-, rfl⟩ | ⟨-, rfl⟩ | ⟨-, rfl⟩ | ⟨-, rfl⟩
  · exact settled_objectIdOf hr
  · exact mapped (fun _ => .atom rfl rfl) hr
  · exact mapped (fun _ => .atom rfl rfl) hr
  · exact mapped (fun _ => .atom rfl rfl) hr
  · exact mapped (fun _ => .atom rfl rfl) hr
  · exact mapped (fun _ => .atom rfl rfl) hr
  · exact mapped (fun _ => .atom rfl rfl) hr
  · exact settled_binaryOf hr
  · exact mapped (fun _ => .atom rfl rfl) hr
  · exact settled_timestampOf hr
  · exact settled_regexOf hr
  · cases hr
  · exact settled_instantOf hr
  · exact constant (.atom rfl rfl) hr
  · exact constant (.atom rfl rfl) hr
  · exact constant (.atom rfl rfl) hr

/-! ## Documents -/

/-- A key that names no kind of value. -/
def IsPlainKey (key : String) : Prop := key ≠ codeKey ∧ key ≠ scopeKey ∧ namedKinds.lookup key = none

/-- Entries of a document that has been resolved: under plain keys, each bound once, there are resolved values. -/
structure Resolved (closed : Bool) (es : Document) : Prop where
  nodup : (Entries.keys es).Nodup
  plain : ∀ e ∈ es, IsPlainKey e.1
  settled : ∀ e ∈ es, Settled closed e.2

theorem resolved_nil : Resolved closed [] := ⟨List.nodup_nil, nofun, nofun⟩

theorem Resolved.insert (h : Resolved closed done) (hk : IsPlainKey key) (hv : Settled closed v) :
    Resolved closed (Entries.insert key v done) where
  nodup := Entries.nodup_keys_insert key v h.nodup
  plain e he := by
    rcases Entries.mem_insert he with rfl | he
    · exact hk
    · exact h.plain e he
  settled e he := by
    rcases Entries.mem_insert he with rfl | he
    · exact hv
    · exact h.settled e he

theorem Resolved.not_mem (h : Resolved closed (done ++ (key, v) :: rest)) : key ∉ Entries.keys done := by
  have hn := h.nodup
  rw [Entries.keys, List.map_append, List.nodup_append] at hn
  exact fun hm => hn.2.2 key hm key (List.mem_cons_self ..) rfl

theorem resolveEntries?_resolved : ∀ {rest done : Document}, Resolved closed (done ++ rest) →
    resolveEntries? closed done rest = some (document (done ++ rest))
  | [], done, _ => by rw [resolveEntries?, List.append_nil]
  | [(key, v)], done, h => by
    obtain ⟨hcode, hscope, hnamed⟩ := h.plain (key, v) (by simp)
    have hv : resolve? closed v = some v := (h.settled (key, v) (by simp)).self
    rw [resolveEntries?, if_neg hcode, if_neg hscope, hnamed]
    simp only [hv, Option.map_some, Entries.insert_of_not_mem v h.not_mem]
  | (key, v) :: (next, w) :: rest, done, h => by
    obtain ⟨hcode, hscope, hnamed⟩ := h.plain (key, v) (by simp)
    have hv : resolve? closed v = some v := (h.settled (key, v) (by simp)).self
    rw [resolveEntries?, if_neg hcode, if_neg hscope, hnamed]
    simp only [hv, Option.bind_some, Entries.insert_of_not_mem v h.not_mem]
    rw [resolveEntries?_resolved (by simpa using h), List.append_assoc]
    rfl

theorem Resolved.document (h : Resolved closed done) : Settled closed (document done) where
  self := by
    have hnone : Resolved closed ([] ++ done) := h
    rw [resolve?]
    exact resolveEntries?_resolved hnone
  proper := .document h.nodup fun e he => (h.settled e he).proper

/-! ## Values -/

theorem settled_withScope {code : Value} {scope : Option Value} (hs : ∀ u, scope = some u → Settled closed u)
    (h : withScope? code scope = some w) : Settled closed w := by
  unfold withScope? at h
  obtain ⟨s, -, h⟩ := Option.bind_eq_some_iff.1 h
  obtain ⟨u, hu, h⟩ := Option.bind_eq_some_iff.1 h
  obtain ⟨es, he, h⟩ := Option.bind_eq_some_iff.1 h
  cases h
  have hes := hs u hu
  cases u with
  | document entries =>
    cases he
    refine ⟨?_, .scopedCode s hes.proper.keys_nodup hes.proper.entry⟩
    have hentries : resolveEntries? closed [] es = some (document es) := hes.self
    show withScope? (string s) (resolveEntries? closed [] es) = _
    rw [hentries]
    rfl
  | _ => cases he

mutual

theorem settled_of_resolve? : ∀ {v w : Value}, resolve? closed v = some w → Settled closed w
  | array items, w, h => by
    rw [resolve?] at h
    obtain ⟨ws, hws, rfl⟩ := Option.map_eq_some_iff.1 h
    obtain ⟨hself, hproper⟩ := settled_of_resolveItems? hws
    exact ⟨by rw [resolve?, hself]; rfl, .array hproper⟩
  | document entries, w, h => by
    rw [resolve?] at h
    exact settled_of_resolveEntries? resolved_nil h
  | scopedCode s scope, w, h => by
    rw [resolve?] at h
    exact settled_withScope (fun u hu => settled_of_resolveEntries? resolved_nil hu) h
  | regex pattern options, w, h => by
    rw [resolve?] at h
    cases h
    exact settled_regex pattern options
  | null, w, h | undefined, w, h | minKey, w, h | maxKey, w, h | boolean _, w, h | int32 _, w, h | int64 _, w, h
  | double _, w, h | decimal128 _, w, h | string _, w, h | symbol _, w, h | code _, w, h | dateTime _, w, h
  | timestamp _ _, w, h | objectId _, w, h | binary _ _, w, h => by
    cases h; exact .atom rfl rfl

theorem settled_of_resolveItems? : ∀ {items ws : List Value}, resolveItems? closed items = some ws →
    resolveItems? closed ws = some ws ∧ ∀ w ∈ ws, w.Proper
  | [], ws, h => by cases h; exact ⟨rfl, nofun⟩
  | v :: rest, ws, h => by
    rw [resolveItems?] at h
    obtain ⟨w, hw, h⟩ := Option.bind_eq_some_iff.1 h
    obtain ⟨more, hm, rfl⟩ := Option.map_eq_some_iff.1 h
    have hfirst := settled_of_resolve? hw
    obtain ⟨hself, hproper⟩ := settled_of_resolveItems? hm
    exact ⟨by rw [resolveItems?, hfirst.self, hself]; rfl, List.forall_mem_cons.2 ⟨hfirst.proper, hproper⟩⟩

theorem settled_of_resolveEntries? : ∀ {entries done : Document} {w : Value}, Resolved closed done →
    resolveEntries? closed done entries = some w → Settled closed w
  | [], done, w, hd, h => by
    rw [resolveEntries?] at h
    cases h
    exact hd.document
  | [(key, v)], done, w, hd, h => by
    rw [resolveEntries?] at h
    split at h
    · obtain ⟨s, -, rfl⟩ := Option.map_eq_some_iff.1 h
      exact .atom rfl rfl
    rename_i hcode
    split at h
    · cases h
    rename_i hscope
    split at h
    · rename_i read hnamed
      exact settled_named hnamed h
    · rename_i hnamed
      obtain ⟨u, hu, rfl⟩ := Option.map_eq_some_iff.1 h
      exact (hd.insert ⟨hcode, hscope, hnamed⟩ (settled_of_resolve? hu)).document
  | (key, v) :: (next, u) :: rest, done, w, hd, h => by
    rw [resolveEntries?] at h
    split at h
    · split at h
      · exact settled_withScope (fun _ => settled_of_resolve?) h
      · cases h
    rename_i hcode
    split at h
    · split at h
      · exact settled_withScope (fun _ => settled_of_resolve?) h
      · cases h
    rename_i hscope
    split at h
    · rename_i read hnamed
      split at h
      · cases h
      · exact settled_named hnamed h
    · rename_i hnamed
      obtain ⟨x, hx, h⟩ := Option.bind_eq_some_iff.1 h
      exact settled_of_resolveEntries? (hd.insert ⟨hcode, hscope, hnamed⟩ (settled_of_resolve? hx)) h

end

theorem resolve?_idem (h : resolve? closed v = some w) : resolve? closed w = some w := (settled_of_resolve? h).self

end Dossier.Value
