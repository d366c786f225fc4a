/-
Equality of stored values is symmetric. The entries of one document are looked for in the other, and not the other
way round; with as many entries on both sides and no key twice, those that are found are all there are. It is not
reflexive: a value equals itself exactly if it holds no NaN, however deep.
-/
import Dossier.Proofs.Entries
import Dossier.Value.Basic
import Mathlib.Data.List.Perm.Subperm

namespace Dossier

theorem Double.numEq_comm (x y : Double) : x.numEq y = y.numEq x := by
  unfold numEq
  rw [Bool.and_comm (!x.isNaN), Bool.beq_comm]

namespace Value

/-- Whether a value is compared as a whole. -/
def isAtom : Value → Bool
  | array _ => false
  | document _ => false
  | scopedCode _ _ => false
  | _ => true

/-- A value whose documents and scopes, at any depth, bind each key once. -/
inductive Proper : Value → Prop
  | atom {v : Value} (h : v.isAtom = true) : Proper v
  | array {items : List Value} (h : ∀ v ∈ items, Proper v) : Proper (.array items)
  | document {es : Document} (hn : (Entries.keys es).Nodup) (h : ∀ e ∈ es, Proper e.2) : Proper (.document es)
  | scopedCode {scope : Document} (text : String) (hn : (Entries.keys scope).Nodup) (h : ∀ e ∈ scope, Proper e.2) :
    Proper (.scopedCode text scope)

variable {a b : Value} {es fs : Document}

theorem Proper.flat (hn : (Entries.keys es).Nodup) (h : ∀ e ∈ es, e.2.isAtom = true) : (Value.document es).Proper :=
  .document hn fun e he => .atom (h e he)

theorem Proper.keys_nodup (h : (Value.document es).Proper) : (Entries.keys es).Nodup := by
  cases h with
  | atom h => cases h
  | document hn _ => exact hn

theorem Proper.entry (h : (Value.document es).Proper) : ∀ e ∈ es, e.2.Proper := by
  cases h with
  | atom h => cases h
  | document _ h => exact h

theorem sameEntries_iff : ∀ {es : Document}, sameEntries es fs = true ↔
    ∀ e ∈ es, ∃ w, fs.lookup e.1 = some w ∧ e.2.same w = true
  | [] => by simp [sameEntries]
  | (key, v) :: es => by
    rw [sameEntries, Bool.and_eq_true, sameEntries_iff, List.forall_mem_cons]
    refine and_congr_left' ?_
    cases fs.lookup key <;> simp

/-- As many entries that are all found on the other side are found from there as well. -/
theorem sameEntries_flip (hn : (Entries.keys es).Nodup) (hn' : (Entries.keys fs).Nodup) (hl : es.length = fs.length)
    (hv : ∀ e ∈ es, ∀ f ∈ fs, e.2.same f.2 = true → f.2.same e.2 = true) (h : sameEntries es fs = true) :
    sameEntries fs es = true := by
  rw [sameEntries_iff] at h ⊢
  have hsubset : Entries.keys es ⊆ Entries.keys fs := by
    intro key hk
    obtain ⟨e, he, rfl⟩ := List.mem_map.1 hk
    obtain ⟨w, hw, -⟩ := h e he
    exact Entries.lookup_isSome_iff.1 (Option.isSome_iff_exists.2 ⟨w, hw⟩)
  have hlength : (Entries.keys fs).length ≤ (Entries.keys es).length := by simp [Entries.keys, hl]
  have hkeys : (Entries.keys es).Perm (Entries.keys fs) :=
    (List.subperm_of_subset hn hsubset).perm_of_length_le hlength
  rintro ⟨key, w⟩ hf
  obtain ⟨e, he, rfl⟩ := List.mem_map.1 (hkeys.mem_iff.2 (List.mem_map_of_mem hf))
  obtain ⟨w', hw', hsame⟩ := h e he
  -- both documents have one value under the key
  cases (Entries.lookup_of_mem hn' hf).symm.trans hw'
  exact ⟨e.2, Entries.lookup_of_mem hn he, hv e he _ hf hsame⟩

theorem sameDocument_comm (hn : (Entries.keys es).Nodup) (hn' : (Entries.keys fs).Nodup)
    (hv : ∀ e ∈ es, ∀ f ∈ fs, e.2.same f.2 = f.2.same e.2) :
    (es.length == fs.length && sameEntries es fs) = (fs.length == es.length && sameEntries fs es) := by
  rw [Bool.eq_iff_iff, Bool.and_eq_true, Bool.and_eq_true, beq_iff_eq, beq_iff_eq]
  exact ⟨fun ⟨hl, h⟩ => ⟨hl.symm, sameEntries_flip hn hn' hl (fun e he f hf hs => hv e he f hf ▸ hs) h⟩,
    fun ⟨hl, h⟩ => ⟨hl.symm, sameEntries_flip hn' hn hl (fun f hf e he hs => (hv e he f hf).symm ▸ hs) h⟩⟩

theorem sameItems_comm : ∀ {as bs : List Value}, (∀ a ∈ as, ∀ b ∈ bs, a.same b = b.same a) →
    sameItems as bs = sameItems bs as
  | [], [], _ => rfl
  | [], _ :: _, _ => by simp [sameItems]
  | _ :: _, [], _ => by simp [sameItems]
  | a :: as, b :: bs, h => by
    rw [sameItems, sameItems, h a (List.mem_cons_self ..) b (List.mem_cons_self ..),
      sameItems_comm fun a ha b hb => h a (List.mem_cons_of_mem _ ha) b (List.mem_cons_of_mem _ hb)]

/-- Equality is symmetric where documents bind each key once. -/
theorem same_comm (ha : a.Proper) (hb : b.Proper) : a.same b = b.same a := by
  induction ha generalizing b with
  | @atom v h =>
    cases v
    case array | document | scopedCode => cases h
    all_goals cases b <;> first | rfl | simp only [same, Double.numEq_comm, Bool.beq_comm]
  | @array items h ih =>
    cases hb with
    | array h' => rw [same, same]; exact sameItems_comm fun a ha b hb => ih a ha (h' b hb)
    | atom h' => cases b <;> simp [isAtom, same] at *
    | document => simp [same]
    | scopedCode => simp [same]
  | @document es hn h ih =>
    cases hb with
    | document hn' h' => rw [same, same]; exact sameDocument_comm hn hn' fun e he f hf => ih e he (h' f hf)
    | atom h' => cases b <;> simp [isAtom, same] at *
    | array => simp [same]
    | scopedCode => simp [same]
  | @scopedCode scope text hn h ih =>
    cases hb with
    | @scopedCode scope' text' hn' h' =>
      rw [same, same, Bool.and_assoc, Bool.and_assoc, sameDocument_comm hn hn' fun e he f hf => ih e he (h' f hf),
        Bool.beq_comm]
    | atom h' => cases b <;> simp [isAtom, same] at *
    | array => simp [same]
    | document => simp [same]

/-! ## Values that equal themselves -/

mutual

/-- Whether a value holds NaN at any depth. -/
def hasNaN : Value → Bool
  | double x => x.isNaN
  | scopedCode _ scope => anyEntryNaN scope
  | array items => anyItemNaN items
  | document entries => anyEntryNaN entries
  | _ => false

def anyItemNaN : List Value → Bool
  | [] => false
  | v :: rest => hasNaN v || anyItemNaN rest

def anyEntryNaN : List (String × Value) → Bool
  | [] => false
  | (_, v) :: rest => hasNaN v || anyEntryNaN rest

end

theorem anyItemNaN_eq_false_iff : ∀ {items : List Value}, anyItemNaN items = false ↔ ∀ v ∈ items, v.hasNaN = false
  | [] => by simp [anyItemNaN]
  | v :: rest => by rw [anyItemNaN, Bool.or_eq_false_iff, anyItemNaN_eq_false_iff, List.forall_mem_cons]

theorem anyEntryNaN_eq_false_iff : ∀ {es : Document}, anyEntryNaN es = false ↔ ∀ e ∈ es, e.2.hasNaN = false
  | [] => by simp [anyEntryNaN]
  | (key, v) :: rest => by rw [anyEntryNaN, Bool.or_eq_false_iff, anyEntryNaN_eq_false_iff, List.forall_mem_cons]

theorem sameItems_self : ∀ {items : List Value}, sameItems items items = true ↔ ∀ v ∈ items, v.same v = true
  | [] => by simp [sameItems]
  | v :: rest => by rw [sameItems, Bool.and_eq_true, sameItems_self, List.forall_mem_cons]

/-- With no key twice every entry finds itself. -/
theorem sameEntries_self (hn : (Entries.keys es).Nodup) : sameEntries es es = true ↔ ∀ e ∈ es, e.2.same e.2 = true := by
  rw [sameEntries_iff]
  refine forall₂_congr fun e he => ?_
  rw [Entries.lookup_of_mem hn he]
  simp

theorem same_self_of_isAtom (h : a.isAtom = true) : a.same a = true ↔ a.hasNaN = false := by
  cases a with
  | array _ | document _ | scopedCode _ _ => cases h
  | double x => simp [same, hasNaN, Double.numEq]
  | _ => simp [same, hasNaN]

theorem same_self_iff (h : a.Proper) : a.same a = true ↔ a.hasNaN = false := by
  induction h with
  | atom h => exact same_self_of_isAtom h
  | array h ih =>
    rw [same, hasNaN, sameItems_self, anyItemNaN_eq_false_iff]
    exact forall₂_congr ih
  | document hn h ih =>
    rw [same, hasNaN, beq_self_eq_true, Bool.true_and, sameEntries_self hn, anyEntryNaN_eq_false_iff]
    exact forall₂_congr ih
  | scopedCode text hn h ih =>
    rw [same, hasNaN, beq_self_eq_true, beq_self_eq_true, Bool.and_self, Bool.true_and, sameEntries_self hn,
      anyEntryNaN_eq_false_iff]
    exact forall₂_congr ih

end Value

end Dossier
