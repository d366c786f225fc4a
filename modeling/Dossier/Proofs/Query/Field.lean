/-
Comparing a field of a document with an operand, for a field that is named without a dot. Equality
and inequality are always decided, and they read nothing but the entry of that name. In a document
without other documents or arrays a path with a dot leads nowhere.
-/
import Dossier.Proofs.Action
import Dossier.Proofs.Entries
import Dossier.Query.Matching

namespace Dossier

/-- A name that is a path of one segment. -/
def Path.IsName (path : String) : Prop := '.' ∉ path.toList

instance (path : String) : Decidable (Path.IsName path) := inferInstanceAs (Decidable (_ ∉ _))

theorem Path.splitDots_name : ∀ {cs : List Char}, '.' ∉ cs → splitDots cs = [cs]
  | [], _ => rfl
  | c :: cs, h => by
    rw [List.mem_cons, not_or] at h
    unfold splitDots
    rw [splitDots_name h.2]
    simp only
    rw [if_neg (Ne.symm h.1)]

theorem Path.segments_name {path : String} (h : IsName path) : segments path = [path] := by
  unfold segments
  rw [splitDots_name h, List.map_cons, List.map_nil, String.ofList_toList]

theorem Value.lookup_name {key : String} (h : Path.IsName key) (es : Document) :
    (Value.document es).lookup key = es.lookup key := by
  unfold Value.lookup
  rw [Path.segments_name h]
  unfold lookupSegments
  cases es.lookup key <;> rfl

theorem Path.splitDots_ne_nil : ∀ cs : List Char, splitDots cs ≠ []
  | [] => List.cons_ne_nil _ _
  | c :: cs => by
    unfold splitDots
    split
    · exact List.cons_ne_nil _ _
    · split <;> exact List.cons_ne_nil _ _

theorem Path.eq_of_splitDots : ∀ {cs segment : List Char}, splitDots cs = [segment] → cs = segment
  | [], segment, h => by cases h; rfl
  | c :: cs, segment, h => by
    unfold splitDots at h
    split at h
    · rename_i hn; exact (splitDots_ne_nil cs hn).elim
    · rename_i first more hs
      split at h
      · cases h
      · cases h
        rw [eq_of_splitDots hs]

theorem Path.eq_of_segments {path name : String} (h : segments path = [name]) : path = name := by
  unfold segments at h
  obtain ⟨cs, hs, rfl⟩ := List.map_eq_singleton_iff.1 h
  rw [← eq_of_splitDots hs, String.ofList_toList]

theorem Path.segments_ne_nil (path : String) : segments path ≠ [] := by
  unfold segments
  rw [ne_eq, List.map_eq_nil_iff]
  exact splitDots_ne_nil _

/-! ## Flat documents -/

/-- Whether a value may be kept under a name: it is no document or array, and bytes are kept under one key. -/
def Value.IsField (key name : String) : Value → Prop
  | .array _ => False
  | .document _ => False
  | .binary .. => name = key
  | _ => True

/-- A document without other documents or arrays, and with bytes under one key only. -/
def Value.Flat (key : String) (doc : Value) : Prop :=
  ∃ es : Document, doc = .document es ∧ ∀ name v, es.lookup name = some v → v.IsField key name

/-- In a flat document a path leads to the entry of that name. -/
theorem Value.Flat.isField_of_lookup {key path : String} {doc v : Value} (h : doc.Flat key)
    (hl : doc.lookup path = some v) : v.IsField key path := by
  obtain ⟨es, rfl, hf⟩ := h
  unfold Value.lookup at hl
  cases hs : Path.segments path with
  | nil => exact (Path.segments_ne_nil path hs).elim
  | cons first rest =>
    rw [hs] at hl
    unfold lookupSegments at hl
    obtain ⟨w, hw, hl⟩ := Option.bind_eq_some_iff.1 hl
    have hfield := hf first w hw
    cases rest with
    | nil =>
      cases hl
      rwa [Path.eq_of_segments hs]
    | cons second rest =>
      -- nothing is found inside a value that is neither a document nor an array
      cases w <;> first | exact hfield.elim | cases hl

namespace Expr

variable {doc operand : Value} {key : String} {filter other : Expr} {b c : Bool}

/-- Whether a document satisfies a predicate; one that cannot be decided does not hold. -/
def holds (filter : Expr) (doc : Value) : Bool :=
  match filter.eval doc with
  | .ok b => b
  | .error _ => false

/-- Whether a predicate is decided for a document. -/
def Decides (filter : Expr) (doc : Value) : Prop := ∃ b, filter.eval doc = .ok b

theorem holds_of_eval (h : filter.eval doc = .ok b) : filter.holds doc = b := by
  unfold holds; rw [h]

theorem Decides.eval (h : filter.Decides doc) : filter.eval doc = .ok (filter.holds doc) := by
  obtain ⟨b, hb⟩ := h
  rw [hb, holds_of_eval hb]

theorem eval_eq (doc : Value) (key : String) (operand : Value) :
    (eq key operand).eval doc = .ok ((doc.comparandAt key).hits (.ofValue operand)) := by
  unfold eq Expr.eval Comparison.test; rfl

theorem eval_ne (doc : Value) (key : String) (operand : Value) :
    (ne key operand).eval doc = .ok (!(doc.comparandAt key).hits (.ofValue operand)) := by
  unfold ne Expr.eval Comparison.test; rfl

theorem eval_and_pair (hf : filter.eval doc = .ok b) (ho : other.eval doc = .ok c) :
    (and [filter, other]).eval doc = .ok (b && c) := by
  cases b <;> cases c <;> simp [Expr.eval, Expr.evalAll, hf, ho]

theorem eval_or_pair (hf : filter.eval doc = .ok b) (ho : other.eval doc = .ok c) :
    (or [filter, other]).eval doc = .ok (b || c) := by
  cases b <;> cases c <;> simp [Expr.eval, Expr.evalAny, hf, ho]

/-! ## The entry of a name -/

theorem holds_eq (h : Path.IsName key) (es : Document) :
    (eq key operand).holds (.document es) =
      (Comparand.ofValue ((es.lookup key).getD .null)).hits (.ofValue operand) := by
  rw [holds_of_eval (eval_eq ..)]
  unfold Value.comparandAt
  rw [Value.lookup_name h]
  cases es.lookup key <;> rfl

theorem holds_eq_string (h : Path.IsName key) {es : Document} {text : String} (hl : es.lookup key = some (.string text))
    (other : String) : (eq key (.string other)).holds (.document es) = decide (text = other) := by
  rw [holds_eq h, hl, Bool.eq_iff_iff, decide_eq_true_iff]
  simp [Comparand.ofValue, Comparand.hits, Comparand.same]

theorem holds_eq_string_self (h : Path.IsName key) {es : Document} {s : String}
    (hl : es.lookup key = some (.string s)) :
    (eq key (.string s)).holds (.document es) = true := by
  rw [holds_eq_string h hl, decide_eq_true rfl]

/-- A field that holds a text or nothing equals a text only if it is that text. -/
theorem lookup_of_holds_eq_string (h : Path.IsName key) {es : Document} {s : String} {text : Option String}
    (hl : (es.lookup key).getD .null = Value.ofOption (text.map .string))
    (hh : (eq key (.string s)).holds (.document es) = true) : text = some s := by
  rw [holds_eq h, hl] at hh
  cases text with
  | none => simp [Value.ofOption, Comparand.ofValue, Comparand.hits, Comparand.same] at hh
  | some t => simpa [Value.ofOption, Comparand.ofValue, Comparand.hits, Comparand.same] using hh

theorem holds_eq_uuid (h : Path.IsName key) {es : Document} {id : Uuid} (hl : es.lookup key = some (.uuid id))
    (other : Uuid) :
    (eq key (.uuid other)).holds (.document es) = decide (id = other) := by
  rw [holds_eq h, hl, Bool.eq_iff_iff, decide_eq_true_iff]
  cases id
  cases other
  simp [Value.uuid, Comparand.ofValue, Comparand.hits, Comparand.same]

/-- An identifier that has been overwritten by a flag equals none. -/
theorem holds_eq_uuid_boolean (h : Path.IsName key) {es : Document} {flag : Bool}
    (hl : es.lookup key = some (.boolean flag)) (other : Uuid) :
    (eq key (.uuid other)).holds (.document es) = false := by
  rw [holds_eq h, hl]
  simp [Value.uuid, Comparand.ofValue, Comparand.hits, Comparand.same]

/-- A flat document has no identifier under another name. -/
theorem holds_eq_uuid_flat {path : String} (h : doc.Flat key) (hp : path ≠ key) (id : Uuid) :
    (eq path (.uuid id)).holds doc = false := by
  rw [holds_of_eval (eval_eq ..)]
  unfold Value.comparandAt
  cases hl : doc.lookup path with
  | none => rfl
  | some v =>
    have hfield := h.isField_of_lookup hl
    cases v with
    | array items => exact hfield.elim
    | document entries => exact hfield.elim
    | binary subtype bytes => exact (hp hfield).elim
    | _ => rfl

end Expr

end Dossier
