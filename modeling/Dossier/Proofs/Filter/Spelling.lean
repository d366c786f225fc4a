/-
Column filters read back from JSON. The stored form of a filter is spelled in JSON with numbers for its doubles and long
integers and with null for what is left out. Every spelling is read as the filter that was stored, whatever the order of
its members: null is read as left out, and a single condition lacks the members by which two joined ones are told.
-/
import Dossier.Filter.Json
import Dossier.Filter.Stored
import Dossier.Proofs.Entries
import Dossier.Proofs.Filter.Day
import Mathlib.Data.List.Forall2

namespace Dossier

namespace Json

/-! ## Spellings of stored values -/

/-- A stored value is spelled by a JSON value with the same content. A finite double is a number, which may be written
as an integer to which it is the nearest double; infinities and NaN have no spelling. The members of an object come in
any order. Kinds of values that no filter is stored with are left out. -/
inductive Spells : Json → Value → Prop
  | null : Spells .null .null
  | boolean (b : Bool) : Spells (.boolean b) (.boolean b)
  | string (s : String) : Spells (.string s) (.string s)
  | integer (i : Int64) : Spells (.integer i.toInt) (.int64 i)
  | real {x : Double} (hf : x.isFinite = true) : Spells (.real x) (.double x)
  | whole {i : Int} (hf : (Double.ofInt i).isFinite = true) : Spells (.integer i) (.double (Double.ofInt i))
  | array {js : List Json} {items : List Value} (h : List.Forall₂ Spells js items) : Spells (.array js) (.array items)
  | object {members : List (String × Json)} {es : Document} (hk : (Entries.keys members).Perm (Entries.keys es))
    (h : ∀ key m v, members.lookup key = some m → es.lookup key = some v → Spells m v) :
    Spells (.object members) (.document es)

/-- Some JSON value spells a stored value. -/
def HasSpelling (v : Value) : Prop := ∃ j : Json, j.Spells v

variable {α : Type} {read : Json → Option α} {j m : Json} {v : Value} {es : Document} {key : String}

theorem hasSpelling_string (s : String) : HasSpelling (.string s) := ⟨.string s, .string s⟩

theorem hasSpelling_boolean (b : Bool) : HasSpelling (.boolean b) := ⟨.boolean b, .boolean b⟩

theorem hasSpelling_ofOption {o : Option α} {stored : α → Value} (h : ∀ a ∈ o, HasSpelling (stored a)) :
    HasSpelling (Value.ofOption (o.map stored)) := by
  cases o with
  | none => exact ⟨null, .null⟩
  | some a => exact h a rfl

theorem hasSpelling_array {items : List Value} (h : ∀ v ∈ items, HasSpelling v) : HasSpelling (.array items) := by
  have hitems : ∃ js : List Json, List.Forall₂ Spells js items := by
    induction items with
    | nil => exact ⟨[], .nil⟩
    | cons v rest ih =>
      rw [List.forall_mem_cons] at h
      obtain ⟨⟨j, hj⟩, hrest⟩ := h
      obtain ⟨js, hjs⟩ := ih hrest
      exact ⟨j :: js, .cons hj hjs⟩
  obtain ⟨js, hjs⟩ := hitems
  exact ⟨array js, .array hjs⟩

theorem Spells.of_lookups {members : List (String × Json)} (hk : (Entries.keys members).Perm (Entries.keys es))
    (h : ∀ key v, es.lookup key = some v → ∃ m, members.lookup key = some m ∧ m.Spells v) :
    (Json.object members).Spells (.document es) := by
  refine .object hk fun key m v hm hv => ?_
  obtain ⟨m', hm', hs⟩ := h key v hv
  rw [hm] at hm'
  cases hm'
  exact hs

theorem Spells.of_entries {members : List (String × Json)} (hk : (Entries.keys members).Perm (Entries.keys es))
    (h : ∀ e ∈ es, ∃ m, members.lookup e.1 = some m ∧ m.Spells e.2) : (Json.object members).Spells (.document es) :=
  .of_lookups hk fun key v hv => h (key, v) (Entries.mem_of_lookup hv)

/-- A document has a spelling, with the members in its order, when all that it binds has one. -/
theorem hasSpelling_document (h : ∀ e ∈ es, HasSpelling e.2) : HasSpelling (.document es) := by
  have hmembers : ∃ members : List (String × Json), Entries.keys members = Entries.keys es ∧
      ∀ key v, es.lookup key = some v → ∃ m, members.lookup key = some m ∧ m.Spells v := by
    induction es with
    | nil => exact ⟨[], rfl, fun _ _ => nofun⟩
    | cons e rest ih =>
      rw [List.forall_mem_cons] at h
      obtain ⟨⟨j, hj⟩, hrest⟩ := h
      obtain ⟨members, hkeys, hm⟩ := ih hrest
      refine ⟨(e.1, j) :: members, congrArg (e.1 :: ·) hkeys, fun key v hv => ?_⟩
      rw [Entries.lookup_cons] at hv ⊢
      split at hv
      · rename_i hk
        cases hv
        exact ⟨j, if_pos hk, hj⟩
      · rename_i hk
        rw [if_neg hk]
        exact hm key v hv
  obtain ⟨members, hkeys, hm⟩ := hmembers
  exact ⟨object members, .of_lookups (by rw [hkeys]) hm⟩

/-! ## Reading single values -/

theorem string?_of_spells {s : String} (h : m.Spells (.string s)) : m.string? = some s := by
  cases h
  rfl

theorem name?_of_spells {s : String} (orEmpty : Bool) (h : m.Spells (.string s)) : m.name? orEmpty = some s := by
  cases h
  rfl

theorem boolean?_of_spells {b : Bool} (h : m.Spells (.boolean b)) : m.boolean? = some b := by
  cases h
  rfl

theorem double?_of_spells {x : Double} (h : m.Spells (.double x)) : m.double? = some x := by
  cases h <;> rfl

theorem int64?_of_spells {i : Int64} (h : m.Spells (.int64 i)) : m.int64? = some i := by
  cases h
  show Bounded.int64? i.toInt = some i
  rw [Bounded.int64?, if_pos (Bounded.fitsInt64_toInt i), Int64.ofInt_toInt]

/-- Only null is spelled null. -/
theorem Spells.ne_null (h : m.Spells v) (hv : v ≠ .null) : m ≠ .null := by
  rintro rfl
  cases h
  exact hv rfl

/-- A list of values is read item by item. -/
theorem mapM_of_spells {read : Json → Option Value} : ∀ {js : List Json} {items : List Value},
    List.Forall₂ Spells js items → (∀ v ∈ items, ∀ m : Json, m.Spells v → read m = some v) → js.mapM read = some items
  | [], _, .nil, _ => rfl
  | j :: js, v :: items, .cons hj hjs, hr => by
    rw [List.forall_mem_cons] at hr
    rw [List.mapM_cons, hr.1 j hj, mapM_of_spells hjs hr.2]
    rfl

theorem listOf?_of_spells {read : Json → Option Value} {items : List Value} (h : m.Spells (.array items))
    (hr : ∀ v ∈ items, ∀ m : Json, m.Spells v → read m = some v) : listOf? read m = some items := by
  cases h with
  | array h => exact mapM_of_spells h hr

/-! ## Reading members -/

theorem member?_of_spells (h : j.Spells (.document es)) (he : es.lookup key = some v) :
    ∃ m, j.member? key = some m ∧ m.Spells v := by
  cases h with
  | object hk h =>
    have hkey : key ∈ Entries.keys es := Entries.lookup_isSome_iff.1 (by rw [he]; rfl)
    obtain ⟨m, hm⟩ := Option.isSome_iff_exists.1 (Entries.lookup_isSome_iff.2 (hk.mem_iff.2 hkey))
    exact ⟨m, hm, h key m v hm he⟩

theorem member?_eq_none_of_spells (h : j.Spells (.document es)) (he : es.lookup key = none) : j.member? key = none := by
  cases h with
  | object hk h =>
    rw [Entries.lookup_eq_none_iff, ← hk.mem_iff] at he
    exact Entries.lookup_eq_none_iff.2 he

theorem required_of_spells {a : α} (h : j.Spells (.document es)) (he : es.lookup key = some v)
    (hr : ∀ m : Json, m.Spells v → read m = some a) : required read key j = some a := by
  obtain ⟨m, hm, hs⟩ := member?_of_spells h he
  rw [required, hm]
  exact hr m hs

theorem withDefault_of_spells {a : α} (absent : α) (h : j.Spells (.document es)) (he : es.lookup key = some v)
    (hr : ∀ m : Json, m.Spells v → read m = some a) : withDefault read absent key j = some a := by
  obtain ⟨m, hm, hs⟩ := member?_of_spells h he
  rw [withDefault, hm]
  exact hr m hs

theorem optional_of_member? (hm : j.member? key = some m) (hn : m ≠ .null) :
    optional read key j = (read m).map some := by
  unfold optional
  rw [hm]
  cases m with
  | null => exact (hn rfl).elim
  | _ => rfl

/-- Null is read as left out, and anything else as what is there. -/
theorem optional_of_spells {o : Option α} {stored : α → Value} (h : j.Spells (.document es))
    (he : es.lookup key = some (Value.ofOption (o.map stored)))
    (hr : ∀ a ∈ o, stored a ≠ .null ∧ ∀ m : Json, m.Spells (stored a) → read m = some a) :
    optional read key j = some o := by
  obtain ⟨m, hm, hs⟩ := member?_of_spells h he
  cases o with
  | none =>
    cases hs
    unfold optional
    rw [hm]
  | some a =>
    obtain ⟨hne, hread⟩ := hr a rfl
    rw [optional_of_member? hm (hs.ne_null hne), hread m hs]
    rfl

end Json

/-! ## Parts of filters -/

open Json

variable {j m : Json} {es : Document}

/-- A string or a boolean. -/
inductive Value.IsWord : Value → Prop
  | string (s : String) : IsWord (.string s)
  | boolean (b : Bool) : IsWord (.boolean b)

theorem Value.IsWord.ne_null {v : Value} (h : v.IsWord) : v ≠ .null := by
  cases h <;> exact Value.noConfusion

/-- Strings and booleans stand for themselves. -/
theorem Value.IsWord.value?_of_spells {v : Value} (h : v.IsWord) (hs : m.Spells v) : m.value? = some v := by
  cases h <;> cases hs <;> rfl

theorem FilterOperator.ofName?_name (o : FilterOperator) : ofName? o.name = some o := by
  cases o <;> rfl

theorem FilterOperator.ofJson?_of_spells {o : FilterOperator} (orEmpty : Bool) (h : m.Spells o.toValue) :
    ofJson? orEmpty m = some o := by
  rw [ofJson?, name?_of_spells orEmpty h, Option.bind_some, ofName?_name]

theorem Combinator.ofJson?_of_spells {c : Combinator} (h : m.Spells (.string c.name)) : ofJson? m = some c := by
  rw [ofJson?, name?_of_spells false h, Option.bind_some]
  cases c <;> rfl

theorem optionalOperator_of_spells {o : Option FilterOperator} (h : j.Spells (.document es))
    (he : es.lookup "type" = some (optionalOperator o)) : optional (FilterOperator.ofJson? true) "type" j = some o :=
  optional_of_spells h he fun _ _ => ⟨Value.noConfusion, fun _ => FilterOperator.ofJson?_of_spells true⟩

theorem optionalNumber_of_spells {o : Option Double} {key : String} (h : j.Spells (.document es))
    (he : es.lookup key = some (Value.ofOption (o.map .double))) : optional double? key j = some o :=
  optional_of_spells h he fun _ _ => ⟨Value.noConfusion, fun _ => double?_of_spells⟩

theorem optionalInstant_of_spells {o : Option Int64} {key : String} (h : j.Spells (.document es))
    (he : es.lookup key = some (Value.ofOption (o.map .int64))) : optional int64? key j = some o :=
  optional_of_spells h he fun _ _ => ⟨Value.noConfusion, fun _ => int64?_of_spells⟩

/-! ## Filters

A filter is read in a document that holds its entries, whatever else is there. -/

theorem NumberCondition.ofJson?_of_spells {c : NumberCondition} (h : j.Spells (.document es))
    (hes : ∀ e ∈ c.toEntries, es.lookup e.1 = some e.2) : ofJson? j = some c := by
  simp only [toEntries, List.forall_mem_cons] at hes
  obtain ⟨htype, hoperand, hupper, -⟩ := hes
  have hoperator : required (FilterOperator.ofJson? false) "type" j = some c.operator :=
    required_of_spells h htype fun _ => FilterOperator.ofJson?_of_spells false
  rw [ofJson?, hoperator, optionalNumber_of_spells h hoperand, optionalNumber_of_spells h hupper]
  rfl

/-- A condition that is spelled as a member is read. -/
theorem NumberCondition.required_of_spells {c : NumberCondition} {key : String} (h : j.Spells (.document es))
    (he : es.lookup key = some (.document c.toEntries)) : required ofJson? key j = some c := by
  have hn : (Entries.keys c.toEntries).Nodup := by
    show ["type", "filter", "filterTo"].Nodup
    decide
  exact Json.required_of_spells h he fun m hm => ofJson?_of_spells hm fun e => Entries.lookup_of_mem hn

/-- Where no combinator is, no two conditions are read. -/
theorem NumberFilter.ofJson?_single {c : NumberCondition} (h : j.Spells (.document es))
    (hes : ∀ e ∈ c.toEntries, es.lookup e.1 = some e.2) (hnone : es.lookup "operator" = none) :
    ofJson? j = some (.single c) := by
  have hcompound : compoundOfJson? j = none := by
    rw [compoundOfJson?, required, member?_eq_none_of_spells h hnone]
    rfl
  rw [ofJson?, hcompound, NumberCondition.ofJson?_of_spells h hes]
  rfl

theorem NumberFilter.ofJson?_compound {combinator : Combinator} {first second : NumberCondition}
    (h : j.Spells (.document es)) (hes : ∀ e ∈ (compound combinator first second).toEntries, es.lookup e.1 = some e.2) :
    ofJson? j = some (.compound combinator first second) := by
  simp only [toEntries, List.forall_mem_cons] at hes
  obtain ⟨hoperator, hfirst, hsecond, -⟩ := hes
  have hcombinator : required Combinator.ofJson? "operator" j = some combinator :=
    required_of_spells h hoperator fun _ => Combinator.ofJson?_of_spells
  have hcompound : compoundOfJson? j = some (.compound combinator first second) := by
    rw [compoundOfJson?, hcombinator, NumberCondition.required_of_spells h hfirst,
      NumberCondition.required_of_spells h hsecond]
    rfl
  rw [ofJson?, hcompound]

theorem DateFilter.ofJson?_of_spells {f : DateFilter} (h : j.Spells (.document es))
    (hes : ∀ e ∈ f.toEntries, es.lookup e.1 = some e.2) : ofJson? j = some f := by
  simp only [toEntries, List.forall_mem_cons] at hes
  obtain ⟨htype, hlower, hupper, hexact, -⟩ := hes
  have hoperator : required (FilterOperator.ofJson? true) "type" j = some f.operator :=
    required_of_spells h htype fun _ => FilterOperator.ofJson?_of_spells true
  have hwhole : withDefault boolean? false "exactMatch" j = some f.exact :=
    withDefault_of_spells false h hexact fun _ => boolean?_of_spells
  rw [ofJson?, hoperator, optionalInstant_of_spells h hlower, optionalInstant_of_spells h hupper, hwhole]
  rfl

theorem BooleanFilter.ofJson?_of_spells {f : BooleanFilter} (h : j.Spells (.document es))
    (hes : ∀ e ∈ f.toEntries, es.lookup e.1 = some e.2) : ofJson? j = some f := by
  simp only [toEntries, List.forall_mem_cons] at hes
  obtain ⟨htype, hfilter, -⟩ := hes
  have hoperand : required boolean? "filter" j = some f.operand :=
    required_of_spells h hfilter fun _ => boolean?_of_spells
  rw [ofJson?, optionalOperator_of_spells h htype, hoperand]
  rfl

theorem SetFilter.ofJson?_of_spells {f : SetFilter} (hw : ∀ v ∈ f.operands, v.IsWord) (h : j.Spells (.document es))
    (hes : ∀ e ∈ f.toEntries, es.lookup e.1 = some e.2) : ofJson? j = some f := by
  simp only [toEntries, List.forall_mem_cons] at hes
  obtain ⟨htype, hvalues, -⟩ := hes
  have hoperands : withDefault (listOf? value?) [] "values" j = some f.operands :=
    withDefault_of_spells [] h hvalues fun _ hm => listOf?_of_spells hm fun v hv _ => (hw v hv).value?_of_spells
  rw [ofJson?, optionalOperator_of_spells h htype, hoperands]
  rfl

theorem ExactFilter.ofJson?_of_spells {f : ExactFilter} (hw : ∀ v ∈ f.operand, v.IsWord) (h : j.Spells (.document es))
    (hes : ∀ e ∈ f.toEntries, es.lookup e.1 = some e.2) : ofJson? j = some f := by
  simp only [toEntries, List.forall_mem_cons] at hes
  obtain ⟨htype, hfilter, -⟩ := hes
  have hid : es.lookup "filter" = some (Value.ofOption (f.operand.map id)) := by rwa [Option.map_id_apply]
  have hoperand : optional value? "filter" j = some f.operand :=
    optional_of_spells h hid fun v hv => ⟨(hw v hv).ne_null, fun _ => (hw v hv).value?_of_spells⟩
  rw [ofJson?, optionalOperator_of_spells h htype, hoperand]
  rfl

/-! ## All kinds of filters -/

def NumberCondition.numbers (c : NumberCondition) : List Double := c.operand.toList ++ c.upper.toList

def NumberFilter.numbers : NumberFilter → List Double
  | single c => c.numbers
  | compound _ first second => first.numbers ++ second.numbers

namespace ColumnFilter

/-- The numbers of a filter. -/
def numbers : ColumnFilter → List Double
  | number f => f.numbers
  | _ => []

/-- The stored values that a filter asks for as they are. -/
def operands : ColumnFilter → List Value
  | set f => f.operands
  | exact f => f.operand.toList
  | _ => []

variable {entries : Document} {kind : String}

theorem kind_of_spells (h : j.Spells (.document (("filterType", .string kind) :: entries))) :
    required string? "filterType" j = some kind :=
  required_of_spells h rfl fun _ => string?_of_spells

/-- The entries behind the kind of a filter are found by their keys. -/
theorem lookup_entries (hn : (Entries.keys (("filterType", Value.string kind) :: entries)).Nodup) :
    ∀ e ∈ entries, (("filterType", Value.string kind) :: entries).lookup e.1 = some e.2 :=
  fun _ he => Entries.lookup_of_mem hn (List.mem_cons_of_mem _ he)

/-- Every spelling of a filter is read as the filter, if the values it asks for are strings and booleans. -/
theorem ofJson?_of_spells {f : ColumnFilter} (hw : ∀ v ∈ f.operands, v.IsWord) (h : j.Spells f.toValue) :
    ofJson? j = some f := by
  cases f with
  | number f =>
    have hf : NumberFilter.ofJson? j = some f := by
      cases f with
      | single c =>
        have hn : ["filterType", "type", "filter", "filterTo"].Nodup := by decide
        exact NumberFilter.ofJson?_single h (lookup_entries hn) rfl
      | compound combinator first second =>
        have hn : ["filterType", "operator", "condition1", "condition2"].Nodup := by decide
        exact NumberFilter.ofJson?_compound h (lookup_entries hn)
    rw [ofJson?, kind_of_spells h]
    simp [hf]
  | date f =>
    have hn : ["filterType", "type", "dateFrom", "dateTo", "exactMatch"].Nodup := by decide
    have hf : DateFilter.ofJson? j = some f := DateFilter.ofJson?_of_spells h (lookup_entries hn)
    rw [ofJson?, kind_of_spells h]
    simp [hf]
  | boolean f =>
    have hn : ["filterType", "type", "filter"].Nodup := by decide
    have hf : BooleanFilter.ofJson? j = some f := BooleanFilter.ofJson?_of_spells h (lookup_entries hn)
    rw [ofJson?, kind_of_spells h]
    simp [hf]
  | set f =>
    have hn : ["filterType", "type", "values"].Nodup := by decide
    have hf : SetFilter.ofJson? j = some f := SetFilter.ofJson?_of_spells hw h (lookup_entries hn)
    rw [ofJson?, kind_of_spells h]
    simp [hf]
  | exact f =>
    have hn : ["filterType", "type", "filter"].Nodup := by decide
    have hoperand : ∀ v ∈ f.operand, v.IsWord := fun v hv => hw v (Option.mem_toList.2 hv)
    have hf : ExactFilter.ofJson? j = some f := ExactFilter.ofJson?_of_spells hoperand h (lookup_entries hn)
    rw [ofJson?, kind_of_spells h]
    simp [hf]
  | unsupported =>
    rw [ofJson?, kind_of_spells h]
    rfl

/-! ## Filters that have a spelling -/

theorem hasSpelling_number {o : Option Double} (h : ∀ x ∈ o, x.isFinite = true) :
    HasSpelling (Value.ofOption (o.map .double)) :=
  hasSpelling_ofOption fun x hx => ⟨.real x, .real (h x hx)⟩

theorem hasSpelling_instant (o : Option Int64) : HasSpelling (Value.ofOption (o.map .int64)) :=
  hasSpelling_ofOption fun i _ => ⟨.integer i.toInt, .integer i⟩

theorem hasSpelling_operator (o : Option FilterOperator) : HasSpelling (optionalOperator o) :=
  hasSpelling_ofOption fun o _ => hasSpelling_string o.name

theorem hasSpelling_word {v : Value} (h : v.IsWord) : HasSpelling v := by
  cases h with
  | string s => exact hasSpelling_string s
  | boolean b => exact hasSpelling_boolean b

theorem hasSpelling_condition {c : NumberCondition} (h : ∀ x ∈ c.numbers, x.isFinite = true) :
    ∀ e ∈ c.toEntries, HasSpelling e.2 := by
  simp only [NumberCondition.numbers, List.mem_append, Option.mem_toList, or_imp, forall_and] at h
  simp only [NumberCondition.toEntries, List.forall_mem_cons]
  exact ⟨hasSpelling_string _, hasSpelling_number h.1, hasSpelling_number h.2, List.forall_mem_nil _⟩

theorem hasSpelling_numberFilter {f : NumberFilter} (h : ∀ x ∈ f.numbers, x.isFinite = true) :
    ∀ e ∈ f.toEntries, HasSpelling e.2 := by
  cases f with
  | single c => exact hasSpelling_condition h
  | compound combinator first second =>
    simp only [NumberFilter.numbers, List.mem_append, or_imp, forall_and] at h
    simp only [NumberFilter.toEntries, List.forall_mem_cons]
    exact ⟨hasSpelling_string _, hasSpelling_document (hasSpelling_condition h.1),
      hasSpelling_document (hasSpelling_condition h.2), List.forall_mem_nil _⟩

/-- The kind of a filter, which is spelled before its entries, is a string. -/
theorem hasSpelling_filter (h : ∀ e ∈ entries, HasSpelling e.2) :
    HasSpelling (.document (("filterType", .string kind) :: entries)) :=
  hasSpelling_document (List.forall_mem_cons.2 ⟨hasSpelling_string kind, h⟩)

theorem hasSpelling_toValue {f : ColumnFilter} (hn : ∀ x ∈ f.numbers, x.isFinite = true)
    (hw : ∀ v ∈ f.operands, v.IsWord) : HasSpelling f.toValue := by
  cases f with
  | number f => exact hasSpelling_filter (hasSpelling_numberFilter hn)
  | date f =>
    apply hasSpelling_filter
    simp only [DateFilter.toEntries, List.forall_mem_cons]
    exact ⟨hasSpelling_string _, hasSpelling_instant _, hasSpelling_instant _, hasSpelling_boolean _,
      List.forall_mem_nil _⟩
  | boolean f =>
    apply hasSpelling_filter
    simp only [BooleanFilter.toEntries, List.forall_mem_cons]
    exact ⟨hasSpelling_operator _, hasSpelling_boolean _, List.forall_mem_nil _⟩
  | set f =>
    apply hasSpelling_filter
    simp only [SetFilter.toEntries, List.forall_mem_cons]
    exact ⟨hasSpelling_operator _, hasSpelling_array fun v hv => hasSpelling_word (hw v hv), List.forall_mem_nil _⟩
  | exact f =>
    have hoperand : HasSpelling (Value.ofOption (f.operand.map id)) :=
      hasSpelling_ofOption fun v hv => hasSpelling_word (hw v (Option.mem_toList.2 hv))
    rw [Option.map_id_apply] at hoperand
    apply hasSpelling_filter
    simp only [ExactFilter.toEntries, List.forall_mem_cons]
    exact ⟨hasSpelling_operator _, hoperand, List.forall_mem_nil _⟩
  | unsupported => exact hasSpelling_filter fun _ => nofun

/-- A filter with finite numbers that asks for strings and booleans has a spelling in JSON, and every spelling of it is
read as that filter. -/
theorem spelling_reads_back (f : ColumnFilter) (hn : ∀ x ∈ f.numbers, x.isFinite = true)
    (hw : ∀ v ∈ f.operands, v.IsWord) : (∃ j : Json, j.Spells f.toValue) ∧
      ∀ j : Json, j.Spells f.toValue → ofJson? j = some f :=
  ⟨hasSpelling_toValue hn hw, fun _ => ofJson?_of_spells hw⟩

/-- A range or nothing at all, with the members in the order of their names and a bound without a fraction. -/
theorem spelling_reads_back_range :
    let half : Double := ⟨0x3FE0000000000000⟩
    let f : ColumnFilter := .number (.compound .or ⟨.inRange, some half, some (Double.ofInt 10)⟩ ⟨.absent, none, none⟩)
    let range : Json := .object [("filter", .real half), ("filterTo", .integer 10), ("type", .string "inRange")]
    let missing : Json := .object [("filter", .null), ("filterTo", .null), ("type", .string "notExists")]
    let j : Json := .object [("condition1", range), ("condition2", missing), ("filterType", .string "number"),
      ("operator", .string "OR")]
    (∀ x ∈ f.numbers, x.isFinite = true) ∧ (∀ v ∈ f.operands, v.IsWord) ∧ j.Spells f.toValue ∧ ofJson? j = some f := by
  intro half f range missing j
  have hn : ∀ x ∈ f.numbers, x.isFinite = true := by decide +kernel
  have hw : ∀ v ∈ f.operands, v.IsWord := fun _ => nofun
  have hrange : range.Spells (.document (NumberCondition.toEntries ⟨.inRange, some half, some (Double.ofInt 10)⟩)) := by
    refine .of_entries (by decide) ?_
    simp only [NumberCondition.toEntries, List.forall_mem_cons]
    exact ⟨⟨_, rfl, .string _⟩, ⟨_, rfl, .real (by decide)⟩, ⟨_, rfl, .whole (by decide +kernel)⟩,
      List.forall_mem_nil _⟩
  have hmissing : missing.Spells (.document (NumberCondition.toEntries ⟨.absent, none, none⟩)) := by
    refine .of_entries (by decide) ?_
    simp only [NumberCondition.toEntries, List.forall_mem_cons]
    exact ⟨⟨_, rfl, .string _⟩, ⟨_, rfl, .null⟩, ⟨_, rfl, .null⟩, List.forall_mem_nil _⟩
  have hj : j.Spells f.toValue := by
    refine .of_entries (by decide) ?_
    simp only [NumberFilter.toEntries, List.forall_mem_cons]
    exact ⟨⟨_, rfl, .string _⟩, ⟨_, rfl, .string _⟩, ⟨_, rfl, hrange⟩, ⟨_, rfl, hmissing⟩, List.forall_mem_nil _⟩
  exact ⟨hn, hw, hj, (spelling_reads_back f hn hw).2 j hj⟩

end ColumnFilter

end Dossier
