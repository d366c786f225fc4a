/-
Dotted paths over documents in arrays. Read as a walk, a path leads to every value at its end, to several of them where
it crosses arrays of documents. What is looked up at it is one array in which the contents of these values are pooled,
and a comparison with a single operand searches arrays on its own. Neither adds or loses a match: a document satisfies
the comparison exactly if the path leads to a value that does, however many arrays it crosses.
-/
import Dossier.Proofs.Filter.Range

namespace Dossier

/-! ## Segments -/

namespace Path

theorem splitDots_join : ∀ cs ds : List Char, splitDots (cs ++ '.' :: ds) = splitDots cs ++ splitDots ds
  | [], ds => by
    obtain ⟨first, more, hs⟩ := List.exists_cons_of_ne_nil (splitDots_ne_nil ds)
    simp [splitDots, hs]
  | c :: cs, ds => by
    obtain ⟨first, more, hs⟩ := List.exists_cons_of_ne_nil (splitDots_ne_nil cs)
    rw [List.cons_append, splitDots, splitDots_join cs ds, hs, splitDots, hs]
    by_cases hc : c = '.' <;> simp [hc]

/-- A path that goes on behind another has the segments of both. -/
theorem segments_join (front rest : String) : segments (front ++ "." ++ rest) = segments front ++ segments rest := by
  have hchars : (front ++ "." ++ rest).toList = front.toList ++ '.' :: rest.toList := by simp
  unfold segments
  rw [hchars, splitDots_join, List.map_append]

/-- A path that begins with a name and not with a number. In an array it is followed in every document. -/
def StartsWithName (path : String) : Prop := (segments path).head?.bind index? = none

instance (path : String) : Decidable (StartsWithName path) := inferInstanceAs (Decidable (_ = _))

end Path

/-! ## Searching values and arrays -/

namespace Value

variable {element whole : Value → Prop} {operand v : Value} {found items : List Value}

/-- A way to search values: one that is no array has to be as asked itself, an array has to have an item that is. -/
structure Searches (element whole : Value → Prop) : Prop where
  single : ∀ v : Value, v.IsSingle → (whole v ↔ element v)
  array : ∀ items, whole (.array items) ↔ ∃ item ∈ items, element item

/-- What a value adds to the array in which values found in several documents are put together. -/
def contents : Value → List Value
  | array items => items
  | v => [v]

/-- The contents of several values, one after the other. -/
def pooled (found : List Value) : List Value := found.flatMap contents

theorem contents_single (h : v.IsSingle) : v.contents = [v] := by
  cases v with
  | array items => exact (h items rfl).elim
  | _ => rfl

theorem Searches.contents_iff (h : Searches element whole) (v : Value) :
    whole v ↔ ∃ item ∈ v.contents, element item := by
  by_cases hv : v.IsSingle
  · rw [contents_single hv, h.single v hv]
    simp
  · unfold IsSingle at hv
    push Not at hv
    obtain ⟨items, rfl⟩ := hv
    exact h.array items

theorem gather_eq (found : List Value) :
    Path.gather found = if pooled found = [] then none else some (.array (pooled found)) := by
  have hpooled : ∀ f : Value → List Value, (∀ v, f v = contents v) → found.flatMap f = pooled found :=
    fun f h => List.flatMap_congr fun v _ => h v
  unfold Path.gather
  rw [hpooled _ fun v => by cases v <;> rfl]
  cases pooled found <;> rfl

/-- Putting values together adds no match to a search and loses none. -/
theorem Searches.gather_iff (h : Searches element whole) (found : List Value) :
    (∃ v, Path.gather found = some v ∧ whole v) ↔ ∃ v ∈ found, whole v := by
  have hpooled : (∃ item ∈ pooled found, element item) ↔ ∃ v ∈ found, whole v := by
    simp only [pooled, List.mem_flatMap, h.contents_iff]
    constructor
    · rintro ⟨item, ⟨v, hv, hi⟩, he⟩
      exact ⟨v, hv, item, hi, he⟩
    · rintro ⟨v, hv, item, hi, he⟩
      exact ⟨item, ⟨v, hv, hi⟩, he⟩
  rw [← hpooled, gather_eq]
  split
  · rename_i hnil
    simp [hnil]
  · simp [h.array]

/-! ## Paths as walks -/

/-- One segment of a path: the name of an entry, the index of an item, or the name of an entry in a document that is
among the items. -/
inductive Step : String → Value → Value → Prop
  | entry {key : String} {entries : Document} {v : Value} (h : entries.lookup key = some v) :
    Step key (.document entries) v
  | item {segment : String} {i : Nat} {items : List Value} {v : Value} (hi : Path.index? segment = some i)
    (h : items[i]? = some v) : Step segment (.array items) v
  | across {key : String} {items : List Value} {entries : Document} {v : Value} (hi : Path.index? key = none)
    (hm : .document entries ∈ items) (h : entries.lookup key = some v) : Step key (.array items) v

/-- The values at the end of a path. -/
def Leads : List String → Value → Value → Prop
  | [], v, leaf => leaf = v
  | segment :: rest, v, leaf => ∃ next, Step segment v next ∧ Leads rest next leaf

theorem leads_append {front rest : List String} {v leaf : Value} :
    Leads (front ++ rest) v leaf ↔ ∃ mid, Leads front v mid ∧ Leads rest mid leaf := by
  induction front generalizing v with
  | nil => simp [Leads]
  | cons segment front ih =>
    simp only [List.cons_append, Leads, ih]
    constructor
    · rintro ⟨next, hs, mid, hf, hr⟩
      exact ⟨mid, ⟨next, hs, hf⟩, hr⟩
    · rintro ⟨mid, ⟨next, hs, hf⟩, hr⟩
      exact ⟨next, hs, mid, hf, hr⟩

theorem step_document_iff {key : String} {entries : Document} :
    Step key (.document entries) v ↔ entries.lookup key = some v := by
  constructor
  · rintro ⟨h⟩
    exact h
  · exact .entry

theorem step_item_iff {segment : String} {i : Nat} (hi : Path.index? segment = some i) :
    Step segment (.array items) v ↔ items[i]? = some v := by
  constructor
  · intro h
    cases h with
    | item hi' h =>
      rw [hi] at hi'
      cases hi'
      exact h
    | across hi' => rw [hi] at hi'; cases hi'
  · exact .item hi

/-- In an array a name leads to where it leads in the documents among the items. -/
theorem step_array_iff {key : String} (hi : Path.index? key = none) :
    Step key (.array items) v ↔ ∃ entries, .document entries ∈ items ∧ Step key (.document entries) v := by
  simp only [step_document_iff]
  constructor
  · intro h
    cases h with
    | item hi' => rw [hi] at hi'; cases hi'
    | across _ hm h => exact ⟨_, hm, h⟩
  · rintro ⟨entries, hm, h⟩
    exact .across hi hm h

theorem exists_bind_iff {o : Option Value} {f : Value → Option Value} :
    (∃ found, o.bind f = some found ∧ whole found) ↔
      ∃ next, o = some next ∧ ∃ found, f next = some found ∧ whole found := by
  cases o <;> simp

/-- What is looked up along a path passes a search if, one segment further, something does. -/
theorem Searches.lookupSegments_cons (h : Searches element whole) (segment : String) (rest : List String) (v : Value) :
    (∃ found, lookupSegments (segment :: rest) v = some found ∧ whole found) ↔
      ∃ next, Step segment v next ∧ ∃ found, lookupSegments rest next = some found ∧ whole found := by
  cases v with
  | document entries =>
    rw [lookupSegments]
    simp only [exists_bind_iff, step_document_iff]
  | array items =>
    cases hi : Path.index? segment with
    | some i =>
      rw [lookupSegments, hi]
      simp only [exists_bind_iff, step_item_iff hi]
    | none =>
      rw [lookupSegments, hi]
      simp only [h.gather_iff, List.mem_filterMap, step_array_iff hi, step_document_iff]
      -- only the items that are documents are looked into
      constructor
      · rintro ⟨found, ⟨item, hm, hfound⟩, hw⟩
        obtain ⟨entries, he, hfound⟩ := Option.bind_eq_some_iff.1 hfound
        obtain ⟨next, hn, hf⟩ := Option.bind_eq_some_iff.1 hfound
        cases item with
        | document es => cases he; exact ⟨next, ⟨_, hm, hn⟩, found, hf, hw⟩
        | _ => cases he
      · rintro ⟨next, ⟨entries, hm, hn⟩, found, hf, hw⟩
        exact ⟨found, ⟨_, hm, Option.bind_eq_some_iff.2 ⟨_, rfl, Option.bind_eq_some_iff.2 ⟨next, hn, hf⟩⟩⟩, hw⟩
  | _ =>
    constructor
    · rintro ⟨found, hf, -⟩
      cases hf
    · rintro ⟨next, hs, -⟩
      cases hs

/-- What is looked up along a path passes a search exactly if the path leads to a value that does. -/
theorem Searches.lookupSegments_iff (h : Searches element whole) (segments : List String) (v : Value) :
    (∃ found, lookupSegments segments v = some found ∧ whole found) ↔ ∃ leaf, Leads segments v leaf ∧ whole leaf := by
  induction segments generalizing v with
  | nil => simp [lookupSegments, Leads]
  | cons segment rest ih =>
    rw [h.lookupSegments_cons]
    simp only [ih, Leads]
    constructor
    · rintro ⟨next, hs, leaf, hl, hw⟩
      exact ⟨leaf, ⟨next, hs, hl⟩, hw⟩
    · rintro ⟨leaf, ⟨next, hs, hl⟩, hw⟩
      exact ⟨next, hs, leaf, hl, hw⟩

end Value

/-! ## Comparisons that seek a value -/

/-- The comparisons that a document satisfies by something that it has: equality and those that go by order. -/
inductive Comparison.Seeks : Comparison → Prop
  | eq : Seeks .eq
  | range {op : Comparison} (h : op.IsRange) : Seeks op

namespace Value

variable {op : Comparison} {operand : Value}

/-- Whether a value, or something in it, compares with an operand as asked. -/
def Meets (op : Comparison) (v operand : Value) : Prop :=
  match op with
  | .eq => v.SomeElement (·.Equates operand)
  | _ => Comparand.satisfies op (.ofValue operand) (.ofValue v) = true

theorem not_equates_array (hs : operand.IsSingle) (items : List Value) : ¬ (Value.array items).Equates operand := by
  intro h
  cases operand with
  | array others => exact hs others rfl
  | _ => cases h

theorem not_equates_null (hn : operand.isNothing = false) : ¬ Value.null.Equates operand := by
  intro h
  cases operand <;> cases h <;> cases hn

theorem someElement_single {p : Value → Prop} {v : Value} (hv : v.IsSingle) : v.SomeElement p ↔ p v :=
  or_iff_left fun ⟨items, he, _⟩ => hv items he

theorem searches_equates (hs : operand.IsSingle) :
    Searches (·.Equates operand) (·.SomeElement (·.Equates operand)) where
  single _ hv := someElement_single hv
  array items := by
    simp [SomeElement, not_equates_array hs]

theorem isArray_ofValue (hs : operand.IsSingle) : (Comparand.ofValue operand).isArray = false := by
  cases operand with
  | array items => exact (hs items rfl).elim
  | _ => rfl

theorem anySatisfies_iff (other : Comparand) : ∀ items : List Value,
    Comparand.anySatisfies op other (Comparand.ofItems items) = true ↔
      ∃ item ∈ items, Comparand.satisfies op other (.ofValue item) = true
  | [] => by simp [Comparand.ofItems, Comparand.anySatisfies]
  | item :: rest => by
    rw [Comparand.ofItems, Comparand.anySatisfies, Bool.or_eq_true, anySatisfies_iff other rest]
    simp

theorem satisfies_array_iff (hs : operand.IsSingle) (items : List Value) :
    Comparand.satisfies op (.ofValue operand) (.ofValue (.array items)) = true ↔
      ∃ item ∈ items, Comparand.satisfies op (.ofValue operand) (.ofValue item) = true := by
  rw [Comparand.ofValue, Comparand.satisfies, if_neg (by simp [isArray_ofValue hs]), anySatisfies_iff]

theorem searches_meets (hop : op.Seeks) (hs : operand.IsSingle) : ∃ element, Searches element (Meets op · operand) := by
  cases hop with
  | eq => exact ⟨_, searches_equates hs⟩
  | range hop =>
    have hrange : ∀ v, Meets op v operand ↔ Comparand.satisfies op (.ofValue operand) (.ofValue v) = true := by
      cases hop <;> exact fun _ => Iff.rfl
    refine ⟨(Meets op · operand), fun _ _ => Iff.rfl, fun items => ?_⟩
    simp only [hrange, satisfies_array_iff hs]

end Value

namespace Expr

variable {op : Comparison} {operand : Value}

/-- A comparison that seeks a value is about what is found at its path. -/
theorem eval_seeks_iff (hop : op.Seeks) (hn : operand.isNothing = false) (doc : Value) (path : String) :
    (field path op operand).eval doc = .ok true ↔ ∃ found, doc.lookup path = some found ∧ found.Meets op operand := by
  cases hop with
  | eq =>
    rw [show field path .eq operand = eq path operand from rfl, eval_eq, Except.ok.injEq, Value.comparandAt_eq,
      Value.hits_iff]
    unfold Value.atPath
    cases doc.lookup path with
    | none => simp [Value.SomeElement, Value.not_equates_null hn]
    | some found => simp [Value.Meets]
  | range hop =>
    rw [eval_range hop, Value.comparandAt]
    cases doc.lookup path with
    | none => simp
    | some found => cases hop <;> simp [Value.Meets]

/-- A document satisfies a comparison with a single operand exactly if its path leads to a value that does. -/
theorem eval_iff_leads (hop : op.Seeks) (hn : operand.isNothing = false) (hs : operand.IsSingle) (doc : Value)
    (path : String) : (field path op operand).eval doc = .ok true ↔
      ∃ leaf, Value.Leads (Path.segments path) doc leaf ∧ leaf.Meets op operand := by
  obtain ⟨element, h⟩ := Value.searches_meets hop hs
  rw [eval_seeks_iff hop hn]
  exact h.lookupSegments_iff _ doc

/-- A path may be cut anywhere: something at its front has to satisfy the comparison with the rest of it. -/
theorem eval_join_iff (hop : op.Seeks) (hn : operand.isNothing = false) (hs : operand.IsSingle) (doc : Value)
    (front rest : String) : (field (front ++ "." ++ rest) op operand).eval doc = .ok true ↔
      ∃ mid, Value.Leads (Path.segments front) doc mid ∧ (field rest op operand).eval mid = .ok true := by
  simp only [eval_iff_leads hop hn hs, Path.segments_join, Value.leads_append]
  constructor
  · rintro ⟨leaf, ⟨mid, hf, hr⟩, hm⟩
    exact ⟨mid, hf, leaf, hr, hm⟩
  · rintro ⟨mid, hf, leaf, hr, hm⟩
    exact ⟨leaf, ⟨mid, hf, hr⟩, hm⟩

/-- An array satisfies a comparison behind a name exactly if one of its documents does. -/
theorem eval_array_iff (hop : op.Seeks) (hn : operand.isNothing = false) (hs : operand.IsSingle) {rest : String}
    (hrest : Path.StartsWithName rest) (items : List Value) : (field rest op operand).eval (.array items) = .ok true ↔
      ∃ entries, .document entries ∈ items ∧ (field rest op operand).eval (.document entries) = .ok true := by
  obtain ⟨first, more, hsegments⟩ := List.exists_cons_of_ne_nil (Path.segments_ne_nil rest)
  have hfirst : Path.index? first = none := by simpa [Path.StartsWithName, hsegments] using hrest
  simp only [eval_iff_leads hop hn hs, hsegments, Value.Leads, Value.step_array_iff hfirst]
  constructor
  · rintro ⟨leaf, ⟨next, ⟨entries, hm, hstep⟩, hl⟩, hw⟩
    exact ⟨entries, hm, leaf, ⟨next, hstep, hl⟩, hw⟩
  · rintro ⟨entries, hm, leaf, ⟨next, hstep, hl⟩, hw⟩
    exact ⟨leaf, ⟨next, ⟨entries, hm, hstep⟩, hl⟩, hw⟩

theorem eval_ne_iff (doc : Value) (path : String) : (ne path operand).eval doc = .ok true ↔
    ¬ (eq path operand).eval doc = .ok true := by
  rw [eval_ne, eval_eq]
  simp

/-- Behind the name of an array a path is followed in every document of the array: a comparison that seeks a value is
satisfied if and only if one of these documents satisfies it on the rest of the path, and an inequality if and only if
none of them satisfies the equality. The rest of the path may cross any number of further arrays. -/
theorem eval_fans_out {name rest : String} {entries : Document} {items : List Value} (hname : Path.IsName name)
    (hl : entries.lookup name = some (.array items)) (hrest : Path.StartsWithName rest)
    (hn : operand.isNothing = false) (hs : operand.IsSingle) :
    (∀ op : Comparison, op.Seeks → ((field (name ++ "." ++ rest) op operand).eval (.document entries) = .ok true ↔
      ∃ es, .document es ∈ items ∧ (field rest op operand).eval (.document es) = .ok true)) ∧
    ((ne (name ++ "." ++ rest) operand).eval (.document entries) = .ok true ↔
      ¬ ∃ es, .document es ∈ items ∧ (eq rest operand).eval (.document es) = .ok true) := by
  have hfront : ∀ mid, Value.Leads (Path.segments name) (.document entries) mid ↔ mid = .array items := by
    intro mid
    rw [Path.segments_name hname]
    constructor
    · rintro ⟨next, hstep, hmid⟩
      rw [Value.step_document_iff, hl] at hstep
      cases hstep
      exact hmid
    · rintro rfl
      exact ⟨_, .entry hl, rfl⟩
  have hseeks : ∀ op : Comparison, op.Seeks →
      ((field (name ++ "." ++ rest) op operand).eval (.document entries) = .ok true ↔
        ∃ es, .document es ∈ items ∧ (field rest op operand).eval (.document es) = .ok true) := by
    intro op hop
    rw [eval_join_iff hop hn hs, ← eval_array_iff hop hn hs hrest]
    simp only [hfront, exists_eq_left]
  exact ⟨hseeks, (eval_ne_iff ..).trans (not_congr (hseeks .eq .eq))⟩

/-- Orders with parts in several sizes: two more arrays are crossed, one of them with another array in it, and an item
that is no document is left out. -/
theorem eval_fans_out_sizes :
    let orders : List Value := [.document [("parts", .array [.document [("size", .int32 4)],
      .document [("size", .array [.int32 6, .array [.int32 9]])]])], .string "loose",
      .document [("name", .string "nut")]]
    let path := "orders" ++ "." ++ "parts.size"
    Path.IsName "orders" ∧ Path.StartsWithName "parts.size" ∧
    (gt path (.int32 8)).eval (.document [("orders", .array orders)]) = .ok true ∧
    (∃ es, .document es ∈ orders ∧ (gt "parts.size" (.int32 8)).eval (.document es) = .ok true) ∧
    (ne path (.int32 9)).eval (.document [("orders", .array orders)]) = .ok true ∧
    ¬ ∃ es, .document es ∈ orders ∧ (eq "parts.size" (.int32 9)).eval (.document es) = .ok true := by
  intro orders path
  have hname : Path.IsName "orders" := by decide
  have hrest : Path.StartsWithName "parts.size" := rfl
  have hsingle : ∀ i : Int32, (Value.int32 i).IsSingle := fun _ _ => Value.noConfusion
  have hgt : (gt path (.int32 8)).eval (.document [("orders", .array orders)]) = .ok true := by decide +kernel
  have hne : (ne path (.int32 9)).eval (.document [("orders", .array orders)]) = .ok true := by decide +kernel
  exact ⟨hname, hrest, hgt, ((eval_fans_out hname rfl hrest rfl (hsingle 8)).1 .gt (.range .gt)).1 hgt, hne,
    (eval_fans_out hname rfl hrest rfl (hsingle 9)).2.1 hne⟩

end Expr

end Dossier
