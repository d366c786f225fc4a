/-
Sorting by directives that name a field more than once. A tie in one direction is a tie in the other, for all values:
so the first directive of a field decides, and the later ones never do. A list with one directive for each field orders
documents as the list that it was made from if it has the first ones. If it has others, two documents with nothing but
a flag in them show the difference.
-/
import Dossier.Filter.Request
import Dossier.Proofs.Query.Field
import Dossier.Proofs.Query.Sorting

namespace Dossier

variable {sort kept kept' : List SortKey} {key : SortKey} {a b : Value} {field : String}

/-! ## Ties -/

/-- Directives of one field tie for the same documents. -/
theorem SortKey.compare_eq_iff_of_field {key key' : SortKey} (h : key.field = key'.field) (a b : Value) :
    key.compare a b = .eq ↔ key'.compare a b = .eq := by
  have hswap := Comparand.sortCompare_swap (b.comparandAt key'.field) (a.comparandAt key'.field)
  unfold SortKey.compare
  rw [h]
  cases key.direction <;> cases key'.direction <;> simp [hswap, Ordering.swap_eq_eq]

/-- Directives under which two documents tie may be left out. -/
theorem compareDocuments_filter {p : SortKey → Bool} (h : ∀ key ∈ sort, p key = false → key.compare a b = .eq) :
    compareDocuments (sort.filter p) a b = compareDocuments sort a b := by
  induction sort with
  | nil => rfl
  | cons key rest ih =>
    rw [List.forall_mem_cons] at h
    cases hp : p key with
    | true => rw [List.filter_cons_of_pos hp, compareDocuments, compareDocuments, ih h.2]
    | false =>
      rw [List.filter_cons_of_neg (by simp [hp]), ih h.2, compareDocuments, h.1 hp]
      rfl

theorem compareDocuments_of_ties (h : ∀ key ∈ sort, key.compare a b = .eq) : compareDocuments sort a b = .eq := by
  rw [← compareDocuments_filter (p := fun _ => false) fun key hk _ => h key hk, List.filter_eq_nil_iff.2 (by simp)]
  rfl

/-! ## One directive for each field -/

/-- The directives of a list that name a field. -/
def directivesOf (field : String) (sort : List SortKey) : List SortKey := sort.filter (·.field == field)

/-- The place where a list first names a field. -/
def placeOf (sort : List SortKey) (field : String) : Nat := (sort.map (·.field)).idxOf field

/-- A list with one directive for each field that another list names: the one that is picked from the directives of the
field. The fields are in the order in which the other list first names them. -/
structure OneEach (pick : List SortKey → Option SortKey) (sort kept : List SortKey) : Prop where
  mem_iff (key : SortKey) : key ∈ kept ↔ pick (directivesOf key.field sort) = some key
  inOrder : kept.Pairwise fun k l => placeOf sort k.field < placeOf sort l.field

/-- A way to pick one of several directives. -/
structure Picks (pick : List SortKey → Option SortKey) : Prop where
  mem {l : List SortKey} {key : SortKey} : pick l = some key → key ∈ l
  eq_nil {l : List SortKey} : pick l = none → l = []

theorem picks_head? : Picks List.head? := ⟨List.mem_of_head?, List.head?_eq_none_iff.1⟩

theorem mem_directivesOf : key ∈ directivesOf field sort ↔ key ∈ sort ∧ key.field = field := by
  simp [directivesOf]

namespace OneEach

variable {pick : List SortKey → Option SortKey}

theorem fields_nodup (h : OneEach pick sort kept) : (kept.map (·.field)).Nodup := by
  rw [List.Nodup, List.pairwise_map]
  exact h.inOrder.imp fun hlt heq => absurd (heq ▸ hlt) (Nat.lt_irrefl _)

theorem mem_fields_iff (h : OneEach pick sort kept) (hpick : Picks pick) :
    field ∈ kept.map (·.field) ↔ field ∈ sort.map (·.field) := by
  simp only [List.mem_map]
  constructor
  · rintro ⟨key, hk, rfl⟩
    exact ⟨key, mem_directivesOf.1 (hpick.mem ((h.mem_iff key).1 hk))⟩
  · rintro ⟨key, hk, rfl⟩
    have hmem : key ∈ directivesOf key.field sort := mem_directivesOf.2 ⟨hk, rfl⟩
    cases hp : pick (directivesOf key.field sort) with
    | none => exact absurd (hpick.eq_nil hp ▸ hmem) List.not_mem_nil
    | some picked =>
      have hfield := (mem_directivesOf.1 (hpick.mem hp)).2
      exact ⟨picked, (h.mem_iff picked).2 (hfield ▸ hp), hfield⟩

/-- There is only one such list. -/
theorem unique (h : OneEach pick sort kept) (h' : OneEach pick sort kept') : kept = kept' := by
  have hperm : kept.Perm kept' := by
    rw [List.perm_ext_iff_of_nodup (h.fields_nodup.of_map _) (h'.fields_nodup.of_map _)]
    exact fun key => (h.mem_iff key).trans (h'.mem_iff key).symm
  refine List.Perm.eq_of_pairwise (fun k l _ _ hkl hlk => ?_) h.inOrder h'.inOrder hperm
  exact absurd hkl (Nat.lt_asymm hlk)

/-- The directive that is left of a field. -/
theorem head?_directivesOf (h : OneEach pick sort kept) (hpick : Picks pick) (field : String) :
    (directivesOf field kept).head? = pick (directivesOf field sort) := by
  cases hk : (directivesOf field kept).head? with
  | some key =>
    obtain ⟨hmem, rfl⟩ := mem_directivesOf.1 (List.mem_of_head? hk)
    exact ((h.mem_iff key).1 hmem).symm
  | none =>
    rw [List.head?_eq_none_iff] at hk
    cases hs : pick (directivesOf field sort) with
    | none => rfl
    | some key =>
      obtain ⟨-, rfl⟩ := mem_directivesOf.1 (hpick.mem hs)
      have hmem : key ∈ directivesOf key.field kept := mem_directivesOf.2 ⟨(h.mem_iff key).2 hs, rfl⟩
      exact absurd (hk ▸ hmem) List.not_mem_nil

end OneEach

/-! ## The first directive of each field -/

theorem placeOf_cons_self (first : SortKey) (rest : List SortKey) : placeOf (first :: rest) first.field = 0 :=
  List.idxOf_cons_self

theorem placeOf_cons_of_ne {first : SortKey} (h : first.field ≠ field) (rest : List SortKey) :
    placeOf (first :: rest) field = placeOf rest field + 1 :=
  List.idxOf_cons_ne _ h

theorem dedupSort_oneEach (sort : List SortKey) : OneEach List.head? sort (dedupSort sort) := by
  induction sort with
  | nil => exact ⟨by simp [dedupSort, directivesOf], .nil⟩
  | cons first rest ih =>
    constructor
    case mem_iff =>
      intro key
      rw [dedupSort, List.mem_cons, List.mem_filter, ih.mem_iff]
      by_cases h : first.field = key.field
      · simp [directivesOf, h, eq_comm]
      · have hne : key ≠ first := fun he => h (he ▸ rfl)
        simp [directivesOf, h, hne, Ne.symm h]
    case inOrder =>
      -- behind the first directive all places are one further on, and its field is not among those that are left
      have hplace : ∀ key ∈ (dedupSort rest).filter (·.field != first.field),
          placeOf (first :: rest) key.field = placeOf rest key.field + 1 := by
        intro key hk
        have hne : key.field ≠ first.field := by simpa using (List.mem_filter.1 hk).2
        exact placeOf_cons_of_ne hne.symm rest
      rw [dedupSort, List.pairwise_cons]
      constructor
      · intro key hk
        rw [placeOf_cons_self, hplace key hk]
        exact Nat.succ_pos _
      · refine (ih.inOrder.filter _).imp_of_mem fun hk hl hlt => ?_
        rw [hplace _ hk, hplace _ hl]
        exact Nat.succ_lt_succ hlt

/-- Leaving out all directives of a field but the first does not change the order. -/
theorem compareDocuments_dedupSort (sort : List SortKey) (a b : Value) :
    compareDocuments (dedupSort sort) a b = compareDocuments sort a b := by
  induction sort with
  | nil => rfl
  | cons first rest ih =>
    rw [dedupSort, compareDocuments, compareDocuments, ← ih]
    cases hfirst : first.compare a b with
    | lt => rfl
    | gt => rfl
    | eq =>
      refine compareDocuments_filter fun key _ hkey => ?_
      have hfield : key.field = first.field := by simpa using hkey
      exact (SortKey.compare_eq_iff_of_field hfield a b).2 hfirst

/-- The directives that a request is sorted by order documents as those that it gives, or the configured ones when it
gives none: each field that these name is named once, by its first directive, in the order of the first mentions. -/
theorem ordering_refines (c : Config) (sort : List SortKey) : ∃ effective : List SortKey,
    (sort ≠ [] → effective = sort) ∧ (sort = [] → effective = c.defaultSort) ∧
    (∀ a b, compareDocuments (c.ordering sort) a b = compareDocuments effective a b) ∧
    ((c.ordering sort).map (·.field)).Nodup ∧
    (∀ field, field ∈ (c.ordering sort).map (·.field) ↔ field ∈ effective.map (·.field)) ∧
    OneEach List.head? effective (c.ordering sort) := by
  let effective := if sort.isEmpty then c.defaultSort else sort
  have hone : OneEach List.head? effective (c.ordering sort) := dedupSort_oneEach effective
  refine ⟨effective, fun h => ?_, fun h => ?_, compareDocuments_dedupSort effective, hone.fields_nodup, fun field => ?_,
    hone⟩
  · exact if_neg (by simpa using h)
  · exact if_pos (by simpa using h)
  · exact hone.mem_fields_iff picks_head?

/-! ## Documents that differ in one field -/

/-- Paths are told apart by their segments. -/
theorem Path.segments_injective : Function.Injective segments := by
  have hjoin : ∀ cs : List Char, ['.'].intercalate (splitDots cs) = cs := by
    intro cs
    induction cs with
    | nil => rfl
    | cons c rest ih =>
      obtain ⟨first, more, hs⟩ := List.exists_cons_of_ne_nil (splitDots_ne_nil rest)
      rw [hs] at ih
      unfold splitDots
      rw [hs, ← ih]
      by_cases hc : c = '.'
      · simp [hc, List.intercalate]
      · cases more <;> simp [hc, List.intercalate]
  intro path path' h
  unfold segments at h
  rw [List.map_inj_right fun _ _ => String.ofList_inj.1] at h
  exact String.toList_inj.1 ((hjoin path.toList).symm.trans ((congrArg _ h).trans (hjoin path'.toList)))

/-- A value at the end of a path, with nothing beside it. -/
def Value.nested : List String → Value → Value
  | [], v => v
  | segment :: rest, v => .document [(segment, nested rest v)]

theorem Value.lookupSegments_nested (segments : List String) (v : Value) :
    lookupSegments segments (nested segments v) = some v := by
  induction segments with
  | nil => rfl
  | cons segment rest ih => simpa [nested, lookupSegments] using ih

/-- At another path there is nothing, or a document on the way. -/
theorem Value.lookupSegments_nested_other {path segments : List String} (h : path ≠ segments) :
    (∀ b, lookupSegments path (nested segments (.boolean b)) = none) ∨
      ∀ b, ∃ es, lookupSegments path (nested segments (.boolean b)) = some (.document es) := by
  induction segments generalizing path with
  | nil =>
    cases path with
    | nil => exact (h rfl).elim
    | cons => exact .inl fun _ => rfl
  | cons segment rest ih =>
    cases path with
    | nil => exact .inr fun b => ⟨_, rfl⟩
    | cons first more =>
      by_cases hf : first = segment
      · subst hf
        have hmore : more ≠ rest := fun he => h (he ▸ rfl)
        simpa [nested, lookupSegments] using ih hmore
      · exact .inl fun b => by simp [nested, lookupSegments, Entries.lookup_cons, hf]

/-- A document that has a flag at the end of a path, and nothing else. -/
def Value.flagged (path : String) (b : Bool) : Value := nested (Path.segments path) (.boolean b)

theorem Value.flagged_eq (path : String) (b : Bool) : ∃ es, flagged path b = .document es := by
  obtain ⟨first, rest, hs⟩ := List.exists_cons_of_ne_nil (Path.segments_ne_nil path)
  unfold flagged
  rw [hs]
  exact ⟨_, rfl⟩

theorem SortKey.compare_flagged (key : SortKey) : key.compare (.flagged key.field false) (.flagged key.field true) =
    match key.direction with
    | .ascending => .lt
    | .descending => .gt := by
  have hat (b : Bool) : (Value.flagged key.field b).comparandAt key.field = .boolean b := by
    unfold Value.comparandAt Value.lookup Value.flagged
    rw [Value.lookupSegments_nested]
    rfl
  unfold SortKey.compare
  rw [hat, hat]
  cases key.direction <;> rfl

/-- Directives of one field that put the flag in the same place are the same. -/
theorem SortKey.eq_of_compare_flagged {key key' : SortKey} (hfield : key.field = key'.field)
    (h : key.compare (.flagged key.field false) (.flagged key.field true) =
      key'.compare (.flagged key.field false) (.flagged key.field true)) : key = key' := by
  rw [compare_flagged, hfield, compare_flagged] at h
  cases key with
  | mk field direction =>
    cases key' with
    | mk field' direction' =>
      cases hfield
      cases direction with
      | ascending =>
        cases direction' with
        | ascending => rfl
        | descending => cases h
      | descending =>
        cases direction' with
        | ascending => cases h
        | descending => rfl

/-- Other directives do not see the difference. -/
theorem SortKey.compare_flagged_other (h : key.field ≠ field) (b c : Bool) :
    key.compare (.flagged field b) (.flagged field c) = .eq := by
  have htie (b c : Bool) : ((Value.flagged field b).comparandAt key.field).sortCompare
      ((Value.flagged field c).comparandAt key.field) = .eq := by
    unfold Value.comparandAt Value.lookup Value.flagged
    rcases Value.lookupSegments_nested_other (fun he => h (Path.segments_injective he)) with hnone | hsome
    · rw [hnone, hnone]
      rfl
    · obtain ⟨es, hb⟩ := hsome b
      obtain ⟨fs, hc⟩ := hsome c
      rw [hb, hc]
      rfl
  unfold SortKey.compare
  cases key.direction with
  | ascending => exact htie b c
  | descending => exact htie c b

/-! ## Other directives of each field -/

/-- Where all other directives tie the first one of a field decides. -/
theorem compareDocuments_of_others_tie (h : ∀ key ∈ sort, key.field ≠ field → key.compare a b = .eq) :
    compareDocuments sort a b = ((directivesOf field sort).head?.map (·.compare a b)).getD .eq := by
  have hothers : ∀ key ∈ sort, (key.field == field) = false → key.compare a b = .eq := fun key hk hf =>
    h key hk (by simpa using hf)
  rw [← compareDocuments_filter hothers]
  change compareDocuments (directivesOf field sort) a b = _
  cases hd : directivesOf field sort with
  | nil => rfl
  | cons first rest =>
    have hfield : ∀ key ∈ first :: rest, key.field = field := fun key hk => (mem_directivesOf.1 (hd ▸ hk)).2
    rw [compareDocuments, List.head?_cons, Option.map_some, Option.getD_some]
    cases hfirst : first.compare a b with
    | lt => rfl
    | gt => rfl
    | eq =>
      rw [List.forall_mem_cons] at hfield
      refine compareDocuments_of_ties fun key hk => ?_
      exact (SortKey.compare_eq_iff_of_field ((hfield.2 key hk).trans hfield.1.symm) a b).2 hfirst

namespace OneEach

variable {pick : List SortKey → Option SortKey}

/-- One directive for each field orders documents as all directives do if it is the first of the field. -/
theorem orders (h : OneEach pick sort kept)
    (hfirst : ∀ field, pick (directivesOf field sort) = (directivesOf field sort).head?) (a b : Value) :
    compareDocuments kept a b = compareDocuments sort a b := by
  have hkept : OneEach List.head? sort kept := ⟨fun key => hfirst key.field ▸ h.mem_iff key, h.inOrder⟩
  rw [hkept.unique (dedupSort_oneEach sort), compareDocuments_dedupSort]

/-- If it is not there are two documents, with nothing but a flag in them, that it orders differently. -/
theorem first_of_orders (h : OneEach pick sort kept) (hpick : Picks pick)
    (horders : ∀ a b : Document, compareDocuments kept (.document a) (.document b) =
      compareDocuments sort (.document a) (.document b)) (field : String) :
    pick (directivesOf field sort) = (directivesOf field sort).head? := by
  obtain ⟨es, hes⟩ := Value.flagged_eq field false
  obtain ⟨fs, hfs⟩ := Value.flagged_eq field true
  -- all other directives tie, so either list decides by the one that it has first of the field
  have hdecide := horders es fs
  rw [← hes, ← hfs, compareDocuments_of_others_tie fun key _ hne => SortKey.compare_flagged_other hne ..,
    compareDocuments_of_others_tie fun key _ hne => SortKey.compare_flagged_other hne ..,
    h.head?_directivesOf hpick] at hdecide
  cases hp : pick (directivesOf field sort) with
  | none => rw [hpick.eq_nil hp, List.head?_nil]
  | some picked =>
    cases hd : (directivesOf field sort).head? with
    | none =>
      rw [List.head?_eq_none_iff] at hd
      exact absurd (hd ▸ hpick.mem hp) List.not_mem_nil
    | some first =>
      obtain ⟨-, hfirst⟩ := mem_directivesOf.1 (List.mem_of_head? hd)
      obtain ⟨-, rfl⟩ := mem_directivesOf.1 (hpick.mem hp)
      rw [hp, hd, Option.map_some, Option.map_some, Option.getD_some, Option.getD_some] at hdecide
      rw [SortKey.eq_of_compare_flagged hfirst.symm hdecide]

end OneEach

end Dossier
