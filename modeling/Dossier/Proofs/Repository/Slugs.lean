/-
Slugs are given once. In a run from an empty store no number is handed out twice, also not after
deletions, and the slugs of the stored customers are distinct and made from their numbers.
-/
import Dossier.Proofs.Repository.Numbered

namespace Dossier

/-- The stored customers. -/
def Store.customers (s : Store) : List Customer := (s.rows "customers").filterMap fun row => Customer.ofValue? row.doc

namespace Customer

open Repository

variable {config : Config} {stem : String} {ctx : AuditContext} {force : Bool} {named : List Uuid} {s : State}

/-! ## Calls -/

/-- Every row of an import is entitled to its slug when its turn comes. -/
def RowsEntitled (config : Config) (ctx : AuditContext) (force : Bool) : List Customer → State → Prop
  | [], _ => True
  | e :: es, s => Entitled config s.store e ∧
    match (repository config).importRow ctx force e s with
    | .ok _ u => RowsEntitled config ctx force es u
    | .error _ _ => True

/-- Who brings neither slug nor number along is entitled to that. -/
theorem RowsEntitled.of_plain : ∀ {es : List Customer} {s : State},
    (∀ e ∈ es, e.slug = none ∧ e.sequence = none) → RowsEntitled config ctx force es s
  | [], _, _ => trivial
  | e :: es, s, h => by
    rw [List.forall_mem_cons] at h
    refine ⟨Or.inl h.1, ?_⟩
    split
    · exact of_plain h.2
    · trivial

/-- Whoever a call hands in to be stored as a whole is entitled to its slug at the moment it is processed. -/
def CallEntitled (config : Config) (s : State) : Call Customer → Prop
  | .write (.save e) _ => Entitled config s.store e
  | .bulkImport es ctx force =>
    es.forM Entity.validate = .ok () → RowsEntitled config (ctx.withSource .imported) force es s
  | _ => True

theorem rows_numbered (hdef : config.UsesDefaultFields) (hp : config.slugPrefix = some stem) {es : List Customer}
    (hs : (repository config).Sound s.store) (hn : Numbered config stem s.store)
    (he : RowsEntitled config ctx force es s) (hm : es.filterMap Customer.id ⊆ named)
    (hf : Fresh named s ((es.mapM ((repository config).importRow ctx force)).leaves s)) :
    Numbered config stem ((es.mapM ((repository config).importRow ctx force)).leaves s).store ∧
      Issues config s.store ((es.mapM ((repository config).importRow ctx force)).leaves s).store
        (rowNumbers config ctx force es s) := by
  revert hn he
  refine importRows_induction idKey_not_registered (motive := fun es s t => Numbered config stem s.store →
    RowsEntitled config ctx force es s →
      Numbered config stem t.store ∧ Issues config s.store t.store (rowNumbers config ctx force es s))
    (fun s hn _ => ⟨hn, .nothing rfl⟩) ?_ ?_ hs hm hf
  · intro e es s t fault hs hme hf hx hn he
    unfold RowsEntitled at he
    unfold rowNumbers
    rw [hx]
    have hcourse := importRow_course hdef hs hme (by rw [Action.leaves_error hx]; exact hf)
    rw [Action.leaves_error hx] at hcourse
    exact ⟨hcourse.numbered hp hs (List.forall_mem_singleton.2 he.1) hn,
      .nothing (counters_of_failed_row hs hme hf hx)⟩
  · intro e es s u t result hs hme hf hx hrest hn he
    unfold RowsEntitled at he
    unfold rowNumbers
    rw [hx] at he ⊢
    dsimp only at he ⊢
    have hcourse := importRow_course hdef hs hme (by rw [Action.leaves_ok hx]; exact hf)
    rw [Action.leaves_ok hx] at hcourse
    obtain ⟨hafter, hissued⟩ := hrest (hcourse.numbered hp hs (List.forall_mem_singleton.2 he.1) hn) he.2
    exact ⟨hafter, (importRow_issues hp hs hx).trans hissued⟩

/-- A call hands out the next numbers, and the numbers of the stored customers stay distinct. -/
theorem call_numbered {c : Call Customer} (hdef : config.UsesDefaultFields) (hp : config.slugPrefix = some stem)
    (hs : (repository config).Sound s.store) (hn : Numbered config stem s.store) (he : CallEntitled config s c)
    (hl : ∀ es, c = .assignSlugs es → es.length < 2 ^ 64) (hf : Fresh c.named s (c.after (repository config) s)) :
    Numbered config stem (c.after (repository config) s).store ∧
      Issues config s.store (c.after (repository config) s).store (callNumbers config s c) := by
  -- what stores no customer as a whole hands out no number
  have idle : ∀ dismissed : Option Uuid, callNumbers config s c = [] →
      Course config [] dismissed s (c.after (repository config) s) →
      Numbered config stem (c.after (repository config) s).store ∧
        Issues config s.store (c.after (repository config) s).store (callNumbers config s c) :=
    fun _ hnone hcourse =>
      ⟨hcourse.numbered hp hs (List.forall_mem_nil _) hn, hnone ▸ .nothing (counters_of_course hcourse)⟩
  cases c with
  | write w ctx =>
    rcases w.save_or_patch (repository config) ctx with ⟨e, rfl⟩ | ⟨hw, find, requested, hfind, hrun⟩
    · have hcourse : Course config [e] none s _ := save_course hdef hs hf
      exact ⟨hcourse.numbered hp hs (List.forall_mem_singleton.2 he) hn, save_issues hp hs hf⟩
    · have hnone : callNumbers config s (.write w ctx) = [] := by
        cases w with
        | save e => exact (hw trivial).elim
        | _ => rfl
      refine idle none hnone ?_
      unfold Call.after at hf ⊢
      dsimp only at hf ⊢
      rw [hrun] at hf ⊢
      exact patch_course hfind hs hf
  | bulkImport es ctx force =>
    unfold Call.after bulkImport at hf ⊢
    unfold CallEntitled at he
    unfold callNumbers
    dsimp only at hf he ⊢
    rw [Action.leaves_bind] at hf ⊢
    cases hv : es.forM Entity.validate with
    | error fault => exact ⟨hn, .nothing rfl⟩
    | ok u =>
      rw [hv] at hf
      exact rows_numbered hdef hp hs hn (he hv) (List.Subset.refl _) hf
  | patchMany filter requested properties => exact idle none rfl (patchMany_course hs)
  | softDelete id ctx => exact idle none rfl (softDelete_course hdef hs hf)
  | delete id ctx => exact idle _ rfl (delete_course hs hf)
  | reserve counter increment =>
    have hissued : Issues config s.store _ _ := reserve_issues counter increment
    obtain ⟨counters, hr⟩ := leaves_reserve counter increment s
    refine ⟨hn.of_issues hissued ?_, hissued⟩
    unfold Call.after
    dsimp only
    rw [hr]
    rfl
  | assignSlugs es =>
    have hissued := assignSlugs_issues (s := s) hp hn.started (hl es rfl)
    obtain ⟨counters, hr⟩ := leaves_assignSlugs (repository config) es s
    refine ⟨hn.of_issues hissued ?_, hissued⟩
    unfold Call.after
    dsimp only
    rw [hr]
    rfl

/-! ## Runs -/

/-- The numbers that calls hand out, one after the other. -/
def runNumbers (config : Config) : State → List (Call Customer) → List Int
  | _, [] => []
  | s, c :: calls => callNumbers config s c ++ runNumbers config (c.after (repository config) s) calls

/-- Whether all calls are entitled to the slugs that they bring along. -/
def RunEntitled (config : Config) : State → List (Call Customer) → Prop
  | _, [] => True
  | s, c :: calls => CallEntitled config s c ∧ RunEntitled config (c.after (repository config) s) calls

theorem run_numbered (hdef : config.UsesDefaultFields) (hp : config.slugPrefix = some stem) :
    ∀ {calls : List (Call Customer)} {s : State}, (repository config).Sound s.store → Numbered config stem s.store →
      Call.AllFresh (repository config) s calls → RunEntitled config s calls →
      (∀ es, .assignSlugs es ∈ calls → es.length < 2 ^ 64) →
      ((repository config).Sound (Call.afterAll (repository config) s calls).store ∧
        Numbered config stem (Call.afterAll (repository config) s calls).store) ∧
        Issues config s.store (Call.afterAll (repository config) s calls).store (runNumbers config s calls)
  | [], _, hs, hn, _, _, _ => ⟨⟨hs, hn⟩, .nothing rfl⟩
  | c :: calls, s, hs, hn, hf, he, hl => by
    obtain ⟨hnext, hissued⟩ := call_numbered hdef hp hs hn he.1 (fun es hc => hl es (hc ▸ List.mem_cons_self ..)) hf.1
    have hsound := (after_effects idKey_not_registered hs hf.1.distinct).sound idKey_not_registered hf.1.distinct hs
    obtain ⟨hlast, hmore⟩ := run_numbered hdef hp hsound hnext hf.2 he.2 fun es hm => hl es (List.mem_cons_of_mem _ hm)
    exact ⟨hlast, hissued.trans hmore⟩

/-- The number of a slug can be read in it. -/
theorem slugText_inj {m n : Int} (hm : 0 ≤ m) (hn : 0 ≤ n) (h : slugText stem m = slugText stem n) : m = n := by
  unfold slugText at h
  rw [String.append_right_inj, Int.toString_eq_repr, Int.toString_eq_repr, Int.repr_eq_if, Int.repr_eq_if, if_pos hm,
    if_pos hn] at h
  have hdigits := congrArg (fun text => Nat.ofDigitChars 10 text.toList 0) h
  simp only [Nat.toList_repr, Nat.ofDigitChars_ten_toDigits] at hdigits
  omega

/-- A customer with a slug is stored with the number that the slug is made from. -/
theorem Numbered.number_of_slug {store : Store} {row : Row} {slug : String} (h : Numbered config stem store)
    (hr : row ∈ store.rows (Stored.collection Customer)) (hs : (ofValue? row.doc).bind Customer.slug = some slug) :
    ∃ n : Int64, 1 ≤ n.toInt ∧ slug = slugText stem n.toInt ∧ Carries stem (some n) row.doc := by
  obtain ⟨c, hc, hslug⟩ := Option.bind_eq_some_iff.1 hs
  obtain ⟨number, hcar, hb⟩ := h.carried row hr
  rw [(hcar.read hc).2] at hslug
  obtain ⟨n, rfl, rfl⟩ := Option.map_eq_some_iff.1 hslug
  exact ⟨n, (hb n rfl).1, rfl, hcar⟩

/-- The slugs of stored customers are distinct since their numbers are. -/
theorem Numbered.slugs_nodup {store : Store} (h : Numbered config stem store) (hw : store.WF) :
    (store.customers.filterMap Customer.slug).Nodup := by
  unfold Store.customers
  rw [List.filterMap_filterMap]
  have hids : (store.rows "customers").Pairwise fun a b => a.id ≠ b.id := List.pairwise_map.1 (hw "customers").ids
  refine List.pairwise_filterMap.2 (hids.imp_of_mem fun {a b} ha hb hne slug hs other ho he => ?_)
  obtain ⟨m, hfirst, rfl, hm⟩ := h.number_of_slug ha hs
  obtain ⟨n, hfirst', rfl, hn⟩ := h.number_of_slug hb ho
  rw [Int64.toInt_inj.1 (slugText_inj (by omega) (by omega) he)] at hm
  exact hne (h.distinct a ha b hb n hm hn)

/-- No number is handed out twice in a run from an empty store, also not by calls that fail halfway, and the counter
tells how many have been. The slugs of the customers that are stored after the run are distinct, and each is made
from the number of its customer, which lies between one and the counter. Lists are no longer than a machine word
can count. -/
theorem slugs_unique {ids : IdSupply} {calls : List (Call Customer)} (hdef : config.UsesDefaultFields)
    (hp : config.slugPrefix = some stem) (hf : Call.AllFresh (repository config) { ids } calls)
    (he : RunEntitled config { ids } calls) (hl : ∀ es, .assignSlugs es ∈ calls → es.length < 2 ^ 64) :
    ((runNumbers config { ids } calls).Nodup ∧
      (Call.afterAll (repository config) { ids } calls).store.counterValue (slugCounter config) =
        (runNumbers config { ids } calls).length) ∧
      ((Call.afterAll (repository config) { ids } calls).store.customers.filterMap Customer.slug).Nodup ∧
      ∀ c ∈ (Call.afterAll (repository config) { ids } calls).store.customers,
        c.slug = c.sequence.map (fun n => slugText stem n.toInt) ∧
        ∀ n ∈ c.sequence, 1 ≤ n.toInt ∧
          n.toInt ≤ (Call.afterAll (repository config) { ids } calls).store.counterValue (slugCounter config) := by
  obtain ⟨⟨hs, hn⟩, n, hnumbers, hcounter⟩ := run_numbered hdef hp (sound_empty _) (.empty config stem) hf he hl
  have hstart : Store.counterValue {} (slugCounter config) = 0 := rfl
  refine ⟨⟨hnumbers ▸ numbersAfter_nodup _ n, ?_⟩, hn.slugs_nodup hs.wf, fun c hc => ?_⟩
  · rw [hcounter, hnumbers, numbersAfter_length, hstart, Int.zero_add]
  obtain ⟨row, hr, hread⟩ := List.mem_filterMap.1 hc
  obtain ⟨number, hcar, hb⟩ := hn.carried row hr
  obtain ⟨rfl, hslug⟩ := hcar.read hread
  exact ⟨hslug, hb⟩

/-- Two customers are stored, blocks of numbers are reserved, the first customer is deleted, the second one is saved
with its slug, and another one comes. -/
def season : List (Call Customer) :=
  [.write (.save ann) morning, .bulkImport [bob] morning false, .reserve "customers" 3, .assignSlugs [ann, cyd],
    .delete (.ofNat 1) morning,
    .write (.save { bob with id := some (.ofNat 3), slug := some "U2", city := some "Bern" }) morning,
    .write (.save cyd) morning]

theorem slugs_of_season :
    (afterCalls { slugPrefix := "U" } season).store.customers.filterMap Customer.slug = ["U2", "U8"] ∧
    (runNumbers { slugPrefix := "U" } { ids := { stream := fun n => .ofNat (n + 1) } } season).Nodup ∧
    ∀ c ∈ (afterCalls { slugPrefix := "U" } season).store.customers, ∀ n ∈ c.sequence, 1 ≤ n.toInt ∧ n.toInt ≤ 8 := by
  have hf : Call.AllFresh (repository { slugPrefix := "U" }) { ids := { stream := fun n => .ofNat (n + 1) } } season :=
    by decide +kernel
  have he : RunEntitled { slugPrefix := "U" } { ids := { stream := fun n => .ofNat (n + 1) } } season :=
    ⟨Or.inl ⟨rfl, rfl⟩, fun _ => .of_plain (by simp [bob]), trivial, trivial, trivial,
      Or.inr ⟨.ofNat 3, rfl, by decide +kernel⟩, Or.inl ⟨rfl, rfl⟩, trivial⟩
  have hl : ∀ es, Call.assignSlugs es ∈ season → es.length < 2 ^ 64 := by simp [season]
  obtain ⟨⟨hnumbers, -⟩, -, hcustomers⟩ := slugs_unique ⟨rfl, rfl, rfl, rfl, rfl⟩ rfl hf he hl
  have hcounter : (afterCalls { slugPrefix := "U" } season).store.counterValue
      (slugCounter { slugPrefix := "U" }) = 8 := by decide +kernel
  refine ⟨by decide +kernel, hnumbers, fun c hc n hn => ?_⟩
  rw [← hcounter]
  exact (hcustomers c hc).2 n hn

end Customer

end Dossier
