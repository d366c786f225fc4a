/-
Numbers that are drawn. A customer that is created draws the next number of the counter of slugs if it needs one, and
has got it then. Nothing else that an operation does to customers touches a counter.
-/
import Dossier.Proofs.Repository.Course
import Dossier.Proofs.Store.Counters

namespace Dossier

/-- One counter has been advanced; the others are as they were, and so is this one if it has not moved. -/
structure Store.Advanced (counter : String) (n : Nat) (s t : Store) : Prop where
  value : t.counterValue counter = s.counterValue counter + n
  others : ∀ other, other ≠ counter → t.counter? other = s.counter? other
  idle : n = 0 → t.counters = s.counters

namespace Store.Advanced

variable {counter : String} {m n : Nat} {s t u v : Store}

theorem nothing (h : t.counters = s.counters) : Advanced counter 0 s t where
  value := by rw [counterValue_congr h, Int.natCast_zero, Int.add_zero]
  others other _ := by unfold counter?; rw [h]
  idle _ := h

theorem trans (h : Advanced counter m s u) (h' : Advanced counter n u t) : Advanced counter (m + n) s t where
  value := by rw [h'.value, h.value, Int.natCast_add, Int.add_assoc]
  others other ho := (h'.others other ho).trans (h.others other ho)
  idle hz := (h'.idle (by omega)).trans (h.idle (by omega))

/-- What comes before and after may change anything but the counters. -/
theorem between (h : Advanced counter n u v) (hs : u.counters = s.counters) (ht : t.counters = v.counters) :
    Advanced counter n s t := by
  have hbefore : Advanced counter 0 s u := nothing hs
  have hall := (hbefore.trans h).trans (nothing ht)
  rwa [Nat.zero_add] at hall

end Store.Advanced

namespace Customer

open Repository

variable {config : Config} {c d e : Customer} {ctx : AuditContext} {force : Bool} {named : List Uuid}
  {s t u v : State} {fault : Fault}

/-! ## Parts of operations that leave the counters alone -/

theorem counters_of_cleared {r : Repository Customer} {own : Option Uuid} {store cleared : Store}
    (h : Cleared r e own store cleared) : cleared.counters = store.counters := by
  rcases h.eq_or_drop with rfl | ⟨id, rfl⟩ <;> rfl

theorem counters_of_recorded {r : Repository Customer} {records : List ChangeRecord}
    (h : r.Recorded records s t) : t.store.counters = s.store.counters := by
  rw [h.left]
  unfold recorded
  split <;> rfl

theorem counters_of_written {r : Repository Customer} {own : Uuid} {changes : List PropertyChange}
    (h : Written r c own changes ctx s t) : t.store.counters = s.store.counters := by
  cases h with
  | intro hi hin hr => exact (counters_of_recorded hr).trans (Store.counters_reviseRows ..)

/-- Only what creates a customer changes a counter. -/
theorem counters_of_course {dismissed : Option Uuid} (h : Course config [] dismissed s t) :
    t.store.counters = s.store.counters := by
  obtain ⟨v, records, hchange, hrec⟩ := h
  refine (counters_of_recorded hrec).trans ?_
  cases hchange with
  | vacates hv => exact hv.counters_eq
  | creates ctx hg => cases hg
  | rewrites ctx hv hr he hu => exact (Store.counters_reviseRows ..).trans hv.counters_eq
  | sets filter hv hl => exact (Store.counters_reviseRows ..).trans hv.counters_eq

theorem counters_of_failed_save (hs : (repository config).Sound s.store) (hf : Fresh (Stored.id? e).toList s t)
    (h : (repository config).createOrOverwrite e ctx s = .error fault t) : t.store.counters = s.store.counters := by
  rw [store_of_failed_save idKey_not_registered hs hf h]
  cases (repository config).retiredBySave? e s.store <;> rfl

theorem counters_of_failed_row (hs : (repository config).Sound s.store) (hm : (Stored.id? e).toList ⊆ named)
    (hf : Fresh named s t) (h : (repository config).importRow ctx force e s = .error fault t) :
    t.store.counters = s.store.counters := by
  rw [(store_of_failed_row idKey_not_registered hs hm hf h).1]
  exact counters_without ..

/-! ## Drawing a number -/

/-- The counter that numbers the slugs of customers. -/
def slugCounter (config : Config) : String := (repository config).slugCounter

/-- Whether a number is drawn for a customer when it is created: slugs are configured, and it has come without
identifier and without a slug that is not empty. -/
def drawsNumber (config : Config) (e : Customer) : Bool :=
  config.slugPrefix.isSome && (e.id.isNone && (e.slug.getD "").isEmpty)

theorem id_of_draws (h : drawsNumber config e = true) : e.id = none := by
  unfold drawsNumber at h
  simp only [Bool.and_eq_true, Option.isNone_iff_eq_none] at h
  exact h.2.1

theorem drawsNumber_of_id {id : Uuid} (h : e.id = some id) : drawsNumber config e = false := by
  rw [Bool.eq_false_iff]
  intro hd
  cases h.symm.trans (id_of_draws hd)

/-- A customer has come in as `e` and is `c` now. If it draws a number, the counter of slugs has advanced to the number
that it has got; otherwise no counter has moved. -/
structure Draws (config : Config) (e c : Customer) (s t : Store) : Prop where
  advanced : s.Advanced (slugCounter config) (if drawsNumber config e then 1 else 0) t
  sequence : drawsNumber config e = true →
    c.sequence.map Int64.toInt = some (s.counterValue (slugCounter config) + 1)

theorem Draws.idle {s t : Store} (hd : drawsNumber config e = false) (h : t.counters = s.counters) :
    Draws config e c s t where
  advanced := by rw [hd]; exact .nothing h
  sequence hdraws := by rw [hd] at hdraws; cases hdraws

/-- What comes before and after may change anything but the counters and the number of the customer. -/
theorem Draws.between {s t u v : Store} (h : Draws config e c u v) (hs : u.counters = s.counters)
    (ht : t.counters = v.counters) (hc : d.sequence = c.sequence) : Draws config e d s t where
  advanced := h.advanced.between hs ht
  sequence hd := by rw [hc, h.sequence hd, Store.counterValue_congr hs]

/-! ## Steps -/

/-- A customer that draws no number stays as it is; one that does gets the next number and the slug with it. -/
theorem Slugged.kept_or_given (h : Slugged (repository config) e s c t) :
    drawsNumber config e = false ∧ c = e ∧ t = s ∨ drawsNumber config e = true ∧ ∃ stem number store,
      config.slugPrefix = some stem ∧ Store.nextInSequence (slugCounter config) 1 s.store = .ok number store ∧
        c = Entity.withSlug e (slugText stem number.toInt) number ∧ t = s.withStore store := by
  have hdraws : drawsNumber config e = (config.slugPrefix.isSome && Entity.needsSlug e) := rfl
  rw [hdraws]
  cases h with
  | kept h =>
    refine Or.inl ⟨?_, rfl, rfl⟩
    rcases h with h | h
    · rw [show config.slugPrefix = none from h]
      rfl
    · rw [h, Bool.and_false]
  | @given stem number store hp hn hs =>
    refine Or.inr ⟨?_, stem, number, store, hp, hs, rfl, rfl⟩
    rw [show config.slugPrefix = some stem from hp, hn]
    rfl

theorem Slugged.draws (h : Slugged (repository config) e s c t) : Draws config e c s.store t.store := by
  rcases Slugged.kept_or_given h with ⟨hd, -, rfl⟩ | ⟨hd, stem, number, store, -, hs, rfl, rfl⟩
  · exact .idle hd rfl
  · obtain ⟨-, hv, ht, -⟩ := Store.counterValue_nextInSequence hs
    obtain ⟨-, -, rfl⟩ := Store.nextInSequence_ok hs
    exact {
      advanced := by
        rw [hd]
        exact { value := ht.trans hv
                others := fun other ho => (Entries.lookup_insert ..).trans (if_neg ho)
                idle := nofun }
      sequence := fun _ => congrArg some hv }

/-- Identifiers and stamps leave slug and number alone. -/
theorem slug_of_identified {slugged identified : Customer} {id : Uuid} (h : Identified slugged s identified id t)
    (ctx : AuditContext) : (stamp ctx true identified).slug = slugged.slug ∧
      (stamp ctx true identified).sequence = slugged.sequence := by
  cases h <;> exact ⟨rfl, rfl⟩

theorem Created.draws (h : Created (repository config) e ctx s c t) : Draws config e c s.store t.store := by
  cases h with
  | @intro cleared slugged identified id u v _ hc hs hi hn hr =>
    have hv : v.store.counters = u.store.counters := by rw [hi.store_eq]
    exact (Slugged.draws hs).between (counters_of_cleared hc) ((counters_of_recorded hr).trans hv)
      (slug_of_identified hi ctx).2

theorem save_draws (hs : (repository config).Sound s.store)
    (h : (repository config).createOrOverwrite e ctx s = .ok c t) : Draws config e c s.store t.store := by
  cases createOrOverwrite_ok hs.wf h with
  | created hv hg h => exact Created.draws h
  | overwritten hi hg h =>
    refine .idle (drawsNumber_of_id hi) ?_
    cases h with
    | same hv hc hd => exact counters_of_cleared hc
    | changed hv hc hd hne hw => exact (counters_of_written hw).trans (counters_of_cleared hc)

/-- A row draws a number for the customer that it creates, and for no other. -/
theorem importRow_draws (hs : (repository config).Sound s.store) {result : Customer × ImportOutcome}
    (h : (repository config).importRow ctx force e s = .ok result t) :
    result.2 = .created ∧ Draws config e result.1 s.store t.store ∨
      result.2 ≠ .created ∧ t.store.counters = s.store.counters := by
  cases importRow_ok hs.wf h with
  | created hp h => exact Or.inl ⟨rfl, Created.draws h⟩
  | replaced hp h => exact Or.inl ⟨rfl, (Created.draws h).between rfl rfl rfl⟩
  | merged hp h =>
    cases h with
    | ignored hv hforce => exact Or.inr ⟨nofun, rfl⟩
    | updated hv hne hc hw =>
      exact Or.inr ⟨nofun, (counters_of_written hw).trans (counters_of_cleared hc)⟩

end Customer

end Dossier
