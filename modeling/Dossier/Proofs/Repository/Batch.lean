/-
Slugs for a whole list. To reserve one block of numbers for all entities that need a slug is as good as giving them
slugs one after the other: both succeed when the counter has room for all, with the same entities and the same counter.
When they fail, the list leaves its counter alone. The bounds of the block fit 64 bits wherever the counter stands.
-/
import Dossier.Proofs.Filter.Day
import Dossier.Proofs.Repository.Customers
import Dossier.Proofs.Repository.Save
import Dossier.Proofs.Store.Counters

namespace Dossier

namespace Store

variable {s : Store} {counter : String}

/-- The store with a counter set. -/
def setCounter (s : Store) (counter : String) (value : Int) : Store :=
  { s with counters := Entries.insert counter (Int64.ofInt value) s.counters }

theorem setCounter_setCounter (s : Store) (counter : String) (i j : Int) :
    (s.setCounter counter i).setCounter counter j = s.setCounter counter j := by
  unfold setCounter
  rw [Entries.insert_insert]

theorem fitsInt64_counterValue (s : Store) (counter : String) : Bounded.fitsInt64 (s.counterValue counter) = true :=
  Bounded.fitsInt64_toInt _

theorem counterValue_setCounter {i : Int} (h : Bounded.fitsInt64 i = true) :
    (s.setCounter counter i).counterValue counter = i := by
  unfold counterValue counter? setCounter
  dsimp only
  rw [Entries.lookup_insert_self, Option.getD_some, Bounded.toInt_ofInt h]

/-- Numbers are drawn if the counter has room for them. -/
theorem nextInSequence_run {increment : Int64} (hpos : 0 < increment.toInt)
    (hroom : s.counterValue counter + increment.toInt ≤ 0x7FFFFFFFFFFFFFFF) :
    nextInSequence counter increment s = .ok (Int64.ofInt (s.counterValue counter + increment.toInt))
      (s.setCounter counter (s.counterValue counter + increment.toInt)) := by
  have hfits := Bounded.fitsInt64_iff.1 (s.fitsInt64_counterValue counter)
  have hword : Bounded.int64? (s.counterValue counter + increment.toInt) =
      some (Int64.ofInt (s.counterValue counter + increment.toInt)) :=
    if_pos (Bounded.fitsInt64_iff.2 ⟨by omega, hroom⟩)
  have hadvance : nextInSequence counter increment = advance counter increment := if_neg (Int.not_le.2 hpos)
  unfold counterValue at hword ⊢
  rw [hadvance]
  unfold advance
  dsimp only
  rw [hword]
  rfl

end Store

namespace Repository

variable {E : Type} [Entity E] {r : Repository E} {stem : String} {e : E} {es : List E} {n : Nat} {s t : State}
  {fault : Fault}

/-! ## The counter of slugs -/

/-- The number that the counter of slugs stands at. -/
def lastNumber (r : Repository E) (s : State) : Int := s.store.counterValue r.slugCounter

/-- Whether the counter of slugs can advance by so much. -/
def HasRoom (r : Repository E) (s : State) (n : Nat) : Prop := r.lastNumber s + n ≤ 0x7FFFFFFFFFFFFFFF

theorem hasRoom_zero (r : Repository E) (s : State) : r.HasRoom s 0 :=
  Int.le_trans (Int.le_of_eq (Int.add_zero _)) (Bounded.fitsInt64_iff.1 (s.store.fitsInt64_counterValue _)).2

/-- The state after so many slugs have been given. A counter that no slug needs is not started. -/
def afterSlugs (r : Repository E) (s : State) (n : Nat) : State :=
  if n = 0 then s else s.withStore (s.store.setCounter r.slugCounter (r.lastNumber s + n))

theorem afterSlugs_zero (r : Repository E) (s : State) : r.afterSlugs s 0 = s := if_pos rfl

theorem afterSlugs_pos (hn : 0 < n) :
    r.afterSlugs s n = s.withStore (s.store.setCounter r.slugCounter (r.lastNumber s + n)) :=
  if_neg (by omega)

theorem lastNumber_fits (r : Repository E) (s : State) : Bounded.fitsInt64 (r.lastNumber s) = true :=
  s.store.fitsInt64_counterValue r.slugCounter

theorem lastNumber_afterSlugs (h : r.HasRoom s n) : r.lastNumber (r.afterSlugs s n) = r.lastNumber s + n := by
  have hfits := Bounded.fitsInt64_iff.1 (r.lastNumber_fits s)
  rcases Nat.eq_zero_or_pos n with rfl | hn
  · rw [afterSlugs_zero, Int.natCast_zero, Int.add_zero]
  · rw [afterSlugs_pos hn]
    exact Store.counterValue_setCounter (Bounded.fitsInt64_iff.2 ⟨by omega, h⟩)

/-- One slug and then some more are so many slugs. -/
theorem afterSlugs_succ (h : r.HasRoom s 1) (n : Nat) :
    r.afterSlugs (r.afterSlugs s 1) n = r.afterSlugs s (n + 1) := by
  rcases Nat.eq_zero_or_pos n with rfl | hn
  · rw [afterSlugs_zero]
  rw [afterSlugs_pos hn, lastNumber_afterSlugs h, afterSlugs_pos Nat.one_pos, afterSlugs_pos (Nat.succ_pos n)]
  change s.withStore ((s.store.setCounter r.slugCounter _).setCounter r.slugCounter _) = _
  rw [Store.setCounter_setCounter]
  congr 2
  omega

/-- As many slugs as there is room for are numbered on from where the counter stands. -/
theorem nextInSequence_slugs {increment : Int64} (hn : 0 < n) (hword : increment.toInt = n) (h : r.HasRoom s n) :
    Action.change (Store.nextInSequence r.slugCounter increment) s =
      .ok (Int64.ofInt (r.lastNumber s + n)) (r.afterSlugs s n) := by
  have hrun : Store.nextInSequence r.slugCounter increment s.store = _ :=
    Store.nextInSequence_run (by omega) (by rw [hword]; exact h)
  unfold Action.change
  rw [hrun, hword, afterSlugs_pos hn]
  rfl

/-- Who draws numbers had room for them. -/
theorem hasRoom_of_change {increment last : Int64} (hword : increment.toInt = n)
    (h : Action.change (Store.nextInSequence r.slugCounter increment) s = .ok last t) : r.HasRoom s n := by
  obtain ⟨-, hlast, -⟩ := Store.counterValue_nextInSequence (Action.change_ok h).1
  have hle := Int64.toInt_lt last
  unfold HasRoom lastNumber
  omega

/-! ## One after the other -/

theorem numberSlugs_of_needed (hn : Entity.needsSlug e = true) (k : Int) (es : List E) :
    numberSlugs stem k (e :: es) =
      Entity.withSlug e (slugText stem k) (Int64.ofInt k) :: numberSlugs stem (k + 1) es :=
  if_pos hn

theorem numberSlugs_of_unneeded (hn : ¬ Entity.needsSlug e = true) (k : Int) (es : List E) :
    numberSlugs stem k (e :: es) = e :: numberSlugs stem k es :=
  if_neg hn

theorem numberSlugs_idle (stem : String) : ∀ {es : List E} (k : Int), es.countP Entity.needsSlug = 0 →
    numberSlugs stem k es = es
  | [], _, _ => rfl
  | e :: es, k, h => by
    obtain ⟨hn, h⟩ := List.forall_mem_cons.1 (List.countP_eq_zero.1 h)
    rw [numberSlugs_of_unneeded hn, numberSlugs_idle stem k (List.countP_eq_zero.2 h)]

theorem assignSlug_idle (h : r.config.slugPrefix = none ∨ ¬ Entity.needsSlug e = true) (s : State) :
    r.assignSlug e s = .ok (e, false) s := by
  unfold assignSlug
  cases hp : r.config.slugPrefix with
  | none => rfl
  | some stem =>
    rw [hp] at h
    dsimp only
    rw [if_neg (h.resolve_left nofun)]
    rfl

theorem assignSlug_needed (hp : r.config.slugPrefix = some stem) (hn : Entity.needsSlug e = true)
    (h : r.HasRoom s 1) : r.assignSlug e s =
      .ok (Entity.withSlug e (slugText stem (r.lastNumber s + 1)) (Int64.ofInt (r.lastNumber s + 1)), true)
        (r.afterSlugs s 1) := by
  have hfits := Bounded.fitsInt64_iff.1 (r.lastNumber_fits s)
  have hnext : (Int64.ofInt (r.lastNumber s + 1)).toInt = r.lastNumber s + 1 :=
    Bounded.toInt_ofInt (Bounded.fitsInt64_iff.2 ⟨by omega, h⟩)
  unfold assignSlug
  rw [hp]
  dsimp only
  rw [if_pos hn, Action.bind_run (nextInSequence_slugs Nat.one_pos rfl h), Int.natCast_one, hnext]
  rfl

theorem mapM_assignSlug_run (hp : r.config.slugPrefix = some stem) :
    ∀ {es : List E} {s : State}, r.HasRoom s (es.countP Entity.needsSlug) →
      es.mapM r.assignSlug s = .ok ((numberSlugs stem (r.lastNumber s + 1) es).zip (es.map Entity.needsSlug))
        (r.afterSlugs s (es.countP Entity.needsSlug))
  | [], s, _ => rfl
  | e :: es, s, h => by
    by_cases hn : Entity.needsSlug e = true
    · rw [List.countP_cons_of_pos hn] at h ⊢
      have hone : r.HasRoom s 1 := by unfold HasRoom at h ⊢; omega
      have hlast := lastNumber_afterSlugs hone
      have hrest : r.HasRoom (r.afterSlugs s 1) (es.countP Entity.needsSlug) := by
        unfold HasRoom at h ⊢
        omega
      have ih := mapM_assignSlug_run hp hrest
      rw [afterSlugs_succ hone, hlast, Int.natCast_one] at ih
      rw [Action.mapM_cons_run (assignSlug_needed hp hn hone) ih, numberSlugs_of_needed hn, List.map_cons, hn,
        List.zip_cons_cons]
    · rw [List.countP_cons_of_neg hn] at h ⊢
      rw [Action.mapM_cons_run (assignSlug_idle (Or.inr hn) s) (mapM_assignSlug_run hp h), numberSlugs_of_unneeded hn,
        List.map_cons, Bool.eq_false_iff.2 hn, List.zip_cons_cons]

/-- Entities that have all been given a slug one after the other had room in the counter. -/
theorem hasRoom_of_mapM (hp : r.config.slugPrefix = some stem) : ∀ {es : List E} {s : State} {each : List (E × Bool)},
    es.mapM r.assignSlug s = .ok each t → r.HasRoom s (es.countP Entity.needsSlug)
  | [], s, _, _ => hasRoom_zero r s
  | e :: es, s, _, h => by
    obtain ⟨⟨c, flag⟩, u, rest, he, hes, rfl⟩ := Action.mapM_cons_ok h
    have ih := hasRoom_of_mapM hp hes
    by_cases hn : Entity.needsSlug e = true
    · rw [List.countP_cons_of_pos hn]
      cases assignSlug_ok he with
      | kept hk => exact absurd (hk.resolve_left (by rw [hp]; exact nofun)) (by rw [hn]; exact nofun)
      | given hp' hn' hs =>
        -- the rest had room for one less where the counter stood one higher
        obtain ⟨-, hnumber, hcounter, -⟩ := Store.counterValue_nextInSequence hs
        have hone : (1 : Int64).toInt = 1 := rfl
        unfold HasRoom lastNumber at ih ⊢
        dsimp only [State.withStore] at ih
        omega
    · rw [List.countP_cons_of_neg hn]
      rw [assignSlug_idle (Or.inr hn)] at he
      cases he
      exact ih

/-! ## All at once -/

/-- The number of entities that need a slug, as a word. -/
theorem count_word (hlen : es.length ≤ 0x7FFFFFFFFFFFFFFF) :
    (Int64.ofNat (es.countP Entity.needsSlug)).toInt = es.countP Entity.needsSlug := by
  have hle := List.countP_le_length (p := Entity.needsSlug) (l := es)
  exact Int64.toInt_ofNat_of_lt (by omega)

theorem assignSlugs_idle (h : r.config.slugPrefix = none ∨ es.countP Entity.needsSlug = 0) (s : State) :
    r.assignSlugs es s = .ok (es, 0) s := by
  unfold assignSlugs
  cases hp : r.config.slugPrefix with
  | none => rfl
  | some stem =>
    rw [hp] at h
    dsimp only
    rw [if_pos (h.resolve_left nofun)]
    rfl

theorem assignSlugs_run (hp : r.config.slugPrefix = some stem) (hlen : es.length ≤ 0x7FFFFFFFFFFFFFFF)
    (h : r.HasRoom s (es.countP Entity.needsSlug)) : r.assignSlugs es s =
      .ok (numberSlugs stem (r.lastNumber s + 1) es, es.countP Entity.needsSlug)
        (r.afterSlugs s (es.countP Entity.needsSlug)) := by
  have hfits := Bounded.fitsInt64_iff.1 (r.lastNumber_fits s)
  by_cases hc : es.countP Entity.needsSlug = 0
  · rw [assignSlugs_idle (Or.inr hc), numberSlugs_idle stem _ hc, hc, afterSlugs_zero]
  have hlast : (Int64.ofInt (r.lastNumber s + es.countP Entity.needsSlug)).toInt =
      r.lastNumber s + es.countP Entity.needsSlug :=
    Bounded.toInt_ofInt (Bounded.fitsInt64_iff.2 ⟨by omega, h⟩)
  unfold assignSlugs
  rw [hp]
  dsimp only
  rw [if_neg hc, Action.bind_run (nextInSequence_slugs (Nat.pos_of_ne_zero hc) (count_word hlen) h), hlast,
    Int.add_sub_cancel]
  rfl

theorem hasRoom_of_assignSlugs (hp : r.config.slugPrefix = some stem) (hlen : es.length ≤ 0x7FFFFFFFFFFFFFFF)
    {result : List E × Nat} (h : r.assignSlugs es s = .ok result t) : r.HasRoom s (es.countP Entity.needsSlug) := by
  by_cases hc : es.countP Entity.needsSlug = 0
  · rw [hc]
    exact hasRoom_zero r s
  unfold assignSlugs at h
  rw [hp] at h
  dsimp only at h
  rw [if_neg hc] at h
  obtain ⟨last, u, hdraw, -⟩ := Action.bind_ok h
  exact hasRoom_of_change (count_word hlen) hdraw

/-- A list that cannot be given its slugs draws no numbers. -/
theorem assignSlugs_error (h : r.assignSlugs es s = .error fault t) : t = s := by
  unfold assignSlugs at h
  cases hp : r.config.slugPrefix with
  | none => rw [hp] at h; cases h
  | some stem =>
    rw [hp] at h
    dsimp only at h
    split at h
    · cases h
    rcases Action.bind_error h with h | ⟨last, u, -, h⟩
    · obtain ⟨hdraw, hids⟩ := Action.change_error h
      rw [State.withStore_of_ids hids, (Store.nextInSequence_error hdraw).1]
      rfl
    · cases h

/-! ## Both ways -/

theorem length_numberSlugs (stem : String) : ∀ (k : Int) (es : List E), (numberSlugs stem k es).length = es.length
  | _, [] => rfl
  | k, e :: es => by
    unfold numberSlugs
    split <;> rw [List.length_cons, List.length_cons, length_numberSlugs stem _ es]

theorem mapM_assignSlug_idle (h : r.config.slugPrefix = none) (s : State) : ∀ es : List E,
    es.mapM r.assignSlug s = .ok (es.map (·, false)) s
  | [] => rfl
  | e :: es => by
    rw [Action.mapM_cons_run (assignSlug_idle (Or.inl h) s) (mapM_assignSlug_idle h s es), List.map_cons]

/-- What entities have become in turn, and how many of them have been given a slug. -/
def tally {α : Type} (each : List (α × Bool)) : List α × Nat := (each.map Prod.fst, each.countP Prod.snd)

theorem tally_zip {α : Type} {named : List α} {flags : List Bool} (h : named.length = flags.length) :
    tally (named.zip flags) = (named, flags.countP id) := by
  have hflags : (named.zip flags).countP Prod.snd = ((named.zip flags).map Prod.snd).countP id := by
    rw [List.countP_map]
    rfl
  unfold tally
  rw [hflags, List.map_fst_zip (Nat.le_of_eq h), List.map_snd_zip (Nat.le_of_eq h.symm)]

theorem tally_idle {α : Type} (as : List α) : tally (as.map (·, false)) = (as, 0) := by
  unfold tally
  rw [List.map_map, List.countP_map]
  simp [Function.comp_def]

theorem assignSlugs_iff_each (hlen : es.length ≤ 0x7FFFFFFFFFFFFFFF) {result : List E × Nat} :
    r.assignSlugs es s = .ok result t ↔ ∃ each, es.mapM r.assignSlug s = .ok each t ∧ tally each = result := by
  cases hp : r.config.slugPrefix with
  | none =>
    rw [assignSlugs_idle (Or.inl hp), mapM_assignSlug_idle hp]
    constructor
    · intro h
      cases h
      exact ⟨_, rfl, tally_idle es⟩
    · rintro ⟨each, h, rfl⟩
      cases h
      rw [tally_idle]
  | some stem =>
    -- with room both reach one state, and each tells by its success that there was room
    have hboth (h : r.HasRoom s (es.countP Entity.needsSlug)) : ∃ each, tally each =
        (numberSlugs stem (r.lastNumber s + 1) es, es.countP Entity.needsSlug) ∧
          es.mapM r.assignSlug s = .ok each (r.afterSlugs s (es.countP Entity.needsSlug)) := by
      refine ⟨_, ?_, mapM_assignSlug_run hp h⟩
      rw [tally_zip (by rw [length_numberSlugs, List.length_map]), List.countP_map]
      rfl
    constructor
    · intro h
      have hroom := hasRoom_of_assignSlugs hp hlen h
      obtain ⟨each, htally, heach⟩ := hboth hroom
      rw [assignSlugs_run hp hlen hroom] at h
      cases h
      exact ⟨each, heach, htally⟩
    · rintro ⟨each, h, rfl⟩
      have hroom := hasRoom_of_mapM hp h
      obtain ⟨each', htally, heach⟩ := hboth hroom
      rw [heach] at h
      cases h
      rw [assignSlugs_run hp hlen hroom, htally]

/-- The numbers that come up when a block that ends with a number is shared out: its size, what lies before it, and
what is handed out from the first number on. -/
def blockNumbers (last : Int) (n : Nat) : List Int :=
  n :: (last - n) :: (List.range n).map fun offset : Nat => last - n + 1 + offset

theorem blockNumbers_fit {increment last : Int64} (hword : increment.toInt = n)
    (h : Action.change (Store.nextInSequence r.slugCounter increment) s = .ok last t) :
    ∀ i ∈ blockNumbers last.toInt n, Bounded.fitsInt64 i = true := by
  obtain ⟨hpos, hlast, -⟩ := Store.counterValue_nextInSequence (Action.change_ok h).1
  have hbefore := Bounded.fitsInt64_iff.1 (r.lastNumber_fits s)
  have hsize := Bounded.fitsInt64_iff.1 (Bounded.fitsInt64_toInt increment)
  have hend := Bounded.fitsInt64_iff.1 (Bounded.fitsInt64_toInt last)
  unfold lastNumber at hbefore
  intro i hi
  rw [Bounded.fitsInt64_iff]
  simp only [blockNumbers, List.mem_cons, List.mem_map, List.mem_range] at hi
  rcases hi with rfl | rfl | ⟨offset, ho, rfl⟩ <;> omega

/-- To give slugs to a list is to give them to its entities one after the other: the one succeeds if and only if the
other does, and then both yield the same entities, the same number of slugs and the same state. When it fails it leaves
the state alone, and it also does when there is no prefix or nobody needs a slug. When a block is drawn, the numbers
that share it out fit 64 bits, whatever the counter stood at. A list is no longer than a signed word can count. -/
theorem assignSlugs_refines_each (r : Repository E) (hlen : es.length ≤ 0x7FFFFFFFFFFFFFFF) (s : State) :
    (∀ result t, r.assignSlugs es s = .ok result t ↔
      ∃ each, es.mapM r.assignSlug s = .ok each t ∧ tally each = result) ∧
    (∀ fault t, r.assignSlugs es s = .error fault t → t = s) ∧
    (r.config.slugPrefix = none ∨ (∀ e ∈ es, Entity.needsSlug e = false) → r.assignSlugs es s = .ok (es, 0) s) ∧
    ∀ last t,
      Action.change (Store.nextInSequence r.slugCounter (Int64.ofNat (es.countP Entity.needsSlug))) s = .ok last t →
        ∀ i ∈ blockNumbers last.toInt (es.countP Entity.needsSlug), Bounded.fitsInt64 i = true := by
  refine ⟨fun _ _ => assignSlugs_iff_each hlen, fun _ _ => assignSlugs_error, fun h => ?_, fun _ _ =>
    blockNumbers_fit (count_word hlen)⟩
  exact assignSlugs_idle (h.imp_right fun h => List.countP_eq_zero.2 fun e he => by rw [h e he]; exact nofun) s

end Repository

namespace Customer

open Repository

/-- A state in which the counter of customers has two numbers left. -/
def twoLeft : State :=
  { store := { counters := [("customers", 0x7FFFFFFFFFFFFFFD)] }, ids := { stream := fun n => .ofNat (n + 1) } }

/-- Customers who need the two numbers, with one between them who has a slug already. -/
def lastThree : List Customer := [ann, { bob with slug := some "B" }, cyd]

theorem slugs_of_lastThree : ∃ result t each,
    (repository { slugPrefix := "U" }).assignSlugs lastThree twoLeft = .ok result t ∧
      lastThree.mapM (repository { slugPrefix := "U" }).assignSlug twoLeft = .ok each t ∧ tally each = result ∧
        result.1.map Customer.slug = [some "U9223372036854775806", some "B", some "U9223372036854775807"] := by
  have hslugs : (((repository { slugPrefix := "U" }).assignSlugs lastThree).result? twoLeft).map
      (fun p => p.1.1.map Customer.slug) =
        some [some "U9223372036854775806", some "B", some "U9223372036854775807"] := rfl
  obtain ⟨⟨result, t⟩, hbatch, hslugs⟩ := Option.map_eq_some_iff.1 hslugs
  have hbatch := Action.run_of_result? hbatch
  have hlen : lastThree.length ≤ 0x7FFFFFFFFFFFFFFF := by decide
  obtain ⟨each, heach, htally⟩ :=
    ((assignSlugs_refines_each (repository { slugPrefix := "U" }) hlen twoLeft).1 _ _).1 hbatch
  exact ⟨result, t, each, hbatch, heach, htally, hslugs⟩

end Customer

end Dossier
