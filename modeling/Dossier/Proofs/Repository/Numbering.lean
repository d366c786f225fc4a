/-
The numbers that are handed out. Every call hands out the numbers that its counter advances over,
each of them once and in order, so that no number is ever handed out again.
-/
import Dossier.Proofs.Repository.Drawing
import Mathlib.Algebra.Group.Nat.Defs

namespace Dossier

/-- The numbers that come after a number. -/
def numbersAfter (k : Int) (n : Nat) : List Int := (List.range n).map fun i : Nat => k + 1 + i

theorem numbersAfter_length (k : Int) (n : Nat) : (numbersAfter k n).length = n := by
  unfold numbersAfter
  rw [List.length_map, List.length_range]

theorem numbersAfter_add (k : Int) (m n : Nat) :
    numbersAfter k (m + n) = numbersAfter k m ++ numbersAfter (k + m) n := by
  unfold numbersAfter
  rw [List.range_add, List.map_append, List.map_map]
  refine congrArg _ (List.map_congr_left fun i _ => ?_)
  simp only [Function.comp_apply, Int.natCast_add]
  omega

theorem numbersAfter_nodup (k : Int) (n : Nat) : (numbersAfter k n).Nodup :=
  List.nodup_range.map fun i j h => by
    have h : k + 1 + (i : Int) = k + 1 + j := h
    omega

namespace Customer

open Repository

variable {config : Config} {stem : String} {c e : Customer} {ctx : AuditContext} {force : Bool}
  {given more : List Int} {s t : State} {fault : Fault}

/-! ## Counting up -/

/-- Numbers have been handed out that the counter of slugs has advanced over. -/
def Issues (config : Config) (s t : Store) (given : List Int) : Prop :=
  ∃ n : Nat, given = numbersAfter (s.counterValue (slugCounter config)) n ∧
    t.counterValue (slugCounter config) = s.counterValue (slugCounter config) + n

theorem Issues.nothing {s t : Store} (h : t.counters = s.counters) : Issues config s t [] :=
  ⟨0, rfl, by rw [Store.counterValue_congr h, Int.natCast_zero, Int.add_zero]⟩

theorem Issues.trans {s t u : Store} (h : Issues config s u given) (h' : Issues config u t more) :
    Issues config s t (given ++ more) := by
  obtain ⟨m, rfl, hm⟩ := h
  obtain ⟨n, rfl, hn⟩ := h'
  refine ⟨m + n, ?_, ?_⟩
  · rw [numbersAfter_add, hm]
  · rw [hn, hm, Int.natCast_add]
    omega

/-! ## What a customer is given -/

/-- The number that has been given to a customer that needed one. -/
def handedOut (e c : Customer) : List Int := if Entity.needsSlug e then (c.sequence.map Int64.toInt).toList else []

theorem Draws.issues {s t : Store} (hp : config.slugPrefix = some stem) (h : Draws config e c s t) :
    Issues config s t (handedOut e c) := by
  -- with slugs configured, those draw a number that need a slug
  have hneeds : drawsNumber config e = Entity.needsSlug e := by
    unfold drawsNumber
    rw [hp]
    rfl
  have hvalue := h.advanced.value
  have hsequence := h.sequence
  unfold handedOut
  rw [hneeds] at hvalue hsequence
  cases hn : Entity.needsSlug e with
  | false =>
    rw [hn] at hvalue
    exact ⟨0, rfl, hvalue⟩
  | true =>
    rw [hn] at hvalue
    refine ⟨1, ?_, hvalue⟩
    rw [if_pos rfl, hsequence hn]
    show [_] = [_ + 1 + (0 : Int)]
    rw [Int.add_zero]

/-! ## What a call hands out -/

/-- The numbers that the rows of an import hand out: those of the customers that it creates. -/
def rowNumbers (config : Config) (ctx : AuditContext) (force : Bool) : List Customer → State → List Int
  | [], _ => []
  | e :: es, s =>
    match (repository config).importRow ctx force e s with
    | .ok (c, outcome) u =>
      (if outcome = .created then handedOut e c else []) ++ rowNumbers config ctx force es u
    | .error _ _ => []

/-- The numbers that a call hands out. Whoever reserves a block owns all of it. -/
def callNumbers (config : Config) (s : State) : Call Customer → List Int
  | .write (.save e) ctx =>
    match (repository config).createOrOverwrite e ctx s with
    | .ok c _ => handedOut e c
    | .error _ _ => []
  | .bulkImport es ctx force =>
    match es.forM Entity.validate with
    | .ok _ => rowNumbers config (ctx.withSource .imported) force es s
    | .error _ => []
  | .reserve counter increment =>
    match Action.change (Store.nextInSequence counter increment) s with
    | .ok last _ =>
      if counter = slugCounter config then numbersAfter (last.toInt - increment.toInt) increment.toInt.toNat
      else []
    | .error _ _ => []
  | .assignSlugs es =>
    match (repository config).assignSlugs es s with
    | .ok (assigned, _) _ => (List.zipWith handedOut es assigned).flatten
    | .error _ _ => []
  | _ => []

theorem save_issues (hp : config.slugPrefix = some stem) (hs : (repository config).Sound s.store)
    (hf : Fresh (Stored.id? e).toList s (((repository config).createOrOverwrite e ctx).leaves s)) :
    Issues config s.store (((repository config).createOrOverwrite e ctx).leaves s).store
      (callNumbers config s (.write (.save e) ctx)) := by
  unfold callNumbers
  dsimp only
  cases hx : (repository config).createOrOverwrite e ctx s with
  | ok c t =>
    rw [Action.leaves_ok hx]
    exact (save_draws hs hx).issues hp
  | error fault t =>
    rw [Action.leaves_error hx] at hf ⊢
    exact .nothing (counters_of_failed_save hs hf hx)

/-- A row hands out the number of the customer that it creates, and no other. -/
theorem importRow_issues (hp : config.slugPrefix = some stem) (hs : (repository config).Sound s.store)
    {result : Customer × ImportOutcome} (h : (repository config).importRow ctx force e s = .ok result t) :
    Issues config s.store t.store (if result.2 = .created then handedOut e result.1 else []) := by
  rcases importRow_draws hs h with ⟨hcreated, hdraws⟩ | ⟨hother, hcounters⟩
  · rw [if_pos hcreated]
    exact hdraws.issues hp
  · rw [if_neg hother]
    exact .nothing hcounters

theorem reserve_issues (counter : String) (increment : Int64) :
    Issues config s.store ((Action.change (Store.nextInSequence counter increment)).leaves s).store
      (callNumbers config s (.reserve counter increment)) := by
  unfold callNumbers
  dsimp only
  cases hx : Action.change (Store.nextInSequence counter increment) s with
  | ok last t =>
    rw [Action.leaves_ok hx]
    dsimp only
    obtain ⟨hpos, hv, ht, hother⟩ := Store.counterValue_nextInSequence (Action.change_ok hx).1
    split
    · rename_i hc
      subst hc
      refine ⟨increment.toInt.toNat, ?_, ?_⟩
      · rw [hv, Int.add_sub_cancel]
      · rw [ht, hv, Int.toNat_of_nonneg (by omega)]
    · rename_i hc
      refine ⟨0, rfl, ?_⟩
      rw [hother _ fun he => hc he.symm, Int.natCast_zero, Int.add_zero]
  | error fault t =>
    rw [Action.leaves_error hx]
    refine .nothing ?_
    rw [(Store.nextInSequence_error (Action.change_error hx).1).1]

/-- Consecutive numbers are handed out in order to those that need one. -/
theorem handedOut_numberSlugs (stem : String) : ∀ (es : List Customer) (k : Int), 0 ≤ k →
    k + es.countP Entity.needsSlug ≤ 0x7FFFFFFFFFFFFFFF →
    (List.zipWith handedOut es (numberSlugs stem (k + 1) es)).flatten = numbersAfter k (es.countP Entity.needsSlug)
  | [], _, _, _ => rfl
  | e :: es, k, hk, hle => by
    unfold numberSlugs
    by_cases hn : Entity.needsSlug e = true
    · rw [List.countP_cons_of_pos hn, Int.natCast_add, Int.natCast_one] at hle
      rw [if_pos hn, List.countP_cons_of_pos hn, Nat.add_comm, numbersAfter_add, List.zipWith_cons_cons,
        List.flatten_cons]
      have ih := handedOut_numberSlugs stem es (k + 1) (by omega) (by omega)
      have hfirst : handedOut e (Entity.withSlug e (slugText stem (k + 1)) (Int64.ofInt (k + 1))) =
          numbersAfter k 1 := by
        unfold handedOut
        rw [if_pos hn]
        show [(Int64.ofInt (k + 1)).toInt] = [k + 1 + 0]
        rw [Int64.toInt_ofInt_of_le (by omega) (by omega), Int.add_zero]
      rw [hfirst, ih]
      rfl
    · rw [List.countP_cons_of_neg hn] at hle ⊢
      rw [if_neg hn, List.zipWith_cons_cons, List.flatten_cons, handedOut_numberSlugs stem es k hk hle]
      unfold handedOut
      rw [if_neg hn]
      rfl

theorem handedOut_self {es : List Customer} (h : es.countP Entity.needsSlug = 0) :
    (List.zipWith handedOut es es).flatten = [] := by
  rw [List.flatten_eq_nil_iff, List.zipWith_self]
  intro numbers hm
  obtain ⟨e, he, rfl⟩ := List.mem_map.1 hm
  unfold handedOut
  exact if_neg (List.countP_eq_zero.1 h e he)

/-- Assigning slugs reserves as many numbers as are needed, and hands out exactly these. A list is no longer than
a machine word can count. -/
theorem assignSlugs_issues (hp : config.slugPrefix = some stem) {es : List Customer}
    (hk : 0 ≤ s.store.counterValue (slugCounter config)) (hl : es.length < 2 ^ 64) :
    Issues config s.store (((repository config).assignSlugs es).leaves s).store
      (callNumbers config s (.assignSlugs es)) := by
  unfold callNumbers assignSlugs
  rw [show (repository config).config.slugPrefix = some stem from hp]
  dsimp only
  by_cases hc : es.countP Entity.needsSlug = 0
  · rw [if_pos hc]
    dsimp only [pure, EStateM.pure]
    rw [handedOut_self hc]
    exact .nothing rfl
  rw [if_neg hc]
  cases hx : Action.change (Store.nextInSequence (repository config).slugCounter
      (Int64.ofNat (es.countP Entity.needsSlug))) s with
  | ok last t =>
    obtain ⟨hpos, hv, ht, -⟩ := Store.counterValue_nextInSequence (Action.change_ok hx).1
    have hle := t.store.counterValue_le (slugCounter config)
    have hcount := List.countP_le_length (p := Entity.needsSlug) (l := es)
    -- a count that is positive as a word is the count itself
    have hword : (Int64.ofNat (es.countP Entity.needsSlug)).toInt = es.countP Entity.needsSlug := by
      rw [Int64.toInt_ofNat', Int.bmod_def] at hpos ⊢
      unfold Int64.size at hpos ⊢
      split at hpos <;> split <;> omega
    rw [hword] at hv
    rw [show t.store.counterValue (slugCounter config) = last.toInt from ht] at hle
    have hfirst : last.toInt - es.countP Entity.needsSlug = s.store.counterValue (slugCounter config) := by
      rw [hv]; exact Int.add_sub_cancel ..
    rw [Action.leaves_bind, hx, Action.bind_run hx]
    refine ⟨es.countP Entity.needsSlug, ?_, ht.trans hv⟩
    dsimp only [pure, EStateM.pure]
    rw [hfirst]
    exact handedOut_numberSlugs stem es _ hk (by omega)
  | error fault t =>
    rw [Action.leaves_error (Action.bind_run_error hx), Action.bind_run_error hx]
    refine .nothing ?_
    rw [(Store.nextInSequence_error (Action.change_error hx).1).1]

end Customer

end Dossier
