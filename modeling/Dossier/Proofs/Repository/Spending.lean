/-
What numbers are spent on. A number is drawn from the counter of slugs for a customer that is created
and has come without identifier and slug, and for nothing else: whatever else a call does, and at
whichever step it fails, all counters are as they were.
-/
import Dossier.Proofs.Repository.Drawing
import Dossier.Proofs.Repository.Log

namespace Dossier

namespace Customer

open Repository

variable {config : Config} {c e : Customer} {ctx : AuditContext} {force : Bool} {named : List Uuid}
  {s t u : State} {fault : Fault}

/-! ## What is spent -/

/-- Whether a customer that a save has yielded has been created: nothing was stored under its identifier. -/
def isCreated (store : Store) (c : Customer) : Bool :=
  c.id.all fun id => !(store.collection (Stored.collection Customer)).contains id

/-- The rows that are committed, with what has been done with them: those before the first that fails. -/
def committedRows (config : Config) (ctx : AuditContext) (force : Bool) :
    List Customer → State → List (Customer × ImportOutcome)
  | [], _ => []
  | e :: es, s =>
    match (repository config).importRow ctx force e s with
    | .ok (_, outcome) u => (e, outcome) :: committedRows config ctx force es u
    | .error _ _ => []

/-- The rows that an import commits; none when one of them is not valid. -/
def committed (config : Config) (es : List Customer) (ctx : AuditContext) (force : Bool) (s : State) :
    List (Customer × ImportOutcome) :=
  match es.forM Entity.validate with
  | .ok _ => committedRows config (ctx.withSource .imported) force es s
  | .error _ => []

/-- How many of the committed rows are customers that have been created with a number of their own. -/
def numbersSpent (config : Config) (rows : List (Customer × ImportOutcome)) : Nat :=
  rows.countP fun row => row.2 == .created && drawsNumber config row.1

/-- How many numbers a call spends. -/
def spent (config : Config) (s : State) : Call Customer → Nat
  | .write (.save e) ctx =>
    match (repository config).createOrOverwrite e ctx s with
    | .ok c _ => if isCreated s.store c && drawsNumber config e then 1 else 0
    | .error _ _ => 0
  | .bulkImport es ctx force => numbersSpent config (committed config es ctx force s)
  | _ => 0

/-- Whether a call reserves numbers, whatever for. -/
def Reserves : Call Customer → Prop
  | .reserve .. => True
  | .assignSlugs .. => True
  | _ => False

/-! ## Saves -/

/-- Who draws a number is created: it gets an identifier under which nothing has been stored. -/
theorem isCreated_of_draws (hd : drawsNumber config e = true) (hs : (repository config).Sound s.store)
    (hf : Fresh (Stored.id? e).toList s t) (h : (repository config).createOrOverwrite e ctx s = .ok c t) :
    isCreated s.store c = true := by
  cases createOrOverwrite_ok hs.wf h with
  | overwritten hi hg h => cases hi.symm.trans (id_of_draws hd)
  | created hv hg h =>
    obtain ⟨id, hid, hnew⟩ := h.not_stored (List.Subset.refl _) hf fun id hi => nomatch (id_of_draws hd).symm.trans hi
    unfold isCreated
    rw [show c.id = some id from hid, Option.all_some, hnew]
    rfl

theorem save_spends (hs : (repository config).Sound s.store)
    (hf : Fresh (Stored.id? e).toList s (((repository config).createOrOverwrite e ctx).leaves s)) :
    s.store.Advanced (slugCounter config) (spent config s (.write (.save e) ctx))
      (((repository config).createOrOverwrite e ctx).leaves s).store := by
  unfold spent
  dsimp only
  cases hx : (repository config).createOrOverwrite e ctx s with
  | error fault t =>
    rw [Action.leaves_error hx] at hf ⊢
    exact .nothing (counters_of_failed_save hs hf hx)
  | ok c t =>
    rw [Action.leaves_ok hx] at hf ⊢
    dsimp only
    have hspent : (isCreated s.store c && drawsNumber config e) = drawsNumber config e := by
      cases hd : drawsNumber config e with
      | false => exact Bool.and_false _
      | true => rw [isCreated_of_draws hd hs hf hx]; rfl
    rw [hspent]
    exact (save_draws hs hx).advanced

/-! ## Imports -/

theorem numbersSpent_cons (e : Customer) (outcome : ImportOutcome) (rows : List (Customer × ImportOutcome)) :
    numbersSpent config ((e, outcome) :: rows) =
      (if outcome == .created && drawsNumber config e then 1 else 0) + numbersSpent config rows := by
  unfold numbersSpent
  rw [List.countP_cons, Nat.add_comm]

theorem importRow_spends (hs : (repository config).Sound s.store) {result : Customer × ImportOutcome}
    (h : (repository config).importRow ctx force e s = .ok result t) :
    s.store.Advanced (slugCounter config) (if result.2 == .created && drawsNumber config e then 1 else 0)
      t.store := by
  rcases importRow_draws hs h with ⟨hcreated, hdraws⟩ | ⟨hother, hcounters⟩
  · rw [hcreated]
    exact hdraws.advanced
  · rw [beq_false_of_ne hother]
    exact .nothing hcounters

/-- A row that fails spends nothing, and no row is committed after it. -/
theorem importRows_spend {es : List Customer} (hs : (repository config).Sound s.store)
    (hm : es.filterMap Stored.id? ⊆ named)
    (hf : Fresh named s ((es.mapM ((repository config).importRow ctx force)).leaves s)) :
    s.store.Advanced (slugCounter config) (numbersSpent config (committedRows config ctx force es s))
      ((es.mapM ((repository config).importRow ctx force)).leaves s).store := by
  refine importRows_induction idKey_not_registered (motive := fun es s t =>
    s.store.Advanced (slugCounter config) (numbersSpent config (committedRows config ctx force es s)) t.store)
    (fun s => .nothing rfl) ?_ ?_ hs hm hf
  · intro e es s t fault hs hme hf hx
    unfold committedRows
    rw [hx]
    exact .nothing (counters_of_failed_row hs hme hf hx)
  · intro e es s u t result hs _ _ hx hrest
    unfold committedRows
    rw [hx]
    dsimp only
    rw [numbersSpent_cons]
    exact (importRow_spends hs hx).trans hrest

theorem import_spends {es : List Customer} (hs : (repository config).Sound s.store)
    (hf : Fresh (es.filterMap Stored.id?) s (((repository config).bulkImport es ctx force).leaves s)) :
    s.store.Advanced (slugCounter config) (spent config s (.bulkImport es ctx force))
      (((repository config).bulkImport es ctx force).leaves s).store := by
  unfold spent committed
  unfold bulkImport at hf ⊢
  dsimp only
  rw [Action.leaves_bind] at hf ⊢
  cases hv : es.forM Entity.validate with
  | error fault => exact .nothing rfl
  | ok u =>
    rw [hv] at hf
    exact importRows_spend hs (List.Subset.refl _) hf

/-! ## Other calls -/

theorem softDelete_counters {id : Uuid} (hs : (repository config).Sound s.store)
    (hf : Fresh named s (((repository config).softDeleteById id ctx).leaves s)) :
    (((repository config).softDeleteById id ctx).leaves s).store.counters = s.store.counters := by
  have hdeactivated : ((repository config).deactivateRow id s.store).counters = s.store.counters :=
    Store.counters_reviseRows ..
  cases hx : (repository config).softDeleteById id ctx s with
  | ok c t =>
    rw [Action.leaves_ok hx]
    cases softDeleteById_ok hs.wf hx with
    | inactive hg ha => rfl
    | active hg ha hr hc => exact (counters_of_recorded hr).trans hdeactivated
  | error fault t =>
    rw [Action.leaves_error hx] at hf ⊢
    rcases softDeleteById_error hs.wf hx with rfl | h
    · rfl
    cases h with
    | refused hg ha hr =>
      exact (Effects.not_refused idKey_not_registered hs hr hf (.single (.deactivates hg))).elim
    | unread hg ha hr hc => exact (counters_of_recorded hr).trans hdeactivated

/-- Numbers are spent on customers that get created and need one, and on nothing else: however a call ends, unless
it reserves numbers it advances the counter of slugs by as many as there are such customers, and no other counter. -/
theorem numbers_spent {allowed : Call Customer → Prop} (h : Reachable (repository config) allowed s)
    {call : Call Customer} (hr : ¬ Reserves call) (hf : Fresh call.named s (call.after (repository config) s)) :
    s.store.Advanced (slugCounter config) (spent config s call) (call.after (repository config) s).store := by
  have hs := h.sound idKey_not_registered
  cases call with
  | write w ctx =>
    rcases w.save_or_patch (repository config) ctx with ⟨e, rfl⟩ | ⟨hw, find, requested, hfind, hrun⟩
    · exact save_spends hs hf
    · have hnone : spent config s (.write w ctx) = 0 := by
        cases w with
        | save e => exact (hw trivial).elim
        | _ => rfl
      rw [hnone]
      unfold Call.after at hf ⊢
      dsimp only at hf ⊢
      rw [hrun] at hf ⊢
      have hcourse : Course config [] none s _ := patch_course hfind hs hf
      exact .nothing (counters_of_course hcourse)
  | bulkImport es ctx force => exact import_spends hs hf
  | patchMany filter requested properties =>
    have hcourse : Course config [] none s (((repository config).patchMany filter requested properties).leaves s) :=
      patchMany_course hs
    exact .nothing (counters_of_course hcourse)
  | softDelete id ctx => exact .nothing (softDelete_counters hs hf)
  | delete id ctx => exact .nothing (counters_of_course (delete_course hs hf))
  | reserve counter increment => exact (hr trivial).elim
  | assignSlugs es => exact (hr trivial).elim

/-- The state in which a customer is stored and one number is left. -/
def nearlyExhausted : State :=
  afterCalls { slugPrefix := "U" } [.write (.save ann) morning, .reserve "customers" 9223372036854775805]

/-- One customer is merged into the stored one, one gets the last number, and there is none left for a third. -/
def newcomers : Call Customer :=
  .bulkImport [{ ann with city := some "Rome" }, bob, { bob with email := none }] morning false

theorem last_number_spent : spent { slugPrefix := "U" } nearlyExhausted newcomers = 1 ∧
    (newcomers.after (repository { slugPrefix := "U" }) nearlyExhausted).store.counterValue "customers" =
      nearlyExhausted.store.counterValue "customers" + 1 := by
  have hreach : Reachable (repository { slugPrefix := "U" }) (fun _ => True) nearlyExhausted :=
    reachable_afterCalls (fun _ _ => trivial) (by decide +kernel)
  have hfresh : Fresh newcomers.named nearlyExhausted
      (newcomers.after (repository { slugPrefix := "U" }) nearlyExhausted) := by decide +kernel
  have hspent : spent { slugPrefix := "U" } nearlyExhausted newcomers = 1 := by decide +kernel
  have hadvanced := numbers_spent hreach (show ¬ Reserves newcomers from not_false) hfresh
  rw [hspent] at hadvanced
  exact ⟨hspent, hadvanced.value⟩

end Customer

end Dossier
