/-
Clients that draw blocks of numbers at the same time. A request is checked by its client and then waits for the counter,
which serves one request at a time; between these steps other clients take theirs. Whatever the order, the answers are
those of the same requests made one after the other, and the blocks of one counter lie end to end from one on.
-/
import Dossier.Proofs.Store.Counters
import Mathlib.Data.Int.ConditionallyCompleteOrder
import Mathlib.Order.CompletePartialOrder
import Mathlib.Order.ConditionallyCompleteLattice.Basic

namespace Dossier

namespace Sequence

/-- A client's request for a block of numbers. -/
structure Request where
  client : Nat
  counter : String
  size : Int64

/-- A request with what it has been answered. -/
structure Answer where
  request : Request
  result : Except Fault Int64

/-- What a change of the store yields, and the store that it leaves. -/
def yielded {α : Type} : EStateM.Result Fault Store α → Except Fault α × Store
  | .ok a t => (.ok a, t)
  | .error fault t => (.error fault, t)

namespace Request

variable {r : Request} {s t : Store} {value : Int64} {fault : Fault}

/-- What a request is refused for before it reaches its counter. -/
def violation? (r : Request) : Option Violation :=
  if r.size.toInt ≤ 0 then some (.nonPositiveIncrement r.size r.counter) else none

/-- Advances the counter of a request. -/
def take (r : Request) (s : Store) : Except Fault Int64 × Store := yielded (Store.advance r.counter r.size s)

/-- Makes a request from its check to its answer, with nothing in between. -/
def perform (r : Request) (s : Store) : Except Fault Int64 × Store :=
  yielded (Store.nextInSequence r.counter r.size s)

theorem violation?_eq_none_iff : r.violation? = none ↔ 0 < r.size.toInt := by
  simp [violation?]

theorem perform_of_violation {v : Violation} (h : r.violation? = some v) :
    r.perform s = (.error (.validation v), s) := by
  unfold violation? at h
  split at h
  · rename_i hsize
    cases h
    unfold perform Store.nextInSequence
    rw [if_pos hsize]
    rfl
  · cases h

theorem perform_of_valid (h : r.violation? = none) : r.perform s = r.take s := by
  have hsize : ¬ r.size.toInt ≤ 0 := Int.not_le.2 (violation?_eq_none_iff.1 h)
  unfold perform take Store.nextInSequence
  rw [if_neg hsize]

/-! ## One request -/

/-- A request that is granted advances its counter by its size. -/
theorem perform_ok (h : (r.perform s).1 = .ok value) : 0 < r.size.toInt ∧
    value.toInt = s.counterValue r.counter + r.size.toInt ∧ (r.perform s).2.counterValue r.counter = value.toInt := by
  unfold perform at h ⊢
  cases hn : Store.nextInSequence r.counter r.size s with
  | ok v t =>
    rw [hn] at h
    cases h
    obtain ⟨hpos, hv, ht, -⟩ := Store.counterValue_nextInSequence hn
    exact ⟨hpos, hv, ht⟩
  | error fault t =>
    rw [hn] at h
    cases h

/-- A request that is refused leaves the store as it was. -/
theorem perform_error (h : (r.perform s).1 = .error fault) : (r.perform s).2 = s := by
  unfold perform at h ⊢
  cases hn : Store.nextInSequence r.counter r.size s with
  | ok v t =>
    rw [hn] at h
    cases h
  | error fault t => exact (Store.nextInSequence_error hn).1

/-- A counter is not advanced beyond the largest number. -/
theorem take_fails_iff (s : Store) (hsize : 0 < r.size.toInt) : (∃ fault, (r.take s).1 = .error fault) ↔
    0x7FFFFFFFFFFFFFFF < s.counterValue r.counter + r.size.toInt := by
  have hlow := Int64.le_toInt ((s.counter? r.counter).getD 0)
  unfold take Store.advance Store.counterValue
  dsimp only
  cases hn : Bounded.int64? (((s.counter? r.counter).getD 0).toInt + r.size.toInt) with
  | some next =>
    have hle := Int64.toInt_lt next
    rw [Bounded.toInt_of_int64? hn] at hle
    refine iff_of_false ?_ (by omega)
    rintro ⟨fault, hf⟩
    cases hf
  | none =>
    rw [Bounded.int64?_eq_none_iff] at hn
    exact iff_of_true ⟨_, rfl⟩ (by omega)

/-- A request is refused for its size, or for want of numbers. -/
theorem perform_fails_iff (r : Request) (s : Store) : (∃ fault, (r.perform s).1 = .error fault) ↔
    r.size.toInt ≤ 0 ∨ 0x7FFFFFFFFFFFFFFF < s.counterValue r.counter + r.size.toInt := by
  cases hv : r.violation? with
  | some v =>
    have hsize : ¬ 0 < r.size.toInt := by
      rw [← violation?_eq_none_iff, hv]
      exact nofun
    rw [perform_of_violation hv]
    exact iff_of_true ⟨_, rfl⟩ (Or.inl (Int.not_lt.1 hsize))
  | none =>
    have hsize := violation?_eq_none_iff.1 hv
    rw [perform_of_valid hv, take_fails_iff s hsize]
    omega

theorem counter?_perform_other (r : Request) (s : Store) {other : String} (ho : other ≠ r.counter) :
    (r.perform s).2.counter? other = s.counter? other := by
  unfold perform
  cases hn : Store.nextInSequence r.counter r.size s with
  | ok v t =>
    obtain ⟨-, -, rfl⟩ := Store.nextInSequence_ok hn
    unfold yielded Store.counter?
    dsimp only
    rw [Entries.lookup_insert, if_neg ho]
  | error fault t =>
    obtain ⟨rfl, -⟩ := Store.nextInSequence_error hn
    rfl

/-- What a request is answered hangs on nothing but its counter. -/
theorem perform_congr (h : s.counter? r.counter = t.counter? r.counter) :
    (r.perform s).1 = (r.perform t).1 ∧ (r.perform s).2.counter? r.counter = (r.perform t).2.counter? r.counter := by
  cases hv : r.violation? with
  | some v =>
    rw [perform_of_violation hv, perform_of_violation hv]
    exact ⟨rfl, h⟩
  | none =>
    rw [perform_of_valid hv, perform_of_valid hv]
    unfold take Store.advance
    dsimp only
    rw [h]
    split <;> refine ⟨rfl, ?_⟩ <;> unfold yielded Store.counter? <;>
      rw [Entries.lookup_insert_self, Entries.lookup_insert_self]

end Request

variable {name : String} {store : Store} {answers : List Answer} {low mid high : Int} {bs : List (Set Int)}

/-! ## Requests one after the other -/

/-- Makes requests one after the other. -/
def performAll : List Request → Store → List Answer × Store
  | [], s => ([], s)
  | r :: rs, s =>
    let (result, t) := r.perform s
    let (answers, u) := performAll rs t
    (⟨r, result⟩ :: answers, u)

theorem performAll_cons (r : Request) (rs : List Request) (s : Store) : performAll (r :: rs) s =
    (⟨r, (r.perform s).1⟩ :: (performAll rs (r.perform s).2).1, (performAll rs (r.perform s).2).2) := rfl

theorem performAll_concat (r : Request) : ∀ (rs : List Request) (s : Store), performAll (rs ++ [r]) s =
    ((performAll rs s).1 ++ [⟨r, (r.perform (performAll rs s).2).1⟩], (r.perform (performAll rs s).2).2)
  | [], _ => rfl
  | first :: rs, s => by
    rw [List.cons_append, performAll_cons, performAll_cons, performAll_concat r rs]
    rfl

/-- The answers to requests for one counter. -/
def answersOn (name : String) (answers : List Answer) : List Answer := answers.filter (·.request.counter == name)

theorem answersOn_cons (name : String) (a : Answer) (answers : List Answer) : answersOn name (a :: answers) =
    if a.request.counter = name then a :: answersOn name answers else answersOn name answers := by
  unfold answersOn
  rw [List.filter_cons]
  simp only [beq_iff_eq]

/-- The requests for a counter are answered as if there were no others. -/
theorem answersOn_performAll : ∀ (rs : List Request) {s t : Store}, s.counter? name = t.counter? name →
    answersOn name (performAll rs s).1 = (performAll (rs.filter (·.counter == name)) t).1
  | [], _, _, _ => rfl
  | r :: rs, s, t, h => by
    rw [performAll_cons, answersOn_cons, List.filter_cons]
    by_cases hr : r.counter = name
    · have hown : s.counter? r.counter = t.counter? r.counter := by rw [hr]; exact h
      obtain ⟨hresult, hleft⟩ := Request.perform_congr hown
      rw [hr] at hleft
      rw [if_pos hr, if_pos (beq_iff_eq.2 hr), performAll_cons, hresult, answersOn_performAll rs hleft]
    · rw [if_neg hr, if_neg (by simpa using hr)]
      refine answersOn_performAll rs ?_
      rw [r.counter?_perform_other s (Ne.symm hr), h]

/-! ## Blocks -/

/-- The numbers that an answer hands out. -/
def Answer.block? (a : Answer) : Option (Set Int) :=
  match a.result with
  | .ok value => some (Set.Icc (value.toInt - a.request.size.toInt + 1) value.toInt)
  | .error _ => none

/-- The blocks that have been handed out from one counter. -/
def blocks (name : String) (answers : List Answer) : List (Set Int) := (answersOn name answers).filterMap Answer.block?

/-- Blocks that lie apart and together hold the numbers after one number up to another. -/
structure Covers (bs : List (Set Int)) (low high : Int) : Prop where
  le : low ≤ high
  disjoint : bs.Pairwise Disjoint
  mem_iff : ∀ n, (∃ b ∈ bs, n ∈ b) ↔ low < n ∧ n ≤ high

theorem Covers.nil (k : Int) : Covers [] k k := by
  refine ⟨Int.le_refl k, .nil, fun n => ?_⟩
  simp only [List.not_mem_nil, false_and, exists_false, false_iff]
  omega

theorem Covers.cons (hlow : low < mid) (h : Covers bs mid high) : Covers (Set.Icc (low + 1) mid :: bs) low high := by
  have hle := h.le
  refine ⟨by omega, List.pairwise_cons.2 ⟨fun b hb => ?_, h.disjoint⟩, fun n => ?_⟩
  · refine Set.disjoint_left.2 fun n hn hnb => ?_
    have hmid := ((h.mem_iff n).1 ⟨b, hb, hnb⟩).1
    exact absurd hn.2 (by omega)
  · rw [List.exists_mem_cons_iff, h.mem_iff, Set.mem_Icc]
    omega

/-- Requests one after the other are given blocks end to end, from the number after the counter on. -/
theorem performAll_covers (name : String) : ∀ (rs : List Request) (s : Store),
    Covers (blocks name (performAll rs s).1) (s.counterValue name) ((performAll rs s).2.counterValue name)
  | [], s => .nil _
  | r :: rs, s => by
    have ih := performAll_covers name rs (r.perform s).2
    rw [performAll_cons]
    unfold blocks at ih ⊢
    rw [answersOn_cons]
    by_cases hr : r.counter = name
    · subst hr
      rw [if_pos rfl]
      cases hresult : (r.perform s).1 with
      | ok value =>
        obtain ⟨hpos, hv, hleft⟩ := Request.perform_ok hresult
        rw [hleft] at ih
        rw [List.filterMap_cons_some (b := Set.Icc (s.counterValue r.counter + 1) value.toInt)]
        · exact ih.cons (by omega)
        · unfold Answer.block?
          dsimp only
          rw [hv, Int.add_sub_cancel]
      | error fault =>
        rw [Request.perform_error hresult] at ih
        rw [List.filterMap_cons_none (by rfl), Request.perform_error hresult]
        exact ih
    · rw [if_neg hr]
      have hleft : (r.perform s).2.counterValue name = s.counterValue name := by
        unfold Store.counterValue
        rw [r.counter?_perform_other s (Ne.symm hr)]
      rw [hleft] at ih
      exact ih

/-! ## Requests at the same time -/

/-- A store and the clients that wait for it, each with one request. -/
structure System where
  store : Store
  waiting : Nat → Option Request := fun _ => none

/-- The atomic steps of clients, with the answer that one brings. -/
inductive Step (s : System) : Option Answer → System → Prop
  /-- A client's request does not pass the check. -/
  | refuse {r : Request} {v : Violation} (hidle : s.waiting r.client = none) (hv : r.violation? = some v) :
    Step s (some ⟨r, .error (.validation v)⟩) s
  /-- A client's request passes the check and waits. -/
  | arrive {r : Request} (hidle : s.waiting r.client = none) (hv : r.violation? = none) :
    Step s none { s with waiting := Function.update s.waiting r.client (some r) }
  /-- The counter is advanced for a client that waits. -/
  | serve {r : Request} (hw : s.waiting r.client = some r) :
    Step s (some ⟨r, (r.take s.store).1⟩) ⟨(r.take s.store).2, Function.update s.waiting r.client none⟩

/-- Steps of any clients in any order, with the answers that they have brought. -/
inductive Run (start : System) : List Answer → System → Prop
  | start : Run start [] start
  | step {answers : List Answer} {s t : System} {answer : Option Answer} (h : Run start answers s)
    (hs : Step s answer t) : Run start (answers ++ answer.toList) t

variable {s t : System} {a : Answer}

/-- No client waits with a request that does not pass the check. -/
def Checked (s : System) : Prop := ∀ client r, s.waiting client = some r → r.violation? = none

theorem Checked.update {client : Nat} {waiting : Option Request} (h : Checked s) (store : Store)
    (hw : ∀ r, waiting = some r → r.violation? = none) :
    Checked ⟨store, Function.update s.waiting client waiting⟩ := by
  intro other r hr
  change Function.update s.waiting client waiting other = some r at hr
  by_cases ho : other = client
  · subst ho
    rw [Function.update_self] at hr
    exact hw r hr
  · rw [Function.update_of_ne ho] at hr
    exact h other r hr

theorem Step.checked {answer : Option Answer} (h : Step s answer t) (hc : Checked s) : Checked t := by
  cases h with
  | refuse hidle hv => exact hc
  | arrive hidle hv =>
    refine hc.update _ fun r hr => ?_
    cases hr
    exact hv
  | serve hw => exact hc.update _ nofun

/-- A request that is answered is performed at that moment. -/
theorem Step.answer (h : Step s (some a) t) (hc : Checked s) : a.request.perform s.store = (a.result, t.store) := by
  cases h with
  | refuse hidle hv => exact Request.perform_of_violation hv
  | serve hw => exact Request.perform_of_valid (hc _ _ hw)

theorem Run.checked (h : Run ⟨store, fun _ => none⟩ answers s) : Checked s := by
  induction h with
  | start => exact nofun
  | step _ hs ih => exact hs.checked ih

/-- Whatever the order of the steps, the answers and the store are those of the same requests made one after the
other. -/
theorem Run.performAll (h : Run ⟨store, fun _ => none⟩ answers s) :
    performAll (answers.map (·.request)) store = (answers, s.store) := by
  induction h with
  | start => rfl
  | step h hs ih =>
    rename_i answer
    cases answer with
    | none =>
      rw [Option.toList_none, List.append_nil, ih]
      cases hs
      rfl
    | some a =>
      rw [Option.toList_some, List.map_append, List.map_cons, List.map_nil, performAll_concat, ih,
        hs.answer h.checked]

/-- Clients that start from a store without counters are given blocks of each counter that lie apart and together hold
the numbers from one to where the counter stands; a step that answers a request refuses it exactly for its size or for
want of numbers, changes nothing when it does, and leaves other counters alone; and the requests for a counter have been
answered as if there had been no others. -/
theorem blocks_partition (h0 : store.counters = []) (h : Run ⟨store, fun _ => none⟩ answers s) :
    (∀ name, (blocks name answers).Pairwise Disjoint ∧
      ∀ n, (∃ b ∈ blocks name answers, n ∈ b) ↔ 1 ≤ n ∧ n ≤ s.store.counterValue name) ∧
    (∀ a t, Step s (some a) t →
      ((∃ fault, a.result = .error fault) ↔ a.request.size.toInt ≤ 0 ∨
        0x7FFFFFFFFFFFFFFF < s.store.counterValue a.request.counter + a.request.size.toInt) ∧
      ((∃ fault, a.result = .error fault) → t.store = s.store) ∧
      ∀ other, other ≠ a.request.counter → t.store.counter? other = s.store.counter? other) ∧
    ∀ name, answersOn name answers = (performAll ((answers.map (·.request)).filter (·.counter == name)) store).1 := by
  have hrun := h.performAll
  refine ⟨fun name => ?_, fun a t hs => ?_, fun name => ?_⟩
  · have hcovers := performAll_covers name (answers.map (·.request)) store
    have hzero : store.counterValue name = 0 := by
      unfold Store.counterValue Store.counter?
      rw [h0]
      rfl
    rw [hrun, hzero] at hcovers
    refine ⟨hcovers.disjoint, fun n => ?_⟩
    rw [hcovers.mem_iff]
    exact Iff.rfl
  · have hperform := hs.answer h.checked
    have hresult : (a.request.perform s.store).1 = a.result := by rw [hperform]
    have hstore : (a.request.perform s.store).2 = t.store := by rw [hperform]
    rw [← hresult, ← hstore]
    refine ⟨a.request.perform_fails_iff s.store, ?_, fun other ho => a.request.counter?_perform_other s.store ho⟩
    rintro ⟨fault, hf⟩
    exact Request.perform_error hf
  · rw [← answersOn_performAll _ rfl, hrun]

/-- Two clients wait for one counter and are served in the other order; in between a third is refused twice, for its
size and for want of numbers, and another counter is drawn from. -/
theorem blocks_of_crowd : ∃ answers s, Run ⟨{}, fun _ => none⟩ answers s ∧
    answers.map (fun a => (a.request.client, a.result.toOption)) =
      [(3, none), (2, some 2), (3, none), (1, some 5), (2, some 4)] ∧
    (blocks "a" answers).Pairwise Disjoint ∧
      ∀ n, (∃ b ∈ blocks "a" answers, n ∈ b) ↔ 1 ≤ n ∧ n ≤ 5 := by
  have h : Run ⟨{}, fun _ => none⟩ [] ⟨{}, fun _ => none⟩ := .start
  have h := h.step (.arrive (r := ⟨1, "a", 3⟩) rfl (by decide))
  have h := h.step (.arrive (r := ⟨2, "a", 2⟩) rfl (by decide))
  have h := h.step (.refuse (r := ⟨3, "a", 0⟩) (v := .nonPositiveIncrement 0 "a") rfl (by decide))
  have h := h.step (.serve (r := ⟨2, "a", 2⟩) rfl)
  have h := h.step (.arrive (r := ⟨3, "a", 0x7FFFFFFFFFFFFFFF⟩) rfl (by decide))
  have h := h.step (.serve (r := ⟨3, "a", 0x7FFFFFFFFFFFFFFF⟩) rfl)
  have h := h.step (.arrive (r := ⟨2, "b", 4⟩) rfl (by decide))
  have h := h.step (.serve (r := ⟨1, "a", 3⟩) rfl)
  have h := h.step (.serve (r := ⟨2, "b", 4⟩) rfl)
  refine ⟨_, _, h, by decide +kernel, ?_⟩
  obtain ⟨hblocks, -, -⟩ := blocks_partition rfl h
  exact hblocks "a"

end Sequence

end Dossier
