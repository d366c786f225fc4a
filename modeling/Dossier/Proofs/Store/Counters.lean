/-
Counters of the store. Only drawing numbers changes a counter, and it advances that counter by what
has been asked for.
-/
import Dossier.Proofs.Store.Writes

namespace Dossier

theorem Bounded.toInt_of_int64? {i : Int} {v : Int64} (h : int64? i = some v) : v.toInt = i := by
  unfold int64? fitsInt64 at h
  split at h
  · rename_i hi
    cases h
    simp only [Bool.and_eq_true, decide_eq_true_eq] at hi
    exact Int64.toInt_ofInt_of_le (by omega) (by omega)
  · cases h

theorem Bounded.int64?_eq_none_iff {i : Int} :
    int64? i = none ↔ i < -0x8000000000000000 ∨ 0x7FFFFFFFFFFFFFFF < i := by
  unfold int64? fitsInt64
  rw [ite_eq_right_iff]
  simp only [Bool.and_eq_true, decide_eq_true_eq, reduceCtorEq, imp_false]
  omega

namespace Store

variable {s t : Store} {name : String}

/-- What a counter stands at; it starts at zero. -/
def counterValue (s : Store) (name : String) : Int := ((s.counter? name).getD 0).toInt

theorem counterValue_congr (h : t.counters = s.counters) (name : String) :
    t.counterValue name = s.counterValue name := by
  unfold counterValue counter?
  rw [h]

theorem counterValue_le (s : Store) (name : String) : s.counterValue name ≤ 0x7FFFFFFFFFFFFFFF := by
  have h := Int64.toInt_lt ((s.counter? name).getD 0)
  unfold counterValue
  omega

theorem counterValue_nextInSequence {counter : String} {increment value : Int64}
    (h : nextInSequence counter increment s = .ok value t) :
    0 < increment.toInt ∧ value.toInt = s.counterValue counter + increment.toInt ∧
      t.counterValue counter = value.toInt ∧
        ∀ other, other ≠ counter → t.counterValue other = s.counterValue other := by
  obtain ⟨hpos, hv, rfl⟩ := nextInSequence_ok h
  refine ⟨hpos, Bounded.toInt_of_int64? hv, ?_, fun other ho => ?_⟩
  · unfold counterValue counter?
    dsimp only
    rw [Entries.lookup_insert_self, Option.getD_some]
  · unfold counterValue counter?
    dsimp only
    rw [Entries.lookup_insert, if_neg ho]

theorem counters_reviseRows (name : String) (change : Row → Value) :
    (s.reviseRows name change).counters = s.counters := by
  unfold reviseRows
  split <;> rfl

end Store

end Dossier
