/-
Date filters compare calendar days. A filter that is not exact compares instants with the first or the last instant of
the days of its bounds, from which side and whether strictly depending on its operator; an instant passes exactly if
its day stands to these days as the operator asks, and nothing but an instant passes.
-/
import Dossier.Proofs.Filter.Compile
import Dossier.Proofs.Filter.Day

namespace Dossier

/-! ## Comparing with an instant -/

namespace Comparison

/-- The comparisons that go by order. -/
inductive IsRange : Comparison → Prop
  | gt : IsRange .gt
  | gte : IsRange .gte
  | lt : IsRange .lt
  | lte : IsRange .lte

/-- How two instants compare. -/
def ofInstants (op : Comparison) (t bound : Int) : Bool :=
  match op with
  | .gt => bound < t
  | .gte => bound ≤ t
  | .lt => t < bound
  | .lte => t ≤ bound
  | _ => false

theorem IsRange.admits_compare {op : Comparison} (h : op.IsRange) (t bound : Int) :
    Comparand.admits op (compare t bound) = op.ofInstants t bound := by
  rw [Bool.eq_iff_iff]
  cases h with
  | gt => simp [Comparand.admits, ofInstants, Int.compare_eq_gt]
  | gte => simp [Comparand.admits, ofInstants, Int.compare_eq_lt]
  | lt => simp [Comparand.admits, ofInstants, Int.compare_eq_lt]
  | lte => simp [Comparand.admits, ofInstants, Int.compare_eq_gt]

end Comparison

/-- A value that is no instant, and no array, which would be searched for instants. -/
def Value.IsTimeless (v : Value) : Prop := (∀ t, v ≠ .dateTime t) ∧ ∀ items, v ≠ .array items

namespace Expr

variable {doc : Value} {field : String} {op : Comparison}

theorem eval_range (hop : op.IsRange) (doc : Value) (field : String) (operand : Value) :
    (Expr.field field op operand).eval doc =
      .ok ((doc.lookup field).isSome && Comparand.satisfies op (.ofValue operand) (doc.comparandAt field)) := by
  cases hop <;> rfl

theorem eval_range_instant {t : Int64} (hop : op.IsRange) (h : doc.lookup field = some (.dateTime t)) (bound : Int64) :
    (Expr.field field op (.dateTime bound)).eval doc = .ok (op.ofInstants t.toInt bound.toInt) := by
  have hstored : doc.comparandAt field = .instant t := by
    unfold Value.comparandAt
    rw [h]
    rfl
  rw [eval_range hop, h, hstored, ← hop.admits_compare]
  rfl

theorem eval_range_timeless (hop : op.IsRange) (h : ∀ v, doc.lookup field = some v → v.IsTimeless) (bound : Int64) :
    (Expr.field field op (.dateTime bound)).eval doc = .ok false := by
  rw [eval_range hop]
  unfold Value.comparandAt
  cases hl : doc.lookup field with
  | none => rfl
  | some v =>
    obtain ⟨htime, harray⟩ := h v hl
    cases v with
    | dateTime t => exact (htime t rfl).elim
    | array items => exact (harray items rfl).elim
    | _ => rfl

end Expr

/-! ## Comparing days -/

namespace FilterOperator

/-- The operators that compare; the other two ask whether there is a value. -/
def Compares (op : FilterOperator) : Prop := op ≠ .present ∧ op ≠ .absent

instance (op : FilterOperator) : Decidable op.Compares := inferInstanceAs (Decidable (_ ∧ _))

/-- Whether a day stands to the days of the bounds as an operator asks. -/
def admitsDay (op : FilterOperator) (day lower upper : Int) : Bool :=
  match op with
  | equals => day == lower
  | notEqual => day != lower
  | lessThan => day < lower
  | lessThanOrEqual => day ≤ lower
  | greaterThan => lower < day
  | greaterThanOrEqual => lower ≤ day
  | inRange => lower ≤ day && day ≤ upper
  | present | absent => false

/-- The comparisons with the first and the last instant of the day of the lower bound, and with the last instant of the
day of the upper bound, that an operator puts together. -/
def combine (op : FilterOperator) (test : Comparison → Int64 → Bool) (first last stop : Int64) : Bool :=
  match op with
  | equals => test .gte first && test .lte last
  | notEqual => test .lt first || test .gt last
  | lessThan => test .lt first
  | lessThanOrEqual => test .lte last
  | greaterThan => test .gt last
  | greaterThanOrEqual => test .gte first
  | inRange => test .gte first && test .lte stop
  | present | absent => false

end FilterOperator

namespace DateFilter

variable {f : DateFilter} {settings : FilterSettings} {field : String} {m m₂ : Int64} {e : Expr} {doc : Value}

theorem span_ok {d : Int64 × Int64} (hx : f.exact = false) (h : f.span settings m = .ok d) :
    settings.IsDay (settings.dayOf m.toInt) d.1 d.2 := by
  unfold span at h
  rw [hx] at h
  exact FilterSettings.isDay_of_dayBounds h

/-- What a filter that builds a predicate makes of the comparisons with the ends of its days. -/
theorem eval_combined {test : Comparison → Int64 → Bool} (hx : f.exact = false) (hl : f.lower = some m)
    (hu : f.operator = .inRange → f.upper = some m₂) (hc : f.operator.Compares)
    (h : f.predicate settings field = .ok e)
    (ht : ∀ op bound, op.IsRange → (Expr.field field op (.dateTime bound)).eval doc = .ok (test op bound)) :
    ∃ first last stop, settings.IsDay (settings.dayOf m.toInt) first last ∧
      (f.operator = .inRange → ∃ start, settings.IsDay (settings.dayOf m₂.toInt) start stop) ∧
      e.eval doc = .ok (f.operator.combine test first last stop) := by
  unfold predicate at h
  rw [hl, hx] at h
  -- all operators but one look at the day of the lower bound alone
  have hday : ∀ {op : FilterOperator} {g : Int64 × Int64 → Expr}, op ≠ .inRange → (f.span settings m).map g = .ok e →
      (∀ d, (g d).eval doc = .ok (op.combine test d.1 d.2 d.2)) →
      ∃ first last stop, settings.IsDay (settings.dayOf m.toInt) first last ∧
        (op = .inRange → ∃ start, settings.IsDay (settings.dayOf m₂.toInt) start stop) ∧
        e.eval doc = .ok (op.combine test first last stop) := by
    intro op g hop hg heval
    obtain ⟨d, hd, rfl⟩ := except_map_ok hg
    exact ⟨d.1, d.2, d.2, span_ok hx hd, fun h => (hop h).elim, heval d⟩
  cases hop : f.operator with
  | present => exact (hc.1 hop).elim
  | absent => exact (hc.2 hop).elim
  | equals =>
    rw [hop] at h
    exact hday nofun h fun d => Expr.eval_and_pair (ht _ _ .gte) (ht _ _ .lte)
  | notEqual =>
    rw [hop] at h
    exact hday nofun h fun d => Expr.eval_or_pair (ht _ _ .lt) (ht _ _ .gt)
  | lessThan =>
    rw [hop] at h
    exact hday nofun h fun d => ht _ _ .lt
  | lessThanOrEqual =>
    rw [hop] at h
    exact hday nofun h fun d => ht _ _ .lte
  | greaterThan =>
    rw [hop] at h
    exact hday nofun h fun d => ht _ _ .gt
  | greaterThanOrEqual =>
    rw [hop] at h
    exact hday nofun h fun d => ht _ _ .gte
  | inRange =>
    rw [hop, hu hop] at h
    obtain ⟨d, hd, h⟩ := except_bind_ok h
    obtain ⟨d', hd', h⟩ := except_bind_ok h
    cases h
    exact ⟨d.1, d.2, d'.2, span_ok hx hd, fun _ => ⟨d'.1, span_ok hx hd'⟩,
      Expr.eval_and_pair (ht _ _ .gte) (ht _ _ .lte)⟩

/-- The comparisons with the ends of days compare the days. -/
theorem combine_ofInstants {op : FilterOperator} {day upper t : Int} {first last stop : Int64} (hc : op.Compares)
    (hd : settings.IsDay day first last) (hs : op = .inRange → ∃ start, settings.IsDay upper start stop) :
    op.combine (fun op bound => op.ofInstants t bound.toInt) first last stop =
      op.admitsDay (settings.dayOf t) day upper := by
  rw [Bool.eq_iff_iff]
  cases op with
  | present => exact (hc.1 rfl).elim
  | absent => exact (hc.2 rfl).elim
  | inRange =>
    obtain ⟨start, hd'⟩ := hs rfl
    simp [FilterOperator.combine, FilterOperator.admitsDay, Comparison.ofInstants, hd.first_eq, hd'.last_eq,
      FilterSettings.le_dayOf_iff, FilterSettings.dayOf_le_iff]
  | notEqual =>
    have hne : t < first.toInt ∨ last.toInt < t ↔ settings.dayOf t ≠ day := by
      rw [ne_eq, hd.mem_iff]
      omega
    simpa [FilterOperator.combine, FilterOperator.admitsDay, Comparison.ofInstants] using hne
  | _ =>
    simp [FilterOperator.combine, FilterOperator.admitsDay, Comparison.ofInstants, hd.first_eq, hd.last_eq,
      FilterSettings.le_dayOf_iff, FilterSettings.dayOf_le_iff, FilterSettings.dayOf_lt_iff,
      FilterSettings.lt_dayOf_iff, FilterSettings.dayOf_eq_iff]

theorem combine_never {op : FilterOperator} {first last stop : Int64} :
    op.combine (fun _ _ => false) first last stop = false := by
  cases op <;> rfl

/-- A predicate that compares by the day holds of an instant exactly if its day stands to the days of the bounds as the
operator asks, and of nothing that is no instant. -/
theorem predicate_byDay (hx : f.exact = false) (hl : f.lower = some m)
    (hu : f.operator = .inRange → f.upper = some m₂) (hc : f.operator.Compares)
    (h : f.predicate settings field = .ok e) :
    (∀ doc t, doc.lookup field = some (.dateTime t) → e.eval doc = .ok (f.operator.admitsDay (settings.dayOf t.toInt)
      (settings.dayOf m.toInt) (settings.dayOf m₂.toInt))) ∧
    ∀ doc, (∀ v, doc.lookup field = some v → v.IsTimeless) → e.eval doc = .ok false := by
  constructor
  · intro doc t ht
    obtain ⟨first, last, stop, hd, hs, he⟩ := eval_combined hx hl hu hc h
      fun op bound hop => Expr.eval_range_instant hop ht bound
    rw [he, combine_ofInstants hc hd hs]
  · intro doc ht
    obtain ⟨first, last, stop, -, -, he⟩ := eval_combined hx hl hu hc h
      fun op bound hop => Expr.eval_range_timeless hop ht bound
    rw [he, combine_never]

/-- The days of the instants just before and at the start of 1970. -/
def turnOf1970 : DateFilter := { operator := .inRange, lower := some (-1), upper := some 0 }

/-- Eight hours behind UTC these are one day, the last of 1969, and it lasts until the next morning. -/
theorem predicate_byDay_behind : ∃ e, turnOf1970.predicate (.ofMinutes (-480) "(Blanks)") "seen" = .ok e ∧
    e.eval (.document [("seen", .dateTime 28799999)]) = .ok true ∧
    e.eval (.document [("seen", .dateTime 28800000)]) = .ok false ∧
    e.eval (.document [("seen", .string "1970-01-01")]) = .ok false := by
  have hp : turnOf1970.predicate (.ofMinutes (-480) "(Blanks)") "seen" = .ok _ := rfl
  have hu : turnOf1970.operator = .inRange → turnOf1970.upper = some 0 := fun _ => rfl
  have h := predicate_byDay rfl rfl hu (by decide) hp
  refine ⟨_, hp, h.1 _ 28799999 rfl, h.1 _ 28800000 rfl, h.2 _ ?_⟩
  rintro v ⟨⟩
  exact ⟨nofun, nofun⟩

end DateFilter

end Dossier
