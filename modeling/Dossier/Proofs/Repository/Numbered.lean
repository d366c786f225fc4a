/-
The numbers of stored customers. A customer has the slug that is made from its number, or neither of
both; no two customers have the same number, and no number is above the counter. The change of an
operation keeps it so, as long as nobody brings a slug along for a customer that is not stored.
-/
import Dossier.Proofs.Repository.Numbering
import Mathlib.Data.Int.Order.Basic
import Mathlib.Order.Basic

namespace Dossier.Customer

open Repository

variable {config : Config} {stem : String} {number other : Option Int64} {v doc : Value} {c e : Customer}
  {given : List Customer} {dismissed : Option Uuid} {id : Uuid} {row : Row} {store : Store} {s t : State}

/-! ## Documents -/

/-- A document has a number and the slug that is made from it, or neither of both. -/
def Carries (stem : String) (number : Option Int64) (v : Value) : Prop :=
  ∃ doc, v = .document doc ∧ doc.lookup "slug" = number.map (fun n => .string (slugText stem n.toInt)) ∧
    doc.lookup "sequence" = number.map .int64

namespace Carries

theorem unique (h : Carries stem number v) (h' : Carries stem other v) : number = other := by
  obtain ⟨doc, rfl, -, hn⟩ := h
  obtain ⟨_, hd, -, ho⟩ := h'
  cases hd
  exact Option.map_injective (fun _ _ h => Value.int64.inj h) (hn.symm.trans ho)

/-- What is read off the document is the number and the slug. -/
theorem read (h : Carries stem number v) (hc : ofValue? v = some c) :
    c.sequence = number ∧ c.slug = number.map fun n => slugText stem n.toInt := by
  obtain ⟨doc, rfl, hslug, hseq⟩ := h
  obtain ⟨_, hd, hr⟩ := ofValue?_eq_some_iff.1 hc
  cases hd
  have hrseq := hr.sequence
  have hrslug := hr.slug
  unfold Field.optional at hrseq hrslug
  rw [hseq] at hrseq
  rw [hslug] at hrslug
  cases number with
  | none => exact ⟨(Option.some.inj hrseq).symm, (Option.some.inj hrslug).symm⟩
  | some n => exact ⟨(Option.some.inj hrseq).symm, (Option.some.inj hrslug).symm⟩

theorem ofCustomer (h : c.slug = c.sequence.map fun n => slugText stem n.toInt) :
    Carries stem c.sequence c.toValue := by
  refine ⟨c.document, toValue_eq c, ?_, by rw [lookup_document]; rfl⟩
  rw [lookup_document]
  show c.slug.map Value.string = _
  rw [h, Option.map_map]
  rfl

theorem ofRecord (record : ChangeRecord) : Carries stem none record.toValue :=
  ⟨record.document, record.toValue_eq, by rw [ChangeRecord.lookup_document]; rfl,
    by rw [ChangeRecord.lookup_document]; rfl⟩

/-- Neither numbers nor slugs are properties that can be set. -/
theorem withFields {u : Customer} {names : List String} {values : Document} (h : Carries stem number v)
    (hl : registry.readAll u names = .ok values) : Carries stem number (Store.withFields values v) := by
  obtain ⟨doc, rfl, hslug, hseq⟩ := h
  refine ⟨_, rfl, ?_, ?_⟩
  · rw [lookup_insertAll_of_not_registered hl doc (by decide), hslug]
  · rw [lookup_insertAll_of_not_registered hl doc (by decide), hseq]

/-- A new version of a customer has the number of the stored one. -/
theorem version {existing updated : Customer} (h : Carries stem number v) (he : ofValue? v = some existing)
    (hu : SameIdentity existing updated) : Carries stem number updated.toValue := by
  obtain ⟨hseq, hslug⟩ := h.read he
  rw [hu.sequence] at hseq
  rw [hu.slug] at hslug
  subst hseq
  exact .ofCustomer hslug

end Carries

/-! ## Stores -/

/-- The numbers of the stored customers are distinct and lie between one and the counter. -/
structure Numbered (config : Config) (stem : String) (store : Store) : Prop where
  started : 0 ≤ store.counterValue (slugCounter config)
  carried : ∀ row ∈ store.rows (Stored.collection Customer), ∃ number, Carries stem number row.doc ∧
    ∀ n ∈ number, 1 ≤ n.toInt ∧ n.toInt ≤ store.counterValue (slugCounter config)
  distinct : ∀ a ∈ store.rows (Stored.collection Customer), ∀ b ∈ store.rows (Stored.collection Customer), ∀ n,
    Carries stem (some n) a.doc → Carries stem (some n) b.doc → a.id = b.id

namespace Numbered

theorem empty (config : Config) (stem : String) : Numbered config stem {} := ⟨Int.le_refl 0, nofun, nofun⟩

/-- Numbers stay distinct when every row has no number or that of a row that was under its identifier. -/
theorem of_rows {after : Store} (h : Numbered config stem store)
    (hc : store.counterValue (slugCounter config) ≤ after.counterValue (slugCounter config))
    (hr : ∀ row ∈ after.rows (Stored.collection Customer), Carries stem none row.doc ∨
      ∃ old ∈ store.rows (Stored.collection Customer), old.id = row.id ∧
        ∀ number, Carries stem number old.doc → Carries stem number row.doc) : Numbered config stem after := by
  have origin : ∀ row ∈ after.rows (Stored.collection Customer), ∀ n, Carries stem (some n) row.doc →
      ∃ old ∈ store.rows (Stored.collection Customer), old.id = row.id ∧ Carries stem (some n) old.doc := by
    intro row hm n hn
    rcases hr row hm with hnone | ⟨old, ho, hi, hk⟩
    · cases hn.unique hnone
    · obtain ⟨number, hcar, -⟩ := h.carried old ho
      exact ⟨old, ho, hi, (hk number hcar).unique hn ▸ hcar⟩
  refine ⟨h.started.trans hc, fun row hm => ?_, fun a ha b hb n hna hnb => ?_⟩
  · rcases hr row hm with hnone | ⟨old, ho, -, hk⟩
    · exact ⟨none, hnone, nofun⟩
    · obtain ⟨number, hcar, hb⟩ := h.carried old ho
      exact ⟨number, hk number hcar, fun n hn => ⟨(hb n hn).1, (hb n hn).2.trans hc⟩⟩
  · obtain ⟨olda, hoa, hia, hcara⟩ := origin a ha n hna
    obtain ⟨oldb, hob, hib, hcarb⟩ := origin b hb n hnb
    rw [← hia, ← hib]
    exact h.distinct olda hoa oldb hob n hcara hcarb

/-- A row is added that has no number, or one that has been handed out and that no other row has. -/
theorem addRow (h : Numbered config stem store) (hc : Carries stem number doc)
    (hb : ∀ n ∈ number, 1 ≤ n.toInt ∧ n.toInt ≤ store.counterValue (slugCounter config))
    (hn : ∀ n ∈ number, ∀ row ∈ store.rows (Stored.collection Customer), ¬ Carries stem (some n) row.doc) :
    Numbered config stem (store.addRows (Stored.collection Customer) [(id, doc)]) := by
  have split : ∀ row ∈ (store.addRows (Stored.collection Customer) [(id, doc)]).rows (Stored.collection Customer),
      row ∈ store.rows (Stored.collection Customer) ∨ row.id = id ∧ row.doc = doc := by
    intro row hm
    refine (Store.mem_rows_addRows hm).imp_right fun ⟨_, hm⟩ => ?_
    simpa using hm
  refine ⟨h.started, fun row hm => ?_, fun a ha b hb n hna hnb => ?_⟩
  · rcases split row hm with hm | ⟨-, hd⟩
    · exact h.carried row hm
    · exact ⟨number, hd ▸ hc, hb⟩
  · have fresh : ∀ row ∈ store.rows (Stored.collection Customer), Carries stem (some n) row.doc →
        ¬ Carries stem (some n) doc := fun row hm hrow hdoc =>
      hn n (hc.unique hdoc) row hm hrow
    rcases split a ha with ha | ⟨hia, hda⟩ <;> rcases split b hb with hb | ⟨hib, hdb⟩
    · exact h.distinct a ha b hb n hna hnb
    · exact (fresh a ha hna (hdb ▸ hnb)).elim
    · exact (fresh b hb hnb (hda ▸ hna)).elim
    · rw [hia, hib]

/-- Handing out numbers leaves the customers alone. -/
theorem of_issues {numbers : List Int} {after : Store} (h : Numbered config stem store)
    (hi : Issues config store after numbers)
    (hr : after.rows (Stored.collection Customer) = store.rows (Stored.collection Customer)) :
    Numbered config stem after := by
  obtain ⟨n, -, hc⟩ := hi
  refine h.of_rows (by omega) fun row hm => Or.inr ⟨row, hr ▸ hm, rfl, fun _ hk => hk⟩

end Numbered

/-! ## Entities that bring a slug along -/

/-- Whether an active customer is stored under an identifier. -/
def occupied (config : Config) (store : Store) (id : Uuid) : Bool :=
  match (repository config).entities.get? id store with
  | .ok (some c) => c.active
  | _ => false

/-- A customer that is handed in has neither slug nor number, unless an active one is stored under its identifier. -/
def Entitled (config : Config) (store : Store) (e : Customer) : Prop :=
  e.slug = none ∧ e.sequence = none ∨ ∃ id ∈ e.id, occupied config store id

instance (config : Config) (store : Store) (e : Customer) : Decidable (Entitled config store e) :=
  inferInstanceAs (Decidable (_ ∨ _))

/-- Whoever is created brings no slug along. -/
theorem Entitled.plain (h : Entitled config store e) (ho : Unoccupied config store e) :
    e.slug = none ∧ e.sequence = none := by
  rcases h with h | ⟨id, hi, hocc⟩
  · exact h
  · unfold occupied at hocc
    split at hocc
    · rename_i c hget
      rw [ho id c hi hget] at hocc; cases hocc
    · cases hocc

/-- A customer that is created gets a number that no stored one has, or none. -/
theorem Slugged.numbered (hp : config.slugPrefix = some stem) (he : e.slug = none ∧ e.sequence = none)
    (hn : Numbered config stem s.store) (h : Slugged (repository config) e s c t) :
    Numbered config stem t.store ∧ c.slug = c.sequence.map (fun n => slugText stem n.toInt) ∧
      ∀ n ∈ c.sequence, (1 ≤ n.toInt ∧ n.toInt ≤ t.store.counterValue (slugCounter config)) ∧
        ∀ row ∈ t.store.rows (Stored.collection Customer), ¬ Carries stem (some n) row.doc := by
  have hissued := (Slugged.draws h).issues hp
  cases h with
  | kept hk =>
    refine ⟨hn, by rw [he.1, he.2]; rfl, fun n hm => ?_⟩
    rw [he.2] at hm; cases hm
  | @given stem' number store hp' hneed hs =>
    cases (show config.slugPrefix = some stem' from hp').symm.trans hp
    obtain ⟨hpos, hv, ht, -⟩ := Store.counterValue_nextInSequence hs
    have hrows : store.rows (Stored.collection Customer) = s.store.rows (Stored.collection Customer) := by
      obtain ⟨-, -, rfl⟩ := Store.nextInSequence_ok hs; rfl
    refine ⟨hn.of_issues hissued hrows, rfl, fun n hm => ?_⟩
    cases hm
    have hstarted := hn.started
    refine ⟨⟨by unfold slugCounter at hstarted; omega, ht.ge⟩, fun row hm hrow => ?_⟩
    -- the number is above all that the stored customers have
    obtain ⟨number', hcar, hbound⟩ := hn.carried row (hrows ▸ hm)
    have hle := (hbound number (hcar.unique hrow)).2
    unfold slugCounter at hle
    omega

/-! ## Changes -/

theorem Change.numbered (hp : config.slugPrefix = some stem) (hs : (repository config).Sound s.store)
    (hg : ∀ e ∈ given, Entitled config s.store e) (hn : Numbered config stem s.store)
    (h : Change config given dismissed s t) : Numbered config stem t.store := by
  have vacated : ∀ {left : Store}, Vacated dismissed s.store left → Numbered config stem left := fun hv =>
    hn.of_rows (Store.counterValue_congr hv.counters_eq _).ge fun row hm =>
      Or.inr ⟨row, hv.mem_rows hs.wf hm, rfl, fun _ hk => hk⟩
  cases h with
  | vacates hv => exact vacated hv
  | @creates e slugged identified left id u v ctx he ho hv hsl hi hin =>
    obtain ⟨hu, hslug, hnew⟩ := Slugged.numbered hp ((hg e he).plain ho) (vacated hv) hsl
    have hkept := slug_of_identified hi ctx
    rw [← hkept.1, ← hkept.2] at hslug
    rw [← hkept.2] at hnew
    rw [hi.store_eq]
    exact hu.addRow (.ofCustomer hslug) (fun n hm => (hnew n hm).1) fun n hm => (hnew n hm).2
  | @rewrites existing updated left old ctx hv hold he hsame =>
    refine hn.of_rows (Store.counterValue_congr ((Store.counters_reviseRows ..).trans hv.counters_eq) _).ge
      fun row hm => Or.inr ?_
    rcases Store.mem_rows_putRow hm with ⟨hi, hd⟩ | hm
    · have hnext := hsame.trans (sameIdentity_stamp ctx updated)
      exact ⟨old, hold, hi.symm, fun number hk => hd ▸ hk.version he hnext⟩
    · exact ⟨row, hv.mem_rows hs.wf hm, rfl, fun _ hk => hk⟩
  | @sets u names values left filter hv hl =>
    refine (vacated hv).of_rows (Store.counterValue_congr (Store.counters_reviseRows ..) _).ge fun row hm => ?_
    change row ∈ (left.reviseRows _ _).rows _ at hm
    rw [Store.rows_reviseRows] at hm
    obtain ⟨old, hold, rfl⟩ := List.mem_map.1 hm
    refine Or.inr ⟨old, hold, rfl, fun number hk => ?_⟩
    unfold Store.fieldsSet
    dsimp only
    split
    · exact hk.withFields hl
    · exact hk

theorem Course.numbered (hp : config.slugPrefix = some stem) (hs : (repository config).Sound s.store)
    (hg : ∀ e ∈ given, Entitled config s.store e) (hn : Numbered config stem s.store)
    (h : Course config given dismissed s t) : Numbered config stem t.store := by
  obtain ⟨v, records, hchange, hrec⟩ := h
  refine (hchange.numbered hp hs hg hn).of_rows (Store.counterValue_congr (counters_of_recorded hrec) _).ge
    fun row hm => ?_
  rw [hrec.left] at hm
  rcases mem_rows_recorded hm with hm | ⟨-, record, -, hd⟩
  · exact Or.inr ⟨row, hm, rfl, fun _ hk => hk⟩
  · exact Or.inl (hd ▸ .ofRecord record)

end Dossier.Customer
