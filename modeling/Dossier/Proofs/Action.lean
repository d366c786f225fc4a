/-
Running actions. An action that consists of several steps is taken apart from its outcome: a result
means that every step had a result, a fault comes from the first step that had none. Reading and
checking leave the state alone, whatever their outcome.
-/
import Dossier.Action

namespace Dossier

/-- A bound result comes from a result of the first part. -/
theorem except_bind_ok {ε α β : Type} {x : Except ε α} {f : α → Except ε β} {b : β} (h : x >>= f = .ok b) :
    ∃ a, x = .ok a ∧ f a = .ok b := by
  cases x with
  | error e => cases h
  | ok a => exact ⟨a, rfl, h⟩

theorem except_map_ok {ε α β : Type} {x : Except ε α} {f : α → β} {b : β} (h : x.map f = .ok b) :
    ∃ a, x = .ok a ∧ f a = b := by
  cases x with
  | error e => cases h
  | ok a => cases h; exact ⟨a, rfl, rfl⟩

theorem except_map_map {ε α β γ : Type} (f : α → β) (g : β → γ) (x : Except ε α) :
    (x.map f).map g = x.map (g ∘ f) := by
  cases x <;> rfl

/-- What has been found, told from one of its parts. -/
theorem except_found {ε α β : Type} {x : Except ε (Option α)} {f : α → β} {b : β}
    (h : x.toOption.join.map f = some b) : ∃ a, x = .ok (some a) ∧ f a = b := by
  obtain ⟨a, ha, hb⟩ := Option.map_eq_some_iff.1 h
  cases x with
  | error e => cases ha
  | ok found => exact ⟨a, congrArg Except.ok (Option.some.inj (Option.join_eq_some_iff.1 ha)), hb⟩

theorem except_forM_ok {ε α : Type} {f : α → Except ε Unit} : ∀ {as : List α},
    as.forM f = .ok () ↔ ∀ a ∈ as, f a = .ok ()
  | [] => ⟨fun _ => nofun, fun _ => rfl⟩
  | a :: as => by
    rw [show (a :: as).forM f = (f a >>= fun _ => as.forM f) from rfl, List.forall_mem_cons, ← except_forM_ok]
    refine ⟨fun h => ?_, fun ⟨ha, has⟩ => by rw [ha]; exact has⟩
    obtain ⟨_, ha, has⟩ := except_bind_ok h
    exact ⟨ha, has⟩

namespace Action

variable {α β : Type} {s t : State} {fault : Fault}

/-- The state that an action leaves, whether it has a result or not. -/
def leaves (x : Action α) (s : State) : State :=
  match x s with
  | .ok _ t => t
  | .error _ t => t

/-- The result of an action that has one, with the state that it leaves. -/
def result? (x : Action α) (s : State) : Option (α × State) :=
  match x s with
  | .ok a t => some (a, t)
  | .error _ _ => none

theorem run_of_result? {x : Action α} {r : α × State} (h : x.result? s = some r) : x s = .ok r.1 r.2 := by
  unfold result? at h
  split at h
  · rename_i hx
    cases h
    exact hx
  · cases h

theorem leaves_ok {x : Action α} {a : α} (h : x s = .ok a t) : x.leaves s = t := by
  unfold leaves; rw [h]

theorem leaves_error {x : Action α} (h : x s = .error fault t) : x.leaves s = t := by
  unfold leaves; rw [h]

/-! ## Steps in sequence -/

theorem bind_ok {x : Action α} {f : α → Action β} {b : β} (h : (x >>= f) s = .ok b t) :
    ∃ a u, x s = .ok a u ∧ f a u = .ok b t := by
  change EStateM.bind x f s = _ at h
  unfold EStateM.bind at h
  split at h
  · exact ⟨_, _, ‹_›, h⟩
  · cases h

theorem bind_error {x : Action α} {f : α → Action β} (h : (x >>= f) s = .error fault t) :
    x s = .error fault t ∨ ∃ a u, x s = .ok a u ∧ f a u = .error fault t := by
  change EStateM.bind x f s = _ at h
  unfold EStateM.bind at h
  split at h
  · exact Or.inr ⟨_, _, ‹_›, h⟩
  · cases h; exact Or.inl ‹_›

theorem bind_run {x : Action α} {f : α → Action β} {a : α} {u : State} (h : x s = .ok a u) :
    (x >>= f) s = f a u := by
  change EStateM.bind x f s = _
  unfold EStateM.bind; rw [h]

theorem bind_run_error {x : Action α} {f : α → Action β} (h : x s = .error fault t) :
    (x >>= f) s = .error fault t := by
  change EStateM.bind x f s = _
  unfold EStateM.bind; rw [h]

theorem leaves_bind (x : Action α) (f : α → Action β) (s : State) : (x >>= f).leaves s =
    match x s with
    | .ok a u => (f a).leaves u
    | .error _ t => t := by
  cases h : x s with
  | ok a u => unfold leaves; rw [bind_run h]
  | error fault t => rw [leaves_error (bind_run_error h)]

theorem leaves_mapM_cons (f : α → Action β) (a : α) (as : List α) (s : State) : ((a :: as).mapM f).leaves s =
    match f a s with
    | .ok _ u => (as.mapM f).leaves u
    | .error _ t => t := by
  rw [List.mapM_cons, leaves_bind]
  cases f a s with
  | error fault t => rfl
  | ok b u =>
    dsimp only
    rw [leaves_bind]
    unfold leaves
    cases as.mapM f u <;> rfl

/-! ## Lists of steps -/

theorem mapM_cons_run {f : α → Action β} {a : α} {as : List α} {b : β} {bs : List β} {u : State}
    (ha : f a s = .ok b u) (has : as.mapM f u = .ok bs t) : (a :: as).mapM f s = .ok (b :: bs) t := by
  rw [List.mapM_cons]
  exact (bind_run ha).trans (bind_run has)

theorem mapM_cons_ok {f : α → Action β} {a : α} {as : List α} {results : List β}
    (h : (a :: as).mapM f s = .ok results t) :
    ∃ b u bs, f a s = .ok b u ∧ as.mapM f u = .ok bs t ∧ results = b :: bs := by
  rw [List.mapM_cons] at h
  obtain ⟨b, u, ha, h⟩ := bind_ok h
  obtain ⟨bs, v, has, h⟩ := bind_ok h
  cases h
  exact ⟨b, u, bs, ha, has, rfl⟩

theorem mapM_append_ok {f : α → Action β} {as more : List α} {results : List β}
    (h : (as ++ more).mapM f s = .ok results t) :
    ∃ done u rest, as.mapM f s = .ok done u ∧ more.mapM f u = .ok rest t ∧ results = done ++ rest := by
  rw [List.mapM_append] at h
  obtain ⟨done, u, has, h⟩ := bind_ok h
  obtain ⟨rest, v, hmore, h⟩ := bind_ok h
  cases h
  exact ⟨done, u, rest, has, hmore, rfl⟩

/-- A list of steps fails at the first step that fails; those before it have been taken. -/
theorem mapM_error {f : α → Action β} : ∀ {as : List α} {s : State}, as.mapM f s = .error fault t →
    ∃ before a later results u, as = before ++ a :: later ∧ before.mapM f s = .ok results u ∧
      f a u = .error fault t
  | [], s, h => by cases h
  | a :: as, s, h => by
    rw [List.mapM_cons] at h
    rcases bind_error h with h | ⟨b, v, ha, h⟩
    · exact ⟨[], a, as, [], s, rfl, rfl, h⟩
    rcases bind_error h with h | ⟨bs, w, has, h⟩
    · obtain ⟨before, a', later, results, u, rfl, hb, hf⟩ := mapM_error h
      exact ⟨a :: before, a', later, b :: results, u, rfl, mapM_cons_run ha hb, hf⟩
    · cases h

theorem pure_ok {a b : α} (h : (pure a : Action α) s = .ok b t) : b = a ∧ t = s := by
  cases h; exact ⟨rfl, rfl⟩

/-! ## Steps that leave the state alone -/

theorem read_ok {f : Store → Except Fault α} {a : α} (h : read f s = .ok a t) : f s.store = .ok a ∧ t = s := by
  unfold read at h
  split at h
  · cases h; exact ⟨‹_›, rfl⟩
  · cases h

theorem read_run {f : Store → Except Fault α} {a : α} (h : f s.store = .ok a) : read f s = .ok a s := by
  unfold read
  rw [h]

theorem read_error {f : Store → Except Fault α} (h : read f s = .error fault t) :
    f s.store = .error fault ∧ t = s := by
  unfold read at h
  split at h
  · cases h
  · cases h; exact ⟨‹_›, rfl⟩

theorem ofExcept_ok {r : Except Fault α} {a : α} (h : ofExcept r s = .ok a t) : r = .ok a ∧ t = s := by
  unfold ofExcept at h
  split at h
  · cases h; exact ⟨rfl, rfl⟩
  · cases h

theorem ofExcept_error {r : Except Fault α} (h : ofExcept r s = .error fault t) : r = .error fault ∧ t = s := by
  unfold ofExcept at h
  split at h
  · cases h
  · cases h; exact ⟨rfl, rfl⟩

theorem throw_error {f : Fault} (h : (throw f : Action α) s = .error fault t) : f = fault ∧ t = s := by
  cases h; exact ⟨rfl, rfl⟩

theorem bind_read_ok {f : Store → Except Fault α} {g : α → Action β} {b : β} (h : (read f >>= g) s = .ok b t) :
    ∃ a, f s.store = .ok a ∧ g a s = .ok b t := by
  obtain ⟨a, u, hr, hg⟩ := bind_ok h
  obtain ⟨hf, rfl⟩ := read_ok hr
  exact ⟨a, hf, hg⟩

theorem bind_read_error {f : Store → Except Fault α} {g : α → Action β} (h : (read f >>= g) s = .error fault t) :
    t = s ∨ ∃ a, f s.store = .ok a ∧ g a s = .error fault t := by
  rcases bind_error h with h | ⟨a, u, hr, hg⟩
  · exact Or.inl (read_error h).2
  · obtain ⟨hf, rfl⟩ := read_ok hr
    exact Or.inr ⟨a, hf, hg⟩

theorem bind_ofExcept_ok {x : Except Fault α} {g : α → Action β} {b : β} (h : (ofExcept x >>= g) s = .ok b t) :
    ∃ a, x = .ok a ∧ g a s = .ok b t := by
  obtain ⟨a, u, hr, hg⟩ := bind_ok h
  obtain ⟨hx, rfl⟩ := ofExcept_ok hr
  exact ⟨a, hx, hg⟩

theorem bind_ofExcept_run {x : Except Fault α} {g : α → Action β} {a : α} (h : x = .ok a) :
    (ofExcept x >>= g) s = g a s := by
  rw [h]
  exact bind_run rfl

theorem bind_read_run {f : Store → Except Fault α} {g : α → Action β} {a : α} (h : f s.store = .ok a) :
    (read f >>= g) s = g a s := by
  refine bind_run ?_
  unfold read
  rw [h]

theorem bind_ofExcept_error {x : Except Fault α} {g : α → Action β} (h : (ofExcept x >>= g) s = .error fault t) :
    x = .error fault ∧ t = s ∨ ∃ a, x = .ok a ∧ g a s = .error fault t := by
  rcases bind_error h with h | ⟨a, u, hr, hg⟩
  · exact Or.inl (ofExcept_error h)
  · obtain ⟨hx, rfl⟩ := ofExcept_ok hr
    exact Or.inr ⟨a, hx, hg⟩

/-! ## Changes of the store -/

theorem change_ok {f : StoreChange α} {a : α} (h : change f s = .ok a t) :
    f s.store = .ok a t.store ∧ t.ids = s.ids := by
  unfold change at h
  split at h
  · cases h; exact ⟨‹_›, rfl⟩
  · cases h

theorem change_error {f : StoreChange α} (h : change f s = .error fault t) :
    f s.store = .error fault t.store ∧ t.ids = s.ids := by
  unfold change at h
  split at h
  · cases h
  · cases h; exact ⟨‹_›, rfl⟩

end Action

end Dossier
