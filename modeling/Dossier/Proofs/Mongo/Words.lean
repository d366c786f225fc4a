/-
Words for the characters that keys may not contain. In a key without underscores a word stands for its character
and for nothing else, but words share their underscores: the end of one word, a name in the key and the start of
another word can read as a third word. Restoring goes wrong at these texts and nowhere else.
-/
import Dossier.Mongo.Escape
import Mathlib.Data.List.Infix

namespace Dossier.Mongo

/-- The characters that keys may not contain, in the order in which they are restored. -/
def specials : List Char := ['\x00', '$', '.']

/-- The name in the word for a character. -/
def nameOf : Char → List Char
  | '\x00' => ['n', 'u', 'l', 'l']
  | '$' => ['d', 'o', 'l', 'l', 'a', 'r']
  | '.' => ['d', 'o', 't']
  | _ => []

/-- The word for a character: its name between pairs of underscores. -/
def wordOf (c : Char) : List Char := '_' :: '_' :: (nameOf c ++ ['_', '_'])

/-- Writes some characters of a key as words. -/
def escapeOnly (cs : List Char) (key : List Char) : List Char :=
  key.flatMap fun x => if x ∈ cs then wordOf x else [x]

/-- Turns the words of some characters back, one character after the other. -/
def restoreAll (cs : List Char) (key : List Char) : List Char :=
  cs.foldl (fun s c => replaceWord (wordOf c) c 0 s) key

variable {c d x y : Char} {cs later name word key s t : List Char}

theorem forall_specials {P : Char → Prop} : (∀ c ∈ specials, P c) ↔ P '\x00' ∧ P '$' ∧ P '.' := by
  simp [specials]

theorem toList_wordFor? : ∀ c ∈ specials, (wordFor? c).map String.toList = some (wordOf c) :=
  forall_specials.2 ⟨rfl, rfl, rfl⟩

theorem wordFor?_of_not_mem (h : x ∉ specials) : wordFor? x = none := by
  simp only [specials, List.mem_cons, List.not_mem_nil, or_false, not_or] at h
  unfold wordFor?
  split <;> simp_all

theorem escapeChars_eq (key : List Char) : escapeChars key = escapeOnly specials key := by
  unfold escapeChars escapeOnly
  congr 1
  funext x
  by_cases h : x ∈ specials
  · obtain ⟨word, hw, ht⟩ := Option.map_eq_some_iff.1 (toList_wordFor? x h)
    rw [if_pos h, hw, ← ht]
  · rw [if_neg h, wordFor?_of_not_mem h]

theorem restoreChars_eq (key : List Char) : restoreChars key = restoreAll specials key := rfl

theorem special_ne_underscore : ∀ c ∈ specials, c ≠ '_' := by
  simp [forall_specials]

theorem underscore_not_mem_nameOf : ∀ c ∈ specials, '_' ∉ nameOf c := by
  simp [forall_specials, nameOf]

theorem special_not_mem_nameOf : ∀ c ∈ specials, ∀ x ∈ specials, x ∉ nameOf c := by
  simp [forall_specials, nameOf]

theorem special_not_mem_wordOf : ∀ c ∈ specials, ∀ x ∈ specials, x ∉ wordOf c := by
  simp [forall_specials, wordOf, nameOf]

theorem nameOf_ne_nil : ∀ c ∈ specials, nameOf c ≠ [] := by
  simp [forall_specials, nameOf]

theorem count_wordOf : ∀ c ∈ specials, (wordOf c).count '_' = 4 :=
  forall_specials.2 ⟨rfl, rfl, rfl⟩

/-! ## Escaping some characters -/

theorem escapeOnly_nil (cs : List Char) : escapeOnly cs [] = [] := rfl

theorem escapeOnly_cons_of_mem (h : x ∈ cs) (key : List Char) :
    escapeOnly cs (x :: key) = wordOf x ++ escapeOnly cs key := by
  unfold escapeOnly
  rw [List.flatMap_cons, if_pos h]

theorem escapeOnly_cons_of_not_mem (h : x ∉ cs) (key : List Char) :
    escapeOnly cs (x :: key) = x :: escapeOnly cs key := by
  unfold escapeOnly
  rw [List.flatMap_cons, if_neg h]
  rfl

theorem escapeOnly_eq_self (h : ∀ x ∈ key, x ∉ cs) : escapeOnly cs key = key := by
  induction key with
  | nil => rfl
  | cons x key ih =>
    rw [List.forall_mem_cons] at h
    rw [escapeOnly_cons_of_not_mem h.1, ih h.2]

/-- No word begins another. -/
theorem wordOf_append_inj (hx : x ∈ specials) (hy : y ∈ specials) (h : wordOf x ++ s = wordOf y ++ t) :
    x = y ∧ s = t := by
  simp only [specials, List.mem_cons, List.not_mem_nil, or_false] at hx hy
  rcases hx with rfl | rfl | rfl <;> rcases hy with rfl | rfl | rfl <;>
    first | exact ⟨rfl, List.append_cancel_left h⟩ | simp [wordOf, nameOf] at h

theorem escapeOnly_eq_nil (h : escapeOnly cs key = []) : key = [] := by
  cases key with
  | nil => rfl
  | cons x key =>
    by_cases hx : x ∈ cs
    · rw [escapeOnly_cons_of_mem hx] at h; cases h
    · rw [escapeOnly_cons_of_not_mem hx] at h; cases h

/-- Texts without underscores are told apart by their escaped forms. -/
theorem escapeOnly_inj (hcs : cs ⊆ specials) {key' : List Char} (hkey : '_' ∉ key) (hkey' : '_' ∉ key')
    (h : escapeOnly cs key = escapeOnly cs key') : key = key' := by
  induction key generalizing key' with
  | nil => exact (escapeOnly_eq_nil h.symm).symm
  | cons x key ih =>
    cases key' with
    | nil => exact escapeOnly_eq_nil h
    | cons y key' =>
      rw [List.mem_cons, not_or] at hkey hkey'
      by_cases hx : x ∈ cs <;> by_cases hy : y ∈ cs
      · rw [escapeOnly_cons_of_mem hx, escapeOnly_cons_of_mem hy] at h
        obtain ⟨rfl, ht⟩ := wordOf_append_inj (hcs hx) (hcs hy) h
        rw [ih hkey.2 hkey'.2 ht]
      · rw [escapeOnly_cons_of_mem hx, escapeOnly_cons_of_not_mem hy] at h
        exact (hkey'.1 (List.cons.inj h).1).elim
      · rw [escapeOnly_cons_of_not_mem hx, escapeOnly_cons_of_mem hy] at h
        exact (hkey.1 (List.cons.inj h).1.symm).elim
      · rw [escapeOnly_cons_of_not_mem hx, escapeOnly_cons_of_not_mem hy] at h
        obtain ⟨rfl, ht⟩ := List.cons.inj h
        rw [ih hkey.2 hkey'.2 ht]

/-- A name without special characters and a pair of underscores stand at the start of an escaped key where the key
has the name and then a character that is escaped. -/
theorem prefix_escapeOnly_iff (hname : ∀ x ∈ name, x ≠ '_' ∧ x ∉ cs) (hkey : '_' ∉ key) :
    name ++ ['_', '_'] <+: escapeOnly cs key ↔ ∃ y ∈ cs, name ++ [y] <+: key := by
  induction key generalizing name with
  | nil => simp [escapeOnly_nil]
  | cons k key ih =>
    rw [List.mem_cons, not_or] at hkey
    by_cases hk : k ∈ cs
    · rw [escapeOnly_cons_of_mem hk]
      cases name with
      | nil => exact iff_of_true ⟨_, rfl⟩ ⟨k, hk, key, rfl⟩
      | cons a name =>
        obtain ⟨ha, hcs⟩ := hname a (List.mem_cons_self ..)
        refine iff_of_false (fun h => ha (List.cons_prefix_cons.1 h).1) ?_
        rintro ⟨y, -, h⟩
        exact hcs ((List.cons_prefix_cons.1 h).1 ▸ hk)
    · rw [escapeOnly_cons_of_not_mem hk]
      cases name with
      | nil =>
        refine iff_of_false (fun h => hkey.1 (List.cons_prefix_cons.1 h).1) ?_
        rintro ⟨y, hy, h⟩
        exact hk ((List.cons_prefix_cons.1 h).1 ▸ hy)
      | cons a name =>
        simp only [List.cons_append, List.cons_prefix_cons,
          ih (fun x hx => hname x (List.mem_cons_of_mem _ hx)) hkey.2]
        constructor
        · rintro ⟨rfl, y, hy, h⟩
          exact ⟨y, hy, rfl, h⟩
        · rintro ⟨y, hy, rfl, h⟩
          exact ⟨rfl, y, hy, h⟩

/-- A single underscore and a name do not stand at the start of an escaped key. -/
theorem not_prefix_escapeOnly (hname : '_' ∉ name) (hne : name ≠ []) (hkey : '_' ∉ key) :
    ¬ '_' :: (name ++ ['_', '_']) <+: escapeOnly cs key := by
  obtain ⟨a, name, rfl⟩ := List.exists_cons_of_ne_nil hne
  intro h
  cases key with
  | nil => simp [escapeOnly_nil] at h
  | cons k key =>
    rw [List.mem_cons, not_or] at hkey hname
    by_cases hk : k ∈ cs
    · rw [escapeOnly_cons_of_mem hk] at h
      have ha : a = '_' := (List.cons_prefix_cons.1 (List.cons_prefix_cons.1 h).2).1
      exact hname.1 ha.symm
    · rw [escapeOnly_cons_of_not_mem hk] at h
      exact hkey.1 (List.cons_prefix_cons.1 h).1

/-! ## Replacing one word -/

theorem replaceWord_skip (word : List Char) (c : Char) (s t : List Char) :
    replaceWord word c s.length (s ++ t) = replaceWord word c 0 t := by
  induction s with
  | nil => rfl
  | cons x s ih => exact ih

theorem replaceWord_wordOf (c : Char) (t : List Char) :
    replaceWord (wordOf c) c 0 (wordOf c ++ t) = c :: replaceWord (wordOf c) c 0 t := by
  have hp : (wordOf c).isPrefixOf (wordOf c ++ t) = true := by simp
  have hskip := replaceWord_skip (wordOf c) c ('_' :: (nameOf c ++ ['_', '_'])) t
  exact (if_pos hp).trans (congrArg (c :: ·) hskip)

theorem replaceWord_cons (h : ¬ word <+: x :: t) :
    replaceWord word c 0 (x :: t) = x :: replaceWord word c 0 t := by
  have hp : ¬ word.isPrefixOf (x :: t) = true := by simpa using h
  rw [replaceWord, if_neg hp]

theorem replaceWord_cons_of_ne (h : x ≠ '_') (t : List Char) :
    replaceWord (wordOf c) c 0 (x :: t) = x :: replaceWord (wordOf c) c 0 t :=
  replaceWord_cons fun hp => h (List.cons_prefix_cons.1 hp).1.symm

/-- The word of another character is passed over, but for its last two underscores. -/
theorem replaceWord_other (hc : c ∈ specials) (hx : x ∈ specials) (hne : x ≠ c) (t : List Char) :
    replaceWord (wordOf c) c 0 (wordOf x ++ t) =
      '_' :: '_' :: (nameOf x ++ replaceWord (wordOf c) c 0 ('_' :: '_' :: t)) := by
  simp only [specials, List.mem_cons, List.not_mem_nil, or_false] at hc hx
  rcases hc with rfl | rfl | rfl <;> rcases hx with rfl | rfl | rfl <;> first | exact (hne rfl).elim | rfl

/-- The last two underscores of a word stay unless the rest of another word follows them. -/
theorem replaceWord_underscores (hc : c ∈ specials) (hkey : '_' ∉ key)
    (h : ¬ nameOf c ++ ['_', '_'] <+: escapeOnly cs key) :
    replaceWord (wordOf c) c 0 ('_' :: '_' :: escapeOnly cs key) =
      '_' :: '_' :: replaceWord (wordOf c) c 0 (escapeOnly cs key) := by
  have hfirst : ¬ wordOf c <+: '_' :: '_' :: escapeOnly cs key := by
    simpa [wordOf, List.cons_prefix_cons] using h
  have hsecond : ¬ wordOf c <+: '_' :: escapeOnly cs key := fun hp =>
    not_prefix_escapeOnly (underscore_not_mem_nameOf c hc) (nameOf_ne_nil c hc) hkey (List.cons_prefix_cons.1 hp).2
  rw [replaceWord_cons hfirst, replaceWord_cons hsecond]

/-! ## One stage of restoring -/

/-- The texts that restoring `c` misreads while the words for `later` are still to be restored: one of these
characters, the name of `c`, and a character whose word begins where that of `c` would end. -/
def misreadings (c : Char) (later : List Char) : List (List Char) :=
  later.flatMap fun x => (c :: later).map fun y => x :: (nameOf c ++ [y])

theorem mem_misreadings : s ∈ misreadings c later ↔ ∃ x ∈ later, ∃ y ∈ c :: later, x :: (nameOf c ++ [y]) = s := by
  unfold misreadings
  simp only [List.mem_flatMap, List.mem_map]

/-- After the word for a character in `later`, the name of `c` is misread if and only if a misreading starts
there. -/
theorem prefix_name_iff (hc : c ∈ specials) (hl : later ⊆ specials) (hx : x ∈ later) (hkey : '_' ∉ key) :
    nameOf c ++ ['_', '_'] <+: escapeOnly (c :: later) key ↔ ∃ text ∈ misreadings c later, text <+: x :: key := by
  have hname : ∀ a ∈ nameOf c, a ≠ '_' ∧ a ∉ c :: later := by
    intro a ha
    refine ⟨fun e => underscore_not_mem_nameOf c hc (e ▸ ha), fun hmem => ?_⟩
    exact special_not_mem_nameOf c hc a (List.cons_subset.2 ⟨hc, hl⟩ hmem) ha
  rw [prefix_escapeOnly_iff hname hkey]
  constructor
  · rintro ⟨y, hy, h⟩
    exact ⟨_, mem_misreadings.2 ⟨x, hx, y, hy, rfl⟩, List.cons_prefix_cons.2 ⟨rfl, h⟩⟩
  · rintro ⟨text, ht, h⟩
    obtain ⟨x', -, y, hy, rfl⟩ := mem_misreadings.1 ht
    exact ⟨y, hy, (List.cons_prefix_cons.1 h).2⟩

/-- A special character to the left of which a word is cut: there are two underscores more there than in whole
words. -/
def Spoiled (c : Char) (s : List Char) : Prop := ∃ left right, s = left ++ c :: right ∧ left.count '_' % 4 = 2

theorem Spoiled.append (h : Spoiled c s) (t : List Char) (ht : t.count '_' % 4 = 0) : Spoiled c (t ++ s) := by
  obtain ⟨left, right, rfl, hcount⟩ := h
  refine ⟨t ++ left, right, (List.append_assoc ..).symm, ?_⟩
  rw [List.count_append]
  omega

theorem Spoiled.underscore_mem (h : Spoiled c s) : '_' ∈ s := by
  obtain ⟨left, right, rfl, hcount⟩ := h
  refine List.mem_append_left _ (List.count_pos_iff.1 ?_)
  omega

section Stage

variable (hc : c ∈ specials) (hl : later ⊆ specials) (hcl : c ∉ later)
include hc hl hcl

/-- Without a misreading a stage restores its character and leaves the words of the others. -/
theorem replaceWord_escapeOnly (hkey : '_' ∉ key) (h : ∀ text ∈ misreadings c later, ¬ text <:+: key) :
    replaceWord (wordOf c) c 0 (escapeOnly (c :: later) key) = escapeOnly later key := by
  induction key with
  | nil => rfl
  | cons x key ih =>
    rw [List.mem_cons, not_or] at hkey
    have hrest := ih hkey.2 fun text ht hin => h text ht (List.infix_cons hin)
    by_cases hxc : x = c
    · subst hxc
      rw [escapeOnly_cons_of_mem (List.mem_cons_self ..), replaceWord_wordOf, hrest, escapeOnly_cons_of_not_mem hcl]
    by_cases hx : x ∈ later
    · have hname : ¬ nameOf c ++ ['_', '_'] <+: escapeOnly (c :: later) key := by
        rw [prefix_name_iff hc hl hx hkey.2]
        rintro ⟨text, ht, hp⟩
        exact h text ht hp.isInfix
      rw [escapeOnly_cons_of_mem (List.mem_cons_of_mem _ hx), replaceWord_other hc (hl hx) hxc,
        replaceWord_underscores hc hkey.2 hname, hrest, escapeOnly_cons_of_mem hx]
      simp [wordOf]
    · rw [escapeOnly_cons_of_not_mem (by simp [hxc, hx]), replaceWord_cons_of_ne (Ne.symm hkey.1), hrest,
        escapeOnly_cons_of_not_mem hx]

/-- A misreading makes a stage cut two words. -/
theorem spoiled_replaceWord_escapeOnly (hkey : '_' ∉ key) (h : ∃ text ∈ misreadings c later, text <:+: key) :
    Spoiled c (replaceWord (wordOf c) c 0 (escapeOnly (c :: later) key)) := by
  obtain ⟨text, ht, hin⟩ := h
  obtain ⟨x', hx', y, hy, rfl⟩ := mem_misreadings.1 ht
  have hcu := special_ne_underscore c hc
  induction key with
  | nil => simp at hin
  | cons x key ih =>
    rw [List.mem_cons, not_or] at hkey
    rw [List.infix_cons_iff] at hin
    by_cases hxc : x = c
    · subst hxc
      have hrest := hin.resolve_left fun hp => hcl ((List.cons_prefix_cons.1 hp).1 ▸ hx')
      rw [escapeOnly_cons_of_mem (List.mem_cons_self ..), replaceWord_wordOf]
      exact (ih hkey.2 hrest).append [x] (by simp [hcu])
    by_cases hx : x ∈ later
    · have hcount := count_wordOf x (hl hx)
      rw [escapeOnly_cons_of_mem (List.mem_cons_of_mem _ hx), replaceWord_other hc (hl hx) hxc]
      by_cases hname : nameOf c ++ ['_', '_'] <+: escapeOnly (c :: later) key
      · -- the word for `c` is found behind the first half of the word for `x`, which stays
        obtain ⟨t, ht⟩ := hname
        refine ⟨'_' :: '_' :: nameOf x, replaceWord (wordOf c) c 0 t, ?_, ?_⟩
        · rw [← ht]
          exact congrArg ('_' :: '_' :: nameOf x ++ ·) (replaceWord_wordOf c t)
        · rw [List.count_cons_self, List.count_cons_self,
            List.count_eq_zero_of_not_mem (underscore_not_mem_nameOf x (hl hx))]
      · have hrest := hin.resolve_left fun hp =>
          hname ((prefix_name_iff hc hl hx hkey.2).2 ⟨_, ht, hp⟩)
        rw [replaceWord_underscores hc hkey.2 hname]
        simpa [wordOf] using (ih hkey.2 hrest).append (wordOf x) (by rw [hcount])
    · have hrest := hin.resolve_left fun hp => hx ((List.cons_prefix_cons.1 hp).1 ▸ hx')
      rw [escapeOnly_cons_of_not_mem (by simp [hxc, hx]), replaceWord_cons_of_ne (Ne.symm hkey.1)]
      exact (ih hkey.2 hrest).append [x] (by simp [Ne.symm hkey.1])

end Stage

/-! ## Later stages -/

/-- Induction on a text as a stage reads it from the left: it is empty, begins with the word, or begins with a
character that stays. -/
theorem word_induction {motive : List Char → Prop} (d : Char) (nil : motive [])
    (word : ∀ t, motive t → motive (wordOf d ++ t))
    (cons : ∀ x t, ¬ wordOf d <+: x :: t → motive t → motive (x :: t)) (s : List Char) : motive s := by
  induction hn : s.length using Nat.strong_induction_on generalizing s with
  | _ n ih =>
    cases s with
    | nil => exact nil
    | cons x t =>
      by_cases hp : wordOf d <+: x :: t
      · obtain ⟨t', ht⟩ := hp
        rw [← ht] at hn ⊢
        refine word t' (ih t'.length ?_ t' rfl)
        rw [← hn, List.length_append]
        exact Nat.lt_add_of_pos_left (Nat.succ_pos _)
      · exact cons x t hp (ih t.length (by rw [← hn]; exact Nat.lt_succ_self _) t rfl)

theorem count_replaceWord (hd : d ∈ specials) (s : List Char) :
    (replaceWord (wordOf d) d 0 s).count '_' % 4 = s.count '_' % 4 := by
  have hdu := special_ne_underscore d hd
  induction s using word_induction d with
  | nil => rfl
  | word t ih =>
    rw [replaceWord_wordOf, List.count_cons_of_ne hdu, List.count_append, count_wordOf d hd, ih]
    omega
  | cons x t hp ih =>
    rw [replaceWord_cons hp, List.count_cons, List.count_cons]
    omega

/-- What begins a text ends before a character that it does not have. -/
theorem prefix_of_prefix_append_cons (hc : c ∉ word) (h : word <+: s ++ c :: t) : word <+: s := by
  have hs : s ++ [c] <+: s ++ c :: t := ⟨t, by simp⟩
  rcases List.prefix_or_prefix_of_prefix h hs with h | h
  · rcases List.prefix_concat_iff.1 h with rfl | h
    · exact (hc (by simp)).elim
    · exact h
  · exact (hc (h.subset (by simp))).elim

/-- A character that no word contains divides a text into two that are read apart. -/
theorem replaceWord_append_cons (hc : c ∈ specials) (hd : d ∈ specials) (s t : List Char) :
    replaceWord (wordOf d) d 0 (s ++ c :: t) =
      replaceWord (wordOf d) d 0 s ++ c :: replaceWord (wordOf d) d 0 t := by
  have hcw := special_not_mem_wordOf d hd c hc
  induction s using word_induction d with
  | nil => exact replaceWord_cons_of_ne (special_ne_underscore c hc) t
  | word s ih => rw [List.append_assoc, replaceWord_wordOf, replaceWord_wordOf, ih, List.cons_append]
  | cons x s hp ih =>
    have hp' : ¬ wordOf d <+: x :: (s ++ c :: t) := fun h => hp (prefix_of_prefix_append_cons hcw h)
    rw [List.cons_append, replaceWord_cons hp', replaceWord_cons hp, ih, List.cons_append]

theorem Spoiled.replaceWord (hc : c ∈ specials) (hd : d ∈ specials) (h : Spoiled c s) :
    Spoiled c (replaceWord (wordOf d) d 0 s) := by
  obtain ⟨left, right, rfl, hcount⟩ := h
  refine ⟨_, _, replaceWord_append_cons hc hd left right, ?_⟩
  rw [count_replaceWord hd, hcount]

theorem Spoiled.restoreAll (hc : c ∈ specials) (hcs : cs ⊆ specials) (h : Spoiled c s) :
    Spoiled c (restoreAll cs s) := by
  induction cs generalizing s with
  | nil => exact h
  | cons d cs ih =>
    rw [List.cons_subset] at hcs
    exact ih hcs.2 (h.replaceWord hc hcs.1)

/-! ## All stages -/

/-- The texts that some stage misreads. -/
def allMisreadings : List Char → List (List Char)
  | [] => []
  | c :: later => misreadings c later ++ allMisreadings later

/-- Restoring undoes escaping for the keys without a misreading, and only for these. -/
theorem restoreAll_escapeOnly_iff (hcs : cs ⊆ specials) (hn : cs.Nodup) (hkey : '_' ∉ key) :
    restoreAll cs (escapeOnly cs key) = key ↔ ∀ text ∈ allMisreadings cs, ¬ text <:+: key := by
  -- the first stage either leaves the escaped form for the other stages or spoils the text for all of them
  induction cs with
  | nil =>
    rw [escapeOnly_eq_self fun _ _ => List.not_mem_nil]
    simp [restoreAll, allMisreadings]
  | cons c later ih =>
    rw [List.cons_subset] at hcs
    rw [List.nodup_cons] at hn
    rw [allMisreadings, List.forall_mem_append, ← ih hcs.2 hn.2]
    have hstage : restoreAll (c :: later) (escapeOnly (c :: later) key) =
        restoreAll later (replaceWord (wordOf c) c 0 (escapeOnly (c :: later) key)) := rfl
    by_cases h : ∀ text ∈ misreadings c later, ¬ text <:+: key
    · rw [hstage, replaceWord_escapeOnly hcs.1 hcs.2 hn.1 hkey h]
      exact (and_iff_right h).symm
    · refine iff_of_false (fun e => ?_) (fun hboth => h hboth.1)
      push Not at h
      have hspoiled := (spoiled_replaceWord_escapeOnly hcs.1 hcs.2 hn.1 hkey h).restoreAll hcs.1 hcs.2
      rw [← hstage, e] at hspoiled
      exact hkey hspoiled.underscore_mem

/-! ## Keys -/

/-- The texts whose escaped form is restored as another text. -/
def ambiguous : List String :=
  ["$null\x00", "$null$", "$null.", ".null\x00", ".null$", ".null.", ".dollar$", ".dollar."]

theorem allMisreadings_specials : allMisreadings specials = ambiguous.map String.toList := by decide

theorem restoreKey_escapeKey_iff {key : String} (hkey : '_' ∉ key.toList) :
    restoreKey (escapeKey key) = key ↔ ∀ text ∈ ambiguous, ¬ text.toList <:+: key.toList := by
  unfold restoreKey escapeKey
  rw [← String.toList_inj, String.toList_ofList, String.toList_ofList, escapeChars_eq, restoreChars_eq,
    restoreAll_escapeOnly_iff (List.Subset.refl _) (by decide) hkey, allMisreadings_specials, List.forall_mem_map]

theorem escapeKey_eq_self {key : String} (h : ∀ c ∈ key.toList, c ∉ specials) : escapeKey key = key := by
  unfold escapeKey
  rw [escapeChars_eq, escapeOnly_eq_self h, String.ofList_toList]

theorem escapeKey_inj {key key' : String} (hkey : '_' ∉ key.toList) (hkey' : '_' ∉ key'.toList)
    (h : escapeKey key = escapeKey key') : key = key' := by
  unfold escapeKey at h
  rw [String.ofList_inj, escapeChars_eq, escapeChars_eq] at h
  exact String.toList_inj.1 (escapeOnly_inj (List.Subset.refl _) hkey hkey' h)

end Dossier.Mongo
