import IdlBindings.Naming.Pool
import Mathlib.Data.List.Nodup
import Mathlib.Data.List.Perm.Subperm

/-!
A pool never runs dry: it tries one name more than are taken, all different, so
one of them is free. What it hands out is therefore new, and stays taken from
then on.
-/

namespace IdlBindings.Naming.Pool

theorem numbered_injective (name : String) : Function.Injective (numbered name) := by
  intro m n h
  have hrepr : m.repr = n.repr := (String.append_right_inj (name ++ "_")).mp h
  have hread (k : Nat) : Nat.ofDigitChars 10 k.repr.toList 0 = k := by
    rw [Nat.toList_repr, Nat.ofDigitChars_ten_toDigits]
  rw [← hread m, hrepr, hread n]

theorem numbered_ne_self (name : String) (n : Nat) : numbered name n ≠ name := by
  intro h
  have hlength := congrArg String.length h
  simp only [numbered, String.length_append] at hlength
  have hunderscore : "_".length = 1 := rfl
  omega

theorem candidates_nodup (pool : Pool) (name : String) : (pool.candidates name).Nodup := by
  refine List.nodup_cons.mpr ⟨?_, ?_⟩
  · intro hmem
    obtain ⟨k, _, hk⟩ := List.mem_map.mp hmem
    exact numbered_ne_self name (k + 2) hk
  · apply List.Nodup.map
    · intro i j hij
      have hsame : i + 2 = j + 2 := numbered_injective name hij
      omega
    · exact List.nodup_range

/-- There are more candidates than taken names, and no candidate twice. -/
theorem exists_free_candidate (pool : Pool) (name : String) :
    ∃ candidate ∈ pool.candidates name, candidate ∉ pool.taken := by
  by_contra hnone
  have hsubset : pool.candidates name ⊆ pool.taken := by
    intro candidate hcandidate
    by_contra hfree
    exact hnone ⟨candidate, hcandidate, hfree⟩
  have hlength : (pool.candidates name).length ≤ pool.taken.length :=
    ((candidates_nodup pool name).subperm hsubset).length_le
  simp only [candidates, List.length_cons, List.length_map, List.length_range] at hlength
  omega

theorem choose_not_taken (pool : Pool) (name : String) : pool.choose name ∉ pool.taken := by
  obtain ⟨candidate, hmem, hfree⟩ := exists_free_candidate pool name
  have hsome : ((pool.candidates name).find? fun candidate => !pool.isTaken candidate).isSome := by
    rw [List.find?_isSome]
    exact ⟨candidate, hmem, by simpa [isTaken] using hfree⟩
  obtain ⟨chosen, hchosen⟩ := Option.isSome_iff_exists.mp hsome
  have hnot := List.find?_some hchosen
  have hresult : pool.choose name = chosen := by simp [choose, hchosen]
  rw [hresult]
  simpa [isTaken] using hnot

theorem choose_mem_candidates (pool : Pool) (name : String) :
    pool.choose name ∈ pool.candidates name := by
  rw [choose]
  cases hfound : (pool.candidates name).find? fun candidate => !pool.isTaken candidate with
  | none => exact List.mem_cons_self
  | some chosen => exact List.mem_of_find?_eq_some hfound

/-- The name itself or a numbered form of it. -/
def IsFormOf (name given : String) : Prop :=
  given = name ∨ ∃ n, 2 ≤ n ∧ given = numbered name n

theorem isFormOf_choose (pool : Pool) (name : String) : IsFormOf name (pool.choose name) := by
  rcases List.mem_cons.mp (pool.choose_mem_candidates name) with hsame | hnumbered
  · exact Or.inl hsame
  · obtain ⟨k, _, hk⟩ := List.mem_map.mp hnumbered
    exact Or.inr ⟨k + 2, Nat.le_add_left 2 k, hk.symm⟩

theorem choose_of_free {pool : Pool} {name : String} (h : name ∉ pool.taken) :
    pool.choose name = name := by
  have hfound : (pool.candidates name).find? (fun candidate => !pool.isTaken candidate) =
      some name := by
    apply List.find?_cons_of_pos
    simpa [isTaken] using h
  rw [choose, hfound, Option.getD_some]

@[simp] theorem allocate_snd_taken (pool : Pool) (name : String) :
    (pool.allocate name).2.taken = pool.choose name :: pool.taken := rfl

/-- The names handed out for some names, one after the other. -/
def handOut (pool : Pool) : List String → List String
  | [] => []
  | name :: rest => pool.choose name :: (pool.allocate name).2.handOut rest

/-- The pool that is left after some names were handed out. -/
def after (pool : Pool) (asked : List String) : Pool :=
  asked.foldl (fun pool name => (pool.allocate name).2) pool

theorem handOut_append (pool : Pool) (asked others : List String) :
    pool.handOut (asked ++ others) = pool.handOut asked ++ (pool.after asked).handOut others := by
  induction asked generalizing pool with
  | nil => rfl
  | cons name rest ih => exact congrArg (List.cons (pool.choose name)) (ih _)

theorem length_handOut (pool : Pool) (asked : List String) :
    (pool.handOut asked).length = asked.length := by
  induction asked generalizing pool with
  | nil => rfl
  | cons name rest ih => exact congrArg (· + 1) (ih _)

theorem forall₂_isFormOf_handOut (pool : Pool) (asked : List String) :
    List.Forall₂ IsFormOf asked (pool.handOut asked) := by
  induction asked generalizing pool with
  | nil => exact .nil
  | cons name rest ih => exact .cons (pool.isFormOf_choose name) (ih _)

/-- No name is handed out twice, and none that was taken before. -/
theorem handOut_fresh (pool : Pool) (asked : List String) :
    (pool.handOut asked).Nodup ∧ ∀ name ∈ pool.handOut asked, name ∉ pool.taken := by
  induction asked generalizing pool with
  | nil => exact ⟨List.nodup_nil, fun _ hmem => (List.not_mem_nil hmem).elim⟩
  | cons first rest ih =>
      obtain ⟨hnodup, hfresh⟩ := ih (pool.allocate first).2
      -- The first name is taken in the next pool, so no later name is the same.
      have hapart : ∀ name ∈ (pool.allocate first).2.handOut rest,
          name ≠ pool.choose first ∧ name ∉ pool.taken := by
        intro name hmem
        have hname := hfresh name hmem
        rw [allocate_snd_taken, List.mem_cons, not_or] at hname
        exact hname
      constructor
      · exact List.nodup_cons.mpr ⟨fun hmem => (hapart _ hmem).1 rfl, hnodup⟩
      · exact List.forall_mem_cons.mpr
          ⟨pool.choose_not_taken first, fun name hmem => (hapart name hmem).2⟩

/-- Every name that was asked for is taken afterwards. -/
theorem mem_taken_or_handOut {pool : Pool} {name : String} {asked : List String}
    (h : name ∈ asked) : name ∈ pool.taken ∨ name ∈ pool.handOut asked := by
  induction asked generalizing pool with
  | nil => cases h
  | cons first rest ih =>
      rw [handOut]
      rcases List.mem_cons.mp h with rfl | hrest
      · by_cases htaken : name ∈ pool.taken
        · exact Or.inl htaken
        · rw [choose_of_free htaken]
          exact Or.inr List.mem_cons_self
      · rcases @ih (pool.allocate first).2 hrest with htaken | hlater
        · rw [allocate_snd_taken] at htaken
          rcases List.mem_cons.mp htaken with hchosen | hbefore
          · exact Or.inr (List.mem_cons.mpr (Or.inl hchosen))
          · exact Or.inl hbefore
        · exact Or.inr (List.mem_cons_of_mem _ hlater)

/-- What holds of the names that are asked for, and with a name of its numbered forms,
holds of the names that are handed out. -/
theorem forall_mem_handOut {p : String → Prop}
    (hnumbered : ∀ name, p name → ∀ n, p (numbered name n)) (pool : Pool) {asked : List String}
    (hasked : ∀ name ∈ asked, p name) : ∀ name ∈ pool.handOut asked, p name := by
  induction asked generalizing pool with
  | nil => exact fun _ hmem => (List.not_mem_nil hmem).elim
  | cons first rest ih =>
      obtain ⟨hfirst, hrest⟩ := List.forall_mem_cons.mp hasked
      refine List.forall_mem_cons.mpr ⟨?_, ih _ hrest⟩
      rcases pool.isFormOf_choose first with hsame | ⟨n, _, hnumber⟩
      · rw [hsame]
        exact hfirst
      · rw [hnumber]
        exact hnumbered first hfirst n

end IdlBindings.Naming.Pool
