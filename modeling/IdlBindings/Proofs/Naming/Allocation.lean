import IdlBindings.Proofs.Naming.Pool
import Mathlib.Order.Bounds.Basic

/-!
What a run of requests gets out of a pool. A request is a search without bound: the name
itself, then its numbered forms from two on, until one is free. Only finitely many names
are taken and no two numbered forms are the same, so the search ends, at the least number
that is free. What it finds is taken for all requests after it, and nothing else is.
-/

namespace IdlBindings.Naming.Pool

@[simp] theorem isTaken_eq_true_iff {pool : Pool} {name : String} :
    pool.isTaken name = true ↔ name ∈ pool.taken :=
  List.contains_iff_mem

@[simp] theorem isTaken_eq_false_iff {pool : Pool} {name : String} :
    pool.isTaken name = false ↔ name ∉ pool.taken := by
  rw [← isTaken_eq_true_iff, Bool.not_eq_true]

/-- The search for a free form of `name` that has come to `candidate`, with the number `n`
to try next, ends and finds a name. -/
inductive Finds (pool : Pool) (name : String) : String → Nat → String → Prop
  | free {candidate : String} {n : Nat} (hfree : pool.isTaken candidate = false) :
      Finds pool name candidate n candidate
  | next {candidate : String} {n : Nat} {found : String}
      (htaken : pool.isTaken candidate = true)
      (hnext : Finds pool name (numbered name n) (n + 1) found) :
      Finds pool name candidate n found

/-- The search goes on by one number at a time, so it ends at the first that is free. -/
theorem finds_numbered {pool : Pool} {name : String} {n k : Nat} (hn : n ≤ k)
    (hfree : pool.isTaken (numbered name k) = false)
    (hbefore : ∀ j, n ≤ j → j < k → pool.isTaken (numbered name j) = true) :
    pool.Finds name (numbered name n) (n + 1) (numbered name k) := by
  induction hn using Nat.decreasingInduction with
  | self => exact .free hfree
  | of_succ n hn ih =>
      have htaken : pool.isTaken (numbered name n) = true := hbefore n (Nat.le_refl n) hn
      exact .next htaken (ih fun j hj hlt => hbefore j (Nat.le_of_succ_le hj) hlt)

/-- A name that is taken gets the least number from two on that makes it free. -/
theorem choose_of_taken {pool : Pool} {name : String} (h : pool.isTaken name = true) :
    ∃ k, IsLeast {k | 2 ≤ k ∧ pool.isTaken (numbered name k) = false} k ∧
      pool.choose name = numbered name k := by
  have hskip : (pool.candidates name).find? (fun candidate => !pool.isTaken candidate) =
      ((List.range pool.taken.length).find?
        fun i => !pool.isTaken (numbered name (i + 2))).map fun i => numbered name (i + 2) := by
    rw [candidates, List.find?_cons_of_neg (by simp [h]), List.find?_map]
    rfl
  have hfree : pool.isTaken (pool.choose name) = false :=
    isTaken_eq_false_iff.mpr (choose_not_taken pool name)
  cases hfound : (List.range pool.taken.length).find?
      fun i => !pool.isTaken (numbered name (i + 2)) with
  | none =>
      -- Only then would the pool fall back on the name itself.
      have hchosen : pool.choose name = name := by
        rw [choose, hskip, hfound]
        rfl
      rw [hchosen, h] at hfree
      cases hfree
  | some i =>
      have hchosen : pool.choose name = numbered name (i + 2) := by
        rw [choose, hskip, hfound]
        rfl
      obtain ⟨_, _, hearlier⟩ := List.find?_range_eq_some.mp hfound
      refine ⟨i + 2, ⟨⟨Nat.le_add_left 2 i, hchosen ▸ hfree⟩, ?_⟩, hchosen⟩
      rintro j ⟨hj, hnot⟩
      by_contra hlt
      have htaken := hearlier (j - 2) (by omega)
      rw [Nat.sub_add_cancel hj, hnot] at htaken
      cases htaken

theorem finds_choose (pool : Pool) (name : String) :
    pool.Finds name name 2 (pool.choose name) := by
  cases h : pool.isTaken name with
  | true =>
      obtain ⟨k, ⟨⟨hk, hfree⟩, hleast⟩, hchosen⟩ := choose_of_taken h
      rw [hchosen]
      refine .next h (finds_numbered hk hfree fun j hj hlt => ?_)
      by_contra hnot
      exact Nat.not_le.mpr hlt (hleast ⟨hj, Bool.eq_false_of_not_eq_true hnot⟩)
  | false =>
      rw [choose_of_free (isTaken_eq_false_iff.mp h)]
      exact .free h

/-- What is taken after some requests was taken before or given to one of them. -/
theorem isTaken_after_iff {pool : Pool} {asked : List String} {name : String} :
    (pool.after asked).isTaken name = true ↔
      name ∈ pool.taken ∨ name ∈ pool.handOut asked := by
  rw [isTaken_eq_true_iff]
  induction asked generalizing pool with
  | nil => exact (or_iff_left List.not_mem_nil).symm
  | cons first rest ih =>
      have hnext : pool.after (first :: rest) = (pool.allocate first).2.after rest := rfl
      rw [hnext, ih, allocate_snd_taken, handOut, List.mem_cons, List.mem_cons, or_assoc,
        or_left_comm]

/-- A request is answered by the pool that the earlier ones left. -/
theorem getElem?_handOut (pool : Pool) {asked : List String} {i : Nat} {name : String}
    (h : asked[i]? = some name) :
    (pool.handOut asked)[i]? = some ((pool.after (asked.take i)).choose name) ∧
      (pool.handOut asked).take i = pool.handOut (asked.take i) := by
  obtain ⟨hi, hname⟩ := List.getElem?_eq_some_iff.mp h
  have hlength : (pool.handOut (asked.take i)).length = i := by
    rw [length_handOut, List.length_take, Nat.min_eq_left hi.le]
  have hsplit : asked.take i ++ name :: asked.drop (i + 1) = asked := by
    rw [← hname, ← List.drop_eq_getElem_cons hi, List.take_append_drop]
  have hall : pool.handOut asked = pool.handOut (asked.take i) ++
      (pool.after (asked.take i)).handOut (name :: asked.drop (i + 1)) := by
    rw [← handOut_append, hsplit]
  constructor
  · rw [hall, List.getElem?_append_right hlength.le, hlength, Nat.sub_self]
    rfl
  · rw [hall, List.take_left' hlength]

/-- Requests to a pool, one after the other. The search for each ends. It finds the name
itself if that is free, and otherwise the name with the least number from two on that
makes it free; taken are the reserved names and those that earlier requests were given.
No two requests are given the same name and none is given a reserved one, and in the end
exactly the reserved names and those that were given are taken. -/
theorem requests_answered (reserved asked : List String) :
    let pool := ofReserved reserved
    let given := pool.handOut asked
    given.length = asked.length ∧
    (∀ i name, asked[i]? = some name →
      let now := pool.after (asked.take i)
      let answer := (now.allocate name).1
      given[i]? = some answer ∧
        (∀ other, now.isTaken other = true ↔ other ∈ reserved ∨ other ∈ given.take i) ∧
        now.Finds name name 2 answer ∧
        (now.isTaken name = false → answer = name) ∧
        (now.isTaken name = true →
          ∃ k, IsLeast {k | 2 ≤ k ∧ now.isTaken (numbered name k) = false} k ∧
            answer = numbered name k)) ∧
    given.Nodup ∧ given.Disjoint reserved ∧
    ∀ name, (pool.after asked).isTaken name = true ↔ name ∈ reserved ∨ name ∈ given := by
  intro pool given
  obtain ⟨hnodup, hfresh⟩ := pool.handOut_fresh asked
  refine ⟨pool.length_handOut asked, ?_, hnodup, hfresh, fun name => isTaken_after_iff⟩
  intro i name hname now answer
  obtain ⟨hanswer, hearlier⟩ := pool.getElem?_handOut hname
  refine ⟨hanswer, fun other => ?_, now.finds_choose name, fun hfree => ?_, choose_of_taken⟩
  · rw [hearlier]
    exact isTaken_after_iff
  · exact choose_of_free (isTaken_eq_false_iff.mp hfree)

end IdlBindings.Naming.Pool
