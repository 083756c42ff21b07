import Mathlib.Data.List.Basic
import SwapRelay.Pool.Registry

/-!
# Looking a pool up

What a look-up gives is one of the pools that a registry keeps, `mem_of_get`, and these are among
the pools that were listed, `mem_of_mem_survivors`. Of the listed ones it is the last with its key:
`find?_survivors`. As no two pools that are kept have one key, each is found under its own
(`find?_of_mem_survivors`).
-/

namespace SwapRelay.Registry

section Get

variable {r : Registry} {id : Text} {pool : Pool}

theorem get_eq_ok : r.get id = .ok pool ↔ r.find? id = some pool := by
  rw [get]
  cases r.find? id <;> simp

theorem get_eq_error {e : Error} :
    r.get id = .error e ↔ e = .route (.unknownPool id) ∧ r.find? id = none := by
  rw [get]
  cases r.find? id <;> simp [eq_comm]

theorem mem_of_get (h : r.get id = .ok pool) : pool ∈ r.pools :=
  List.mem_of_find?_eq_some (get_eq_ok.1 h)

theorem key_of_get (h : r.get id = .ok pool) : pool.key = Text.lower id := by
  have hkey := List.find?_some (get_eq_ok.1 h)
  exact beq_iff_eq.1 hkey

theorem contains_iff (r : Registry) (j : Json) :
    r.contains j = true ↔ ∃ id pool, j = .str id ∧ r.get id.toList = .ok pool := by
  cases j with
  | str id => simp [contains, get_eq_ok, Option.isSome_iff_exists]
  | _ => simp [contains]

end Get

/-! ## What is kept -/

theorem mem_of_mem_survivors {pools : List Pool} {pool : Pool} (h : pool ∈ survivors pools) :
    pool ∈ pools := by
  induction pools with
  | nil => cases h
  | cons first rest ih =>
      rw [survivors] at h
      split at h
      · exact List.mem_cons_of_mem _ (ih h)
      · rcases List.mem_cons.1 h with rfl | h
        · exact List.mem_cons_self ..
        · exact List.mem_cons_of_mem _ (ih h)

/-- What is kept is searched from the front as the list is from its end. -/
theorem find?_survivors (key : Text) (pools : List Pool) :
    (survivors pools).find? (·.key == key) = pools.reverse.find? (·.key == key) := by
  induction pools with
  | nil => rfl
  | cons pool rest ih =>
      have hlater : rest.any (·.key == pool.key) =
          (rest.reverse.find? (·.key == pool.key)).isSome := by
        rw [List.isSome_find?, List.any_reverse]
      rw [List.reverse_cons, List.find?_append, ← ih, survivors, hlater]
      by_cases hkey : pool.key = key
      · rw [hkey, ← ih]
        cases hfound : (survivors rest).find? (·.key == key) with
        | some other => exact hfound
        | none => simp only [Option.isSome_none, Bool.false_eq_true, if_false, List.find?_cons, hkey,
            beq_self_eq_true, Option.none_or]
      · have hskip : (pool.key == key) = false := beq_eq_false_iff_ne.2 hkey
        split <;> simp only [List.find?_cons, List.find?_nil, hskip, Option.or_none]

theorem find?_of_mem_survivors {pools : List Pool} {pool : Pool} (h : pool ∈ survivors pools) :
    (survivors pools).find? (·.key == pool.key) = some pool := by
  induction pools with
  | nil => cases h
  | cons first rest ih =>
      rw [survivors] at h ⊢
      split
      · next hlater =>
          rw [if_pos hlater] at h
          exact ih h
      · next hlast =>
          rw [if_neg hlast] at h
          rcases List.mem_cons.1 h with rfl | h
          · rw [List.find?_cons, beq_self_eq_true]
          · rw [List.find?_cons_of_neg, ih h]
            intro hkey
            refine hlast (List.any_eq_true.2 ⟨pool, mem_of_mem_survivors h, ?_⟩)
            rw [beq_iff_eq] at hkey ⊢
            exact hkey.symm

end SwapRelay.Registry
