import Mathlib.Algebra.BigOperators.Group.List.Basic
import Mathlib.Logic.Function.Basic

set_option autoImplicit false

namespace KeyedSum

variable {κ M : Type} [DecidableEq κ]

/-- The values of one key. -/
def valuesOf (key : κ) (entries : List (κ × M)) : List M :=
  (entries.filter fun entry => entry.1 = key).map Prod.snd

theorem valuesOf_perm (key : κ) {entries entries' : List (κ × M)}
    (same : entries.Perm entries') : (valuesOf key entries).Perm (valuesOf key entries') :=
  (same.filter _).map _

/-- The values of a block whose entries all carry one key. -/
theorem valuesOf_block (key block : κ) (values : List M) :
    valuesOf key (values.map fun value => (block, value)) = if block = key then values else [] := by
  induction values with
  | nil => simp only [List.map_nil, valuesOf, List.filter_nil, ite_self]
  | cons value values ih =>
    rw [valuesOf] at ih ⊢
    by_cases same : block = key
    · simp only [same, List.map_cons, List.filter_cons, decide_true, ↓reduceIte] at ih ⊢
      rw [ih]
    · simp only [same, List.map_cons, List.filter_cons, decide_false, Bool.false_eq_true,
        ↓reduceIte] at ih ⊢
      exact ih

variable [AddCommMonoid M]

/-- Add a value to the accumulator of its key. -/
def accumulate (accumulators : κ → M) (entry : κ × M) : κ → M :=
  Function.update accumulators entry.1 (accumulators entry.1 + entry.2)

/-- Every accumulator gains the sum of the values of its key. -/
theorem foldl_accumulate (accumulators : κ → M) (entries : List (κ × M)) (key : κ) :
    entries.foldl accumulate accumulators key = accumulators key + (valuesOf key entries).sum := by
  induction entries generalizing accumulators with
  | nil => rw [List.foldl_nil, valuesOf, List.filter_nil, List.map_nil, List.sum_nil, add_zero]
  | cons entry entries ih =>
    rw [List.foldl_cons, ih, accumulate]
    by_cases same : entry.1 = key
    · subst same
      simp only [Function.update_self, valuesOf, List.filter_cons, decide_true, ↓reduceIte,
        List.map_cons, List.sum_cons, add_assoc]
    · rw [Function.update_of_ne (Ne.symm same)]
      simp only [valuesOf, List.filter_cons, same, decide_false, Bool.false_eq_true, ↓reduceIte]

/-- The order of the entries does not matter. -/
theorem foldl_accumulate_perm (accumulators : κ → M) {entries entries' : List (κ × M)}
    (same : entries.Perm entries') :
    entries.foldl accumulate accumulators = entries'.foldl accumulate accumulators := by
  funext key
  rw [foldl_accumulate, foldl_accumulate, (valuesOf_perm key same).sum_eq]

end KeyedSum
