import Mathlib.Algebra.Ring.Nat

set_option autoImplicit false

namespace Pocx.Plotter

variable {τ Seed : Type}

/-- Some consecutive warps of a file. -/
structure Stretch (Seed : Type) where
  seed : Seed
  warpOffset : Nat
  warpsToWrite : Nat
  numberOfWarps : Nat

/-- The tasks cut the warps `first ..< last` of a file into consecutive stretches, none of
them empty or longer than `limit`. -/
def Cuts (carries : τ → Stretch Seed → Prop) (limit warps : Nat) (seed : Seed) :
    Nat → List τ → Nat → Prop
  | first, [], last => first = last
  | first, task :: rest, last =>
    ∃ count, 0 < count ∧ count ≤ limit ∧
      carries task
        { seed := seed
          warpOffset := first
          warpsToWrite := count
          numberOfWarps := warps } ∧
      Cuts carries limit warps seed (first + count) rest last

/-- The tasks of a path: `done` whole files, and behind them part of the next one. -/
def Progress (isFile : Nat → List τ → Prop) (part : List τ → Prop) (tasks : List τ) (done : Nat) :
    Prop :=
  ∃ (files : List (List τ)) (tail : List τ), tasks = files.flatten ++ tail ∧ files.length = done ∧
    (∀ k file, files[k]? = some file → isFile k file) ∧ part tail

section cuts

variable {carries : τ → Stretch Seed → Prop} {limit warps : Nat} {seed : Seed}

theorem Cuts.snoc {first middle count : Nat} {tasks : List τ} {task : τ}
    (cuts : Cuts carries limit warps seed first tasks middle) (positive : 0 < count)
    (short : count ≤ limit)
    (carried : carries task
      { seed := seed
        warpOffset := middle
        warpsToWrite := count
        numberOfWarps := warps }) :
    Cuts carries limit warps seed first (tasks ++ [task]) (middle + count) := by
  induction tasks generalizing first with
  | nil =>
    cases cuts
    exact ⟨count, positive, short, carried, rfl⟩
  | cons earlier tasks ih =>
    obtain ⟨length, positive', short', carried', rest⟩ := cuts
    exact ⟨length, positive', short', carried', ih rest⟩

theorem Cuts.le {first last : Nat} {tasks : List τ}
    (cuts : Cuts carries limit warps seed first tasks last) : first ≤ last := by
  induction tasks generalizing first with
  | nil =>
    cases cuts
    exact Nat.le_refl _
  | cons task tasks ih =>
    obtain ⟨count, _, _, _, rest⟩ := cuts
    exact Nat.le_trans (Nat.le_add_right _ _) (ih rest)

/-- The warps of the stretches add up. -/
theorem Cuts.total {first last : Nat} {tasks : List τ}
    (cuts : Cuts carries limit warps seed first tasks last) (size : τ → Nat)
    (sized : ∀ task stretch, carries task stretch → size task = stretch.warpsToWrite) :
    first + (tasks.map size).sum = last := by
  induction tasks generalizing first with
  | nil => exact cuts
  | cons task tasks ih =>
    obtain ⟨count, _, _, carried, rest⟩ := cuts
    rw [List.map_cons, List.sum_cons, sized task _ carried, ← Nat.add_assoc]
    exact ih rest

/-- Stretches of one warp pass every warp. -/
theorem Cuts.through {first middle last : Nat} {tasks : List τ}
    (cuts : Cuts carries 1 warps seed first tasks last) (lower : first ≤ middle)
    (upper : middle ≤ last) :
    ∃ front back, tasks = front ++ back ∧ Cuts carries 1 warps seed first front middle ∧
      Cuts carries 1 warps seed middle back last := by
  induction tasks generalizing first with
  | nil =>
    have whole : first = last := cuts
    exact ⟨[], [], rfl, Nat.le_antisymm lower (whole ▸ upper), Nat.le_antisymm upper (whole ▸ lower)⟩
  | cons task tasks ih =>
    by_cases here : first = middle
    · subst here
      exact ⟨[], task :: tasks, rfl, rfl, cuts⟩
    · obtain ⟨count, positive, short, carried, rest⟩ := cuts
      obtain ⟨front, back, rfl, before, behind⟩ := ih rest (by omega)
      exact ⟨task :: front, back, rfl, ⟨count, positive, short, carried, before⟩, behind⟩

end cuts

section progress

variable {isFile : Nat → List τ → Prop} {part part' : List τ → Prop}

theorem Progress.start (empty : part []) : Progress isFile part [] 0 :=
  ⟨[], [], rfl, rfl, nofun, empty⟩

/-- A task more for the part of the next file. -/
theorem Progress.snoc {tasks : List τ} {done : Nat} (progress : Progress isFile part tasks done)
    (task : τ) (longer : ∀ tail, part tail → part' (tail ++ [task])) :
    Progress isFile part' (tasks ++ [task]) done := by
  obtain ⟨files, tail, rfl, length, whole, partial_⟩ := progress
  exact ⟨files, tail ++ [task], List.append_assoc _ _ _, length, whole, longer tail partial_⟩

/-- The part becomes a whole file. -/
theorem Progress.complete {tasks : List τ} {done : Nat}
    (progress : Progress isFile part tasks done) (whole : ∀ tail, part tail → isFile done tail)
    (empty : part' []) : Progress isFile part' tasks (done + 1) := by
  obtain ⟨files, tail, rfl, length, earlier, partial_⟩ := progress
  refine ⟨files ++ [tail], [], ?_, ?_, ?_, empty⟩
  · rw [List.flatten_append, List.flatten_singleton, List.append_nil]
  · rw [List.length_append, length, List.length_singleton]
  · intro k file found
    by_cases before : k < files.length
    · rw [List.getElem?_append_left before] at found
      exact earlier k file found
    · rw [List.getElem?_append_right (by omega)] at found
      have last : k - files.length = 0 := by
        by_cases behind : k - files.length = 0
        · exact behind
        · rw [List.getElem?_eq_none (by rw [List.length_singleton]; omega)] at found
          cases found
      rw [last, List.getElem?_cons_zero, Option.some.injEq] at found
      subst found
      have here : k = done := by omega
      rw [here]
      exact whole tail partial_

theorem Progress.mono {tasks : List τ} {done : Nat} (progress : Progress isFile part tasks done)
    (weaker : ∀ tail, part tail → part' tail) : Progress isFile part' tasks done := by
  obtain ⟨files, tail, split, length, whole, partial_⟩ := progress
  exact ⟨files, tail, split, length, whole, weaker tail partial_⟩

end progress

end Pocx.Plotter
