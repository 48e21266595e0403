import Mathlib.Data.List.Nodup
import TrailSat.Generate.Problem

/-!
# What sampling may lead to

Of the generator only its laws are known (`LawfulGenerator`): a number is below its bound, a row has
its size, and a choice consists of different numbers.  Which of them come is left open.  So a
computation `Gives` a value, and a sampler `Yields` one, if some state of the generator leads to it.
What comes of two steps comes of the second one after something that the first one may give
(`Gives.of_bind`, `Yields.of_bind`).
-/

namespace TrailSat.Generate

variable {Gen α β : Type}

/-! ## Possible values -/

/-- Some state of the generator leads to the value. -/
def Gives (x : StateM Gen α) (a : α) : Prop :=
  ∃ gen : Gen, (x.run gen).1 = a

/-- Some state of the generator leads to the value, and sampling does not fail. -/
def Yields (x : Sampler Gen α) (a : α) : Prop :=
  ∃ gen after : Gen, x.run.run gen = (.ok a, after)

theorem Gives.of_pure {a b : α} (h : Gives (pure a : StateM Gen α) b) : b = a := by
  obtain ⟨gen, rfl⟩ := h
  rfl

theorem Gives.of_bind {x : StateM Gen α} {f : α → StateM Gen β} {b : β}
    (h : Gives (x >>= f) b) : ∃ a, Gives x a ∧ Gives (f a) b := by
  obtain ⟨gen, rfl⟩ := h
  exact ⟨_, ⟨gen, rfl⟩, (x.run gen).2, rfl⟩

theorem run_bind_of_run {x : StateM Gen α} {f : α → StateM Gen β} {a : α}
    {gen mid : Gen} (h : x.run gen = (a, mid)) : (x >>= f).run gen = (f a).run mid := by
  rw [StateT.run_bind, h]
  rfl

theorem run_bind_of_ok {x : Sampler Gen α} {f : α → Sampler Gen β} {a : α} {gen mid : Gen}
    (h : x.run.run gen = (.ok a, mid)) : (x >>= f).run.run gen = (f a).run.run mid := by
  rw [ExceptT.run_bind, StateT.run_bind, h]
  rfl

theorem run_liftM {x : StateM Gen α} {a : α} {gen after : Gen}
    (h : x.run gen = (a, after)) : (liftM x : Sampler Gen α).run.run gen = (.ok a, after) := by
  have hrun : (liftM x : Sampler Gen α).run.run gen = (.ok (x.run gen).1, (x.run gen).2) := rfl
  rw [hrun, h]

/-- A sampler made of two steps succeeds if both do, the second one with the generator as the first
one has left it. -/
theorem exists_of_run_bind {x : Sampler Gen α} {f : α → Sampler Gen β} {b : β} {gen after : Gen}
    (h : (x >>= f).run.run gen = (.ok b, after)) :
    ∃ a mid, x.run.run gen = (.ok a, mid) ∧ (f a).run.run mid = (.ok b, after) := by
  rw [ExceptT.run_bind, StateT.run_bind] at h
  cases hx : x.run.run gen with
  | mk outcome mid =>
      cases outcome with
      | ok a => exact ⟨a, mid, rfl, by rwa [hx] at h⟩
      | error e =>
          rw [hx] at h
          cases h

theorem Yields.of_bind {x : Sampler Gen α} {f : α → Sampler Gen β} {b : β}
    (h : Yields (x >>= f) b) : ∃ a, Yields x a ∧ Yields (f a) b := by
  obtain ⟨gen, after, hrun⟩ := h
  obtain ⟨a, mid, hfirst, hsecond⟩ := exists_of_run_bind hrun
  exact ⟨a, ⟨gen, mid, hfirst⟩, mid, after, hsecond⟩

theorem Yields.of_pure {a b : α} (h : Yields (pure a : Sampler Gen α) b) : b = a := by
  obtain ⟨gen, after, hrun⟩ := h
  exact (Except.ok.inj (congrArg Prod.fst hrun)).symm

theorem not_yields_throw {e : SamplingError} {a : α} : ¬Yields (throw e : Sampler Gen α) a := by
  rintro ⟨gen, after, hrun⟩
  cases hrun

/-- What a drawing computation gives as a step of a sampler. -/
theorem Yields.gives {x : StateM Gen α} {a : α} (h : Yields (liftM x : Sampler Gen α) a) :
    Gives x a := by
  obtain ⟨gen, after, hrun⟩ := h
  exact ⟨gen, Except.ok.inj (congrArg Prod.fst hrun)⟩

theorem Gives.yields {x : StateM Gen α} {a : α} (h : Gives x a) :
    Yields (liftM x : Sampler Gen α) a := by
  obtain ⟨gen, rfl⟩ := h
  exact ⟨gen, _, run_liftM rfl⟩

/-- If sampling succeeds, a check in front of it has been passed and nothing was drawn for it. -/
theorem run_of_check {c : Prop} [Decidable c] {e : SamplingError} {f : PUnit → Sampler Gen α}
    {x : Sampler Gen α} {a : α} {gen after : Gen}
    (h : (if c then throw e >>= f else x).run.run gen = (.ok a, after)) :
    ¬c ∧ x.run.run gen = (.ok a, after) := by
  split at h
  · obtain ⟨_, mid, hthrow, -⟩ := exists_of_run_bind h
    exact absurd ⟨gen, mid, hthrow⟩ not_yields_throw
  · next hc => exact ⟨hc, h⟩

theorem Yields.of_check {c : Prop} [Decidable c] {e : SamplingError} {f : PUnit → Sampler Gen α}
    {x : Sampler Gen α} {a : α} (h : Yields (if c then throw e >>= f else x) a) :
    ¬c ∧ Yields x a := by
  obtain ⟨gen, after, hrun⟩ := h
  obtain ⟨hc, hrun⟩ := run_of_check hrun
  exact ⟨hc, gen, after, hrun⟩

/-! ## Laws of generators -/

/-- A row of different numbers below a bound. -/
structure IsChoice (population size : Int) (items : List Nat) : Prop where
  length_eq : items.length = size
  nodup : items.Nodup
  lt : ∀ item ∈ items, item < population

/-- What is assumed of a generator. -/
class LawfulGenerator (Gen : Type) [Generator Gen] : Prop where
  below_lt {bound n : Nat} :
    Gives (Generator.below bound : StateM Gen Nat) n → 0 < bound → n < bound
  length_row {size : Nat} {row : List Bool} :
    Gives (Generator.row size : StateM Gen (List Bool)) row → row.length = size
  isChoice {population size : Nat} {items : List Nat} :
    Gives (Generator.choice population size : StateM Gen (List Nat)) items →
      size ≤ population → IsChoice population size items
  /-- The values of a row are kept in a list. -/
  rowRoom_le_rowBound : Generator.rowRoom Gen ≤ Value.rowBound
  /-- One can choose from the variables that can be given values. -/
  rowRoom_le_choiceRoom : Generator.rowRoom Gen ≤ Generator.choiceRoom Gen

section Laws

variable [Generator Gen] [LawfulGenerator Gen]

/-- A number that is drawn from a range lies in it. -/
theorem range_of_drawInt {low high n : Int} (h : Yields (drawInt low high : Sampler Gen Int) n) :
    low ≤ n ∧ n < high := by
  obtain ⟨hrange, h⟩ := h.of_check
  obtain ⟨offset, hoffset, h⟩ := h.of_bind
  obtain rfl := h.of_pure
  have hlt := LawfulGenerator.below_lt hoffset.gives (by omega)
  omega

/-- A row has the size that was asked for, and there was room for it. -/
theorem length_of_drawRow {size : Int} {row : List Bool}
    (h : Yields (drawRow size : Sampler Gen (List Bool)) row) :
    row.length = size ∧ size < Generator.rowRoom Gen := by
  obtain ⟨hsize, h⟩ := h.of_check
  obtain ⟨hroom, h⟩ := h.of_check
  rw [LawfulGenerator.length_row h.gives]
  omega

/-- **What is chosen without replacement is different.** -/
theorem isChoice_of_choose {population size : Int} {items : List Nat}
    (h : Yields (choose population size : Sampler Gen (List Nat)) items) :
    IsChoice population size items := by
  -- of the four checks only those of the size matter here
  obtain ⟨-, h⟩ := h.of_check
  obtain ⟨hsize, h⟩ := h.of_check
  obtain ⟨hfits, h⟩ := h.of_check
  obtain ⟨-, h⟩ := h.of_check
  have hchoice := LawfulGenerator.isChoice h.gives (by omega)
  rwa [Int.toNat_of_nonneg (by omega), Int.toNat_of_nonneg (by omega)] at hchoice

end Laws

/-! ## Rows of items -/

theorem length_of_drawEach {draw : Sampler Gen α} {count : Nat} {items : List α}
    (h : Yields (drawEach draw count) items) :
    items.length = count ∧ ∀ item ∈ items, Yields draw item := by
  induction count generalizing items with
  | zero =>
      obtain rfl := h.of_pure
      exact ⟨rfl, nofun⟩
  | succ count ih =>
      obtain ⟨first, hfirst, h⟩ := h.of_bind
      obtain ⟨rest, hrest, h⟩ := h.of_bind
      obtain rfl := h.of_pure
      obtain ⟨hlength, hitems⟩ := ih hrest
      exact ⟨congrArg (· + 1) hlength, List.forall_mem_cons.2 ⟨hfirst, hitems⟩⟩

end TrailSat.Generate
