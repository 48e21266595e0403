import TrailSat.Proofs.Search.Branches

/-!
# What a step can do

A run can be compared with a recursion as a whole, but what it keeps at every position is easier to
see from the steps themselves.  From a position that mirrors its branches a step does one of five
things (`Stepped`):

```text
a clause is falsified     a branch is left to flip     it is flipped
                          all branches are flipped     the search ends, unsatisfiable
all clauses satisfied                                  the search ends, satisfiable
neither                   a budget is used up          the search ends, undecided
                          otherwise                    the lowest free variable is decided
```

The first and the last one lead to a position that mirrors its branches again, and the second and
the fourth one end without branches.
-/

namespace TrailSat.Search

variable {F : Formula} {settings : Settings} {base : Assignment} {p : Position State}

/-! ## Finding the branch to flip -/

/-- Either all branches are flipped, or there is a newest one that is not. -/
theorem all_flipped_or (branches : List Branch) :
    (∀ b ∈ branches, b.flipped = true) ∨
      ∃ closed v rest, branches = closed ++ ⟨v, false⟩ :: rest ∧
        ∀ b ∈ closed, b.flipped = true := by
  induction branches with
  | nil => exact .inl nofun
  | cons b more ih =>
      obtain ⟨v, flipped⟩ := b
      cases flipped with
      | false => exact .inr ⟨[], v, more, rfl, nofun⟩
      | true =>
          rcases ih with hall | ⟨closed, w, rest, rfl, hclosed⟩
          · exact .inl (List.forall_mem_cons.2 ⟨rfl, hall⟩)
          · exact .inr ⟨⟨v, true⟩ :: closed, w, rest, rfl, List.forall_mem_cons.2 ⟨rfl, hclosed⟩⟩

theorem dropWhile_flipped {closed : List Branch} (hclosed : ∀ b ∈ closed, b.flipped = true)
    (v : Nat) (rest : List Branch) :
    (closed ++ ⟨v, false⟩ :: rest).dropWhile Branch.flipped = ⟨v, false⟩ :: rest := by
  rw [List.dropWhile_append_of_pos hclosed]
  rfl

theorem dropWhile_all_flipped {branches : List Branch}
    (hall : ∀ b ∈ branches, b.flipped = true) : branches.dropWhile Branch.flipped = [] := by
  have hdrop : (branches ++ []).dropWhile Branch.flipped = [] :=
    List.dropWhile_append_of_pos hall
  rwa [List.append_nil] at hdrop

theorem resolve_of_open (hp : Mirrors F settings.firstPhase base p) {closed rest : List Branch}
    {v : Nat} (hbranches : p.branches = closed ++ ⟨v, false⟩ :: rest)
    (hclosed : ∀ b ∈ closed, b.flipped = true) :
    resolve F settings p =
        (flipped F settings base (p.more settings .conflict) v rest, .running) ∧
      Mirrors F settings.firstPhase base
        (flipped F settings base (p.more settings .conflict) v rest) := by
  have hopen : p.branches.dropWhile Branch.flipped = ⟨v, false⟩ :: rest := by
    rw [hbranches, dropWhile_flipped hclosed]
  obtain ⟨hback, hnext⟩ := backtrack_of_open (hp.more settings .conflict) hopen
  refine ⟨?_, hnext⟩
  rw [Position.more_conflict] at hback ⊢
  rw [resolve, hback]

theorem resolve_of_closed (hp : Mirrors F settings.firstPhase base p)
    (hclosed : ∀ b ∈ p.branches, b.flipped = true) :
    resolve F settings p =
      ({ p.more settings .conflict with state := State.along F base, branches := [] },
        .finished .unsat) := by
  have hback := backtrack_of_closed (hp.more settings .conflict) (dropWhile_all_flipped hclosed)
  rw [Position.more_conflict] at hback ⊢
  rw [resolve, hback]

/-! ## The step -/

/-- What a step comes to from a position with the given assignment, and what it has found out about
the clauses. -/
inductive Stepped (F : Formula) (settings : Settings) (base a : Assignment)
    (p : Position State) : Position State × Status → Prop where
  | flip (closed : List Branch) (v : Nat) (rest : List Branch)
      (hconflict : F.clauses.any a.falsifies = true)
      (hbranches : p.branches = closed ++ ⟨v, false⟩ :: rest)
      (hclosed : ∀ b ∈ closed, b.flipped = true)
      (hnext : Mirrors F settings.firstPhase base
        (flipped F settings base (p.more settings .conflict) v rest)) :
      Stepped F settings base a p
        (flipped F settings base (p.more settings .conflict) v rest, .running)
  | exhausted
      (hconflict : F.clauses.any a.falsifies = true)
      (hclosed : ∀ b ∈ p.branches, b.flipped = true) :
      Stepped F settings base a p
        ({ p.more settings .conflict with state := State.along F base, branches := [] },
          .finished .unsat)
  | solved
      (hconflict : F.clauses.any a.falsifies = false)
      (hsolved : F.clauses.all a.satisfies = true) :
      Stepped F settings base a p (p, .finished .sat)
  | stopped
      (hconflict : F.clauses.any a.falsifies = false)
      (hsolved : F.clauses.all a.satisfies = false)
      (hbudget : withinBudget settings p.counters = false) :
      Stepped F settings base a p
        ({ p with state := State.along F base, branches := [] }, .finished .undecided)
  | decide (v : Nat)
      (hconflict : F.clauses.any a.falsifies = false)
      (hsolved : F.clauses.all a.satisfies = false)
      (hbudget : withinBudget settings p.counters = true)
      (hfree : a.firstFree? F = some v)
      (hnext : Mirrors F settings.firstPhase base (decided F settings base p v)) :
      Stepped F settings base a p (decided F settings base p v, .running)

/-- A step from a position that mirrors its branches does one of the five things. -/
theorem stepped_of_mirrors (hp : Mirrors F settings.firstPhase base p) :
    Stepped F settings base (taken settings.firstPhase p.branches ++ base) p
      (step F settings p) := by
  have hstep : step F settings p = _ := step_eq hp
  have hproceed := @proceed_of_free F base settings p hp
  generalize taken settings.firstPhase p.branches ++ base = a at hstep hproceed ⊢
  rw [hstep]
  cases hconflict : F.clauses.any a.falsifies with
  | true =>
      rw [if_pos rfl]
      rcases all_flipped_or p.branches with hclosed | ⟨closed, v, rest, hbranches, hclosed⟩
      · rw [resolve_of_closed hp hclosed]
        exact .exhausted hconflict hclosed
      · obtain ⟨hresolve, hnext⟩ := resolve_of_open hp hbranches hclosed
        rw [hresolve]
        exact .flip closed v rest hconflict hbranches hclosed hnext
  | false =>
      rw [if_neg Bool.false_ne_true]
      cases hsolved : F.clauses.all a.satisfies with
      | true =>
          rw [if_pos rfl]
          exact .solved hconflict hsolved
      | false =>
          rw [if_neg Bool.false_ne_true]
          cases hbudget : withinBudget settings p.counters with
          | false =>
              rw [proceed_of_stopped hp hbudget]
              exact .stopped hconflict hsolved hbudget
          | true =>
              cases hfree : a.firstFree? F with
              | none =>
                  -- every clause would be satisfied then
                  have hall := Assignment.satisfies_of_not_free hfree (by simp [hconflict])
                  rw [hsolved] at hall
                  cases hall
              | some v =>
                  obtain ⟨hdecided, hnext⟩ := hproceed hbudget hfree
                  rw [hdecided]
                  exact .decide v hconflict hsolved hbudget hfree hnext

end TrailSat.Search
