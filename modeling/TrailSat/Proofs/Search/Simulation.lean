import TrailSat.Proofs.Search.Branches

/-!
# The search follows the recursive one

`explore` calls itself where the search opens a branch, and returns where the search backtracks.  So
from a position that mirrors its branches the search can only do one of three things (`Follows`):

* it is stopped early, which takes a limit;
* it ends where `explore` finds an assignment;
* or `explore` finds nothing and the search backtracks, having done everything that `explore` did.

`resume` stands for the rest of the search after the last case.  `follows_explore` is an induction
on the calls of `explore`.  The first call begins at a decided branch.  If it finds nothing, the
search resumes with this branch as the newest one, so it flips it, and the second call begins there.
If that one finds nothing either, the branch is closed without a trace and the search resumes with
the branches below.
-/

namespace TrailSat.Search

/-! ## Running and resuming -/

/-- A run takes one step and goes on if the step does not end it. -/
theorem run_eq (F : Formula) (settings : Settings) (p : Position State) :
    run F settings p =
      match step F settings p with
      | (q, .running) => run F settings q
      | (q, .finished verdict) => (q, .ok verdict)
      | (q, .failed e) => (q, .error e) := by
  rw [run]
  split
  · next hstep => simp only [hstep]
  · next hstep => simp only [hstep]
  · next hstep => simp only [hstep]

/-- Backtracks and runs on. -/
def resume (F : Formula) (settings : Settings) (p : Position State) :
    Position State × Except AssignError Verdict :=
  match backtrack F settings p with
  | (q, .ok true) => run F settings q
  | (q, .ok false) => (q, .ok .unsat)
  | (q, .error e) => (q, .error e)

/-! ## Backtracking -/

variable {F : Formula} {settings : Settings} {base : Assignment} {p : Position State}

/-- A conflict is counted before the search backtracks. -/
theorem run_of_conflict (h : step F settings p = resolve F settings p) :
    run F settings p = resume F settings (p.more settings .conflict) := by
  rw [Position.more_conflict, run_eq, h, resolve, resume]
  -- the three answers of `backtrack` are the three ways on
  rcases backtrack F settings (_ : Position State) with ⟨q, e | answer⟩
  · rfl
  · cases answer <;> rfl

theorem resume_of_nil (hbranches : p.branches = []) : resume F settings p = (p, .ok .unsat) := by
  obtain ⟨state, branches, counters, events⟩ := p
  subst hbranches
  rfl

theorem resume_of_open (hp : Mirrors F settings.firstPhase base p) {v : Nat}
    {rest : List Branch} (hbranches : p.branches = ⟨v, false⟩ :: rest) :
    resume F settings p = run F settings (flipped F settings base p v rest) ∧
      Mirrors F settings.firstPhase base (flipped F settings base p v rest) := by
  have hopen : p.branches.dropWhile Branch.flipped = ⟨v, false⟩ :: rest := by
    rw [hbranches]
    rfl
  obtain ⟨hback, hflipped⟩ := backtrack_of_open hp hopen
  refine ⟨?_, hflipped⟩
  rw [resume, hback]

theorem resume_of_flipped (hp : Mirrors F settings.firstPhase base p) {v : Nat}
    {rest : List Branch} (hbranches : p.branches = ⟨v, true⟩ :: rest) :
    resume F settings p =
      resume F settings
        { p with
          state := State.along F (taken settings.firstPhase rest ++ base)
          branches := rest } := by
  have hproper := hp.proper
  have hstate := hp.state_eq
  rw [hbranches] at hproper hstate
  have hback := unassign_taken hproper
  simp only [resume, backtrack, hstate, hbranches, closeFlipped, hback, if_true]

/-! ## Deciding -/

/-- Where neither a conflict nor a solution is met, the search stops or decides the lowest free
variable. -/
theorem run_of_unsolved (hp : Mirrors F settings.firstPhase base p)
    (hconflict :
      ¬F.clauses.any (Assignment.falsifies (taken settings.firstPhase p.branches ++ base)) = true)
    (hsolved :
      ¬F.clauses.all (Assignment.satisfies (taken settings.firstPhase p.branches ++ base)) = true)
    {v : Nat}
    (hfree : Assignment.firstFree? F (taken settings.firstPhase p.branches ++ base) = some v) :
    (withinBudget settings p.counters = false ∧ run F settings p =
        ({ p with state := State.along F base, branches := [] }, .ok .undecided)) ∨
      run F settings p = run F settings (decided F settings base p v) ∧
        Mirrors F settings.firstPhase base (decided F settings base p v) := by
  have hstep : step F settings p = proceed F settings p := by
    rw [step_eq hp, if_neg hconflict, if_neg hsolved]
  cases hbudget : withinBudget settings p.counters with
  | false =>
      refine .inl ⟨rfl, ?_⟩
      rw [run_eq, hstep, proceed_of_stopped hp hbudget]
  | true =>
      obtain ⟨hproceed, hdecided⟩ := proceed_of_free hp hbudget hfree
      refine .inr ⟨?_, hdecided⟩
      rw [run_eq, hstep, hproceed]

/-! ## Following the recursion -/

/-- What a search does from a position below which `explore` comes to the given result. -/
inductive Follows (F : Formula) (settings : Settings) (base : Assignment) (p : Position State)
    (r : Exploration) : Prop where
  /-- It is stopped early, with every branch taken back. -/
  | stopped (counters : Counters) (events : List Trace.Event)
      (hstop : withinBudget settings counters = false)
      (hrun : run F settings p =
        (⟨State.along F base, [], counters, events⟩, .ok .undecided))
  /-- It ends with the assignment that `explore` finds. -/
  | found (b : Assignment) (hfound : r.found = some b) (hproper : b.Proper F)
      (branches : List Branch) (htaken : taken settings.firstPhase branches ++ base = b)
      (hrun : run F settings p =
        ({ p.more settings r with state := State.along F b, branches := branches }, .ok .sat))
  /-- It backtracks, as `explore` finds nothing. -/
  | exhausted (hfound : r.found = none)
      (hrun : run F settings p = resume F settings (p.more settings r))

/-- What a search does after something else has been done, it does from the position before. -/
theorem Follows.of_later {q : Position State} {first second : Exploration}
    (hrun : run F settings p = run F settings q)
    (hmore : q = { p.more settings first with state := q.state, branches := q.branches })
    (hback : second.found = none → resume F settings (q.more settings second) =
      resume F settings (p.more settings (first.andThen second)))
    (hlater : Follows F settings base q second) :
    Follows F settings base p (first.andThen second) := by
  cases hlater with
  | stopped counters events hstop hdone =>
      exact .stopped counters events hstop (hrun.trans hdone)
  | found b hfound hproper branches htaken hdone =>
      refine .found b hfound hproper branches htaken ?_
      rw [hrun, hdone, Position.more_andThen, hmore]
      rfl
  | exhausted hfound hdone =>
      exact .exhausted hfound ((hrun.trans hdone).trans (hback hfound))

/-- The search follows `explore` from every position that mirrors its branches. -/
theorem follows_explore (F : Formula) (settings : Settings) (base : Assignment) (depth : Nat)
    (a : Assignment) :
    ∀ p, Mirrors F settings.firstPhase base p → p.branches.length = depth →
      taken settings.firstPhase p.branches ++ base = a →
        Follows F settings base p (explore F settings.firstPhase depth a) := by
  fun_induction explore F settings.firstPhase depth a with
  | case1 depth a hconflict =>
      rintro p hp rfl rfl
      exact .exhausted rfl (run_of_conflict (by rw [step_eq hp, if_pos hconflict]))
  | case2 depth a hconflict hsolved =>
      rintro p hp rfl rfl
      refine .found _ rfl hp.proper p.branches rfl ?_
      rw [run_eq, step_eq hp, if_neg hconflict, if_pos hsolved, ← hp.state_eq]
      simp [Position.more, Exploration.success, Counters.plus, noted]
  | case3 depth a hconflict hsolved hfree =>
      exact absurd (Assignment.satisfies_of_not_free hfree hconflict) hsolved
  | case4 depth a hconflict hsolved v hfree first hfound ih =>
      rintro p hp rfl rfl
      rcases run_of_unsolved hp hconflict hsolved hfree with ⟨hstop, hrun⟩ | ⟨hrun, hdecided⟩
      · exact .stopped _ _ hstop hrun
      · refine Follows.of_later hrun rfl (fun hnone => ?_) (ih _ hdecided rfl rfl)
        -- the first call has found something, so the search does not backtrack
        rw [show first.found = none from hnone] at hfound
        cases hfound
  | case5 depth a hconflict hsolved v hfree first hfound ihfirst ihsecond =>
      rintro p hp rfl rfl
      rcases run_of_unsolved hp hconflict hsolved hfree with ⟨hstop, hrun⟩ | ⟨hrun, hdecided⟩
      · exact .stopped _ _ hstop hrun
      · cases ihfirst _ hdecided rfl rfl with
        | stopped counters events hstop hdone =>
            exact .stopped counters events hstop (hrun.trans hdone)
        | found b hsome hproper branches htaken hdone =>
            rw [show first.found = some b from hsome] at hfound
            exact absurd rfl hfound
        | exhausted hnone hdone =>
            -- the decided branch is flipped, and the second call begins there
            obtain ⟨hflip, hflipped⟩ := resume_of_open (hdecided.more settings _) rfl
            refine Follows.of_later (hrun.trans (hdone.trans hflip)) ?_ (fun _ => ?_)
              (ihsecond _ hflipped rfl rfl)
            · rw [Position.more_andThen, Position.more_andThen]
              rfl
            · -- after the second call it is closed
              rw [resume_of_flipped (hflipped.more settings _) rfl, ← hp.state_eq,
                Position.more_andThen, Position.more_andThen, Position.more_andThen]
              rfl

end TrailSat.Search
