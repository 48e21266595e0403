import TrailSat.Search.Basic

/-!
# Running a search to its end

Every search ends.  The work left at a position is bounded by the size of the binary tree below it:
with `k` free variables there are at most `treeSize k` positions to come before the newest branch is
closed, and as many again below every branch that has yet to be flipped.  `workLeft` adds these
bounds up, and `workLeft_step_lt` says that each step of a running search takes some of it.
No assumption on the board is needed: a branch is opened or closed only if the number of free
variables changes by one.
-/

namespace TrailSat

namespace Search

variable {σ : Type} [Board σ]

/-! ## The work left -/

/-- The number of nodes of the full binary tree that decides `free` variables: a bound on the steps
of a search below a position with as many free variables. -/
def treeSize : Nat → Nat
  | 0 => 1
  | free + 1 => 2 * treeSize free + 1

/-- A bound on the steps below the flips that are still to come, when `free` variables are free
under the newest branch. -/
def pendingWork (free : Nat) : List Branch → Nat
  | [] => 0
  | b :: rest => (if b.flipped then 0 else treeSize free) + pendingWork (free + 1) rest

/-- A bound on the steps that a search still takes. -/
def workLeft (p : Position σ) : Nat :=
  treeSize (Board.numFree p.state) + pendingWork (Board.numFree p.state) p.branches

theorem treeSize_pos (free : Nat) : 0 < treeSize free := by
  cases free <;> simp [treeSize]

theorem treeSize_succ (free : Nat) : treeSize (free + 1) = 2 * treeSize free + 1 :=
  rfl

/-- Closing flipped branches leaves the pending work as it was. -/
theorem pendingWork_closeFlipped {F : Formula} {s : σ} {branches : List Branch}
    (h : (closeFlipped F s branches).failure = none) :
    pendingWork (Board.numFree (closeFlipped F s branches).state)
        (closeFlipped F s branches).branches =
      pendingWork (Board.numFree s) branches := by
  induction branches generalizing s with
  | nil => rfl
  | cons b rest ih =>
    unfold closeFlipped at h ⊢
    by_cases hflipped : b.flipped
    · simp only [hflipped, if_true] at h ⊢
      cases hfreed : Board.unassign F s b.var with
      | error setback => simp [hfreed] at h
      | ok freed =>
        simp only [hfreed] at h ⊢
        rw [ih h, Board.numFree_unassign hfreed]
        simp [pendingWork, hflipped]
    · simp [hflipped]

theorem not_flipped_of_closeFlipped {F : Formula} {s : σ} {branches : List Branch}
    {b : Branch} {rest : List Branch} (hfailure : (closeFlipped F s branches).failure = none)
    (hbranches : (closeFlipped F s branches).branches = b :: rest) : b.flipped = false := by
  induction branches generalizing s with
  | nil => simp [closeFlipped] at hbranches
  | cons c more ih =>
    unfold closeFlipped at hfailure hbranches
    by_cases hflipped : c.flipped
    · simp only [hflipped, if_true] at hfailure hbranches
      cases hfreed : Board.unassign F s c.var with
      | error setback => simp [hfreed] at hfailure
      | ok freed =>
        simp only [hfreed] at hfailure hbranches
        exact ih hfailure hbranches
    · simp only [hflipped] at hbranches
      obtain ⟨rfl, -⟩ := List.cons.inj hbranches
      simpa using hflipped

/-- A flip takes some of the work. -/
theorem workLeft_backtrack_lt {F : Formula} {settings : Settings} {p q : Position σ}
    (h : backtrack F settings p = (q, .ok true)) : workLeft q < workLeft p := by
  have hpending := @pendingWork_closeFlipped σ _ F p.state p.branches
  have hopen := @not_flipped_of_closeFlipped σ _ F p.state p.branches
  unfold backtrack at h
  generalize closeFlipped F p.state p.branches = closed at h hpending hopen
  obtain ⟨state, branches, failure⟩ := closed
  dsimp only at h hpending hopen
  split at h
  · cases h
  · cases h
  · next b rest =>
    specialize hpending rfl
    have hflipped := hopen rfl rfl
    split at h
    · cases h
    · next freed hfreed =>
      split at h
      · cases h
      · next flipped hassigned =>
        obtain ⟨rfl, -⟩ := Prod.mk.inj h
        have hfree : Board.numFree flipped = Board.numFree state := by
          have hone := Board.numFree_unassign hfreed
          have htwo := Board.numFree_assign hassigned
          omega
        have hpos := treeSize_pos (Board.numFree p.state)
        simp only [pendingWork, hflipped] at hpending
        simp only [workLeft, hfree, pendingWork, if_true]
        simp at hpending
        omega

theorem workLeft_resolve_lt {F : Formula} {settings : Settings} {p q : Position σ}
    (h : resolve F settings p = (q, .running)) : workLeft q < workLeft p := by
  unfold resolve at h
  dsimp only at h
  split at h
  · next hback =>
    obtain ⟨rfl, -⟩ := Prod.mk.inj h
    have hless := workLeft_backtrack_lt hback
    exact hless
  · cases h
  · cases h

theorem workLeft_branch_lt {F : Formula} {settings : Settings} {p q : Position σ} {v : Nat}
    (h : branch F settings p v = (q, .running)) : workLeft q < workLeft p := by
  unfold branch at h
  dsimp only at h
  split at h
  · cases h
  · next assigned hassigned =>
    obtain ⟨rfl, -⟩ := Prod.mk.inj h
    have hfree := Board.numFree_assign hassigned
    have hsize := treeSize_succ (Board.numFree assigned)
    simp only [workLeft, pendingWork, ← hfree]
    simp
    omega

theorem workLeft_proceed_lt {F : Formula} {settings : Settings} {p q : Position σ}
    (h : proceed F settings p = (q, .running)) : workLeft q < workLeft p := by
  unfold proceed at h
  split at h
  · unfold giveUp at h
    dsimp only at h
    split at h <;> cases h
  · split at h
    · exact workLeft_resolve_lt h
    · exact workLeft_branch_lt h

/-- Every step of a running search takes some of the work. -/
theorem workLeft_step_lt {F : Formula} {settings : Settings} {p q : Position σ}
    (h : step F settings p = (q, .running)) : workLeft q < workLeft p := by
  unfold step at h
  split at h
  · cases h
  · exact workLeft_resolve_lt h
  · split at h
    · cases h
    · cases h
    · exact workLeft_proceed_lt h

/-! ## Running -/

/-- Steps until the search ends. -/
def run (F : Formula) (settings : Settings) (p : Position σ) :
    Position σ × Except AssignError Verdict :=
  match h : step F settings p with
  | (q, .running) =>
    have := workLeft_step_lt h
    run F settings q
  | (q, .finished verdict) => (q, .ok verdict)
  | (q, .failed e) => (q, .error e)
termination_by workLeft p

end Search

end TrailSat
