import TrailSat.Proofs.Search.Positions
import TrailSat.Solver

/-!
# Two searches in lockstep

A search learns about its formula only by three questions: whether a clause is falsified, whether
all clauses are satisfied, and which free variable is the lowest.  If two searches get the same
answers wherever they have the same branches open (`Alike`), they make the same moves, though on
different formulas, with different assignments made beforehand, and possibly with different values
tried first.  In the last case what the one makes true the other makes false.

`Lockstep` relates two positions of such searches.  `lockstep_of_step` is one step, by the five
things that a step can do, `lockstep_of_run` the whole search, and `exists_lockstep` what it comes
to for two solvers.
-/

namespace TrailSat

/-- The event with the opposite literal, if it is to be turned. -/
def Trace.Event.turn (turned : Bool) (e : Event) : Event :=
  if turned then { e with literal := -e.literal } else e

namespace Search

/-- The settings with another value to be tried first. -/
def Settings.withPhase (settings : Settings) (phase : Bool) : Settings :=
  { settings with firstPhase := phase }

/-- Two assignments, each for a formula of its own, that lead to the same answers. -/
structure Alike (F G : Formula) (a b : Assignment) : Prop where
  conflict_eq : F.clauses.any a.falsifies = G.clauses.any b.falsifies
  solved_eq : F.clauses.all a.satisfies = G.clauses.all b.satisfies
  free_eq : a.firstFree? F = b.firstFree? G

/-- Two searches that have come to the same point.  The second one tries the value `phase` first. -/
structure Lockstep (F G : Formula) (settings : Settings) (phase : Bool) (a b : Assignment)
    (p q : Position State) : Prop where
  left : Mirrors F settings.firstPhase a p
  right : Mirrors G phase b q
  branches_eq : q.branches = p.branches
  counters_eq : q.counters = p.counters
  events_eq : q.events = p.events.map (Trace.Event.turn (phase != settings.firstPhase))

variable {F G : Formula} {settings : Settings} {phase : Bool} {a b : Assignment}
variable {p q : Position State}

theorem turn_eq (kind : Trace.Kind) (v : Nat) (value other : Bool) (level : Nat) :
    Trace.Event.turn (other != value) ⟨kind, State.literalOf v value, level⟩ =
      ⟨kind, State.literalOf v other, level⟩ := by
  unfold Trace.Event.turn
  cases value <;> cases other <;> simp [Assignment.neg_literalOf]

/-! ## The moves -/

theorem lockstep_flipped (h : Lockstep F G settings phase a b p q) {v : Nat} {rest : List Branch}
    (hleft : Mirrors F settings.firstPhase a
      (flipped F settings a (p.more settings .conflict) v rest))
    (hright : Mirrors G phase b
      (flipped G (settings.withPhase phase) b (q.more (settings.withPhase phase) .conflict) v
        rest)) :
    Lockstep F G settings phase a b (flipped F settings a (p.more settings .conflict) v rest)
      (flipped G (settings.withPhase phase) b (q.more (settings.withPhase phase) .conflict) v
        rest) := by
  -- the flipped values differ when the values tried first do
  have hturn := turn_eq .flip v (!settings.firstPhase) (!phase) (rest.length + 1)
  rw [Bool.not_bne_not] at hturn
  refine ⟨hleft, hright, rfl, ?_, ?_⟩
  · simp [flipped, Position.more, Exploration.flip, h.counters_eq]
  · by_cases hrecord : settings.recordTrace = true
    · simp [flipped, Position.more, noted, Exploration.flip, Exploration.conflict,
        Settings.withPhase, hrecord, hturn, h.events_eq]
    · simp [flipped, Position.more, noted, Settings.withPhase, hrecord, h.events_eq]

theorem lockstep_decided (h : Lockstep F G settings phase a b p q) {v : Nat}
    (hleft : Mirrors F settings.firstPhase a (decided F settings a p v))
    (hright : Mirrors G phase b (decided G (settings.withPhase phase) b q v)) :
    Lockstep F G settings phase a b (decided F settings a p v)
      (decided G (settings.withPhase phase) b q v) := by
  have hturn := turn_eq .decision v settings.firstPhase phase (p.branches.length + 1)
  refine ⟨hleft, hright, ?_, ?_, ?_⟩
  · simp [decided, h.branches_eq]
  · simp [decided, Position.more, Exploration.decision, h.counters_eq, h.branches_eq]
  · by_cases hrecord : settings.recordTrace = true
    · simp [decided, Position.more, noted, Exploration.decision, Settings.withPhase, hrecord,
        hturn, h.events_eq, h.branches_eq]
    · simp [decided, Position.more, noted, Settings.withPhase, hrecord, h.events_eq]

/-- Both searches can be taken back to where they began. -/
theorem lockstep_closed (h : Lockstep F G settings phase a b p q) :
    Lockstep F G settings phase a b { p with state := State.along F a, branches := [] }
      { q with state := State.along G b, branches := [] } := by
  have hleft := proper_of_suffix (List.nil_suffix) h.left.proper
  have hright := proper_of_suffix (List.nil_suffix) h.right.proper
  exact ⟨⟨rfl, hleft⟩, ⟨rfl, hright⟩, rfl, h.counters_eq, h.events_eq⟩

theorem Lockstep.conflict (h : Lockstep F G settings phase a b p q) :
    Lockstep F G settings phase a b (p.more settings .conflict)
      (q.more (settings.withPhase phase) .conflict) := by
  rw [Position.more_conflict, Position.more_conflict, h.counters_eq]
  exact ⟨⟨h.left.state_eq, h.left.proper⟩, ⟨h.right.state_eq, h.right.proper⟩, h.branches_eq, rfl,
    h.events_eq⟩

/-! ## Steps and runs -/

/-- One step of each search comes to the same. -/
theorem lockstep_of_step
    (halike : ∀ branches, Assignment.Proper F (taken settings.firstPhase branches ++ a) →
      Alike F G (taken settings.firstPhase branches ++ a) (taken phase branches ++ b))
    (h : Lockstep F G settings phase a b p q) :
    (step G (settings.withPhase phase) q).2 = (step F settings p).2 ∧
      Lockstep F G settings phase a b (step F settings p).1
        (step G (settings.withPhase phase) q).1 := by
  have hright : Mirrors G (settings.withPhase phase).firstPhase b q := h.right
  have hanswers := halike p.branches h.left.proper
  have hstep : step G (settings.withPhase phase) q =
      if G.clauses.any (Assignment.falsifies (taken phase q.branches ++ b)) = true then
        resolve G (settings.withPhase phase) q
      else if G.clauses.all (Assignment.satisfies (taken phase q.branches ++ b)) = true then
        (q, .finished .sat)
      else proceed G (settings.withPhase phase) q := step_eq h.right
  -- the first search has made one of five steps, and the answers force it on the second one
  have hstepped := stepped_of_mirrors h.left
  rw [h.branches_eq, ← hanswers.conflict_eq, ← hanswers.solved_eq] at hstep
  generalize step F settings p = stepped at hstepped ⊢
  cases hstepped with
  | flip closed v rest hconflict hbranches hclosed hnext =>
      obtain ⟨hresolve, hmirrors⟩ := resolve_of_open hright (h.branches_eq.trans hbranches) hclosed
      rw [hstep, if_pos hconflict, hresolve]
      exact ⟨rfl, lockstep_flipped h hnext hmirrors⟩
  | exhausted hconflict hclosed =>
      have hresolve := resolve_of_closed hright (h.branches_eq ▸ hclosed)
      rw [hstep, if_pos hconflict, hresolve]
      exact ⟨rfl, lockstep_closed h.conflict⟩
  | solved hconflict hsolved =>
      rw [hstep, if_neg (by simp [hconflict]), if_pos hsolved]
      exact ⟨rfl, h⟩
  | stopped hconflict hsolved hbudget =>
      have hstop : withinBudget (settings.withPhase phase) q.counters = false := by
        rw [h.counters_eq]
        exact hbudget
      rw [hstep, if_neg (by simp [hconflict]), if_neg (by simp [hsolved]),
        proceed_of_stopped hright hstop]
      exact ⟨rfl, lockstep_closed h⟩
  | decide v hconflict hsolved hbudget hfree hnext =>
      have hgo : withinBudget (settings.withPhase phase) q.counters = true := by
        rw [h.counters_eq]
        exact hbudget
      have hlowest : Assignment.firstFree? G (taken phase q.branches ++ b) = some v := by
        rw [h.branches_eq, ← hanswers.free_eq, hfree]
      obtain ⟨hproceed, hmirrors⟩ := proceed_of_free hright hgo hlowest
      rw [hstep, if_neg (by simp [hconflict]), if_neg (by simp [hsolved]), hproceed]
      exact ⟨rfl, lockstep_decided h hnext hmirrors⟩

/-- The two searches come to the same verdict, at positions in lockstep. -/
theorem lockstep_of_run
    (halike : ∀ branches, Assignment.Proper F (taken settings.firstPhase branches ++ a) →
      Alike F G (taken settings.firstPhase branches ++ a) (taken phase branches ++ b))
    (h : Lockstep F G settings phase a b p q) :
    (run G (settings.withPhase phase) q).2 = (run F settings p).2 ∧
      Lockstep F G settings phase a b (run F settings p).1
        (run G (settings.withPhase phase) q).1 := by
  fun_induction run F settings p generalizing q with
  | case1 p r hrunning hless ih =>
      obtain ⟨hstatus, hnext⟩ := lockstep_of_step halike h
      rw [hrunning] at hstatus hnext
      have hstep : step G (settings.withPhase phase) q =
          ((step G (settings.withPhase phase) q).1, .running) := Prod.ext rfl hstatus
      rw [run_of_running hstep]
      exact ih hnext
  | case2 p r verdict hfinished =>
      obtain ⟨hstatus, hnext⟩ := lockstep_of_step halike h
      rw [hfinished] at hstatus hnext
      have hstep : step G (settings.withPhase phase) q =
          ((step G (settings.withPhase phase) q).1, .finished verdict) := Prod.ext rfl hstatus
      rw [run_eq, hstep]
      exact ⟨rfl, hnext⟩
  | case3 p r e hfailed => exact absurd hfailed (not_failed_of_mirrors h.left r e)

end Search

namespace Solver

open Search

variable {F G : Formula} {settings : Settings} {phase : Bool} {a b : Assignment}

theorem exists_lockstep_of_run
    (halike : ∀ branches, Assignment.Proper F (taken settings.firstPhase branches ++ a) →
      Alike F G (taken settings.firstPhase branches ++ a) (taken phase branches ++ b))
    (ha : a.Proper F) (hb : b.Proper G) (counters : Counters) :
    ∃ p q verdict,
      run F settings (Position.start (State.along F a) counters) = (p, .ok verdict) ∧
      run G (settings.withPhase phase) (Position.start (State.along G b) counters) =
        (q, .ok verdict) ∧
      Lockstep F G settings phase a b p q := by
  have hstart : Lockstep F G settings phase a b (Position.start (State.along F a) counters)
      (Position.start (State.along G b) counters) := ⟨⟨rfl, ha⟩, ⟨rfl, hb⟩, rfl, rfl, rfl⟩
  obtain ⟨p, verdict, hleft⟩ := exists_run_eq_ok hstart.left
  obtain ⟨hverdict, hend⟩ := lockstep_of_run halike hstart
  rw [hleft] at hverdict hend
  exact ⟨p, _, verdict, hleft, Prod.ext rfl hverdict, hend⟩

theorem exists_lockstep
    (halike : ∀ branches, Assignment.Proper F (taken settings.firstPhase branches ++ a) →
      Alike F G (taken settings.firstPhase branches ++ a) (taken phase branches ++ b))
    (ha : a.Proper F) (hb : b.Proper G) (solver : Solver) :
    ∃ p q verdict,
      solver.solve F settings (State.along F a) = solver.begin.finish (p, .ok verdict) ∧
      solver.solve G (settings.withPhase phase) (State.along G b) =
        solver.begin.finish (q, .ok verdict) ∧
      Lockstep F G settings phase a b p q := by
  obtain ⟨p, q, verdict, hleft, hright, hend⟩ :=
    exists_lockstep_of_run halike ha hb solver.counters
  exact ⟨p, q, verdict, congrArg solver.begin.finish hleft, congrArg solver.begin.finish hright,
    hend⟩

end Solver

end TrailSat
