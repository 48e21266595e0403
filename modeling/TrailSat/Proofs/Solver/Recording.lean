import TrailSat.Proofs.Search.Positions
import TrailSat.Proofs.Solver.Verdict
import TrailSat.Proofs.Trace.Certificate

/-!
# Recorded traces are certificates

`certificate_of_solve`: whatever a search on a reachable state comes to, the events that it records
are a certificate for its verdict.

A reader of the trace knows neither the branches of the search nor its state.  The path that the
reader is on tells both (`Recorded`): there is an event on it for every branch, the oldest first,
which is a flip if the branch is flipped, so that its literals are those that the branches stand
for.  Hence the reader sees the assignment on which the search has based its step, and each of the
five ways of stepping leads to an event that is justified or to a verdict that is borne out.
-/

namespace TrailSat

open Search Trace

namespace Search

/-! ## Branches as a path -/

/-- The event that has made a branch what it is, at the given level. -/
def Branch.event (firstPhase : Bool) (b : Branch) (level : Nat) : Event :=
  if b.flipped then ⟨.flip, State.literalOf b.var (!firstPhase), level⟩
  else ⟨.decision, State.literalOf b.var firstPhase, level⟩

/-- The events that have made the branches what they are, that of the oldest branch first. -/
def openEvents (firstPhase : Bool) : List Branch → List Event
  | [] => []
  | b :: rest => openEvents firstPhase rest ++ [b.event firstPhase (rest.length + 1)]

variable {F : Formula} {firstPhase : Bool} {base : Assignment}

theorem length_openEvents (firstPhase : Bool) (branches : List Branch) :
    (openEvents firstPhase branches).length = branches.length := by
  induction branches with
  | nil => rfl
  | cons b rest ih => simp [openEvents, ih]

/-- The path of the branches assigns what the branches stand for. -/
theorem assigned_openEvents {branches : List Branch}
    (hproper : Assignment.Proper F (taken firstPhase branches ++ base)) :
    assigned base (openEvents firstPhase branches) = taken firstPhase branches ++ base := by
  induction branches with
  | nil => rfl
  | cons b rest ih =>
      obtain ⟨⟨hlow, -⟩, -, hrest⟩ := hproper
      have hvalue (value : Bool) :
          ((State.literalOf b.var value).natAbs, decide (0 < State.literalOf b.var value)) =
            (b.var, value) := by
        obtain ⟨hvar, hsign⟩ :
            (State.literalOf b.var value).natAbs = b.var ∧
              value = decide (0 < State.literalOf b.var value) :=
          (Assignment.eq_literalOf_iff hlow).1 rfl
        rw [hvar, ← hsign]
      rw [openEvents, assigned_concat, ih hrest]
      cases hflipped : b.flipped <;> simp [Branch.event, taken, hflipped, hvalue]

/-- Above the newest branch that is not flipped, the path consists of flips. -/
theorem openEvents_append (firstPhase : Bool) {closed : List Branch}
    (hclosed : ∀ b ∈ closed, b.flipped = true) (rest : List Branch) :
    ∃ deeper, openEvents firstPhase (closed ++ rest) = openEvents firstPhase rest ++ deeper ∧
      ∀ e ∈ deeper, e.kind = .flip := by
  induction closed with
  | nil => exact ⟨[], by simp, nofun⟩
  | cons b more ih =>
      obtain ⟨hb, hmore⟩ := List.forall_mem_cons.1 hclosed
      obtain ⟨deeper, hevents, hflips⟩ := ih hmore
      refine ⟨deeper ++ [b.event firstPhase ((more ++ rest).length + 1)], ?_, ?_⟩
      · rw [List.cons_append, openEvents, hevents, List.append_assoc]
      · intro e he
        rcases List.mem_append.1 he with he | he
        · exact hflips e he
        · rw [List.mem_singleton.1 he, Branch.event, if_pos hb]

theorem flip_of_mem_openEvents {branches : List Branch}
    (hclosed : ∀ b ∈ branches, b.flipped = true) :
    ∀ e ∈ openEvents firstPhase branches, e.kind = .flip := by
  obtain ⟨deeper, hevents, hflips⟩ := openEvents_append firstPhase hclosed []
  rw [List.append_nil, openEvents, List.nil_append] at hevents
  rw [hevents]
  exact hflips

/-! ## What a running search has recorded -/

variable {settings : Settings} {p q : Position State}

/-- The path of the recorded events is the path of the branches. -/
structure Recorded (F : Formula) (settings : Settings) (base : Assignment)
    (p : Position State) : Prop where
  mirrors : Mirrors F settings.firstPhase base p
  justified : Justified F settings.firstPhase base p.events.reverse
  path_eq : (walk p.events.reverse).path = openEvents settings.firstPhase p.branches

theorem Recorded.assigned_eq (hp : Recorded F settings base p) :
    assigned base (walk p.events.reverse).path =
      taken settings.firstPhase p.branches ++ base := by
  rw [hp.path_eq, assigned_openEvents hp.mirrors.proper]

theorem events_flipped (hrecord : settings.recordTrace = true) (v : Nat) (rest : List Branch) :
    (flipped F settings base (p.more settings .conflict) v rest).events.reverse =
      p.events.reverse ++
        [⟨.flip, State.literalOf v (!settings.firstPhase), rest.length + 1⟩] := by
  simp [flipped, Position.more, Exploration.flip, Exploration.conflict, noted, hrecord]

theorem events_decided (hrecord : settings.recordTrace = true) (v : Nat) :
    (decided F settings base p v).events.reverse =
      p.events.reverse ++
        [⟨.decision, State.literalOf v settings.firstPhase, p.branches.length + 1⟩] := by
  simp [decided, Position.more, Exploration.decision, noted, hrecord]

theorem recorded_of_flip (hrecord : settings.recordTrace = true) (hp : Recorded F settings base p)
    {closed rest : List Branch} {v : Nat}
    (hconflict : F.clauses.any
      (Assignment.falsifies (taken settings.firstPhase p.branches ++ base)) = true)
    (hbranches : p.branches = closed ++ ⟨v, false⟩ :: rest)
    (hclosed : ∀ b ∈ closed, b.flipped = true)
    (hnext : Mirrors F settings.firstPhase base
      (flipped F settings base (p.more settings .conflict) v rest)) :
    Recorded F settings base (flipped F settings base (p.more settings .conflict) v rest) := by
  -- the flip goes back to the branch of `v`, so the path is cut in front of that decision
  obtain ⟨deeper, hdeeper, hflips⟩ :=
    openEvents_append settings.firstPhase hclosed (⟨v, false⟩ :: rest)
  have hpath : (walk p.events.reverse).path = openEvents settings.firstPhase rest ++
      ⟨.decision, State.literalOf v settings.firstPhase, rest.length + 1⟩ :: deeper := by
    rw [hp.path_eq, hbranches, hdeeper, openEvents, List.append_assoc]
    rfl
  have hlength := length_openEvents settings.firstPhase rest
  constructor
  case mirrors => exact hnext
  case justified =>
    rw [events_flipped hrecord]
    refine hp.justified.flip ⟨rfl, ⟨_, _, _, hpath, ?_, rfl, ?_, hflips⟩, ?_⟩
    · rw [hlength]
    · exact (Assignment.neg_literalOf ..).symm
    · rw [hp.assigned_eq]
      exact hconflict
  case path_eq =>
    rw [events_flipped hrecord, walk_flip rfl, hpath, Nat.add_sub_cancel, List.take_left' hlength]
    rfl

theorem recorded_of_decide (hrecord : settings.recordTrace = true)
    (hp : Recorded F settings base p) {v : Nat}
    (hconflict : F.clauses.any
      (Assignment.falsifies (taken settings.firstPhase p.branches ++ base)) = false)
    (hsolved : F.clauses.all
      (Assignment.satisfies (taken settings.firstPhase p.branches ++ base)) = false)
    (hfree : Assignment.firstFree? F (taken settings.firstPhase p.branches ++ base) = some v)
    (hnext : Mirrors F settings.firstPhase base (decided F settings base p v)) :
    Recorded F settings base (decided F settings base p v) := by
  rw [← hp.assigned_eq] at hconflict hsolved hfree
  constructor
  case mirrors => exact hnext
  case justified =>
    rw [events_decided hrecord]
    refine hp.justified.decision ⟨rfl, ?_, ⟨v, hfree, rfl⟩, hconflict, hsolved⟩
    rw [hp.path_eq, length_openEvents]
  case path_eq =>
    rw [events_decided hrecord, walk_decision rfl, hp.path_eq]
    rfl

/-- A step that goes on records a justified event. -/
theorem recorded_of_step (hrecord : settings.recordTrace = true) (hp : Recorded F settings base p)
    (hstep : step F settings p = (q, .running)) : Recorded F settings base q := by
  have hstepped := stepped_of_mirrors hp.mirrors
  rw [hstep] at hstepped
  cases hstepped with
  | flip closed v rest hconflict hbranches hclosed hnext =>
      exact recorded_of_flip hrecord hp hconflict hbranches hclosed hnext
  | decide v hconflict hsolved hbudget hfree hnext =>
      exact recorded_of_decide hrecord hp hconflict hsolved hfree hnext

/-- The step that ends a search records nothing more, and its verdict is borne out. -/
theorem certificate_of_step (hp : Recorded F settings base p) {verdict : Verdict}
    (hstep : step F settings p = (q, .finished verdict)) :
    Certificate F settings.firstPhase base q.events.reverse verdict ∧
      (verdict = .sat → q.state.assignment = assigned base (walk q.events.reverse).path) := by
  have hstepped := stepped_of_mirrors hp.mirrors
  rw [hstep, ← hp.assigned_eq] at hstepped
  cases hstepped with
  | exhausted hconflict hclosed =>
      have hevents : (p.more settings .conflict).events = p.events := by
        rw [Position.more_conflict]
      have hflipped : ∀ e ∈ (walk p.events.reverse).path, e.kind = .flip := by
        rw [hp.path_eq]
        exact flip_of_mem_openEvents hclosed
      -- the branches are taken back, but the path that they were on is still the reader's
      simp only [hevents]
      refine ⟨⟨hp.justified, nofun, fun _ => ⟨hconflict, hflipped, ?_⟩, nofun⟩, nofun⟩
      intro valuation
      exact hp.justified.countP_leaves hflipped valuation
  | solved hconflict hsolved =>
      refine ⟨⟨hp.justified, fun _ => hsolved, nofun, nofun⟩, fun _ => ?_⟩
      rw [hp.assigned_eq, hp.mirrors.state_eq, State.assignment_along hp.mirrors.proper]
  | stopped hconflict hsolved hbudget =>
      exact ⟨⟨hp.justified, nofun, nofun, fun _ => ⟨hconflict, hsolved⟩⟩, nofun⟩

end Search

namespace Solver

/-- **The recorded events are a certificate of the verdict.**  If a solution is found, it is the
assignment that the last path leads to. -/
theorem certificate_of_solve {F : Formula} {s : State} (hs : State.Reachable F s)
    (settings : Settings) (hrecord : settings.recordTrace = true) (solver : Solver) :
    let outcome := solver.solve F settings s
    ∃ verdict events, outcome.result = .ok verdict ∧
      outcome.solver.events = solver.events ++ events ∧
      Certificate F settings.firstPhase s.assignment events verdict ∧
      (verdict = .sat →
        outcome.state.assignment = assigned s.assignment (walk events).path) := by
  obtain ⟨a, ha, rfl⟩ := State.reachable_iff_along.1 hs
  rw [State.assignment_along ha]
  intro outcome
  have hstart : Recorded F settings a (solver.begin.start (State.along F a)) :=
    ⟨⟨rfl, ha⟩, .nil, rfl⟩
  obtain ⟨last, hlast, ⟨q, verdict, hstep, hrun⟩ | ⟨q, e, hstep, hrun⟩⟩ :=
    exists_last (fun p q hp hstep => recorded_of_step hrecord hp hstep) hstart
  · obtain ⟨hcertificate, hstate⟩ := certificate_of_step hlast hstep
    have houtcome : outcome = solver.begin.finish (q, .ok verdict) :=
      congrArg solver.begin.finish hrun
    refine ⟨verdict, q.events.reverse, ?_, ?_, hcertificate, fun hsat => ?_⟩
    · rw [houtcome]
      rfl
    · rw [houtcome]
      cases verdict <;> rfl
    · rw [houtcome]
      exact hstate hsat
  · -- a search that mirrors its branches does not fail
    have hstepped := stepped_of_mirrors hlast.mirrors
    rw [hstep] at hstepped
    cases hstepped

/-- The first variable of the knot is true and the third one false, which leaves no value for the
second one.  The two leaves of the trace are its two literals. -/
theorem certificate_of_solve_of_knot :
    let settings : Settings := { recordTrace := true }
    let s := State.along Formula.knot [(3, false), (1, true)]
    let events := [⟨.decision, 2, 1⟩, ⟨.flip, -2, 1⟩]
    State.Reachable Formula.knot s ∧ settings.recordTrace = true ∧
      (solve Formula.knot settings s {}).solver.events = events ∧
      Certificate Formula.knot true s.assignment events .unsat ∧
      (walk events).leaves = [[⟨.decision, 2, 1⟩], [⟨.flip, -2, 1⟩]] := by
  intro settings s events
  have hs : State.Reachable Formula.knot s :=
    State.reachable_along ⟨by decide, rfl, by decide, rfl, trivial⟩
  have hunsat : (solve Formula.knot settings s {}).result = .ok .unsat :=
    result_of_toOption (by decide +kernel)
  have hevents : (solve Formula.knot settings s {}).solver.events = events := by decide +kernel
  obtain ⟨verdict, found, hresult, hfound, hcertificate, -⟩ :=
    certificate_of_solve hs settings rfl {}
  obtain rfl : verdict = .unsat := Except.ok.inj (hresult.symm.trans hunsat)
  obtain rfl : found = events := hfound.symm.trans hevents
  exact ⟨hs, rfl, hevents, hcertificate, rfl⟩

end Solver

end TrailSat
