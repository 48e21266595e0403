import TrailSat.Proofs.Solver.OpenBranches
import TrailSat.Proofs.State.Replay

/-!
# Closed branches

When branches are closed, a list is popped and assignments are taken back in step, and when one is
flipped, its variable is assigned again in the middle of that.  No copy of an earlier state is kept.
`Reverts` says that still an earlier state comes back, to the last mark: the one in which the search
began, followed by the assignments of the branches that are left (`State.setAll`).

```text
down to a level            the oldest branches are left, as many as asked for
backtracking, all flipped  none is left, and the state is that of the beginning
backtracking otherwise     the newest branch that is not flipped and the older ones are left,
                           and the newest has its other value
```

This holds wherever a search comes by, also in the middle of closing branches (`Passes`).
-/

namespace TrailSat

open Search

namespace Search

variable {F : Formula} {settings : Settings} {base : Assignment} {p q : Position State}

/-- The states and branches that a search comes by: those of its positions, and what is left of them
while branches are taken back one by one. -/
inductive Passes (F : Formula) (settings : Settings) (p : Position State) :
    State → List Branch → Prop
  | position {q : Position State} (hq : q ∈ positions F settings p) :
      Passes F settings p q.state q.branches
  | closing {t freed : State} {b : Branch} {rest : List Branch}
      (h : Passes F settings p t (b :: rest)) (hfreed : Board.unassign F t b.var = .ok freed) :
      Passes F settings p freed rest

/-- What closing and flipping branches leads to, in a search that began in the state `s` and has
come to the state `t`. -/
structure Reverts (F : Formula) (settings : Settings) (s t : State) (branches : List Branch) :
    Prop where
  /-- The variables of the branches are those assigned since the beginning, and have the values that
  the branches stand for. -/
  onTrail : OnTrail F settings.firstPhase s t branches
  /-- Taking back branches down to a level leaves the oldest ones with their values. -/
  unwinds : ∀ closed kept, branches = closed ++ kept →
    ∃ u, State.setAll F (taken settings.firstPhase kept).reverse s = .ok u ∧
      unwind F kept.length t branches = ⟨u, kept, none⟩
  /-- There is nothing to flip just when all branches are flipped. -/
  exhausted_iff : ∀ counters events,
    (∃ q, backtrack F settings ⟨t, branches, counters, events⟩ = (q, .ok false)) ↔
      ∀ b ∈ branches, b.flipped = true
  /-- Then everything is taken back, and nothing is counted or recorded. -/
  exhausts : (∀ b ∈ branches, b.flipped = true) → ∀ counters events,
    backtrack F settings ⟨t, branches, counters, events⟩ = (⟨s, [], counters, events⟩, .ok false)
  /-- Otherwise the newest branch that is not flipped gets its other value. -/
  flips : ∀ closed v kept, branches = closed ++ ⟨v, false⟩ :: kept →
    (∀ b ∈ closed, b.flipped = true) →
    ∃ u, State.setAll F
        ((taken settings.firstPhase kept).reverse ++ [(v, !settings.firstPhase)]) s = .ok u ∧
      ∀ counters events, backtrack F settings ⟨t, branches, counters, events⟩ =
        (⟨u, ⟨v, true⟩ :: kept, { counters with backtracks := counters.backtracks + 1 },
          record settings .flip v (!settings.firstPhase) (kept.length + 1) events⟩, .ok true)

/-! ## Along an assignment -/

theorem exists_flip_of_mirrors (hp : Mirrors F settings.firstPhase base p)
    {closed kept : List Branch} {v : Nat} (hbranches : p.branches = closed ++ ⟨v, false⟩ :: kept)
    (hclosed : ∀ b ∈ closed, b.flipped = true) :
    ∃ u, State.setAll F
        ((taken settings.firstPhase kept).reverse ++ [(v, !settings.firstPhase)])
        (State.along F base) = .ok u ∧
      backtrack F settings p =
        (⟨u, ⟨v, true⟩ :: kept, { p.counters with backtracks := p.counters.backtracks + 1 },
          record settings .flip v (!settings.firstPhase) (kept.length + 1) p.events⟩,
          .ok true) := by
  have hopen : p.branches.dropWhile Branch.flipped = ⟨v, false⟩ :: kept := by
    rw [hbranches, dropWhile_flipped hclosed]
  obtain ⟨hback, hflipped⟩ := backtrack_of_open hp hopen
  refine ⟨(flipped F settings base p v kept).state, ?_, hback.trans ?_⟩
  · have hset := State.setAll_along hflipped.proper
    simpa [flipped, taken] using hset
  · simp [flipped, Position.more, Exploration.flip, Counters.plus, noted, record]

/-- **Earlier states come back** from every position that mirrors its branches. -/
theorem reverts_of_mirrors (hp : Mirrors F settings.firstPhase base p) :
    Reverts F settings (State.along F base) p.state p.branches := by
  -- counters and events do not matter for what is closed
  have hmirrors (counters : Counters) (events : List Trace.Event) :
      Mirrors F settings.firstPhase base ⟨p.state, p.branches, counters, events⟩ :=
    ⟨hp.state_eq, hp.proper⟩
  constructor
  case onTrail =>
    rw [hp.state_eq]
    exact onTrail_along hp.proper
  case unwinds =>
    intro closed kept hbranches
    have hkept : p.branches.drop (p.branches.length - kept.length) = kept := by
      rw [hbranches, List.length_append, Nat.add_sub_cancel, List.drop_left]
    have hproper := proper_of_suffix ⟨closed, hbranches.symm⟩ hp.proper
    refine ⟨_, State.setAll_along hproper, ?_⟩
    rw [hp.state_eq, unwind_along kept.length hp.proper, hkept]
  case exhausted_iff =>
    intro counters events
    constructor
    · rintro ⟨q, hback⟩
      rcases all_flipped_or p.branches with hall | ⟨closed, v, kept, hbranches, hclosed⟩
      · exact hall
      · obtain ⟨u, -, hflip⟩ :=
          exists_flip_of_mirrors (hmirrors counters events) hbranches hclosed
        rw [hflip] at hback
        cases hback
    · intro hall
      exact ⟨_, backtrack_of_closed (hmirrors counters events) (dropWhile_all_flipped hall)⟩
  case exhausts =>
    intro hall counters events
    exact backtrack_of_closed (hmirrors counters events) (dropWhile_all_flipped hall)
  case flips =>
    intro closed v kept hbranches hclosed
    obtain ⟨u, hset, -⟩ := exists_flip_of_mirrors hp hbranches hclosed
    refine ⟨u, hset, fun counters events => ?_⟩
    obtain ⟨w, hset', hback⟩ := exists_flip_of_mirrors (hmirrors counters events) hbranches hclosed
    obtain rfl : u = w := Except.ok.inj (hset.symm.trans hset')
    exact hback

/-- What a search that mirrors its branches comes by mirrors them, too. -/
theorem mirrors_of_passes (hp : Mirrors F settings.firstPhase base p) {t : State}
    {branches : List Branch} (h : Passes F settings p t branches) :
    Mirrors F settings.firstPhase base ⟨t, branches, p.counters, p.events⟩ := by
  induction h with
  | position hq =>
      have hmirrors := mirrors_of_mem_positions hp hq
      exact ⟨hmirrors.state_eq, hmirrors.proper⟩
  | closing h hfreed ih =>
      have hback := unassign_taken ih.proper
      rw [← ih.state_eq, hfreed] at hback
      exact ⟨Except.ok.inj hback, ih.proper.2.2⟩

end Search

namespace Solver

/-- **Closing and flipping branches brings back earlier states**, wherever a search comes by and
from whichever reachable state it began. -/
theorem reverts_of_passes {F : Formula} {s t : State} (hs : State.Reachable F s)
    (settings : Settings) (solver : Solver) {branches : List Branch}
    (h : Passes F settings (solver.begin.start s) t branches) :
    Reverts F settings s t branches := by
  obtain ⟨a, ha, rfl⟩ := State.reachable_iff_along.1 hs
  have hstart : Mirrors F settings.firstPhase a (solver.begin.start (State.along F a)) := ⟨rfl, ha⟩
  exact reverts_of_mirrors (mirrors_of_passes hstart h)

/-- The third variable of the knot is false.  After the first conflict the branch of the second
variable is flipped and the one of the first variable is not.  Taking back the newest branch leaves
the first variable true, and backtracking closes that branch and makes the first variable false. -/
theorem reverts_of_passes_of_knot :
    let s := State.along Formula.knot [(3, false)]
    State.Reachable Formula.knot s ∧ ∃ t u w,
      Passes Formula.knot {} (start (begin {}) s) t [⟨2, true⟩, ⟨1, false⟩] ∧
      Reverts Formula.knot {} s t [⟨2, true⟩, ⟨1, false⟩] ∧
      State.setAll Formula.knot [(1, true)] s = .ok u ∧
      unwind Formula.knot 1 t [⟨2, true⟩, ⟨1, false⟩] = ⟨u, [⟨1, false⟩], none⟩ ∧
      State.setAll Formula.knot [(1, false)] s = .ok w ∧
      backtrack Formula.knot {} ⟨t, [⟨2, true⟩, ⟨1, false⟩], {}, []⟩ =
        (⟨w, [⟨1, true⟩], { backtracks := 1 }, [⟨.flip, -1, 1⟩]⟩, .ok true) := by
  intro s
  have hs : State.Reachable Formula.knot s := State.reachable_along ⟨by decide, rfl, trivial⟩
  have hbranches : (positions Formula.knot {} (start (begin {}) s))[3]?.map Position.branches =
      some [⟨2, true⟩, ⟨1, false⟩] := by
    decide +kernel
  obtain ⟨p, hp, hflipped⟩ := Option.map_eq_some_iff.1 hbranches
  have hpasses : Passes Formula.knot {} (start (begin {}) s) p.state p.branches :=
    .position (List.mem_of_getElem? hp)
  rw [hflipped] at hpasses
  have hreverts := reverts_of_passes hs {} {} hpasses
  obtain ⟨u, hu, hunwind⟩ := hreverts.unwinds [⟨2, true⟩] [⟨1, false⟩] rfl
  obtain ⟨w, hw, hback⟩ := hreverts.flips [⟨2, true⟩] 1 [] rfl (by decide)
  exact ⟨hs, p.state, u, w, hpasses, hreverts, hu, hunwind, hw, hback {} []⟩

end Solver

end TrailSat
