import Mathlib.Data.List.Induction
import TrailSat.Proofs.Search.Recursive

/-!
# Traces as certificates

A trace can be read by someone who has the formula and nothing else.  Read its events as moves on a
path of literals: a decision goes one literal further, and a flip of level `k` goes back to the
first `k - 1` literals and takes the opposite of the next one (`walk`).  The reader can check at the
path in front of every event that a search had to go on this way (`Justified`): a variable is
decided where the clauses leave open what comes of it, and a literal is flipped where a clause is
falsified and all deeper literals have been flipped already.

A `Certificate` is a justified trace with a verdict that its last path bears out.  For the verdict
that nothing satisfies the formula this takes more than the last path.  The paths that were given up
at the flips, and the last one, are the leaves of a binary tree, and every valuation follows exactly
one of them (`Certificate.unsat`).  Each of them falsifies a clause, so such a certificate proves
the verdict (`Certificate.not_satisfies`), however it was made.

The count of leaves is an invariant of the events.  A valuation is *pending* at a path if the first
literal on which they differ was decided, and may still be flipped, or if there is none:

```text
decision   pending after  ↔  pending before
flip       pending before  ↔  either follows the path before, or is pending after
```

So at any time a valuation has followed a path that was given up, just one, or is pending.  At a
path on which everything has been flipped the pending valuations are those that follow it.
-/

namespace TrailSat

theorem Valuation.holds_neg (valuation : Valuation) {l : Int} (hl : l ≠ 0) :
    valuation.holds (-l) = !valuation.holds l := by
  rw [holds, holds, Int.natAbs_neg]
  by_cases hsign : 0 < l
  · rw [if_pos hsign, if_neg (by omega)]
  · rw [if_neg hsign, if_pos (by omega), Bool.not_not]

namespace Trace

/-! ## Walks -/

/-- Where the reader of a trace is. -/
structure Walk where
  /-- The events whose literals are on the path, the oldest first. -/
  path : List Event := []
  /-- The paths that were given up. -/
  closed : List (List Event) := []

def Walk.next (w : Walk) (e : Event) : Walk :=
  match e.kind with
  | .decision => { w with path := w.path ++ [e] }
  | .flip => { path := w.path.take (e.level - 1) ++ [e], closed := w.closed ++ [w.path] }

def Walk.leaves (w : Walk) : List (List Event) :=
  w.closed ++ [w.path]

/-- The walk that a trace describes. -/
def walk (events : List Event) : Walk :=
  events.foldl Walk.next {}

variable {events path : List Event} {e : Event}

theorem walk_decision (hkind : e.kind = .decision) :
    walk (events ++ [e]) = { walk events with path := (walk events).path ++ [e] } := by
  rw [walk, List.foldl_append, List.foldl_cons, List.foldl_nil, Walk.next, hkind]
  rfl

theorem walk_flip (hkind : e.kind = .flip) :
    walk (events ++ [e]) =
      { path := (walk events).path.take (e.level - 1) ++ [e]
        closed := (walk events).closed ++ [(walk events).path] } := by
  rw [walk, List.foldl_append, List.foldl_cons, List.foldl_nil, Walk.next, hkind]
  rfl

/-- Whether a valuation makes all literals of a path true. -/
def follows (valuation : Valuation) (path : List Event) : Bool :=
  path.all fun e => valuation.holds e.literal

/-- An assignment with the literals of a path on top. -/
def assigned (base : Assignment) (path : List Event) : Assignment :=
  path.foldl (fun a e => (e.literal.natAbs, decide (0 < e.literal)) :: a) base

theorem assigned_concat (base : Assignment) (path : List Event) (e : Event) :
    assigned base (path ++ [e]) =
      (e.literal.natAbs, decide (0 < e.literal)) :: assigned base path := by
  rw [assigned, List.foldl_append]
  rfl

theorem extends_assigned {valuation : Valuation} {base : Assignment}
    (hbase : valuation.Extends base) (hfollows : follows valuation path = true) :
    valuation.Extends (assigned base path) := by
  induction path generalizing base with
  | nil => exact hbase
  | cons e rest ih =>
      rw [follows, List.all_cons, Bool.and_eq_true] at hfollows
      obtain ⟨hholds, hrest⟩ := hfollows
      have hvalue : valuation e.literal.natAbs = decide (0 < e.literal) := by
        rw [Valuation.holds] at hholds
        by_cases hsign : 0 < e.literal
        · rw [if_pos hsign] at hholds
          rw [hholds, decide_eq_true hsign]
        · rw [if_neg hsign, Bool.not_eq_true'] at hholds
          rw [hholds, decide_eq_false hsign]
      have hmore := Valuation.extends_cons hbase e.literal.natAbs
      rw [hvalue] at hmore
      exact ih hmore hrest

/-! ## Certificates -/

/-- The lowest free variable is decided, at a path that leaves the formula open. -/
structure Decides (F : Formula) (firstPhase : Bool) (base : Assignment) (path : List Event)
    (e : Event) : Prop where
  kind_eq : e.kind = .decision
  level_eq : e.level = path.length + 1
  lowest : ∃ v, (assigned base path).firstFree? F = some v ∧
    e.literal = State.literalOf v firstPhase
  not_conflict : F.clauses.any (assigned base path).falsifies = false
  not_solved : F.clauses.all (assigned base path).satisfies = false

/-- The deepest decision of a path that falsifies a clause is flipped. -/
structure Flips (F : Formula) (base : Assignment) (path : List Event) (e : Event) : Prop where
  kind_eq : e.kind = .flip
  deepest : ∃ front d back, path = front ++ d :: back ∧ e.level = front.length + 1 ∧
    d.kind = .decision ∧ e.literal = -d.literal ∧ ∀ deeper ∈ back, deeper.kind = .flip
  conflict : F.clauses.any (assigned base path).falsifies = true

/-- Every event is justified at the path in front of it. -/
inductive Justified (F : Formula) (firstPhase : Bool) (base : Assignment) : List Event → Prop where
  | nil : Justified F firstPhase base []
  | decision {events : List Event} {e : Event} (hevents : Justified F firstPhase base events)
      (he : Decides F firstPhase base (walk events).path e) :
      Justified F firstPhase base (events ++ [e])
  | flip {events : List Event} {e : Event} (hevents : Justified F firstPhase base events)
      (he : Flips F base (walk events).path e) :
      Justified F firstPhase base (events ++ [e])

/-- **A certificate for a verdict.**  The events are justified, and the paths bear the verdict
out. -/
structure Certificate (F : Formula) (firstPhase : Bool) (base : Assignment) (events : List Event)
    (verdict : Verdict) : Prop where
  justified : Justified F firstPhase base events
  sat : verdict = .sat → F.clauses.all (assigned base (walk events).path).satisfies = true
  /-- The last path falsifies a clause, all of it has been flipped, and every valuation follows just
  one of the leaves. -/
  unsat : verdict = .unsat →
    F.clauses.any (assigned base (walk events).path).falsifies = true ∧
      (∀ e ∈ (walk events).path, e.kind = .flip) ∧
      ∀ valuation, (walk events).leaves.countP (follows valuation) = 1
  undecided : verdict = .undecided →
    F.clauses.any (assigned base (walk events).path).falsifies = false ∧
      F.clauses.all (assigned base (walk events).path).satisfies = false

variable {F : Formula} {firstPhase : Bool} {base : Assignment}

/-- A trace is justified if each of its events is, at the path that the events before it lead to. -/
theorem justified_iff : Justified F firstPhase base events ↔
    ∀ before e, before ++ [e] <+: events →
      Decides F firstPhase base (walk before).path e ∨ Flips F base (walk before).path e := by
  constructor
  · intro h
    induction h with
    | nil =>
        intro before e hprefix
        exact absurd (List.prefix_nil.1 hprefix) (by simp)
    | decision hevents he ih =>
        intro before d hprefix
        rcases List.prefix_concat_iff.1 hprefix with heq | hprefix
        · obtain ⟨rfl, hlast⟩ := List.append_inj' heq rfl
          rw [List.singleton_inj.1 hlast]
          exact .inl he
        · exact ih before d hprefix
    | flip hevents he ih =>
        intro before d hprefix
        rcases List.prefix_concat_iff.1 hprefix with heq | hprefix
        · obtain ⟨rfl, hlast⟩ := List.append_inj' heq rfl
          rw [List.singleton_inj.1 hlast]
          exact .inr he
        · exact ih before d hprefix
  · intro h
    -- a trace grows at its end, and a beginning of the longer one may be all of it
    induction events using List.reverseRecOn with
    | nil => exact .nil
    | append_singleton events e ih =>
        have hevents : Justified F firstPhase base events :=
          ih fun before d hd => h before d (hd.trans (List.prefix_append ..))
        rcases h events e (List.prefix_refl _) with he | he
        · exact hevents.decision he
        · exact hevents.flip he

/-- Paths are given up at a conflict. -/
theorem Justified.conflict_of_mem_closed (h : Justified F firstPhase base events) :
    ∀ path ∈ (walk events).closed, F.clauses.any (assigned base path).falsifies = true := by
  induction h with
  | nil => exact nofun
  | decision hevents he ih =>
      rw [walk_decision he.kind_eq]
      exact ih
  | flip hevents he ih =>
      rw [walk_flip he.kind_eq]
      intro path hpath
      rcases List.mem_append.1 hpath with hpath | hpath
      · exact ih path hpath
      · rw [List.mem_singleton.1 hpath]
        exact he.conflict

/-- No valuation that extends the assignment at the start satisfies a formula with a certificate for
the verdict that there is none. -/
theorem Certificate.not_satisfies (h : Certificate F firstPhase base events .unsat)
    {valuation : Valuation} (hbase : valuation.Extends base) : valuation.satisfies F = false := by
  obtain ⟨hlast, -, hcount⟩ := h.unsat rfl
  have hpos : 0 < (walk events).leaves.countP (follows valuation) := by
    rw [hcount valuation]
    exact Nat.one_pos
  obtain ⟨leaf, hleaf, hfollows⟩ := List.countP_pos_iff.1 hpos
  refine Search.not_satisfies_of_conflict (extends_assigned hbase hfollows) ?_
  -- each leaf falsifies a clause: the ones that were given up, and the last path
  rcases List.mem_append.1 hleaf with hclosed | hpath
  · exact h.justified.conflict_of_mem_closed leaf hclosed
  · rw [List.mem_singleton.1 hpath]
    exact hlast

/-! ## The leaves of a justified trace -/

/-- Whether the first literal of a path that a valuation makes false was decided, if there is one.
If there is none, the valuation is pending, too. -/
def pending (valuation : Valuation) : List Event → Bool
  | [] => true
  | e :: rest =>
    if valuation.holds e.literal then pending valuation rest else decide (e.kind = .decision)

variable {valuation : Valuation}

theorem pending_append (front rest : List Event) :
    pending valuation (front ++ rest) =
      if follows valuation front then pending valuation rest else pending valuation front := by
  induction front with
  | nil => rfl
  | cons e more ih =>
      rw [List.cons_append, pending, pending, follows, List.all_cons]
      by_cases hholds : valuation.holds e.literal = true
      · rw [if_pos hholds, if_pos hholds, ih, hholds, Bool.true_and]
        rfl
      · simp [hholds]

theorem pending_of_follows (h : follows valuation path = true) : pending valuation path = true := by
  rw [← List.append_nil path, pending_append, if_pos h, pending]

theorem pending_decision (hkind : e.kind = .decision) :
    pending valuation (path ++ [e]) = pending valuation path := by
  rw [pending_append]
  by_cases hfollows : follows valuation path = true
  · have hlast : pending valuation [e] = true := by simp [pending, hkind]
    rw [if_pos hfollows, pending_of_follows hfollows, hlast]
  · rw [if_neg hfollows]

theorem pending_of_flipped (hflipped : ∀ e ∈ path, e.kind = .flip) :
    pending valuation path = follows valuation path := by
  induction path with
  | nil => rfl
  | cons e rest ih =>
      obtain ⟨hkind, hrest⟩ := List.forall_mem_cons.1 hflipped
      rw [pending, follows, List.all_cons, ih hrest, hkind]
      by_cases hholds : valuation.holds e.literal = true
      · rw [if_pos hholds, hholds, Bool.true_and]
        rfl
      · simp [hholds]

/-- A flip divides the pending valuations into those that follow the path that is given up and those
that are pending after it. -/
theorem pending_flip (he : Flips F base path e) (hnonzero : ∀ d ∈ path, d.literal ≠ 0)
    (valuation : Valuation) :
    (follows valuation path).toNat +
        (pending valuation (path.take (e.level - 1) ++ [e])).toNat =
      (pending valuation path).toNat := by
  obtain ⟨front, d, back, rfl, hlevel, hkind, hliteral, hback⟩ := he.deepest
  have hcut : (front ++ d :: back).take (e.level - 1) = front := by
    rw [hlevel, Nat.add_sub_cancel, List.take_left]
  have hd : d.literal ≠ 0 := hnonzero d (by simp)
  rw [hcut, pending_append, pending_append]
  have hfollows : follows valuation (front ++ d :: back) =
      (follows valuation front && (valuation.holds d.literal && follows valuation back)) := by
    simp [follows]
  rw [hfollows]
  by_cases hfront : follows valuation front = true
  · -- the valuation makes the decision true, or the flip
    rw [if_pos hfront, if_pos hfront, pending, pending, pending, hliteral,
      Valuation.holds_neg valuation hd, he.kind_eq, hkind, pending_of_flipped hback]
    cases valuation.holds d.literal with
    | true => simp [hfront]
    | false => simp
  · -- they part in front of the decision, and nothing changes there
    simp [hfront]

theorem Justified.literal_ne_zero (h : Justified F firstPhase base events) :
    ∀ e ∈ (walk events).path, e.literal ≠ 0 := by
  induction h with
  | nil => exact nofun
  | @decision events e hevents he ih =>
      obtain ⟨v, hfree, hliteral⟩ := he.lowest
      have hlow : 1 ≤ v := (Assignment.firstFree?_eq_some hfree).1.1
      have hv := ((Assignment.eq_literalOf_iff hlow).1 hliteral).1
      rw [walk_decision he.kind_eq]
      intro d hd
      rcases List.mem_append.1 hd with hd | hd
      · exact ih d hd
      · rw [List.mem_singleton.1 hd]
        omega
  | @flip events e hevents he ih =>
      -- a flip stands for the opposite of a literal that was on the path
      obtain ⟨front, d, back, hpath, -, -, hliteral, -⟩ := he.deepest
      have hne : d.literal ≠ 0 := ih d (by simp [hpath])
      rw [walk_flip he.kind_eq]
      intro other hother
      rcases List.mem_append.1 hother with hother | hother
      · exact ih other (List.mem_of_mem_take hother)
      · rw [List.mem_singleton.1 hother, hliteral]
        omega

theorem countP_concat (p : List Event → Bool) (paths : List (List Event)) (path : List Event) :
    (paths ++ [path]).countP p = paths.countP p + (p path).toNat := by
  rw [List.countP_append, List.countP_singleton]
  cases p path <;> rfl

/-- A valuation has followed one path that was given up, or it is pending. -/
theorem Justified.countP_closed (h : Justified F firstPhase base events) (valuation : Valuation) :
    (walk events).closed.countP (follows valuation) +
      (pending valuation (walk events).path).toNat = 1 := by
  induction h with
  | nil => rfl
  | decision hevents he ih =>
      rw [walk_decision he.kind_eq, pending_decision he.kind_eq]
      exact ih
  | @flip events e hevents he ih =>
      -- what was pending is counted with the path that is given up, or is pending still
      have hdivide := pending_flip he hevents.literal_ne_zero valuation
      rw [walk_flip he.kind_eq, countP_concat, Nat.add_assoc, hdivide]
      exact ih

/-- If everything on the path has been flipped, every valuation follows just one leaf. -/
theorem Justified.countP_leaves (h : Justified F firstPhase base events)
    (hflipped : ∀ e ∈ (walk events).path, e.kind = .flip) (valuation : Valuation) :
    (walk events).leaves.countP (follows valuation) = 1 := by
  have hclosed := h.countP_closed valuation
  rw [pending_of_flipped hflipped] at hclosed
  rw [Walk.leaves, countP_concat]
  exact hclosed

end Trace

end TrailSat
