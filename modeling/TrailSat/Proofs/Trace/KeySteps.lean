import TrailSat.Proofs.Trace.Certificate
import TrailSat.Proofs.Trace.Rendering

/-!
# The key steps of a justified trace

Two readers go through a trace.  One walks on a path of literals, and goes back to the level of a
flip before it takes the flip (`walk`).  The other one keeps a row of steps, and drops those of the
level of a flip and below before it appends the flip (`keySteps`); it never drops anything at a
decision.

On a justified trace they end up with the same (`Justified.keySteps_eq`).  The levels on the path
are `1, 2, …` without a gap (`Justified.levels_eq`), so dropping the steps from a level on cuts the
path there (`keep_flip`).
-/

namespace TrailSat

namespace Trace

variable {F : Formula} {firstPhase : Bool} {base : Assignment}
variable {events path front back : List Event}

/-! ## Levels -/

theorem level_of_mem {least : Nat} (h : path.map Event.level = List.range' least path.length)
    {d : Event} (hd : d ∈ path) : least ≤ d.level ∧ d.level < least + path.length := by
  have hmem : d.level ∈ path.map Event.level := List.mem_map_of_mem hd
  rwa [h, List.mem_range'_1] at hmem

theorem levels_append
    (h : (front ++ back).map Event.level = List.range' 1 (front ++ back).length) :
    front.map Event.level = List.range' 1 front.length ∧
      back.map Event.level = List.range' (front.length + 1) back.length := by
  rw [List.map_append, List.length_append, ← List.range'_append_1, Nat.add_comm 1] at h
  exact List.append_inj h (by simp)

theorem levels_concat {e : Event} (hpath : path.map Event.level = List.range' 1 path.length)
    (he : e.level = path.length + 1) :
    (path ++ [e]).map Event.level = List.range' 1 (path ++ [e]).length := by
  rw [List.map_append, hpath, List.length_append, List.length_singleton, List.range'_1_concat]
  simp [he, Nat.add_comm]

/-- The levels on the path are those from 1 on. -/
theorem Justified.levels_eq (h : Justified F firstPhase base events) :
    (walk events).path.map Event.level = List.range' 1 (walk events).path.length := by
  induction h with
  | nil => rfl
  | decision hevents he ih =>
      rw [walk_decision he.kind_eq]
      exact levels_concat ih he.level_eq
  | flip hevents he ih =>
      obtain ⟨front, d, back, hpath, hlevel, -⟩ := he.deepest
      -- the flip takes the place of a decision, so its level follows those left
      rw [hpath] at ih
      rw [walk_flip he.kind_eq, hpath, hlevel, Nat.add_sub_cancel, List.take_left]
      exact levels_concat (levels_append ih).1 hlevel

/-! ## Key steps -/

theorem keySteps_concat (steps : List Step) (step : Step) :
    keySteps (steps ++ [step]) = keep (keySteps steps) step := by
  rw [keySteps, List.foldl_append]
  rfl

/-- A flip keeps the steps above its level. -/
theorem keep_flip {e : Event} (hkind : e.kind = .flip) (hlevel : e.level = front.length + 1)
    (hlevels : (front ++ back).map Event.level = List.range' 1 (front ++ back).length) :
    keep ((front ++ back).map Event.step) e.step = (front ++ [e]).map Event.step := by
  obtain ⟨hfront, hback⟩ := levels_append hlevels
  have habove : ∀ d ∈ front, decide (d.step.level < e.step.level) = true := by
    intro d hd
    have hlt : d.level < e.level := by
      have hrange := level_of_mem hfront hd
      omega
    exact decide_eq_true (Int.ofNat_lt.2 hlt)
  have hbelow : ∀ d ∈ back, ¬decide (d.step.level < e.step.level) = true := by
    intro d hd
    have hle : ¬d.level < e.level := by
      have hrange := level_of_mem hback hd
      omega
    rw [decide_eq_true_eq]
    exact fun hlt => hle (Int.ofNat_lt.1 hlt)
  have hcut : (front ++ back).filter (fun d => decide (d.step.level < e.step.level)) = front := by
    rw [List.filter_append, List.filter_eq_self.2 habove, List.filter_eq_nil_iff.2 hbelow,
      List.append_nil]
  have hkept : ((front ++ back).map Event.step).filter (fun step => step.level < e.step.level) =
      front.map Event.step := by
    rw [List.filter_map]
    exact congrArg (List.map Event.step) hcut
  have htag : e.step.tag = Kind.flip.tag := congrArg Kind.tag hkind
  rw [keep, htag, hkept, if_pos (beq_self_eq_true _), List.map_append, List.map_singleton]

/-- On a justified trace the steps that are kept are those of the path. -/
theorem Justified.keySteps_eq (h : Justified F firstPhase base events) :
    keySteps (events.map Event.step) = (walk events).path.map Event.step := by
  induction h with
  | nil => rfl
  | @decision events e hevents he ih =>
      -- a decision drops nothing
      have htag : e.step.tag = Kind.decision.tag := congrArg Kind.tag he.kind_eq
      rw [walk_decision he.kind_eq, List.map_append, List.map_append, List.map_singleton,
        keySteps_concat, ih, keep, htag]
      rfl
  | @flip events e hevents he ih =>
      have hlevels := hevents.levels_eq
      obtain ⟨front, d, back, hpath, hlevel, -⟩ := he.deepest
      rw [hpath] at ih hlevels
      rw [walk_flip he.kind_eq, List.map_append, List.map_singleton, keySteps_concat, ih, hpath,
        keep_flip he.kind_eq hlevel hlevels, hlevel, Nat.add_sub_cancel, List.take_left]

end Trace

end TrailSat
