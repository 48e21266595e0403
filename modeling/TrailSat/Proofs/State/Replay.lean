import Mathlib.Data.List.Basic
import TrailSat.Proofs.State.Reachable

/-!
# A state is the replay of its assignments

Unassigning does not bring back a copy of anything but the active clauses: the marks are wiped in
place.  Still nothing is left behind.  Whatever has been assigned, refused, taken back or reset, the
state is the one that the surviving assignments lead to from the beginning
(`replay_assignment`), so two states with the same assignments are equal in every mark and frame.

It follows that a run of calls which takes back no more than it has assigned changes nothing
(`WellBracketed`), and that taking back the assignment in front of it restores the state before.
-/

namespace TrailSat

namespace Assignment

/-- A call that leaves enough assignments leaves the oldest ones. -/
theorem suffix_after {F : Formula} {kept a : Assignment} {call : State.Call}
    (hsuffix : kept <:+ a) (hlength : kept.length ≤ (a.after F call).length) :
    kept <:+ a.after F call := by
  cases call with
  | set asked value =>
      simp only [after] at hlength ⊢
      split
      · exact hsuffix
      · split
        · exact hsuffix.trans (List.suffix_cons ..)
        · exact hsuffix
  | unset asked =>
      cases hread : State.readVar F asked with
      | error e => simpa only [after, hread] using hsuffix
      | ok v =>
          cases a with
          | nil => simpa only [after, hread] using hsuffix
          | cons e earlier =>
              obtain ⟨w, value⟩ := e
              simp only [after, hread] at hlength ⊢
              by_cases hlast : w = v
              · -- too few would be left if the assignment taken off were one of those kept
                simp only [if_pos hlast] at hlength ⊢
                rcases List.suffix_cons_iff.1 hsuffix with rfl | hsuffix
                · exact absurd hlength (by simp)
                · exact hsuffix
              · simpa only [if_neg hlast] using hsuffix
  | reset =>
      have hnil : kept = [] := List.eq_nil_of_length_eq_zero (by simpa [after] using hlength)
      exact hnil ▸ List.nil_suffix

theorem suffix_foldl_after {F : Formula} {kept a : Assignment} {calls : List State.Call}
    (hsuffix : kept <:+ a)
    (habove : ∀ first, first <+: calls → kept.length ≤ (first.foldl (after F) a).length) :
    kept <:+ calls.foldl (after F) a := by
  induction calls generalizing a with
  | nil => exact hsuffix
  | cons call rest ih =>
      have hone : kept <:+ a.after F call :=
        suffix_after hsuffix (habove [call] (List.prefix_append ..))
      refine ih hone fun first hfirst => ?_
      exact habove (call :: first) (List.prefix_cons_inj call |>.2 hfirst)

end Assignment

namespace State

/-- The assigned variables with their present values, the last assigned first. -/
def assignment (s : State) : Assignment :=
  s.trail.filterMap fun v => (s.values[v - 1]?.join).map fun value => (v, value)

/-- The state after some variables have been asked for to get values, one after the other. -/
def setAll (F : Formula) (entries : List (Nat × Bool)) (s : State) : Except AssignError State :=
  entries.foldlM (fun t e => t.setVar F (.int e.1) (.bool e.2)) s

/-- The state after the assignments of a list have been asked for from the beginning, the oldest
first. -/
def replay (F : Formula) (a : Assignment) : Except AssignError State :=
  a.reverse.foldlM (fun s e => s.setVar F (.int e.1) (.bool e.2)) (initial F)

/-- A run of calls that takes back no assignment made before it, and all that it makes. -/
structure WellBracketed (F : Formula) (s : State) (calls : List Call) : Prop where
  /-- No part of the run goes below the depth at its beginning. -/
  above : ∀ first, first <+: calls → s.depth ≤ (first.foldl (after F) s).depth
  /-- The run ends at the depth at which it began. -/
  settled : (calls.foldl (after F) s).depth = s.depth

theorem assignment_along {F : Formula} {a : Assignment} (ha : a.Proper F) :
    (along F a).assignment = a := by
  have hentry : ∀ e ∈ a, ((along F a).values[e.1 - 1]?.join).map (fun value => (e.1, value)) =
      some e := by
    intro e he
    obtain ⟨hlow, hhigh⟩ := ha.inRange_of_mem he
    rw [getElem?_values_along hlow hhigh, ha.value?_of_mem he]
    rfl
  calc (along F a).assignment
      = a.filterMap fun e => ((along F a).values[e.1 - 1]?.join).map fun value => (e.1, value) := by
        rw [assignment, show (along F a).trail = a.map Prod.fst from rfl, List.filterMap_map]
        rfl
    _ = a.filterMap some := List.filterMap_congr hentry
    _ = a := List.filterMap_some

/-- Making later assignments one by one, the oldest first, leads to the state along all of them. -/
theorem setAll_along {F : Formula} {later base : Assignment}
    (hproper : Assignment.Proper F (later ++ base)) :
    setAll F later.reverse (along F base) = .ok (along F (later ++ base)) := by
  induction later with
  | nil => rfl
  | cons e rest ih =>
      obtain ⟨⟨hlow, hhigh⟩, hfree, hrest⟩ := hproper
      have hearlier := ih hrest
      unfold setAll at hearlier ⊢
      rw [List.reverse_cons, List.foldlM_append, hearlier]
      have hset : (along F (rest ++ base)).setVar F (.int e.1) (.bool e.2) =
          .ok (along F (e :: rest ++ base)) := by
        rw [setVar_eq_assign (readVar_int hlow hhigh)]
        exact assign_along hlow hhigh hfree e.2
      simp only [List.foldlM_cons, List.foldlM_nil]
      exact congrArg (· >>= pure) hset

theorem replay_eq_along {F : Formula} {a : Assignment} (ha : a.Proper F) :
    replay F a = .ok (along F a) := by
  have hall : setAll F a.reverse (along F []) = .ok (along F (a ++ [])) :=
    setAll_along (by rwa [List.append_nil])
  rwa [List.append_nil, along_nil] at hall

/-- A well-bracketed run changes nothing. -/
theorem foldl_after_of_wellBracketed {F : Formula} {s : State} (hs : Reachable F s)
    {calls : List Call} (hcalls : WellBracketed F s calls) : calls.foldl (after F) s = s := by
  obtain ⟨a, ha, rfl⟩ := reachable_iff_along.1 hs
  have hsuffix : a <:+ calls.foldl (Assignment.after F) a := by
    refine Assignment.suffix_foldl_after (List.suffix_refl a) fun first hfirst => ?_
    have habove := hcalls.above first hfirst
    rwa [(foldl_after_along ha first).1, depth_along, depth_along] at habove
  -- a list that has another of the same length as its end is that other list
  have hlength := hcalls.settled
  rw [(foldl_after_along ha calls).1, depth_along, depth_along] at hlength
  rw [(foldl_after_along ha calls).1, ← hsuffix.eq_of_length hlength.symm]

/-- What one request has assigned, the request to take it back undoes. -/
theorem unset_of_setVar {F : Formula} {s t : State} (hs : Reachable F s) {asked value : Value}
    (ht : s.setVar F asked value = .ok t) : Reachable F t ∧ t.unset F asked = .ok s := by
  obtain ⟨a, ha, rfl⟩ := reachable_iff_along.1 hs
  cases hread : readVar F asked with
  | error e => rw [setVar_eq_error hread] at ht; cases ht
  | ok v =>
      obtain ⟨hlow, hhigh⟩ := inRange_of_readVar hread
      rw [setVar_eq_assign hread, assign_along_eq hlow hhigh] at ht
      split at ht
      · next hfree =>
        obtain rfl := Except.ok.inj ht
        refine ⟨reachable_along ⟨⟨hlow, hhigh⟩, hfree, ha⟩, ?_⟩
        rw [unset_eq_unassign hread, unassign_along hlow hhigh hfree]
      · cases ht

/-- **A state is the replay of its assignments.**  Every variable on the trail has a value, and
assigning these values in the order of the trail leads from the beginning to this very state.  In
particular an assignment, a well-bracketed run after it and the request to take it back restore
the state before, and that request is not refused. -/
theorem replay_assignment {F : Formula} {s : State} (hs : Reachable F s) :
    s.assignment.map Prod.fst = s.trail ∧ replay F s.assignment = .ok s ∧
      ∀ (asked value : Value) (t : State), s.setVar F asked value = .ok t →
        ∀ calls : List Call, WellBracketed F t calls →
          (calls.foldl (after F) t).unset F asked = .ok s := by
  obtain ⟨a, ha, rfl⟩ := reachable_iff_along.1 hs
  rw [assignment_along ha]
  refine ⟨rfl, replay_eq_along ha, fun asked value t ht calls hcalls => ?_⟩
  obtain ⟨hreachable, hback⟩ := unset_of_setVar hs ht
  rw [foldl_after_of_wellBracketed hreachable hcalls, hback]

/-- Between the assignment of the first variable and the request to take it back, a call is
refused. -/
theorem replay_assignment_of_knotted :
    Reachable Formula.knot knotted ∧ replay Formula.knot [(3, false), (2, true)] = .ok knotted ∧
      ∃ t, knotted.setVar Formula.knot (.int 1) (.bool false) = .ok t ∧
        WellBracketed Formula.knot t [.unset (.int 3)] ∧
        ([Call.unset (.int 3)].foldl (after Formula.knot) t).unset Formula.knot (.int 1) =
          .ok knotted := by
  obtain ⟨-, hreplay, hback⟩ := replay_assignment reachable_knotted
  have hcalls : WellBracketed Formula.knot
      (after Formula.knot knotted (.set (.int 1) (.bool false))) [.unset (.int 3)] := by
    refine ⟨fun first hfirst => ?_, rfl⟩
    rcases List.prefix_cons_iff.1 hfirst with rfl | ⟨rest, rfl, hrest⟩
    · exact Nat.le_refl _
    · obtain rfl := List.prefix_nil.1 hrest
      exact Nat.le_refl _
  exact ⟨reachable_knotted, hreplay, _, rfl, hcalls, hback _ _ _ rfl _ hcalls⟩

end State

end TrailSat
