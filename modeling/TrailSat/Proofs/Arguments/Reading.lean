import TrailSat.Arguments.Reading
import TrailSat.Proofs.Fallible

/-!
# What command lines keep

Nothing but its options changes the settings that a command line starts from.  A property that each
option keeps (`Rule.Keeps`) therefore holds of whatever is read (`holds_of_read`).

An option may be used in many ways: by its name, by the beginning of its name, with a value in the
same word or in the next one, or behind other options that share its hyphen.  In all of them it is
one of the options of the command, which is followed from the sorting of the words
(`mem_of_sortAll`) to the uses that a word leads to (`mem_of_useOption`).
-/

namespace TrailSat.Arguments

variable {Settings : Type} {Holds : Settings → Prop} {rules : List (Rule Settings)}
  {rule : Rule Settings} {uses : List (Use Settings)} {word name : String} {attached : Attached}

/-- The option changes the settings only in ways that keep a property. -/
def Rule.Keeps (Holds : Settings → Prop) (rule : Rule Settings) : Prop :=
  match rule.effect with
  | .help => True
  | .flag change => ∀ settings, Holds settings → Holds (change settings)
  | .value read blank =>
    (∀ settings, Holds settings → Holds (blank settings)) ∧
      ∀ text change, read text = .ok change → ∀ settings, Holds settings → Holds (change settings)

theorem Rule.keeps_ofValue {Kind : Type} {names : List String} {about : String}
    {read : String → Except Refusal Kind} {change : Given Kind → Settings → Settings}
    (hblank : ∀ settings, Holds settings → Holds (change .blank settings))
    (hvalue : ∀ text v, read text = .ok v →
      ∀ settings, Holds settings → Holds (change (.value v) settings)) :
    (Rule.ofValue names about read change).Keeps Holds := by
  refine ⟨hblank, fun text changeBy hread => ?_⟩
  obtain ⟨v, hv, rfl⟩ := map_eq_ok_iff.1 hread
  exact hvalue text v hv

/-- An option that keeps a property whatever it is given. -/
theorem Rule.keeps_ofValue_of_forall {Kind : Type} {names : List String} {about : String}
    {read : String → Except Refusal Kind} {change : Given Kind → Settings → Settings}
    (h : ∀ given settings, Holds settings → Holds (change given settings)) :
    (Rule.ofValue names about read change).Keeps Holds :=
  Rule.keeps_ofValue (h .blank) fun _ v _ => h (.value v)

theorem Rule.keeps_always (h : rule.Keeps Holds) : rule.always.Keeps Holds :=
  h

/-! ## The options that words name -/

theorem mem_of_ruleNamed? (h : ruleNamed? rules name = some rule) : rule ∈ rules :=
  List.mem_of_find?_eq_some h

theorem mem_of_mem_namedRules (h : (name, rule) ∈ namedRules rules) : rule ∈ rules := by
  obtain ⟨other, hmem, hnamed⟩ := List.mem_flatMap.1 h
  obtain ⟨_, -, hpair⟩ := List.mem_map.1 hnamed
  obtain ⟨-, rfl⟩ := Prod.mk.inj hpair
  exact hmem

theorem mem_of_mem_candidates {cs : List Char}
    (h : (name, rule, attached) ∈ candidates rules cs) : rule ∈ rules := by
  unfold candidates at h
  -- behind two hyphens the word is the beginning of names, behind one a letter and its value
  split at h
  · obtain ⟨⟨other, otherRule⟩, hmem, hpair⟩ := List.mem_map.1 h
    obtain ⟨rfl, hrule⟩ := Prod.mk.inj hpair
    obtain ⟨rfl, -⟩ := Prod.mk.inj hrule
    exact mem_of_mem_namedRules (List.mem_filter.1 hmem).1
  · dsimp only at h
    split at h
    · next hnamed =>
      obtain ⟨-, hrule⟩ := Prod.mk.inj (List.mem_singleton.1 h)
      obtain ⟨rfl, -⟩ := Prod.mk.inj hrule
      exact mem_of_ruleNamed? hnamed
    · cases h
  · cases h

theorem mem_of_sort (h : sort rules word = .ok (.option rule name attached)) : rule ∈ rules := by
  unfold sort at h
  split at h
  · dsimp only at h
    split at h
    · next hnamed =>
      cases h
      exact mem_of_ruleNamed? hnamed
    · next hnamed =>
      cases h
      exact mem_of_ruleNamed? hnamed
    · unfold sortUnnamed at h
      split at h
      · next hcandidates =>
        cases h
        exact mem_of_mem_candidates (hcandidates ▸ List.mem_singleton_self _)
      · split at h <;> cases h
      · cases h
  · cases h

theorem mem_of_sortAll {words : List String} {sorted : List (Word Settings)}
    (h : sortAll rules words = .ok sorted) (hword : .option rule name attached ∈ sorted) :
    rule ∈ rules := by
  induction words generalizing sorted with
  | nil =>
      obtain rfl := Except.ok.inj h
      cases hword
  | cons word rest ih =>
      unfold sortAll at h
      split at h
      · -- what follows the separator is plain
        obtain rfl := Except.ok.inj h
        simp at hword
      · obtain ⟨first, hfirst, h⟩ := bind_eq_ok_iff.1 h
        obtain ⟨others, hothers, h⟩ := bind_eq_ok_iff.1 h
        obtain rfl := Except.ok.inj h
        rcases List.mem_cons.1 hword with rfl | hlater
        · exact mem_of_sort hfirst
        · exact ih hothers hlater

/-! ## The options that are used -/

/-- The options used are among the given ones. -/
def Draws (rules : List (Rule Settings)) (uses : List (Use Settings)) : Prop :=
  ∀ use ∈ uses, use.rule ∈ rules

theorem draws_singleton {given : Option (Given String)} (h : rule ∈ rules) :
    Draws rules [⟨rule, given⟩] := by
  intro use huse
  obtain rfl := List.mem_singleton.1 huse
  exact h

theorem Draws.cons {use : Use Settings} (h : Draws rules uses) (huse : use.rule ∈ rules) :
    Draws rules (use :: uses) :=
  List.forall_mem_cons.2 ⟨huse, h⟩

theorem draws_of_useFlags {letters : List Char} (hrule : rule ∈ rules)
    (h : useFlags rules rule letters = .ok uses) : Draws rules uses := by
  induction letters generalizing rule uses with
  | nil =>
      obtain rfl := Except.ok.inj h
      exact draws_singleton hrule
  | cons letter rest ih =>
      unfold useFlags at h
      split at h
      · cases h
      · next next hnamed =>
        -- the next letter takes the rest of the word, or is one more flag
        have hnext := mem_of_ruleNamed? hnamed
        split at h
        · obtain rfl := Except.ok.inj h
          exact (draws_singleton hnext).cons hrule
        · obtain ⟨others, hothers, rfl⟩ := map_eq_ok_iff.1 h
          exact (ih hnext hothers).cons hrule

theorem draws_of_useAttached {text : String} (hrule : rule ∈ rules)
    (h : useAttached rules rule name text = .ok uses) : Draws rules uses := by
  unfold useAttached at h
  split at h
  · obtain rfl := Except.ok.inj h
    exact draws_singleton hrule
  · split at h
    · cases h
    · exact draws_of_useFlags hrule h

theorem draws_of_useOption (hrule : rule ∈ rules)
    (h : useOption rules rule name attached = .ok uses) : Draws rules uses := by
  cases attached with
  | nothing =>
      obtain rfl := Except.ok.inj h
      exact draws_singleton hrule
  | assigned text => exact draws_of_useAttached hrule h
  | glued text => exact draws_of_useAttached hrule h

theorem Draws.mem_of_waiting? (h : Draws rules uses) (hwaiting : waiting? uses = some rule) :
    rule ∈ rules := by
  unfold waiting? at hwaiting
  split at hwaiting
  · next hlast =>
    split at hwaiting
    · obtain rfl := Option.some.inj hwaiting
      exact h _ (List.mem_of_getLast? hlast)
    · cases hwaiting
  · cases hwaiting

/-- The option that waited for a value has got one. -/
theorem Draws.supply (h : Draws rules uses) (hrule : rule ∈ rules) (given : Option (Given String)) :
    Draws rules (uses.dropLast ++ [⟨rule, given⟩]) := by
  intro use huse
  rcases List.mem_append.1 huse with hearlier | hlast
  · exact h use ((List.dropLast_sublist uses).subset hearlier)
  · exact draws_singleton hrule use hlast

/-! ## What is kept -/

theorem Progress.holds_of_apply {progress next : Progress Settings} {use : Use Settings}
    (hkeeps : use.rule.Keeps Holds) (hholds : Holds progress.settings)
    (h : progress.apply use = .ok next) : Holds next.settings := by
  unfold Progress.apply at h
  unfold Rule.Keeps at hkeeps
  dsimp only at h
  cases heffect : use.rule.effect with
  | help =>
      rw [heffect] at h
      cases h
  | flag change =>
      rw [heffect] at h hkeeps
      obtain rfl := Except.ok.inj h
      exact hkeeps _ hholds
  | value read blank =>
      rw [heffect] at h hkeeps
      obtain ⟨hblank, hvalue⟩ := hkeeps
      cases hgiven : use.given with
      | none =>
          rw [hgiven] at h
          obtain rfl := Except.ok.inj h
          exact hblank _ hholds
      | some given =>
          rw [hgiven] at h
          cases given with
          | blank =>
              obtain rfl := Except.ok.inj h
              exact hblank _ hholds
          | value text =>
              dsimp only at h
              split at h
              · next change hread =>
                obtain rfl := Except.ok.inj h
                exact hvalue text change hread _ hholds
              · cases h

theorem Progress.holds_of_foldlM {progress next : Progress Settings}
    (hkeeps : ∀ rule ∈ rules, rule.Keeps Holds) (huses : Draws rules uses)
    (hholds : Holds progress.settings) (h : uses.foldlM Progress.apply progress = .ok next) :
    Holds next.settings :=
  foldlM_preserves (fun progress => Holds progress.settings)
    (fun _ use huse _ hformer happly => holds_of_apply (hkeeps _ (huses use huse)) hformer happly)
    hholds h

/-- The options among the words are among the given ones. -/
def Sorted (rules : List (Rule Settings)) (words : List (Word Settings)) : Prop :=
  ∀ rule name attached, .option rule name attached ∈ words → rule ∈ rules

theorem Sorted.tail {first : Word Settings} {words : List (Word Settings)}
    (h : Sorted rules (first :: words)) : Sorted rules words :=
  fun rule name attached hword => h rule name attached (List.mem_cons_of_mem _ hword)

/-- What every option keeps is kept by the words.  An option may take the next word with it, so the
induction is on the number of words. -/
theorem holds_of_take (hkeeps : ∀ rule ∈ rules, rule.Keeps Holds) {words : List (Word Settings)}
    (hsorted : Sorted rules words) {progress reached : Progress Settings}
    (hholds : Holds progress.settings) (h : take rules progress words = .ok reached) :
    Holds reached.settings := by
  induction hlength : words.length using Nat.strongRecOn generalizing words progress with
  | _ length ih =>
  subst hlength
  cases words with
  | nil =>
      obtain rfl := Except.ok.inj h
      exact hholds
  | cons first rest =>
      have hshorter : rest.length < (first :: rest).length := by simp
      cases first with
      | plain text | separator | unknown text =>
          unfold take at h
          refine ih _ hshorter hsorted.tail ?_ h rfl
          exact hholds
      | option rule name attached =>
          have hrule := hsorted rule name attached List.mem_cons_self
          unfold take at h
          obtain ⟨uses, huses, h⟩ := bind_eq_ok_iff.1 h
          have hdraws := draws_of_useOption hrule (mapError_eq_ok_iff.1 huses)
          split at h
          · obtain ⟨next, hnext, h⟩ := bind_eq_ok_iff.1 h
            have hheld := Progress.holds_of_foldlM hkeeps hdraws hholds hnext
            exact ih _ hshorter hsorted.tail hheld h rfl
          · -- the last option still waits for its value, which is the next word
            next waiting hwaiting =>
            have hsupplied := hdraws.supply (hdraws.mem_of_waiting? hwaiting)
            cases rest with
            | nil => cases h
            | cons second later =>
                cases second with
                | plain value =>
                    obtain ⟨next, hnext, h⟩ := bind_eq_ok_iff.1 h
                    have hheld := Progress.holds_of_foldlM hkeeps (hsupplied _) hholds hnext
                    have hlater := Nat.lt_trans (Nat.lt_succ_self later.length) hshorter
                    exact ih _ hlater hsorted.tail.tail hheld h rfl
                | separator | unknown | option => cases h

/-- **What every option keeps holds of the settings that are read.** -/
theorem holds_of_read {start settings : Settings} {words : List String}
    (hkeeps : ∀ rule ∈ rules, rule.Keeps Holds) (hstart : Holds start)
    (h : read rules start words = .ok settings) : Holds settings := by
  obtain ⟨sorted, hsorted, h⟩ := bind_eq_ok_iff.1 h
  obtain ⟨reached, hreached, h⟩ := bind_eq_ok_iff.1 h
  have hkeeps' : ∀ rule ∈ Rule.ofHelp :: rules, rule.Keeps Holds :=
    List.forall_mem_cons.2 ⟨trivial, hkeeps⟩
  have hnamed : Sorted (Rule.ofHelp :: rules) sorted :=
    fun rule name attached => mem_of_sortAll (mapError_eq_ok_iff.1 hsorted)
  have hheld : Holds reached.settings := holds_of_take hkeeps' hnamed hstart hreached
  unfold conclude at h
  dsimp only at h
  split at h
  · cases h
  · split at h
    · cases h
    · obtain rfl := Except.ok.inj h
      exact hheld

end TrailSat.Arguments
