import Mathlib.Data.List.Basic
import TrailSat.Proofs.Text.Words
import TrailSat.Text.Lines

/-!
# Lines and their ends

A text made of lines, each with a line feed behind it (`ended`), is cut into these lines again, if
none of them holds a line end.  That is so for `lines`, which knows three line ends, and also for
cutting at the line feeds alone, which leaves an empty text behind the last one.
-/

namespace TrailSat.Text

/-- The text made of some lines, each with a line feed behind it. -/
def ended (texts : List String) : String :=
  String.join (texts.map (· ++ "\n"))

/-- A text without line ends. -/
def IsLine (t : String) : Prop :=
  ∀ c ∈ t.toList, c ≠ '\n' ∧ c ≠ '\r'

theorem IsLine.of_all {t : String} (h : t.toList.all (fun c => c != '\n' && c != '\r') = true) :
    IsLine t := by
  intro c hc
  simpa using List.all_eq_true.1 h c hc

/-- The pieces of a text between its line feeds. -/
def cutAtFeeds (s : String) : List String :=
  (s.toList.splitOn '\n').map String.ofList

/-- No blank but the space stands between words, and line ends are blanks. -/
theorem isLine_intercalate {texts : List String} (h : ∀ t ∈ texts, IsWord t) :
    IsLine (" ".intercalate texts) := by
  cases texts with
  | nil => exact nofun
  | cons t rest =>
      intro c hc
      have hspaced : c ∈ spaced (t :: rest) := by
        rw [spaced_eq_cons]
        exact List.mem_cons_of_mem _ hc
      obtain ⟨u, hu, hcu⟩ := List.mem_flatMap.1 hspaced
      rcases List.mem_cons.1 hcu with rfl | hcu
      · decide
      · have hfirm := (h u hu).not_blank c hcu
        constructor
        · rintro rfl
          exact absurd hfirm (by decide)
        · rintro rfl
          exact absurd hfirm (by decide)

theorem ended_append (texts more : List String) :
    ended (texts ++ more) = ended texts ++ ended more := by
  apply String.toList_inj.1
  simp [ended]

theorem toList_ended_cons (t : String) (rest : List String) :
    (ended (t :: rest)).toList = t.toList ++ '\n' :: (ended rest).toList := by
  simp [ended]

/-- The characters of a line join those before them. -/
theorem cutLines_append {cs : List Char} (hcs : ∀ c ∈ cs, c ≠ '\n' ∧ c ≠ '\r')
    (done : List String) (current rest : List Char) :
    cutLines done current (cs ++ rest) = cutLines done (cs.reverse ++ current) rest := by
  induction cs generalizing current with
  | nil => rfl
  | cons c more ih =>
      obtain ⟨⟨hfeed, hreturn⟩, hmore⟩ := List.forall_mem_cons.1 hcs
      have hstep : cutLines done current (c :: (more ++ rest)) =
          cutLines done (c :: current) (more ++ rest) := by
        rw [cutLines]
        · exact fun _ h _ => hreturn h
        · exact hreturn
        · exact hfeed
      rw [List.cons_append, hstep, ih hmore, List.reverse_cons, List.append_assoc]
      rfl

theorem cutLines_ended {texts : List String} (h : ∀ t ∈ texts, IsLine t) (done : List String) :
    cutLines done [] (ended texts).toList = (texts.reverse ++ done, []) := by
  induction texts generalizing done with
  | nil => rfl
  | cons t rest ih =>
      obtain ⟨ht, hrest⟩ := List.forall_mem_cons.1 h
      rw [toList_ended_cons, cutLines_append ht]
      have hfeed : cutLines done (t.toList.reverse ++ []) ('\n' :: (ended rest).toList) =
          cutLines (t :: done) [] (ended rest).toList := by
        rw [cutLines]
        simp
      rw [hfeed, ih hrest]
      simp

/-- **The lines of a text made of lines are these lines.** -/
theorem lines_ended {texts : List String} (h : ∀ t ∈ texts, IsLine t) :
    lines (ended texts).toList = texts := by
  simp [lines, cutLines_ended h]

theorem cutAtFeeds_ended {texts : List String} (h : ∀ t ∈ texts, IsLine t) :
    cutAtFeeds (ended texts) = texts ++ [""] := by
  induction texts with
  | nil => rfl
  | cons t rest ih =>
      obtain ⟨ht, hrest⟩ := List.forall_mem_cons.1 h
      have hfree : '\n' ∉ t.toList := fun hmem => (ht _ hmem).1 rfl
      rw [cutAtFeeds] at ih ⊢
      rw [toList_ended_cons, List.splitOn_append_cons_self_of_not_mem hfree, List.map_cons,
        ih hrest, String.ofList_toList]
      rfl

end TrailSat.Text
