import Multicall.Text.Blank
import Mathlib.Data.List.TakeWhile
/-!
Blanks around a text. What trimming leaves is told without the way it works: a core that neither begins
nor ends with a blank, with nothing but blanks around it.
-/
namespace Multicall

/-- Characters of a class with something behind them that does not begin with one: taking the class off
the front takes just these. -/
theorem span_append {inClass : Char → Bool} {run rest : List Char}
    (inside : ∀ c ∈ run, inClass c = true) (stops : ∀ c ∈ rest.head?, inClass c = false) :
    (run ++ rest).takeWhile inClass = run ∧ (run ++ rest).dropWhile inClass = rest := by
  rw [List.takeWhile_append_of_pos inside, List.dropWhile_append_of_pos inside]
  cases rest with
  | nil => simp
  | cons c rest => simp [stops c rfl]

namespace Blank

/-- The text is its core with nothing but blanks around it, and the core neither begins nor ends with
one. -/
def Trims (text core : List Char) : Prop :=
  ∃ lead trail, text = lead ++ core ++ trail ∧ (∀ c ∈ lead, isBlank c = true) ∧
    (∀ c ∈ trail, isBlank c = true) ∧ (∀ c ∈ core.head?, isBlank c = false) ∧
    ∀ c ∈ core.getLast?, isBlank c = false

theorem dropLeading_append {lead rest : List Char} (blank : ∀ c ∈ lead, isBlank c = true)
    (begins : ∀ c ∈ rest.head?, isBlank c = false) : dropLeading (lead ++ rest) = rest :=
  (span_append blank begins).2

theorem exists_dropLeading (text : List Char) :
    ∃ lead, text = lead ++ dropLeading text ∧ (∀ c ∈ lead, isBlank c = true) ∧
      ∀ c ∈ (dropLeading text).head?, isBlank c = false := by
  refine ⟨text.takeWhile isBlank, List.takeWhile_append_dropWhile.symm,
    fun c among => List.mem_takeWhile_imp among, fun c first => ?_⟩
  have head := List.head?_dropWhile_not isBlank text
  rw [dropLeading, Option.mem_def] at first
  simpa [first] using head

/-- Behind a character that is no blank, blanks are dropped as if it were not there. -/
theorem dropTrailing_append {front : List Char} (rest : List Char)
    (ends : ∀ c ∈ front.getLast?, isBlank c = false) :
    dropTrailing (front ++ rest) = front ++ dropTrailing rest := by
  have kept : front.reverse.dropWhile isBlank = front.reverse :=
    show dropLeading ([] ++ front.reverse) = _ from
      dropLeading_append (List.forall_mem_nil _) (by simpa using ends)
  rw [dropTrailing, List.reverse_append, List.dropWhile_append, kept, dropTrailing]
  cases rest.reverse.dropWhile isBlank <;> simp

theorem dropTrailing_prefix (cs : List Char) : dropTrailing cs <+: cs := by
  have left := List.reverse_prefix.mpr (List.dropWhile_suffix isBlank (l := cs.reverse))
  rwa [List.reverse_reverse] at left

theorem strip_eq_iff (text core : List Char) : strip text = core ↔ Trims text core := by
  constructor
  · rintro rfl
    obtain ⟨lead, front, blankLead, begins⟩ := exists_dropLeading text
    obtain ⟨trail, back, blankTrail, ends⟩ := exists_dropLeading (dropLeading text).reverse
    have whole : dropLeading text = strip text ++ trail.reverse := by
      have reversed := congrArg List.reverse back
      rwa [List.reverse_reverse, List.reverse_append] at reversed
    refine ⟨lead, trail.reverse, ?_, blankLead, ?_, ?_, ?_⟩
    · rw [List.append_assoc, ← whole]
      exact front
    · intro c among
      exact blankTrail c (List.mem_reverse.mp among)
    · intro c first
      refine begins c ?_
      rw [whole, Option.mem_def, List.head?_append, Option.mem_def.mp first]
      rfl
    · intro c last
      refine ends c ?_
      rwa [strip, dropTrailing, List.getLast?_reverse] at last
  · rintro ⟨lead, trail, rfl, blankLead, blankTrail, begins, ends⟩
    have trailing : dropTrailing (core ++ trail) = core := by
      have reversed : dropLeading (trail.reverse ++ core.reverse) = core.reverse :=
        dropLeading_append (fun c among => blankTrail c (List.mem_reverse.mp among))
          (by simpa using ends)
      rw [dropTrailing, List.reverse_append]
      exact (congrArg List.reverse reversed).trans (List.reverse_reverse core)
    cases core with
    | nil =>
        rw [List.append_nil, strip, dropLeading,
          List.dropWhile_eq_nil_iff.mpr (List.forall_mem_append.mpr ⟨blankLead, blankTrail⟩)]
        rfl
    | cons c core =>
        rw [List.append_assoc, strip, dropLeading_append blankLead (by simpa using begins), trailing]

theorem trim_toList (s : String) (core : List Char) (trims : Trims s.toList core) :
    trim s = String.ofList core := by
  rw [trim, (strip_eq_iff _ _).mpr trims]

theorem trims_strip (text : List Char) : Trims text (strip text) := (strip_eq_iff _ _).mp rfl

end Blank
end Multicall
