import Mathlib.Logic.Relation
import Multicall.Json.Private
/-!
The public view of a document. A path leads from a document to one inside it, by member names and by
positions in arrays. Leaving out private members ends exactly the paths that pass through one; every
other path arrives where it did, at a document with the same public look. Two documents have the same
public view when private members, added and removed at any depth, make one of them out of the other.
-/
namespace Multicall.Json

@[elab_as_elim]
theorem byDepth {motive : Json → Prop} (null : motive .null) (bool : ∀ b, motive (.bool b))
    (number : ∀ n, motive (.number n)) (string : ∀ s, motive (.string s))
    (array : ∀ items, (∀ item ∈ items, motive item) → motive (.array items))
    (object : ∀ members, (∀ entry ∈ members, motive entry.2) → motive (.object members)) :
    ∀ j, motive j
  | .null => null
  | .bool b => bool b
  | .number n => number n
  | .string s => string s
  | .array items => array items fun item _ =>
      byDepth null bool number string array object item
  | .object members => object members fun entry _ =>
      byDepth null bool number string array object entry.2
termination_by j => sizeOf j
decreasing_by
  · have := List.sizeOf_lt_of_mem ‹item ∈ items›
    simp only [Json.array.sizeOf_spec]
    omega
  · have := List.sizeOf_lt_of_mem ‹entry ∈ members›
    obtain ⟨name, value⟩ := entry
    simp only [Json.object.sizeOf_spec, Prod.mk.sizeOf_spec] at this ⊢
    omega

/-! Leaving out is a filter followed by a map, level by level. -/

def isPublic (entry : String × Json) : Bool := !isPrivate entry.1

def stripped (entry : String × Json) : String × Json := (entry.1, entry.2.withoutPrivate)

@[simp] theorem withoutPrivate_array (items : List Json) :
    (array items).withoutPrivate = .array (items.map withoutPrivate) := by
  have each : itemsWithoutPrivate items = items.map withoutPrivate := by
    induction items with
    | nil => rfl
    | cons item rest ih => rw [itemsWithoutPrivate, ih, List.map_cons]
  rw [withoutPrivate, each]

@[simp] theorem withoutPrivate_object (members : Members) :
    (object members).withoutPrivate = .object ((members.filter isPublic).map stripped) := by
  have each : membersWithoutPrivate members = (members.filter isPublic).map stripped := by
    induction members with
    | nil => rfl
    | cons entry rest ih =>
      obtain ⟨name, value⟩ := entry
      rw [membersWithoutPrivate]
      by_cases hidden : isPrivate name = true
      · rw [if_pos hidden, List.filter_cons_of_neg (by simp [isPublic, hidden]), ih]
      · rw [if_neg hidden, List.filter_cons_of_pos (by simpa [isPublic] using hidden), ih]
        rfl
  rw [withoutPrivate, each]

/-- An object of public members that have no private ones themselves stays as it is. -/
theorem withoutPrivate_object_eq_self {members : Members}
    (each : ∀ entry ∈ members, isPrivate entry.1 = false ∧ entry.2.withoutPrivate = entry.2) :
    (object members).withoutPrivate = .object members := by
  have all : members.filter isPublic = members :=
    List.filter_eq_self.mpr fun entry found => by rw [isPublic, (each entry found).1]; rfl
  have same : members.map stripped = members.map id :=
    List.map_congr_left fun entry found => by rw [stripped, (each entry found).2]; rfl
  rw [withoutPrivate_object, all, same, List.map_id]

theorem filter_isPublic_stripped (members : Members) :
    (members.map stripped).filter isPublic = (members.filter isPublic).map stripped :=
  List.filter_map

theorem withoutPrivate_idem (j : Json) : j.withoutPrivate.withoutPrivate = j.withoutPrivate := by
  induction j using byDepth with
  | null | bool b | number n | string s => rfl
  | array items ih =>
    simp only [withoutPrivate_array, List.map_map, array.injEq, List.map_inj_left]
    exact ih
  | object members ih =>
    simp only [withoutPrivate_object, filter_isPublic_stripped, List.filter_filter, Bool.and_self,
      List.map_map, object.injEq, List.map_inj_left]
    intro entry among
    exact congrArg (Prod.mk entry.1) (ih entry (List.mem_filter.mp among).1)

/-! Names. -/

/-- Some object in the document, at whatever depth, has a member of this name. -/
inductive Names (name : String) : Json → Prop
  | own {members : Members} {value : Json} (among : (name, value) ∈ members) :
      Names name (.object members)
  | deeper {members : Members} {entry : String × Json} (among : entry ∈ members)
      (inside : Names name entry.2) : Names name (.object members)
  | item {items : List Json} {item : Json} (among : item ∈ items) (inside : Names name item) :
      Names name (.array items)

theorem names_public {name : String} (j : Json) (named : j.withoutPrivate.Names name) :
    isPrivate name = false := by
  induction j using byDepth with
  | null | bool b | number n | string s => cases named
  | array items ih =>
    rw [withoutPrivate_array] at named
    cases named with
    | item among inside =>
      obtain ⟨item, member, rfl⟩ := List.mem_map.mp among
      exact ih item member inside
  | object members ih =>
    rw [withoutPrivate_object] at named
    cases named with
    | own among =>
      obtain ⟨entry, member, same⟩ := List.mem_map.mp among
      have shown := (List.mem_filter.mp member).2
      cases same
      simpa [isPublic] using shown
    | deeper among inside =>
      obtain ⟨entry, member, rfl⟩ := List.mem_map.mp among
      exact ih entry (List.mem_filter.mp member).1 inside

/-! Paths. -/

inductive Step
  | member (name : String)
  | item (index : Nat)
  deriving DecidableEq, Repr

def Step.isPublic : Step → Bool
  | .member name => !isPrivate name
  | .item _ => true

def enter : Step → Json → Option Json
  | .member name, .object members => Assoc.get? name members
  | .item index, .array items => items[index]?
  | _, _ => none

/-- The document that a path leads to. -/
def at? : List Step → Json → Option Json
  | [], j => some j
  | step :: rest, j => (enter step j).bind (at? rest)

/-- What is seen of a document without going into it. -/
inductive Look
  | scalar (value : Json)
  | array (size : Nat)
  | object (names : List String)

/-- An array shows how long it is, and an object its public names in order. -/
def look : Json → Look
  | .array items => .array items.length
  | .object members => .object ((members.filter isPublic).map (·.1))
  | value => .scalar value

theorem get?_public (members : Members) (name : String) :
    Assoc.get? name ((members.filter isPublic).map stripped) =
      if isPrivate name then none else (Assoc.get? name members).map withoutPrivate := by
  induction members with
  | nil => simp [Assoc.get?]
  | cons entry rest ih =>
    obtain ⟨key, value⟩ := entry
    by_cases hidden : isPrivate key = true
    · have differs (shown : ¬ isPrivate name = true) : key ≠ name := by
        rintro rfl
        exact shown hidden
      rw [List.filter_cons_of_neg (by simp [isPublic, hidden]), ih, Assoc.get?]
      by_cases shown : isPrivate name = true
      · rw [if_pos shown, if_pos shown]
      · rw [if_neg shown, if_neg shown, if_neg (differs shown)]
    · rw [List.filter_cons_of_pos (by simpa [isPublic] using hidden), List.map_cons, stripped,
        Assoc.get?, ih, Assoc.get?]
      by_cases same : key = name
      · subst same
        simp [hidden]
      · simp [same]

theorem enter_withoutPrivate (step : Step) (j : Json) :
    enter step j.withoutPrivate =
      if step.isPublic then (enter step j).map withoutPrivate else none := by
  cases step with
  | item index =>
    cases j with
    | array items => simp [enter, Step.isPublic]
    | object members => simp [enter, Step.isPublic]
    | _ => rfl
  | member name =>
    cases j with
    | array items => simp [enter]
    | object members =>
      rw [withoutPrivate_object, enter, get?_public, enter, Step.isPublic]
      cases isPrivate name <;> rfl
    | _ => simp [withoutPrivate, enter]

/-- A path through a private name leads nowhere; every other one leads to what is left of the
document it led to. -/
theorem at?_withoutPrivate (path : List Step) (j : Json) :
    j.withoutPrivate.at? path =
      if path.all Step.isPublic then (j.at? path).map withoutPrivate else none := by
  induction path generalizing j with
  | nil => rfl
  | cons step rest ih =>
    rw [at?, at?, enter_withoutPrivate, List.all_cons]
    cases step.isPublic with
    | false => rfl
    | true =>
      cases enter step j with
      | none => simp
      | some inner => simpa using ih inner

theorem look_withoutPrivate (j : Json) : j.withoutPrivate.look = j.look := by
  cases j with
  | array items => simp [look]
  | object members =>
    simp only [withoutPrivate_object, look, filter_isPublic_stripped, List.filter_filter,
      Bool.and_self, List.map_map]
    rfl
  | _ => rfl

/-- Along a public path nothing changes that is seen on the way. -/
theorem look_at?_withoutPrivate (path : List Step) (j : Json)
    (shown : path.all Step.isPublic = true) :
    (j.withoutPrivate.at? path).map look = (j.at? path).map look := by
  rw [at?_withoutPrivate, if_pos shown, Option.map_map]
  exact congrFun (congrArg Option.map (funext look_withoutPrivate)) _

/-- A document from which every private name is gone, and that looks the same along all other
paths. -/
structure IsPublicView (j view : Json) : Prop where
  names : ∀ name, view.Names name → isPrivate name = false
  barred : ∀ path, path.all Step.isPublic = false → view.at? path = none
  leads : ∀ path, path.all Step.isPublic = true → view.at? path = (j.at? path).map withoutPrivate
  looks : ∀ path, path.all Step.isPublic = true → (view.at? path).map look = (j.at? path).map look

theorem isPublicView_withoutPrivate (j : Json) : j.IsPublicView j.withoutPrivate where
  names _ := names_public j
  barred path hidden := by rw [at?_withoutPrivate, hidden, if_neg Bool.false_ne_true]
  leads path shown := by rw [at?_withoutPrivate, if_pos shown]
  looks path := look_at?_withoutPrivate path j

/-! Documents that differ in private members only. -/

/-- One private member less, somewhere in the document. -/
inductive Drops : Json → Json → Prop
  | here (front : Members) {name : String} (hidden : isPrivate name = true) (value : Json)
      (back : Members) : Drops (.object (front ++ (name, value) :: back)) (.object (front ++ back))
  | item (front : List Json) {j k : Json} (inside : Drops j k) (back : List Json) :
      Drops (.array (front ++ j :: back)) (.array (front ++ k :: back))
  | member (front : Members) (name : String) {j k : Json} (inside : Drops j k) (back : Members) :
      Drops (.object (front ++ (name, j) :: back)) (.object (front ++ (name, k) :: back))

/-- Private members, taken away and put in, make one document out of the other. -/
def SamePublic : Json → Json → Prop := Relation.EqvGen Drops

namespace SamePublic

variable {j k l : Json}

theorem refl (j : Json) : j.SamePublic j := Relation.EqvGen.refl j

theorem symm (same : j.SamePublic k) : k.SamePublic j := Relation.EqvGen.symm _ _ same

theorem trans (first : j.SamePublic k) (second : k.SamePublic l) : j.SamePublic l :=
  Relation.EqvGen.trans _ _ _ first second

theorem lift {f : Json → Json} (drops : ∀ j k, Drops j k → Drops (f j) (f k))
    (same : j.SamePublic k) : (f j).SamePublic (f k) := by
  induction same with
  | rel j k one => exact .rel _ _ (drops j k one)
  | refl j => exact .refl _
  | symm _ _ _ ih => exact ih.symm
  | trans _ _ _ _ _ first second => exact first.trans second

/-- Items may lose their private members one after the other. -/
theorem strip_items (front items : List Json) (each : ∀ j ∈ items, j.SamePublic j.withoutPrivate) :
    (array (front ++ items)).SamePublic (.array (front ++ items.map withoutPrivate)) := by
  induction items generalizing front with
  | nil => exact .refl _
  | cons item rest ih =>
    have first := (each item List.mem_cons_self).lift
      (f := fun j => .array (front ++ j :: rest)) fun _ _ one => .item front one rest
    have others := ih (front ++ [item.withoutPrivate]) fun j among =>
      each j (List.mem_cons_of_mem item among)
    simp only [List.append_assoc, List.cons_append, List.nil_append] at others
    exact first.trans others

theorem strip_members (front members : Members)
    (each : ∀ entry ∈ members, entry.2.SamePublic entry.2.withoutPrivate) :
    (object (front ++ members)).SamePublic
      (.object (front ++ (members.filter isPublic).map stripped)) := by
  induction members generalizing front with
  | nil => exact .refl _
  | cons entry rest ih =>
    have others (front : Members) := ih front fun entry among =>
      each entry (List.mem_cons_of_mem _ among)
    obtain ⟨name, value⟩ := entry
    by_cases hidden : isPrivate name = true
    · rw [List.filter_cons_of_neg (by simp [isPublic, hidden])]
      have gone : (object (front ++ (name, value) :: rest)).SamePublic (.object (front ++ rest)) :=
        .rel _ _ (.here front hidden value rest)
      exact gone.trans (others front)
    · rw [List.filter_cons_of_pos (by simpa [isPublic] using hidden), List.map_cons, stripped]
      have first := (each (name, value) List.mem_cons_self).lift
        (f := fun j => .object (front ++ (name, j) :: rest)) fun _ _ one =>
          .member front name one rest
      have later := others (front ++ [(name, value.withoutPrivate)])
      simp only [List.append_assoc, List.cons_append, List.nil_append] at later
      exact first.trans later

end SamePublic

theorem samePublic_withoutPrivate (j : Json) : j.SamePublic j.withoutPrivate := by
  induction j using byDepth with
  | null | bool b | number n | string s => exact .refl _
  | array items ih =>
    rw [withoutPrivate_array]
    exact SamePublic.strip_items [] items ih
  | object members ih =>
    rw [withoutPrivate_object]
    exact SamePublic.strip_members [] members ih

theorem withoutPrivate_of_drops {j k : Json} (drops : Drops j k) :
    j.withoutPrivate = k.withoutPrivate := by
  induction drops with
  | here front hidden value back => simp [isPublic, hidden]
  | item front _ back ih => simp [ih]
  | member front name _ back ih =>
    by_cases hidden : isPrivate name = true
    · simp [isPublic, hidden]
    · simp [isPublic, hidden, stripped, ih]

/-- The public view is all that is left when private members are taken away. -/
theorem samePublic_iff (j k : Json) : j.SamePublic k ↔ j.withoutPrivate = k.withoutPrivate := by
  constructor
  · intro same
    induction same with
    | rel j k one => exact withoutPrivate_of_drops one
    | refl j => rfl
    | symm _ _ _ ih => exact ih.symm
    | trans _ _ _ _ _ first second => exact first.trans second
  · intro same
    have right := samePublic_withoutPrivate k
    rw [← same] at right
    exact (samePublic_withoutPrivate j).trans right.symm

end Multicall.Json
