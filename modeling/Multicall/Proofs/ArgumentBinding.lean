import Multicall.Proofs.RepeatedNames
import Multicall.Proofs.StageOrder
/-!
Which arguments an operation gets. A parameter may be declared again, as required here and optional
there; what counts of a supplied value is only that it is there and not `null`. Binding is the table of
the declared names that have such a value, each with that very value, in order of first declaration. It
fails for the first required parameter in that order that has none, and then nothing is invoked. What is
bound is never missed when it is read: only its conversion can fail.
-/
namespace Multicall

variable {ω : Type}

namespace Operation

/-- A value is supplied under this name, and it is not `null`. -/
def Given (supplied : Members) (name : String) (value : Json) : Prop :=
  Assoc.get? name supplied = some value ∧ value ≠ .null

/-- A required parameter for which nothing is given. -/
structure Lacks (supplied : Members) (p : Declaration) : Prop where
  required : p.optional = false
  absent : ∀ value, ¬ Given supplied p.name value

/-- The arguments of a call: the declared names that are given, each with its value, in order of first
declaration. -/
structure Binds (parameters : List Declaration) (supplied : Members) (bound : Arguments) : Prop where
  order : (Assoc.keys bound.values).Sublist (parameters.map (·.name)).eraseDups
  values : ∀ name value, (name, value) ∈ bound.values ↔
    name ∈ parameters.map (·.name) ∧ Given supplied name value

/-- The values given for parameters, one for each parameter. -/
def givenTo (supplied : Members) (parameters : List Declaration) : Members :=
  parameters.filterMap fun p => (Json.present? (Assoc.get? p.name supplied)).map (p.name, ·)

end Operation

/-- A value of this name as some type, or what is wrong with it. -/
def Reading.named {α : Type} (read : Reading α) (name : String) (value : Json) : Except Failure α :=
  (read value).mapError fun reason => .shown ("Invalid argument `" ++ name ++ "`") [.conversion reason]

theorem Json.present?_eq_some_iff (found : Option Json) (value : Json) :
    present? found = some value ↔ found = some value ∧ value ≠ .null := by
  cases found with
  | none => simp [present?]
  | some own =>
      cases own with
      | null =>
          simp only [present?, Option.some.injEq, reduceCtorEq, false_iff, not_and, not_not]
          exact Eq.symm
      | bool | number | string | array | object =>
          simp only [present?, Option.some.injEq]
          refine ⟨?_, And.left⟩
          rintro rfl
          exact ⟨rfl, by simp⟩

namespace Operation

variable {supplied : Members}

theorem given_iff (supplied : Members) (name : String) (value : Json) :
    Json.present? (Assoc.get? name supplied) = some value ↔ Given supplied name value :=
  Json.present?_eq_some_iff _ value

theorem not_given_iff (supplied : Members) (name : String) :
    Json.present? (Assoc.get? name supplied) = none ↔ ∀ value, ¬ Given supplied name value := by
  simp only [Option.eq_none_iff_forall_ne_some, ne_eq, given_iff]

theorem lacks_iff (supplied : Members) (p : Declaration) :
    Entry.lacks supplied p = true ↔ Lacks supplied p := by
  rw [Entry.lacks, Bool.and_eq_true, Bool.not_eq_true', Option.isNone_iff_eq_none, not_given_iff]
  constructor
  · rintro ⟨required, absent⟩
    exact ⟨required, absent⟩
  · intro lacks
    exact ⟨lacks.required, lacks.absent⟩

theorem Given.unique {name : String} {value other : Json} (given : Given supplied name value)
    (also : Given supplied name other) : value = other := by
  cases given.1.symm.trans also.1
  rfl

theorem keys_givenTo (supplied : Members) (parameters : List Declaration) :
    Assoc.keys (givenTo supplied parameters) =
      (parameters.map (·.name)).filter fun name =>
        (Json.present? (Assoc.get? name supplied)).isSome := by
  induction parameters with
  | nil => rfl
  | cons p rest ih =>
      rw [Assoc.keys, givenTo] at ih
      cases given : Json.present? (Assoc.get? p.name supplied) <;>
        simp [givenTo, Assoc.keys, given, ih]

theorem mem_givenTo (supplied : Members) (parameters : List Declaration) (name : String)
    (value : Json) :
    (name, value) ∈ givenTo supplied parameters ↔
      name ∈ parameters.map (·.name) ∧ Given supplied name value := by
  simp only [givenTo, List.mem_filterMap, Option.map_eq_some_iff, given_iff, Prod.mk.injEq,
    List.mem_map]
  constructor
  · rintro ⟨p, declared, own, given, rfl, rfl⟩
    exact ⟨⟨p, declared, rfl⟩, given⟩
  · rintro ⟨⟨p, declared, rfl⟩, given⟩
    exact ⟨p, declared, value, given, rfl, rfl⟩

/-- A binding that succeeds sets what is given, parameter by parameter. -/
theorem bindAll_eq_setAll {operation : String} {parameters : List Declaration}
    {bound all : Arguments} (binds : bindAll operation supplied parameters bound = .ok all) :
    all.values = Assoc.setAll bound.values (givenTo supplied parameters) := by
  induction parameters generalizing bound with
  | nil =>
      cases binds
      rfl
  | cons p rest ih =>
      rw [bindAll] at binds
      cases given : Json.present? (Assoc.get? p.name supplied) with
      | some value =>
          rw [given] at binds
          simpa [givenTo, given, Arguments.bind] using ih binds
      | none =>
          rw [given] at binds
          dsimp only at binds
          split at binds
          · simpa [givenTo, given] using ih binds
          · cases binds

theorem Binds.of_ok {name : String} {parameters : List Declaration} {bound : Arguments}
    (binds : bindArguments name parameters supplied = .ok bound) :
    Binds parameters supplied bound := by
  have values : bound.values = Assoc.collect (givenTo supplied parameters) := bindAll_eq_setAll binds
  constructor
  · rw [values, Assoc.keys_collect, keys_givenTo, eraseDups_filter]
    exact List.filter_sublist
  · intro name value
    rw [values, Assoc.mem_iff_get? (Assoc.nodup_keys_collect _), Assoc.get?_collect_eq_some_iff]
    constructor
    · rintro ⟨front, back, whole, -⟩
      rw [← mem_givenTo, whole]
      simp
    · intro given
      -- every pair of this name has the one value that is supplied under it
      have there : name ∈ Assoc.keys (givenTo supplied parameters) :=
        List.mem_map.mpr ⟨_, (mem_givenTo ..).mpr given, rfl⟩
      obtain ⟨own, front, back, whole, absent⟩ := Assoc.exists_hasLast there
      have also : (name, own) ∈ givenTo supplied parameters := by
        rw [whole]
        simp
      cases given.2.unique ((mem_givenTo ..).mp also).2
      exact ⟨front, back, whole, absent⟩

theorem Binds.get?_eq_some_iff {parameters : List Declaration} {bound : Arguments}
    (binds : Binds parameters supplied bound) (name : String) (value : Json) :
    bound.get? name = some value ↔ name ∈ parameters.map (·.name) ∧ Given supplied name value := by
  rw [← binds.values]
  exact (Assoc.mem_iff_get? (binds.order.nodup (nodup_eraseDups _)) name value).symm

/-- Where every required parameter is given, no other thing can go wrong. -/
theorem bindArguments_ok_iff (name : String) (parameters : List Declaration) (supplied : Members) :
    (∃ bound, bindArguments name parameters supplied = .ok bound) ↔
      ∀ p ∈ parameters, p.optional = false → ∃ value, Given supplied p.name value := by
  have spared : parameters.find? (Entry.lacks supplied) = none ↔
      ∀ p ∈ parameters, p.optional = false → ∃ value, Given supplied p.name value := by
    rw [List.find?_eq_none]
    refine forall₂_congr fun p _ => ?_
    rw [lacks_iff]
    constructor
    · intro none required
      by_contra absent
      exact none ⟨required, not_exists.mp absent⟩
    · intro there lacks
      obtain ⟨value, given⟩ := there lacks.required
      exact lacks.absent value given
  rw [← spared, bindArguments]
  rcases bindAll_cases name supplied parameters .empty with ⟨none, all⟩ | ⟨p, missing, failed⟩
  · exact iff_of_true all none
  · rw [missing, failed]
    simp

/-- A binding that fails names the first required parameter that is not given. -/
theorem bindArguments_error_iff (name : String) (parameters : List Declaration) (supplied : Members)
    (f : Failure) :
    bindArguments name parameters supplied = .error f ↔
      ∃ front p back, parameters = front ++ p :: back ∧ (∀ q ∈ front, ¬ Lacks supplied q) ∧
        Lacks supplied p ∧ f = missing p.name name := by
  have first (p : Declaration) : parameters.find? (Entry.lacks supplied) = some p ↔
      ∃ front back, parameters = front ++ p :: back ∧ (∀ q ∈ front, ¬ Lacks supplied q) ∧
        Lacks supplied p := by
    simp only [List.find?_eq_some_iff_append, lacks_iff, Bool.not_eq_true', ← Bool.not_eq_true]
    grind
  rw [bindArguments]
  rcases bindAll_cases name supplied parameters .empty with ⟨none, all, bound⟩ | ⟨p, found, failed⟩
  · rw [bound]
    refine iff_of_false (by simp) ?_
    rintro ⟨front, p, back, whole, spared, lacks, -⟩
    rw [(first p).mpr ⟨front, back, whole, spared, lacks⟩] at none
    cases none
  · rw [failed, Except.error.injEq]
    constructor
    · rintro rfl
      obtain ⟨front, back, whole, spared, lacks⟩ := (first p).mp found
      exact ⟨front, p, back, whole, spared, lacks, rfl⟩
    · rintro ⟨front, q, back, whole, spared, lacks, rfl⟩
      rw [(first q).mpr ⟨front, back, whole, spared, lacks⟩] at found
      cases found
      rfl

end Operation

namespace Arguments

variable {bound : Arguments} {name : String} {α : Type}

theorem optional_of_absent (read : Reading α) (absent : bound.get? name = none) :
    bound.optional read name = .ok none := by
  rw [optional, absent]
  rfl

theorem optional_of_bound (read : Reading α) {value : Json} (found : bound.get? name = some value)
    (there : value ≠ .null) : bound.optional read name = (read.named name value).map some := by
  rw [optional, (Json.present?_eq_some_iff ..).mpr ⟨found, there⟩, Reading.named]
  dsimp only
  cases read value <;> rfl

theorem required_of_bound (read : Reading α) {value : Json} (found : bound.get? name = some value)
    (there : value ≠ .null) : bound.required read name = read.named name value := by
  rw [required, optional_of_bound read found there]
  cases read.named name value <;> rfl

end Arguments

namespace Entry

variable {r : Registry ω} {ctx : LoadContext} {body : Json} {w v : Workshop ω} {name : String}
  {h : Handler ω} {op : Operation ω} {supplied : Members} {f : Failure}

theorem Asks.uncalled_of_unbound (asks : Asks r ctx body w name h v)
    (found : h.operation? name = some op) (supplies : Supplies body supplied)
    (unbound : Operation.bindArguments op.name op.parameters supplied = .error f)
    (other : Operation ω) (bound : Arguments) (u : Workshop ω) :
    ¬ Calls r ctx body w other bound u := by
  rintro ⟨⟨_, _, same, also⟩, _, given, binds⟩
  obtain ⟨rfl, rfl, rfl⟩ := asks.unique same
  cases found.symm.trans also
  cases supplies.unique given
  cases unbound.symm.trans binds

/-- An entry whose arguments cannot be bound comes to what the binding says. -/
theorem Asks.outcome_of_unbound (asks : Asks r ctx body w name h v)
    (found : h.operation? name = some op) (supplies : Supplies body supplied)
    (unbound : Operation.bindArguments op.name op.parameters supplied = .error f) {id : String}
    {call : Call} (valid : Valid id body call) :
    (process r ctx id body w).outcome = .ok (.error f) := by
  rw [process_iff]
  have looked : Passes r ctx id body w .lookup := asks.passes found
  have lookedUp := Stage.forall_before_next .lookup .binding rfl
    (Stage.forall_before_next .loading .lookup rfl (valid.passes r ctx w) asks.loads.passes) looked
  rw [Operation.bindArguments] at unbound
  rcases Operation.bindAll_cases op.name supplied op.parameters .empty with
    ⟨-, all, bound⟩ | ⟨p, missing, failed⟩
  · cases unbound.symm.trans bound
  · cases unbound.symm.trans failed
    exact .failure ⟨.binding asks found supplies missing, lookedUp⟩

end Entry

namespace Operation

/-- For every operation, whatever parameters it declares, and all that may be supplied. Binding succeeds
exactly where each required parameter is given. Then it binds the declared names that are given, each to
its value unchanged, in order of first declaration, and nothing else. A required parameter reads as the
value that is given for it, and so does any bound name as an optional one: untyped it is that value,
typed it can only fail to convert, and it is never missing; what is not bound reads as none. Binding
fails for the first required parameter that is not given, with a message that names it and the operation;
an entry that asks for the operation so has that for its result and leaves every operation uninvoked. -/
theorem binding_is_exact (op : Operation ω) (supplied : Members) :
    ((∃ bound, bindArguments op.name op.parameters supplied = .ok bound) ↔
      ∀ p ∈ op.parameters, p.optional = false → ∃ value, Given supplied p.name value) ∧
    (∀ bound, bindArguments op.name op.parameters supplied = .ok bound →
      Binds op.parameters supplied bound ∧
      (∀ p ∈ op.parameters, p.optional = false → ∃ value, Given supplied p.name value ∧
        bound.required .any p.name = .ok value ∧
        ∀ (α : Type) (read : Reading α), bound.required read p.name = read.named p.name value) ∧
      (∀ name value, (name, value) ∈ bound.values →
        bound.optional .any name = .ok (some value) ∧
        ∀ (α : Type) (read : Reading α),
          bound.optional read name = (read.named name value).map some) ∧
      ∀ name, name ∉ Assoc.keys bound.values →
        ∀ (α : Type) (read : Reading α), bound.optional read name = .ok none) ∧
    (∀ f, bindArguments op.name op.parameters supplied = .error f ↔
      ∃ front p back, op.parameters = front ++ p :: back ∧ (∀ q ∈ front, ¬ Lacks supplied q) ∧
        Lacks supplied p ∧
        f = .shown ("Missing argument `" ++ p.name ++ "` `" ++ op.name ++ "`") []) ∧
    ∀ f, bindArguments op.name op.parameters supplied = .error f →
      ∀ (r : Registry ω) (ctx : LoadContext) (id : String) (body : Json) (w v : Workshop ω)
        (h : Handler ω) (name : String), Entry.Asks r ctx body w name h v →
        h.operation? name = some op → Entry.Supplies body supplied →
        (∀ call, Entry.Valid id body call →
          (Entry.process r ctx id body w).outcome = .ok (.error f)) ∧
        ∀ asked ∈ Entry.requests r ctx id body w, asked.operation? = none := by
  refine ⟨bindArguments_ok_iff .., ?_, bindArguments_error_iff op.name op.parameters supplied, ?_⟩
  · intro bound came
    have binds := Binds.of_ok came
    refine ⟨binds, ?_, ?_, ?_⟩
    · intro p declared required
      obtain ⟨value, given⟩ := (bindArguments_ok_iff ..).mp ⟨bound, came⟩ p declared required
      have found := (binds.get?_eq_some_iff ..).mpr ⟨List.mem_map.mpr ⟨p, declared, rfl⟩, given⟩
      exact ⟨value, given, Arguments.required_of_bound .any found given.2,
        fun _ read => Arguments.required_of_bound read found given.2⟩
    · intro name value there
      have given := ((binds.values name value).mp there).2
      have found := (binds.get?_eq_some_iff name value).mpr ((binds.values name value).mp there)
      exact ⟨Arguments.optional_of_bound .any found given.2,
        fun _ read => Arguments.optional_of_bound read found given.2⟩
    · intro name absent _ read
      exact Arguments.optional_of_absent read ((Assoc.get?_eq_none_iff name bound.values).mpr absent)
  · intro f unbound r ctx id body w v h name asks found supplies
    exact ⟨fun _ valid => asks.outcome_of_unbound found supplies unbound valid,
      Entry.requests_of_uncalled (asks.uncalled_of_unbound found supplies unbound)⟩

/-- Of a parameter that is declared as optional and again as required, only the second counts. -/
example : bindArguments "scale" [⟨"by", "f64", true⟩, ⟨"unit", "string", true⟩, ⟨"by", "f64", false⟩]
    [("unit", .string "cm"), ("by", .null)] = .error (.shown "Missing argument `by` `scale`" []) := by
  rfl

end Operation

end Multicall
